import Mathlib
import ClassFormat.ClassFile.Summary
import ClassFormat.Proofs.Attribute.Describe
import ClassFormat.Proofs.ClassFile.Soundness

/-!
# Summaries are complete

The report on a class file follows references of every part of it, and ends at the first one
that does not resolve. The reader of class files checks all of them, so the report on a class
file that was read comes to its end.

* `Report.Completes`: a report that does not fail, with a rule for each way to build one;
* `NamedAttribute.completes_reportAll`: attributes, by induction on how they are nested;
* `ClassFile.summarize_of_ofBytes`: the summary of a class file that was read.
-/

namespace ClassFormat

/-! ### Reports that do not fail -/

namespace Report

variable {α β : Type}

/-- The report does not fail, whatever has been written before. -/
def Completes (report : Report α) : Prop := ∀ lines, ∃ a lines', report lines = .ok a lines'

theorem completes_pure (a : α) : Completes (pure a) := fun lines => ⟨a, lines, rfl⟩

/-- A line is printed, whatever is in it. -/
theorem completes_line (depth : Nat) (text : String) : Completes (line depth text) :=
  fun _ => ⟨(), _, rfl⟩

namespace Completes

variable {report : Report α} {k : α → Report β}

/-- A report completes if each of its steps does. -/
theorem bind (h : report.Completes) (hk : ∀ a, (k a).Completes) : Completes (report >>= k) := by
  intro lines
  obtain ⟨a, lines', ha⟩ := h lines
  obtain ⟨b, lines'', hb⟩ := hk a lines'
  refine ⟨b, lines'', ?_⟩
  simp only [Bind.bind, EStateM.bind, ha]
  exact hb

/-- A look-up that succeeds, the result of which is written. -/
theorem lift {x : Except Failure α} (hx : Succeeds x) : Completes (liftM x : Report α) := by
  obtain ⟨a, rfl⟩ := hx
  exact completes_pure a

/-- A note about where a report fails has no say in whether it completes. -/
theorem within {report : Report Unit} (h : report.Completes) (note : Note) :
    (within note report).Completes := by
  intro lines
  obtain ⟨u, lines', hu⟩ := h lines
  exact ⟨(), lines', by rw [Report.within, hu]⟩

/-- Reports one after another complete if each of them does. -/
theorem forM {report : α → Report Unit} {items : List α} (h : ∀ a ∈ items, (report a).Completes) :
    Completes (items.forM report) := by
  induction items with
  | nil => exact completes_pure ()
  | cons a rest ih =>
    obtain ⟨ha, hrest⟩ := List.forall_mem_cons.1 h
    exact ha.bind fun _ => ih hrest

end Completes

end Report

open Report

/-! ### Attributes -/

variable {pool : ConstantPool} {options : ReadOptions} {site : Site}

/-- Attributes are reported one after another. -/
theorem NamedAttribute.reportAll_eq_forM (depth : Nat) (attributes : List NamedAttribute) :
    reportAll pool depth attributes = attributes.forM (report pool depth) := by
  induction attributes with
  | nil => rw [reportAll]; rfl
  | cons a rest ih => rw [reportAll, ih]; rfl

/-- Instructions that record their positions have the operands that their opcodes ask for. -/
theorem Instruction.Recorded.spelled {instructions : List Instruction} (h : Recorded instructions) :
    ∀ i ∈ instructions, ∃ position bytes, i.Spelled position bytes := by
  obtain ⟨placed, hlaid, -⟩ := h
  obtain ⟨rfl, hchain⟩ := layOut_eq_ok.1 hlaid
  exact List.forall_mem_map.2 fun p hp => ⟨_, _, hchain.spelled p hp⟩

/-- The report on code does not fail if that on its attributes does not. -/
theorem Code.completes_report (hpool : pool.Resolved) {depth : Nat} {code : Code}
    (hrefs : ∀ r ∈ code.references, r.Resolves pool)
    (hrecorded : Instruction.Recorded code.instructions)
    (hattributes : (NamedAttribute.reportAll pool depth code.attributes).Completes) :
    (Code.report pool depth code).Completes := by
  obtain ⟨maxStack, maxLocals, instructions, handlers, attributes⟩ := code
  rw [references, List.forall_mem_append, List.forall_mem_flatMap, List.forall_mem_flatMap] at hrefs
  obtain ⟨hinstructions, hhandlers⟩ := hrefs
  have hlisting : Succeeds (Instruction.listing pool instructions) := Succeeds.mapM fun i hi => by
    obtain ⟨position, bytes, hspelled⟩ := hrecorded.spelled i hi
    exact hspelled.succeeds_describe hpool (hinstructions i hi)
  have hhandler (h : ExceptionHandler) (hh : h ∈ handlers) :
      (do line depth (← h.describe pool) : Report Unit).Completes :=
    (Completes.lift (ExceptionHandler.succeeds_describe hpool (hhandlers h hh))).bind fun _ =>
      completes_line _ _
  rw [Code.report]
  exact (Completes.lift hlisting).bind fun _ => (Completes.forM fun _ _ => completes_line _ _).bind
    fun _ => (Completes.forM hhandler).bind fun _ => hattributes

/-- The report on attributes does not fail if all of them are admitted, those in them included. -/
theorem NamedAttribute.completes_reportAll (hpool : pool.Resolved) (depth : Nat)
    (attributes : List NamedAttribute) (h : AllAdmitted pool options (allSites site attributes)) :
    (reportAll pool depth attributes).Completes := by
  induction attributes using nested_induction generalizing site depth with
  | nested attributes hcodes _ =>
    rw [reportAll_eq_forM]
    refine Completes.forM fun ⟨nameIndex, content⟩ ha => ?_
    have hadmitted := h _ (mem_allSites ha)
    rw [report]
    refine (Completes.lift hadmitted.name.succeeds_text).bind fun name =>
      (Completes.lift (Attribute.succeeds_describe hpool hadmitted.content.references)).bind
        fun description => (completes_line _ _).bind fun _ => ?_
    cases content with
    | code body =>
      have hinner : AllAdmitted pool options (allSites (site.inCode body) body.attributes) :=
        fun p hp => h p (Within.code ha (within_of_mem _ hp)).mem_allSites
      rw [Attribute.reportInside]
      exact Code.completes_report hpool hadmitted.content.references
        (hadmitted.code body rfl).recorded (hcodes nameIndex body ha (depth + 1) hinner)
    | _ =>
      simp only [Attribute.reportInside]
      exact completes_pure ()

/-! ### Class files -/

/-- A field or a method is reported with its name, its type, and its attributes. -/
theorem Member.completes_report (hpool : pool.Resolved) {location : Location} {interfaces : Nat}
    {m : Member} (h : m.Admitted pool options location interfaces) (owner : AccessFlags.Owner) :
    (m.report pool location owner).Completes := by
  obtain ⟨hname, hdescriptor⟩ : pool.Refers m.nameIndex [.utf8] ∧
      pool.Refers m.descriptorIndex [.utf8] := by
    simpa [Member.references] using h.references
  exact (Completes.lift hname.succeeds_text).bind fun _ =>
    (Completes.lift hdescriptor.succeeds_text).bind fun _ =>
    (completes_line _ _).bind fun _ => (completes_line _ _).bind fun _ =>
      (NamedAttribute.completes_reportAll hpool 1 m.attributes h.sites).within _

namespace ClassFile

variable {c : ClassFile} {bytes : Bytes}

/-- The summary of an admitted class file completes, since every look-up in it does. -/
theorem completes_summary (hpool : c.pool.WellFormed) (h : c.Admitted options) :
    c.summary.Completes := by
  obtain ⟨hthis, hsuper, hinterfaces⟩ : c.pool.Refers c.thisClass [.classref] ∧
    (c.superClass = 0 ∨ c.pool.Refers c.superClass [.classref]) ∧
      ∀ i ∈ c.interfaces, c.pool.Refers i [.classref] := by simpa [ownReferences] using h.references
  have hresolved := hpool.resolved
  have hsuperName : Succeeds c.superName? := by
    rw [superName?]
    split
    next => exact .ok _
    next h0 => exact (hresolved.succeeds_className (hsuper.resolve_left h0)).map
  have hhead : c.reportHead.Completes := by
    refine (Completes.lift (hresolved.succeeds_className hthis)).bind fun _ =>
      (completes_line _ _).bind fun _ =>
      (completes_line _ _).bind fun _ => (completes_line _ _).bind fun _ =>
      (Completes.lift hsuperName).bind ?_
    rintro (_ | name)
    · exact completes_pure ()
    · exact completes_line _ _
  refine hhead.bind fun _ => (Completes.lift (Succeeds.mapM fun i hi =>
    hresolved.succeeds_className (hinterfaces i hi))).bind fun names => (Completes.forM fun _ _ =>
      completes_line _ _).bind fun _ => (completes_line _ _).bind fun _ =>
      (Completes.forM fun entry hentry => ?_).bind fun _ =>
        (Completes.forM fun m hm => Member.completes_report hresolved (h.fields m hm) _).bind
          fun _ => (Completes.forM fun m hm => Member.completes_report hresolved (h.methods m hm)
          _).bind fun _ => (completes_line _ _).bind fun _ =>
          NamedAttribute.completes_reportAll hresolved 1 c.attributes h.sites
  exact (Completes.lift (hresolved.succeeds_describe (hpool.refers_of_mem_entries hentry))).bind
    fun _ => completes_line _ _

/-- The summary of a class file that was read comes to its end: no look-up that it makes fails. -/
theorem summarize_of_ofBytes (h : ofBytes options bytes = .ok c) :
    ∃ lines, c.summarize = (lines, .ok ()) := by
  obtain ⟨x, y, ⟨constants, _, hlaid, hcount, -, -⟩, hresolved, -, hadmitted, -⟩ :=
    ofBytes_eq_ok.1 h
  obtain ⟨_, lines, hlines⟩ :=
    completes_summary ⟨⟨constants, hlaid⟩, Nat.le_of_lt_succ hcount, hresolved⟩ hadmitted #[]
  exact ⟨lines, by rw [summarize, hlines]⟩

/-- The class that is read is summarized. -/
theorem summarize_of_ofBytes_thrower :
    ofBytes {} throwerBytes = .ok thrower ∧ ∃ lines, thrower.summarize = (lines, .ok ()) :=
  ⟨ofBytes_thrower, summarize_of_ofBytes ofBytes_thrower⟩

end ClassFile

end ClassFormat
