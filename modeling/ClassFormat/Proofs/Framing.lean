import Mathlib
import ClassFormat.ConstantPool.Reference
import ClassFormat.Proofs.Truncation
import ClassFormat.Proofs.Writing
import ClassFormat.Surroundings

/-!
# Framing

What is written divides into parts, and a reader has to divide it alike, even if it then refuses
what the parts say. So a reader that is run on what was written either takes just that, or fails for
what it says, but never because bytes are missing, too many or in the wrong place.

* `Fault.OfContents`: a fault of what is said rather than of how the bytes are divided;
* `Judges`: a check that refuses nothing but contents, such as `ConstantPool.judges_require`;
* `Reader.Frames`: a reader that divides bytes as they were written, with one rule for each way to
  build a reader (`Reader.Frames.next`, `Reader.Frames.table` and so on);
* `Reader.Fills`: the same for a reader that is given nothing else;
* `ConstantPool.frames_index`, `ConstantPool.frames_indexTable`: references.
-/

namespace ClassFormat

/-! ### Faults of contents -/

/-- Bytes are left over, or an instruction is cut off. -/
def Malformation.OfFraming : Malformation → Prop
  | .trailingData .. | .instructionCut _ => True
  | _ => False

/-- What is said is wrong, not how the bytes that say it are divided. -/
def Fault.OfContents : Fault → Prop
  | .constantIndex .. | .misplacedTargetType .. | .bootstrapMethod .. => True
  | .malformed how => ¬how.OfFraming
  | _ => False

/-- The outermost fault is one of contents. -/
def Failure.OfContents (f : Failure) : Prop := ∃ fault, f.fault? = some fault ∧ fault.OfContents

theorem Fault.OfContents.failure {fault : Fault} (h : fault.OfContents) :
    (Failure.ofFault fault).OfContents :=
  ⟨fault, rfl, h⟩

/-- A failure for contents is not one of missing bytes, which other failures are made of. -/
theorem Failure.OfContents.not_truncated {f : Failure} (h : f.OfContents)
    (offset needed available : Nat) : f.fault? ≠ some (.truncated offset needed available) := by
  obtain ⟨fault, hfault, hcontents⟩ := h
  intro htruncated
  cases hfault.symm.trans htruncated
  exact hcontents

variable {α β : Type}

/-- The computation fails only for contents. -/
structure Judges (x : Except Failure α) : Prop where
  refusal : ∀ {f}, x = .error f → f.OfContents

namespace Judges

variable {x : Except Failure α} {k : α → Except Failure β} {fault : Fault}

theorem ok (a : α) : Judges (.ok a : Except Failure α) := ⟨nofun⟩

theorem pure (a : α) : Judges (Pure.pure a : Except Failure α) := ⟨nofun⟩

/-- A fault of contents is a failure of contents. -/
theorem raise (h : fault.OfContents) : Judges (fault.raise : Except Failure α) where
  refusal := by
    rintro _ ⟨⟩
    exact h.failure

/-- Two steps judge contents if both of them do. -/
theorem bind (hx : Judges x) (hk : ∀ a, Judges (k a)) : Judges (x >>= k) where
  refusal {f} hf := by
    cases h : x with
    | ok a =>
      rw [h] at hf
      exact (hk a).refusal hf
    | error e =>
      rw [h] at hf
      cases hf
      exact hx.refusal h

/-- A note about where a failure happens keeps it one of contents. -/
theorem inside {note : Note} (hx : Judges x) : Judges (Failure.inside note x) where
  refusal {f} hf := by
    cases h : x with
    | ok a =>
      rw [h] at hf
      cases hf
    | error e =>
      rw [h] at hf
      cases hf
      have he : e.OfContents := hx.refusal h
      exact he

/-- A check that refuses what meets a condition. -/
theorem refuse {p : Prop} [Decidable p] {y : Except Failure α} (hfault : fault.OfContents)
    (hy : Judges y) : Judges (if p then fault.raise else y) := by
  split
  · exact .raise hfault
  · exact hy

/-- A list of checks judges contents as each of them does. -/
theorem forM {check : α → Except Failure Unit} {items : List α}
    (h : ∀ a ∈ items, Judges (check a)) : Judges (items.forM check) := by
  induction items with
  | nil => exact .pure ()
  | cons a rest ih =>
    obtain ⟨ha, hrest⟩ := List.forall_mem_cons.1 h
    exact ha.bind fun _ => ih hrest

end Judges

namespace ConstantPool

variable (pool : ConstantPool)

/-- A look-up fails only because of what the index refers to. -/
theorem judges_select (index : UInt16) (expected : List Constant.Kind)
    (pick : Constant → Option α) : Judges (pool.select index expected pick) := by
  unfold select
  split
  · exact .raise trivial
  · split
    · exact .raise trivial
    · exact .raise trivial
    · split
      · exact .ok _
      · exact .raise trivial

theorem judges_require (index : UInt16) (kinds : List Constant.Kind) :
    Judges (pool.require index kinds) :=
  pool.judges_select ..

/-- The check of an index that may be 0 judges contents. -/
theorem judges_requireOptional (index : UInt16) (kind : Constant.Kind) :
    Judges (pool.requireOptional index kind) := by
  unfold requireOptional
  split
  · exact .ok none
  · exact (pool.judges_require index [kind]).bind fun _ => .pure _

theorem judges_text (index : UInt16) : Judges (pool.text index) := pool.judges_select ..

theorem judges_className (index : UInt16) : Judges (pool.className index) :=
  (pool.judges_select ..).bind fun _ => pool.judges_text _

end ConstantPool

namespace CodeMap

variable (map : CodeMap)

theorem judges_requireStart (role : OffsetRole) (offset : Nat) :
    Judges (map.requireStart role offset) :=
  .refuse id (.ok ())

theorem judges_requireEnd (role : OffsetRole) (offset : Nat) :
    Judges (map.requireEnd role offset) :=
  .refuse id (.ok ())

/-- A range that does not lie in the code is a fault of contents. -/
theorem judges_requireRange (role : OffsetRole) (start length : UInt16) :
    Judges (map.requireRange role start length) :=
  (map.judges_requireStart ..).bind fun _ => map.judges_requireEnd ..

/-- A branch that leads nowhere is a fault of contents. -/
theorem judges_requireAllTargets (instructions : List Instruction) :
    Judges (map.requireAllTargets instructions) := by
  refine .forM fun i _ => ?_
  unfold requireTargets
  split
  · split
    · exact .raise id
    · exact .ok ()
  · exact .ok ()

end CodeMap

namespace Surroundings

variable (s : Surroundings)

/-- That there is no code around, and so no map of it, is a fault of contents. -/
theorem judges_code : Judges s.code := by
  unfold code
  split
  · exact .ok _
  · exact .raise id

/-- Checks against the map of the code judge contents as they do for each map. -/
theorem judges_ifCode {check : CodeMap → Except Failure Unit} (h : ∀ map, Judges (check map)) :
    Judges (s.ifCode check) := by
  unfold ifCode
  split
  · exact h _
  · exact .ok ()

end Surroundings

/-! ### Readers -/

namespace Reader

variable {r : Reader α} {k : α → Reader β} {L : Spelling α} {x y : Bytes} {fault : Fault}

/-- On the bytes, whatever follows them, the reader takes just these or fails for what they say. -/
structure Frames (r : Reader α) (x : Bytes) : Prop where
  run : ∀ {c rest}, c.rest = x ++ rest →
    (∃ a c', r c = .ok a c' ∧ c.Past x c') ∨ ∃ f c', r c = .error f c' ∧ f.OfContents

/-- Given just the bytes, the reader takes all of them or fails for what they say. -/
structure Fills (r : Reader α) (x : Bytes) : Prop where
  run : ∀ {c}, c.rest = x →
    (∃ a c', r c = .ok a c' ∧ c'.rest = []) ∨ ∃ f c', r c = .error f c' ∧ f.OfContents

/-- A reader that takes off just the bytes, or refuses their contents, leaves nothing of them. -/
theorem Frames.fills (h : r.Frames x) : r.Fills x where
  run hc := (h.run (hc.trans (List.append_nil x).symm)).imp_left fun ⟨a, c', hr, past⟩ =>
    ⟨a, c', hr, past.rest_eq (hc.trans (List.append_nil x).symm)⟩

theorem Frames.of_reads {a : α} (hr : r.Reads L) (ha : L a x) : r.Frames x where
  run hc := Or.inl ⟨a, hr.complete ha hc⟩

theorem Frames.pure (a : α) : Frames (Pure.pure a : Reader α) [] := .of_reads (.pure a) ⟨rfl, rfl⟩

theorem Frames.raise (h : fault.OfContents) : Frames (fault.raise : Reader α) x where
  run {c _} _ := Or.inr ⟨_, c, rfl, h.failure⟩

/-- Readers that follow each other divide the bytes as these were put together. -/
theorem Frames.bind (hr : r.Frames x) (hk : ∀ a, (k a).Frames y) : (r >>= k).Frames (x ++ y) where
  run {c rest} hc := by
    rw [List.append_assoc] at hc
    simp only [Bind.bind, EStateM.bind]
    rcases hr.run hc with ⟨a, c₁, h₁, past⟩ | ⟨f, c₁, h₁, hf⟩
    · rw [h₁]
      exact ((hk a).run (past.rest_eq hc)).imp_left fun ⟨b, c₂, h₂, past'⟩ =>
        ⟨b, c₂, h₂, past.trans past'⟩
    · exact Or.inr ⟨f, c₁, by rw [h₁], hf⟩

/-- The first reader takes a value that is known. -/
theorem Frames.next {a : α} (hr : r.Reads L) (ha : L a x) (hk : (k a).Frames y) :
    (r >>= k).Frames (x ++ y) where
  run {c rest} hc := by
    rw [List.append_assoc] at hc
    obtain ⟨c₁, h₁, past⟩ := hr.complete ha hc
    simp only [Bind.bind, EStateM.bind, h₁]
    exact (hk.run (past.rest_eq hc)).imp_left fun ⟨b, c₂, h₂, past'⟩ =>
      ⟨b, c₂, h₂, past.trans past'⟩

/-- The first reader takes a value that is known, and nothing follows. -/
theorem Frames.last {a : α} (hr : r.Reads L) (ha : L a x) (hk : (k a).Frames []) :
    (r >>= k).Frames x := by
  simpa using Frames.next hr ha hk

/-- Nothing follows what the first reader takes. -/
theorem Frames.bind_nil (hr : r.Frames x) (hk : ∀ a, (k a).Frames []) : (r >>= k).Frames x := by
  simpa using hr.bind hk

/-- Values that are made of those of a reader. -/
theorem Frames.map {f : α → β} (hr : r.Frames x) : Frames (r >>= fun a => Pure.pure (f a)) x :=
  hr.bind_nil fun a => .pure (f a)

/-- What follows a check may rely on what it found. -/
theorem Frames.checked {e : Except Failure α} (he : Judges e)
    (hk : ∀ a, e = .ok a → (k a).Frames y) : ((liftM e : Reader α) >>= k).Frames y where
  run {c rest} hc := by
    cases e with
    | ok a => exact (hk a rfl).run hc
    | error f => exact Or.inr ⟨f, c, rfl, he.refusal rfl⟩

/-- A check of contents in front of a reader, whatever its result. -/
theorem Frames.check {e : Except Failure α} (he : Judges e) (hk : ∀ a, (k a).Frames y) :
    ((liftM e : Reader α) >>= k).Frames y := .checked he fun a _ => hk a

/-- A reader that first refuses what meets a condition. -/
theorem Frames.refuse {p : Prop} [Decidable p] {k : β → Reader α} {b : β}
    (hfault : fault.OfContents) (hk : (k b).Frames x) :
    Frames (if p then (fault.raise : Reader β) >>= k else k b) x := by
  split
  · exact ⟨fun {c _} _ => Or.inr ⟨_, c, rfl, hfault.failure⟩⟩
  · exact hk

/-- An offset that is used in messages has no say in how bytes are divided. -/
theorem Frames.offset {k : Nat → Reader α} (hk : ∀ o, (k o).Frames x) :
    (Reader.offset >>= k).Frames x where
  run {c _} hc := (hk c.offset).run hc

/-- Failures are changed into failures for contents, too. -/
theorem Frames.mapFailure {change : Failure → Failure} (hr : r.Frames x)
    (hchange : ∀ f, f.OfContents → (change f).OfContents) : (mapFailure change r).Frames x where
  run {c rest} hc := by
    simp only [Reader.mapFailure]
    rcases hr.run hc with ⟨a, c', h, past⟩ | ⟨f, c', h, hf⟩
    · exact Or.inl ⟨a, c', by rw [h], past⟩
    · exact Or.inr ⟨change f, c', by rw [h], hchange f hf⟩

theorem Frames.within {note : Note} (hr : r.Frames x) : (within note r).Frames x :=
  hr.mapFailure fun _ h => h

/-- Only the last reader has to leave nothing. -/
theorem Fills.bind (hr : r.Frames x) (hk : ∀ a, (k a).Fills y) : (r >>= k).Fills (x ++ y) where
  run {c} hc := by
    simp only [Bind.bind, EStateM.bind]
    rcases hr.run hc with ⟨a, c₁, h₁, past⟩ | ⟨f, c₁, h₁, hf⟩
    · rw [h₁]
      exact (hk a).run (past.rest_eq hc)
    · exact Or.inr ⟨f, c₁, by rw [h₁], hf⟩

/-- What follows may rely on what the bytes are a spelling of. -/
theorem Fills.bind_reads (hr : r.Frames x) (hreads : r.Reads L) (hk : ∀ a, L a x → (k a).Fills y) :
    (r >>= k).Fills (x ++ y) where
  run {c} hc := by
    simp only [Bind.bind, EStateM.bind]
    rcases hr.run hc with ⟨a, c₁, h₁, past⟩ | ⟨f, c₁, h₁, hf⟩
    · obtain ⟨x', hx', past'⟩ := hreads.sound h₁
      obtain rfl := List.append_cancel_right (past.rest.symm.trans past'.rest)
      rw [h₁]
      exact (hk a hx').run (past.rest_eq hc)
    · exact Or.inr ⟨f, c₁, by rw [h₁], hf⟩

/-- Bytes that are the spelling of a known value come before those of which nothing is left. -/
theorem Fills.next {a : α} (hr : r.Reads L) (ha : L a x) (hk : (k a).Fills y) :
    (r >>= k).Fills (x ++ y) where
  run {c} hc := by
    obtain ⟨c₁, h₁, past⟩ := hr.complete ha hc
    simp only [Bind.bind, EStateM.bind, h₁]
    exact hk.run (past.rest_eq hc)

/-- A check of contents in front of a reader that leaves nothing. -/
theorem Fills.check {e : Except Failure α} (he : Judges e) (hk : ∀ a, (k a).Fills y) :
    ((liftM e : Reader α) >>= k).Fills y :=
  .bind (x := []) (by simpa using Frames.check he fun a => Frames.pure a) hk

/-- A reader that first refuses what meets a condition, which is not met. -/
theorem Fills.unless {p : Prop} [Decidable p] {k : β → Reader α} {b : β} (hp : ¬p)
    (hk : (k b).Fills x) : Fills (if p then (fault.raise : Reader β) >>= k else k b) x := by
  rwa [if_neg hp]

/-- What is made of the value has no say in what is left. -/
theorem Fills.map {f : α → β} (hr : r.Fills x) : Fills (r >>= fun a => Pure.pure (f a)) x where
  run {c} hc := by
    simp only [Bind.bind, EStateM.bind]
    rcases hr.run hc with ⟨a, c', h, hend⟩ | ⟨e, c', h, he⟩
    · exact Or.inl ⟨f a, c', by rw [h]; rfl, hend⟩
    · exact Or.inr ⟨e, c', by rw [h], he⟩

/-! ### Confined readers -/

/-- The bytes that a confined reader is given are divided, and none of them are left over. -/
theorem Fills.confined {k : α × Bytes → Reader β} (hr : r.Fills x) (start : Nat)
    (hk : ∀ a, (k (a, [])).Frames y) : (Reader.confined start x r >>= k).Frames y where
  run {c rest} hc := by
    simp only [Bind.bind, EStateM.bind, Reader.confined]
    rcases hr.run (c := ⟨x, start, c.log⟩) rfl with ⟨a, inner, h, hend⟩ | ⟨f, inner, h, hf⟩
    · rw [h]
      dsimp only
      rw [hend]
      refine ((hk a).run (c := { c with log := inner.log }) hc).imp_left ?_
      rintro ⟨b, c', hb, past⟩
      exact ⟨b, c', hb, past.rest, past.offset⟩
    · rw [h]
      exact Or.inr ⟨f, _, rfl, hf⟩

/-- Delimited by their length, bytes are taken off whatever follows them. -/
theorem Fills.delimited (hr : r.Fills x) : (Reader.delimited x.length r).Frames x :=
  .offset fun start => .last (reads_bytes _) ⟨rfl, rfl⟩ <| by
    simpa using hr.confined start fun a => Frames.pure (a, [])

/-- A delimited reader starts where the bytes it is given start. -/
theorem offset_bind_delimited (n : Nat) (k : Nat → Reader α) :
    (Reader.offset >>= fun start => Reader.delimited n (k start)) =
      Reader.delimited n (Reader.offset >>= k) :=
  rfl

/-! ### Tables -/

variable {read : Nat → Reader α} {write : β → Written} {items : List β}

/-- A loop divides rows as they were written one after another. -/
theorem Frames.timesFrom (h : ∀ i, ∀ b ∈ items, ∀ x, write b = .ok x → (read i).Frames x)
    (hy : Spelling.each (fun b x => write b = .ok x) items y) (index : Nat) (done : List α) :
    (timesFrom read index done items.length).Frames y := by
  induction items generalizing y index done with
  | nil =>
    obtain rfl := hy
    exact .pure _
  | cons b rest ih =>
    obtain ⟨x, z, hx, hz, rfl⟩ := hy
    exact .bind (h index b List.mem_cons_self x hx) fun a =>
      ih (fun i b hb => h i b (List.mem_cons_of_mem _ hb)) hz _ _

/-- A table is divided into its rows, since its count is that of the rows. -/
theorem Frames.table (h : ∀ i, ∀ b ∈ items, ∀ x, write b = .ok x → (read i).Frames x)
    (hwrite : Writer.table write items = .ok x) : (table read).Frames x := by
  obtain ⟨hcount, y, hy, rfl⟩ := Writer.table_eq_ok.1 hwrite
  refine .next reads_u2 rfl ?_
  rw [UInt16.toNat_ofNat_of_lt' hcount]
  exact .timesFrom h hy 0 []

/-- Rows that can always be written. -/
theorem Frames.plainTable {write : β → Bytes} (h : ∀ i b, (read i).Frames (write b))
    (hwrite : Writer.table (fun b => .ok (write b)) items = .ok x) :
    (Reader.table read).Frames x := by
  refine .table (fun i b _ y hy => ?_) hwrite
  cases hy
  exact h i b

/-- A short table is divided into its rows. -/
theorem Frames.shortTable (h : ∀ i, ∀ b ∈ items, ∀ x, write b = .ok x → (read i).Frames x)
    (hwrite : Writer.shortTable write items = .ok x) : (shortTable read).Frames x := by
  obtain ⟨hcount, y, hy, rfl⟩ := Writer.shortTable_eq_ok.1 hwrite
  refine .next reads_u1 rfl ?_
  rw [UInt8.toNat_ofNat_of_lt' hcount]
  exact .timesFrom h hy 0 []

end Reader

/-! ### References -/

namespace ConstantPool

open Reader

variable (pool : ConstantPool) {x : Bytes}

/-- An index is taken off before it is checked. -/
theorem frames_index (index : UInt16) (kinds : List Constant.Kind) :
    (pool.readIndex kinds).Frames (Writer.u2 index) :=
  .last reads_u2 rfl <| .check (pool.judges_require index kinds) fun _ => .pure _

/-- An index that may be 0 is taken off before it is checked. -/
theorem frames_optionalIndex (index : UInt16) (kind : Constant.Kind) :
    (pool.readOptionalIndex kind).Frames (Writer.u2 index) :=
  .last reads_u2 rfl <| .check (pool.judges_requireOptional index kind) fun _ => .pure _

/-- A table of indices is divided into these, each of which is checked. -/
theorem frames_indexTable {indices : List UInt16} (kinds : List Constant.Kind)
    (h : Writer.indices indices = .ok x) : (table fun _ => pool.readIndex kinds).Frames x := by
  rw [Writer.indices_eq_table] at h
  exact .plainTable (fun _ index => pool.frames_index index kinds) h

end ConstantPool

end ClassFormat
