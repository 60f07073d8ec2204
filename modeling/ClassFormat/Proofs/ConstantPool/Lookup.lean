import Mathlib
import ClassFormat.Proofs.ConstantPool.Describe
import ClassFormat.Proofs.ConstantPool.Editing

/-!
# Look-ups in a pool that edits lead to

A look-up of a text, a name or a description follows references, one after the other. In a pool that
edits lead to all of these resolve, so a look-up depends on the constant at its own index alone: it
succeeds if that is of the right kind, and otherwise it tells of no other index than its own.

* `ConstantPool.Stepwise`: look-ups that resolve a constant first and take it apart then, the second
  of which could fail in words of its own;
* `ConstantPool.LooksUp`: what a look-up of a constant of a kind gives;
* `ConstantPool.describeIn?`: descriptions that may take any number of nested calls;
* `ConstantPool.Reached.describeIn?_eq`: a method handle takes one more call, and nothing takes two
  more;
* `ConstantPool.Reached.lookUps`: the look-ups of a pool that edits lead to.
-/

namespace ClassFormat

namespace ConstantPool

variable {α β : Type} {pool : ConstantPool} {index : UInt16} {kind : Constant.Kind}

/-! ### Look-ups in two steps -/

namespace Stepwise

/-- What `pick` takes from the constant at an index, which is resolved as one of the kind before. -/
def select (pool : ConstantPool) (index : UInt16) (kind : Constant.Kind)
    (pick : Constant → Option α) : Except Failure α := do
  let constant ← pool.require index [kind]
  match pick constant with
  | some a => return a
  | none => (Note.resolvedInstead constant kind).raise

/-- The text at an index. -/
def text (pool : ConstantPool) (index : UInt16) : Except Failure Text :=
  select pool index .utf8 fun
    | .utf8 t => some t
    | _ => none

/-- The text of the `String` at an index. -/
def string (pool : ConstantPool) (index : UInt16) : Except Failure Text := do
  text pool (← select pool index .string fun
    | .string i => some i
    | _ => none)

/-- The name of the constant at an index, which has to be of the kind. -/
def named (pool : ConstantPool) (index : UInt16) (kind : Constant.Kind) : Except Failure Text := do
  text pool (← select pool index kind fun
    | .classref i | .module i | .package i => some i
    | _ => none)

/-- The name and the descriptor of the `NameAndType` at an index. -/
def nameAndType (pool : ConstantPool) (index : UInt16) : Except Failure (Text × Text) := do
  let (name, descriptor) ← select pool index .nameAndType fun
    | .nameAndType i j => some (i, j)
    | _ => none
  return (← text pool name, ← text pool descriptor)

/-- If each constant of the kind can be taken apart, the second step does not fail. -/
theorem select_eq {pick pick' : Constant → Option α} (hsome : ∀ c, c.kind = kind → pick c ≠ none)
    (heq : ∀ c, c.kind = kind → pick' c = pick c) (hnone : ∀ c, c.kind ≠ kind → pick' c = none) :
    select pool index kind pick = pool.select index [kind] pick' := by
  rw [select, require, ConstantPool.select, ConstantPool.select]
  by_cases h0 : index = 0
  · rw [if_pos h0, if_pos h0]
    rfl
  · rw [if_neg h0, if_neg h0]
    rcases pool.slots[index.toNat]? with _ | _ | constant
    · rfl
    · rfl
    · by_cases hkind : constant.kind = kind
      · simp only [List.mem_singleton, hkind, if_true, heq constant hkind]
        rcases hpick : pick constant with _ | a
        · exact absurd hpick (hsome constant hkind)
        · simp [bind, Except.bind, hpick, pure, Except.pure]
      · simp only [List.mem_singleton, hkind, if_false, hnone constant hkind]
        rfl

/-- A text takes a single step. -/
theorem text_eq (pool : ConstantPool) (index : UInt16) : text pool index = pool.text index := by
  refine select_eq ?_ (fun _ _ => rfl) ?_ <;> intro c hc <;> cases c <;> simp_all [Constant.kind]

/-- The text that a constant of the kind refers to. -/
theorem followed_eq {pick pick' : Constant → Option UInt16}
    (hsome : ∀ c, c.kind = kind → pick c ≠ none) (heq : ∀ c, c.kind = kind → pick' c = pick c)
    (hnone : ∀ c, c.kind ≠ kind → pick' c = none) :
    (do text pool (← select pool index kind pick)) =
      (do pool.text (← pool.select index [kind] pick')) := by
  rw [select_eq hsome heq hnone, funext (text_eq pool)]

/-- A string is found by its constant and then its text. -/
theorem string_eq (pool : ConstantPool) (index : UInt16) :
    string pool index = pool.string index := by
  refine followed_eq ?_ (fun _ _ => rfl) ?_ <;> intro c hc <;> cases c <;> simp_all [Constant.kind]

/-- A class name is found by its constant and then its text. -/
theorem named_classref (pool : ConstantPool) (index : UInt16) :
    named pool index .classref = pool.className index := by
  refine followed_eq ?_ ?_ ?_ <;> intro c hc <;> cases c <;> simp_all [Constant.kind]

/-- A module name is found by its constant and then its text. -/
theorem named_module (pool : ConstantPool) (index : UInt16) :
    named pool index .module = pool.moduleName index := by
  refine followed_eq ?_ ?_ ?_ <;> intro c hc <;> cases c <;> simp_all [Constant.kind]

/-- A package name is found by its constant and then its text. -/
theorem named_package (pool : ConstantPool) (index : UInt16) :
    named pool index .package = pool.packageName index := by
  refine followed_eq ?_ ?_ ?_ <;> intro c hc <;> cases c <;> simp_all [Constant.kind]

/-- A name and type takes a step to the constant and one to each text. -/
theorem nameAndType_eq (pool : ConstantPool) (index : UInt16) :
    nameAndType pool index = pool.nameAndType index := by
  rw [nameAndType, ConstantPool.nameAndType, funext (text_eq pool)]
  congr 1
  refine select_eq ?_ (fun _ _ => rfl) ?_ <;> intro c hc <;> cases c <;> simp_all [Constant.kind]

end Stepwise

/-! ### What look-ups give -/

/-- A look-up of a constant of the kind: it succeeds exactly if there is one at the index, and fails
    for no other reason than that there is none. The same holds of the look-up in two steps, which
    is the same. -/
structure LooksUp (pool : ConstantPool) (index : UInt16) (kind : Constant.Kind)
    (lookup stepwise : Except Failure α) : Prop where
  succeeds_iff : Succeeds lookup ↔ ∃ constant, pool.get? index = some constant ∧
    constant.kind = kind
  refuses : ∀ f, lookup = .error f → ∃ problem, f = .ofFault (.constantIndex index [kind] problem)
  stepwise : stepwise = lookup

/-- A failed look-up tells of its index. -/
theorem exists_problem_of_select {expected : List Constant.Kind} {pick : Constant → Option α}
    {f : Failure} (h : pool.select index expected pick = .error f) :
    ∃ problem, f = .ofFault (.constantIndex index expected problem) := by
  simp only [select] at h
  by_cases h0 : index = 0
  · rw [if_pos h0] at h
    cases h
    exact ⟨_, rfl⟩
  · rw [if_neg h0] at h
    rcases hslot : pool.slots[index.toNat]? with _ | _ | constant <;> simp only [hslot] at h
    · cases h
      exact ⟨_, rfl⟩
    · cases h
      exact ⟨_, rfl⟩
    · rcases hpick : pick constant with _ | a <;> simp only [hpick] at h <;> cases h
      exact ⟨_, rfl⟩

/-- In a pool whose index 0 is empty, an index refers to what it holds. -/
theorem refers_iff {kinds : List Constant.Kind} (h0 : pool.get? 0 = none) :
    pool.Refers index kinds ↔ ∃ constant, pool.get? index = some constant ∧
      constant.kind ∈ kinds := by
  simp only [Refers, and_iff_right_iff_imp]
  rintro ⟨constant, hget, -⟩ rfl
  rw [h0] at hget
  cases hget

/-- The same of a single kind. -/
theorem refers_singleton_iff (h0 : pool.get? 0 = none) :
    pool.Refers index [kind] ↔ ∃ constant, pool.get? index = some constant ∧
      constant.kind = kind := by
  simp only [refers_iff h0, List.mem_singleton]

namespace WellFormed

variable (h : pool.WellFormed)

include h

/-- A text is looked up where there is one. -/
theorem looksUp_text : pool.LooksUp index .utf8 (pool.text index) (Stepwise.text pool index) where
  succeeds_iff := exists_text_eq_ok.trans (refers_singleton_iff h.get?_zero)
  refuses _ hf := exists_problem_of_select hf
  stepwise := Stepwise.text_eq pool index

/-- A look-up of the text that a constant of the kind refers to: since the reference resolves, only
    the constant itself can be missing. -/
theorem looksUp_named {pick : Constant → Option UInt16} {lookup stepwise : Except Failure Text}
    (hkind : ∀ constant, constant.kind = kind ↔ ∃ i, pick constant = some i)
    (hrefs : ∀ constant i, pick constant = some i → constant.references = .ok [(i, [.utf8])])
    (hlookup : lookup = pool.select index [kind] pick >>= pool.text)
    (hstepwise : stepwise = lookup) : pool.LooksUp index kind lookup stepwise := by
  subst hlookup
  refine ⟨(h.resolved.exists_named hkind hrefs).trans (refers_singleton_iff h.get?_zero),
    fun f hf => ?_, hstepwise⟩
  refine exists_problem_of_select (Succeeds.error_of_bind (fun i hi => ?_) hf)
  obtain ⟨-, constant, hget, hpick⟩ := select_eq_ok.1 hi
  obtain ⟨references, hr, hall⟩ := h.resolved.of_get? hget
  cases hr.symm.trans (hrefs constant i hpick)
  exact (hall _ (List.mem_singleton.2 rfl)).succeeds_text

/-- A string is looked up where there is one. -/
theorem looksUp_string :
    pool.LooksUp index .string (pool.string index) (Stepwise.string pool index) :=
  h.looksUp_named (fun constant => by cases constant <;> simp [Constant.kind])
    (fun constant i hpick => by cases constant <;> cases hpick; rfl) rfl
    (Stepwise.string_eq pool index)

/-- A class name is looked up where there is a class. -/
theorem looksUp_className :
    pool.LooksUp index .classref (pool.className index) (Stepwise.named pool index .classref) :=
  h.looksUp_named (fun constant => by cases constant <;> simp [Constant.kind])
    (fun constant i hpick => by cases constant <;> cases hpick; rfl) rfl
    (Stepwise.named_classref pool index)

/-- A module name is looked up where there is a module. -/
theorem looksUp_moduleName :
    pool.LooksUp index .module (pool.moduleName index) (Stepwise.named pool index .module) :=
  h.looksUp_named (fun constant => by cases constant <;> simp [Constant.kind])
    (fun constant i hpick => by cases constant <;> cases hpick; rfl) rfl
    (Stepwise.named_module pool index)

/-- A package name is looked up where there is a package. -/
theorem looksUp_packageName :
    pool.LooksUp index .package (pool.packageName index) (Stepwise.named pool index .package) :=
  h.looksUp_named (fun constant => by cases constant <;> simp [Constant.kind])
    (fun constant i hpick => by cases constant <;> cases hpick; rfl) rfl
    (Stepwise.named_package pool index)

/-- A name and type is looked up where there is one. -/
theorem looksUp_nameAndType :
    pool.LooksUp index .nameAndType (pool.nameAndType index) (Stepwise.nameAndType pool index) where
  succeeds_iff := h.resolved.exists_nameAndType.trans (refers_singleton_iff h.get?_zero)
  refuses f hf := by
    refine exists_problem_of_select (Succeeds.error_of_bind (fun names hnames => ?_) hf)
    obtain ⟨-, constant, hget, hpick⟩ := select_eq_ok.1 hnames
    obtain ⟨references, hr, hall⟩ := h.resolved.of_get? hget
    cases constant <;> cases hpick
    cases hr
    obtain ⟨hname, hdescriptor, -⟩ := by simpa only [List.forall_mem_cons] using hall
    exact hname.succeeds_text.bind fun name => hdescriptor.succeeds_text.map
  stepwise := Stepwise.nameAndType_eq pool index

end WellFormed

/-! ### Nested descriptions -/

/-- The constant at an index in words, with the constant that a method handle refers to described by
    a nested call. No description is given if more calls are needed than there may be. -/
def describeIn? (pool : ConstantPool) :
    (calls : Nat) → (index : UInt16) → Option (Except Failure String)
  | 0, _ => none
  | calls + 1, index =>
    match pool.require index Constant.Kind.all with
    | .ok (.methodHandle referenceKind reference) =>
      (pool.describeIn? calls reference).map fun described =>
        return Constant.handleName referenceKind ++ " " ++ (← described)
    | _ => some (pool.describeWithin 0 index)

/-- A method handle is at the index. -/
def HoldsHandle (pool : ConstantPool) (index : UInt16) : Prop :=
  ∃ referenceKind reference, pool.get? index = some (.methodHandle referenceKind reference)

/-- Only a method handle is described with another constant. -/
theorem describeWithin_eq (h : ¬pool.HoldsHandle index) (levels levels' : Nat) :
    pool.describeWithin levels index = pool.describeWithin levels' index := by
  rw [describeWithin, describeWithin]
  rcases hrequire : pool.require index Constant.Kind.all with f | constant
  · rfl
  · cases constant with
    | methodHandle referenceKind reference =>
      exact absurd ⟨referenceKind, reference, (require_eq_ok.1 hrequire).2.1⟩ h
    | _ => rfl

/-- Without a method handle at the index, no nested call is needed. -/
theorem describeIn?_eq_describeWithin (h : ¬pool.HoldsHandle index) (calls levels : Nat) :
    pool.describeIn? (calls + 1) index = some (pool.describeWithin levels index) := by
  rw [describeIn?, describeWithin_eq h levels 0]
  rcases hrequire : pool.require index Constant.Kind.all with f | constant
  · rfl
  · cases constant with
    | methodHandle referenceKind reference =>
      exact absurd ⟨referenceKind, reference, (require_eq_ok.1 hrequire).2.1⟩ h
    | _ => rfl

/-- What a method handle may refer to are fields and methods. -/
theorem not_mem_handleTargets {referenceKind : UInt8} {kinds : List Constant.Kind}
    (h : Constant.handleTargets? referenceKind = some kinds) :
    Constant.Kind.methodHandle ∉ kinds := by
  unfold Constant.handleTargets? at h
  split at h <;> cases h <;> decide

/-- A method handle does not refer to another one. -/
theorem Resolved.not_holdsHandle (hpool : pool.Resolved) {referenceKind : UInt8}
    {reference : UInt16} (hget : pool.get? index = some (.methodHandle referenceKind reference)) :
    ¬pool.HoldsHandle reference := by
  rintro ⟨referenceKind', reference', hget'⟩
  obtain ⟨references, hr, hall⟩ := hpool.of_get? hget
  rw [Constant.references] at hr
  split at hr
  · cases hr
    obtain ⟨-, constant, hconstant, hkind⟩ := hall _ (List.mem_singleton.2 rfl)
    cases hconstant.symm.trans hget'
    exact not_mem_handleTargets ‹_› hkind
  · cases hr

/-- Two calls describe any constant: the second one that a method handle refers to, which is no
    handle. -/
theorem WellFormed.describeIn?_eq (h : pool.WellFormed) (calls : Nat) :
    pool.describeIn? (calls + 2) index = some (pool.describe index) := by
  by_cases hhandle : pool.HoldsHandle index
  · obtain ⟨referenceKind, reference, hget⟩ := hhandle
    have hrequire : pool.require index Constant.Kind.all =
        .ok (.methodHandle referenceKind reference) := by
      obtain ⟨h0, -⟩ := (refers_iff h.get?_zero).2 ⟨_, hget, List.mem_singleton.2 rfl⟩
      exact require_eq_ok.2 ⟨h0, hget, (by decide : Constant.Kind.methodHandle ∈ Constant.Kind.all)⟩
    -- The pool has room for more handles than the one.
    obtain ⟨levels, hlevels⟩ := Nat.exists_eq_add_of_le' h.intact.count_pos
    have hdescribe : pool.describe index =
        (do return Constant.handleName referenceKind ++ " " ++
          (← pool.describeWithin levels reference)) := by
      rw [describe, hlevels, describeWithin, hrequire]
      rfl
    rw [describeIn?, hrequire, hdescribe]
    simp only [describeIn?_eq_describeWithin (h.resolved.not_holdsHandle hget) calls levels]
    rfl
  · exact describeIn?_eq_describeWithin hhandle (calls + 1) pool.count

/-- What a description gives: it succeeds exactly if the index holds a constant, fails for no other
    reason than that it does not, and makes at most one nested call. -/
structure Describes (pool : ConstantPool) (index : UInt16) : Prop where
  succeeds_iff : Succeeds (pool.describe index) ↔ ∃ constant, pool.get? index = some constant
  refuses : ∀ f, pool.describe index = .error f →
    ∃ problem, f = .ofFault (.constantIndex index Constant.Kind.all problem)
  nested : ∀ calls, 2 ≤ calls → pool.describeIn? calls index = some (pool.describe index)

/-- Every constant of a well-formed pool is described. -/
theorem WellFormed.describes (h : pool.WellFormed) : pool.Describes index where
  succeeds_iff := by
    constructor
    · rintro ⟨d, hd⟩
      rw [describe, describeWithin] at hd
      obtain ⟨constant, hrequire, -⟩ := bind_eq_ok.1 hd
      exact ⟨constant, (require_eq_ok.1 hrequire).2.1⟩
    · rintro ⟨constant, hget⟩
      exact h.resolved.succeeds_describe ((refers_iff h.get?_zero).2
        ⟨constant, hget, List.mem_singleton.2 rfl⟩)
  refuses f hf := by
    rcases hrequire : pool.require index Constant.Kind.all with e | constant
    · rw [describe, describeWithin, hrequire] at hf
      cases hf
      exact exists_problem_of_select hrequire
    · obtain ⟨d, hd⟩ := h.resolved.succeeds_describe (exists_require_eq_ok.1 ⟨constant, hrequire⟩)
      cases hd.symm.trans hf
  nested calls hcalls := by
    obtain ⟨calls, rfl⟩ := Nat.exists_eq_add_of_le' hcalls
    exact h.describeIn?_eq calls

/-! ### Look-ups in edited pools -/

/-- Descriptions and look-ups in a pool that edits lead to depend on the constant at their own index
    alone. -/
theorem Reached.lookUps (h : pool.Reached) (index : UInt16) :
    pool.Describes index ∧
    pool.LooksUp index .utf8 (pool.text index) (Stepwise.text pool index) ∧
    pool.LooksUp index .string (pool.string index) (Stepwise.string pool index) ∧
    pool.LooksUp index .classref (pool.className index) (Stepwise.named pool index .classref) ∧
    pool.LooksUp index .module (pool.moduleName index) (Stepwise.named pool index .module) ∧
    pool.LooksUp index .package (pool.packageName index) (Stepwise.named pool index .package) ∧
    pool.LooksUp index .nameAndType (pool.nameAndType index) (Stepwise.nameAndType pool index) := by
  have hwell := h.built.wellFormed
  exact ⟨hwell.describes, hwell.looksUp_text, hwell.looksUp_string, hwell.looksUp_className,
    hwell.looksUp_moduleName, hwell.looksUp_packageName, hwell.looksUp_nameAndType⟩

/-- The pool with the constants added one after the other, less those that are refused. -/
def pushes (constants : List Constant) (pool : ConstantPool) : ConstantPool :=
  constants.foldl (fun pool constant => after (pushInPlace constant) pool) pool

/-- Constants that are added one after another lead to a pool. -/
theorem Reached.pushes (h : pool.Reached) (constants : List Constant) :
    (pool.pushes constants).Reached := by
  induction constants generalizing pool with
  | nil => exact h
  | cons constant rest ih => exact ih (h.push constant)

/-- A pool whose class at index 2 refers to a name after it, since it was replaced. -/
def handled : ConstantPool :=
  after (replaceInPlace 2 (.classref 6)) (pushes
    [.ofString "f", .classref 1, .nameAndType 1 1, .fieldref 2 3, .methodHandle 1 4,
    .ofString "A"] empty)

/-- Constants are added one after another, and one of them is replaced. -/
theorem reached_handled : handled.Reached := (Reached.new.pushes _).replace _ _

/-- A method handle is described, and is not taken for a class. -/
theorem lookUps_handled : handled.Reached ∧ handled.describe 5 = .ok "REF_getField field A.f:f" ∧
    handled.describeIn? 2 5 = some (.ok "REF_getField field A.f:f") ∧
    Succeeds (handled.className 2) ∧ ¬Succeeds (handled.className 5) := by
  have hdescribe : handled.describe 5 = .ok "REF_getField field A.f:f" := by decide +kernel
  obtain ⟨-, -, -, hclass, -⟩ := reached_handled.lookUps 2
  obtain ⟨hdescribes, -, -, hhandle, -⟩ := reached_handled.lookUps 5
  refine ⟨reached_handled, hdescribe, ?_, ?_, ?_⟩
  · rw [← hdescribe]
    exact hdescribes.nested 2 le_rfl
  · exact hclass.succeeds_iff.2 ⟨.classref 6, by rfl, rfl⟩
  · intro hsucceeds
    obtain ⟨constant, hget, hkind⟩ := hhandle.succeeds_iff.1 hsucceeds
    have hheld : handled.get? 5 = some (.methodHandle 1 4) := by rfl
    cases hheld.symm.trans hget
    cases hkind

end ConstantPool

end ClassFormat
