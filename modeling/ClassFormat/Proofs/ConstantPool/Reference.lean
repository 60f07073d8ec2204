import Mathlib
import ClassFormat.ConstantPool.Edit
import ClassFormat.ConstantPool.Reference
import ClassFormat.Proofs.Writing

/-!
# References that resolve

When an index of the constant pool is accepted. `pool.Refers index kinds` says that the index
holds a constant of one of the kinds. All look-ups of the pool succeed under conditions of
this form, and so do the readers of stored references.

* `Reference`: a stored index, with what it may refer to; `Reference.Resolves`;
* `ConstantPool.Resolved`: every reference between the constants resolves, which is what
  `ConstantPool.validate` checks (`ConstantPool.validate_eq_ok`);
* `ConstantPool.reads_index`, `ConstantPool.inverts_indices`: reading stored references.
-/

namespace ClassFormat

namespace ConstantPool

variable {pool : ConstantPool} {index : UInt16} {kinds : List Constant.Kind} {kind : Constant.Kind}

/-- The index holds a constant of one of the kinds. -/
def Refers (pool : ConstantPool) (index : UInt16) (kinds : List Constant.Kind) : Prop :=
  index ≠ 0 ∧ ∃ constant, pool.get? index = some constant ∧ constant.kind ∈ kinds

instance : Decidable (pool.Refers index kinds) :=
  decidable_of_iff (index ≠ 0 ∧ (pool.get? index).any fun constant => constant.kind ∈ kinds) <| by
    simp [Refers, Option.any_eq_true]

/-! ### Look-ups -/

/-- What is picked from a constant is found at an index other than 0. -/
theorem select_eq_ok {α : Type} {expected : List Constant.Kind} {pick : Constant → Option α}
    {a : α} : pool.select index expected pick = .ok a ↔
      index ≠ 0 ∧ ∃ constant, pool.get? index = some constant ∧ pick constant = some a := by
  simp only [select, get?]
  by_cases h0 : index = 0
  · simp [h0]
  · rw [if_neg h0]
    rcases pool.slots[index.toNat]? with _ | _ | constant
    · simp
    · simp
    · cases hp : pick constant <;> simp [h0, hp]

/-- A constant is found if it is of one of the kinds that are expected. -/
theorem require_eq_ok {constant : Constant} :
    pool.require index kinds = .ok constant ↔
      index ≠ 0 ∧ pool.get? index = some constant ∧ constant.kind ∈ kinds := by
  rw [require, select_eq_ok]
  refine and_congr_right fun _ => ⟨?_, fun ⟨hget, hk⟩ => ⟨constant, hget, if_pos hk⟩⟩
  rintro ⟨_, hget, hpick⟩
  split at hpick
  · cases hpick
    exact ⟨hget, ‹_›⟩
  · cases hpick

/-- The constants that are found are those that may be referred to. -/
@[simp] theorem exists_require_eq_ok :
    (∃ constant, pool.require index kinds = .ok constant) ↔ pool.Refers index kinds := by
  simp only [require_eq_ok, Refers, exists_and_left]

/-- An index that may be 0 then stands for no constant. -/
@[simp] theorem exists_requireOptional_eq_ok :
    (∃ constant, pool.requireOptional index kind = .ok constant) ↔
      index = 0 ∨ pool.Refers index [kind] := by
  by_cases h0 : index = 0
  · simp [requireOptional, h0]
  · simp [requireOptional, h0, exists_comm (α := Option Constant)]

/-- A text is found at an index other than 0. -/
theorem text_eq_ok {t : Text} :
    pool.text index = .ok t ↔ index ≠ 0 ∧ pool.get? index = some (.utf8 t) := by
  rw [text, select_eq_ok]
  refine and_congr_right fun _ => ⟨?_, fun hget => ⟨_, hget, rfl⟩⟩
  rintro ⟨constant, hget, hpick⟩
  cases constant <;> cases hpick
  exact hget

/-- A text is found exactly where a constant may refer to one. -/
@[simp] theorem exists_text_eq_ok : (∃ t, pool.text index = .ok t) ↔ pool.Refers index [.utf8] := by
  simp only [text_eq_ok, Refers, List.mem_singleton]
  constructor
  · rintro ⟨t, h0, hget⟩
    exact ⟨h0, _, hget, rfl⟩
  · rintro ⟨h0, constant, hget, hk⟩
    cases constant <;> cases hk
    exact ⟨_, h0, hget⟩

/-! ### References between constants -/

/-- Every reference of the constant resolves. -/
def ResolvesIn (pool : ConstantPool) (constant : Constant) : Prop :=
  ∃ references, constant.references = .ok references ∧ ∀ r ∈ references, pool.Refers r.1 r.2

/-- Every reference between the constants of the pool resolves. -/
def Resolved (pool : ConstantPool) : Prop := ∀ entry ∈ pool.entries, pool.ResolvesIn entry.2

/-- A constant passes its check if its references resolve. -/
theorem checkReferences_eq_ok {constant : Constant} :
    pool.checkReferences index constant = .ok () ↔ pool.ResolvesIn constant := by
  simp only [checkReferences, ResolvesIn]
  cases constant.references with
  | error kind => simp
  | ok references => simp [forM_eq_ok]

/-- A pool passes its check if all references resolve. -/
theorem validate_eq_ok : pool.validate = .ok () ↔ pool.Resolved := by
  simp only [validate, List.forM_eq_forM, forM_eq_ok, checkReferences_eq_ok, Resolved]

/-- What an index holds is among the entries. -/
theorem mem_entries_of_get? {constant : Constant} (h : pool.get? index = some constant) :
    (index, constant) ∈ pool.entries := by
  simp only [get?, Option.join_eq_some_iff] at h
  refine List.mem_filterMap.2 ⟨(some constant, index.toNat), ?_, by simp⟩
  exact List.mem_zipIdx_iff_getElem?.2 (by simpa using h)

/-- In a resolved pool the references of what an index holds resolve. -/
theorem Resolved.of_get? (hpool : pool.Resolved) {constant : Constant}
    (h : pool.get? index = some constant) : pool.ResolvesIn constant :=
  hpool _ (mem_entries_of_get? h)

/-- The text that a constant of a kind with a name refers to. -/
theorem Resolved.exists_named (hpool : pool.Resolved) {pick : Constant → Option UInt16}
    (hkind : ∀ constant, constant.kind = kind ↔ ∃ i, pick constant = some i)
    (hrefs : ∀ constant i, pick constant = some i → constant.references = .ok [(i, [.utf8])]) :
    (∃ t, (do pool.text (← pool.select index [kind] pick)) = .ok t) ↔ pool.Refers index [kind] := by
  simp only [bind_eq_ok, select_eq_ok, Refers, List.mem_singleton]
  constructor
  · rintro ⟨t, i, ⟨h0, constant, hget, hpick⟩, -⟩
    exact ⟨h0, constant, hget, (hkind constant).2 ⟨i, hpick⟩⟩
  · rintro ⟨h0, constant, hget, hk⟩
    obtain ⟨i, hpick⟩ := (hkind constant).1 hk
    obtain ⟨references, hr, hall⟩ := hpool.of_get? hget
    cases hr.symm.trans (hrefs constant i hpick)
    obtain ⟨t, ht⟩ := exists_text_eq_ok.2 (hall _ (List.mem_singleton.2 rfl))
    exact ⟨t, i, ⟨h0, constant, hget, hpick⟩, ht⟩

/-- The name of a class that the pool holds. -/
theorem Resolved.exists_className (hpool : pool.Resolved) :
    (∃ t, pool.className index = .ok t) ↔ pool.Refers index [.classref] :=
  hpool.exists_named (fun constant => by cases constant <;> simp [Constant.kind])
    fun constant i hpick => by cases constant <;> cases hpick; rfl

/-- The name of a module that the pool holds. -/
theorem Resolved.exists_moduleName (hpool : pool.Resolved) :
    (∃ t, pool.moduleName index = .ok t) ↔ pool.Refers index [.module] :=
  hpool.exists_named (fun constant => by cases constant <;> simp [Constant.kind])
    fun constant i hpick => by cases constant <;> cases hpick; rfl

/-- The name of a package that the pool holds. -/
theorem Resolved.exists_packageName (hpool : pool.Resolved) :
    (∃ t, pool.packageName index = .ok t) ↔ pool.Refers index [.package] :=
  hpool.exists_named (fun constant => by cases constant <;> simp [Constant.kind])
    fun constant i hpick => by cases constant <;> cases hpick; rfl

/-- The name and the descriptor that the pool holds. -/
theorem Resolved.exists_nameAndType (hpool : pool.Resolved) :
    (∃ names, pool.nameAndType index = .ok names) ↔ pool.Refers index [.nameAndType] := by
  simp only [nameAndType, bind_eq_ok, pure_eq_ok, select_eq_ok, Refers, List.mem_singleton]
  constructor
  · rintro ⟨_, _, ⟨h0, constant, hget, hpick⟩, -⟩
    cases constant <;> cases hpick
    exact ⟨h0, _, hget, rfl⟩
  · rintro ⟨h0, constant, hget, hk⟩
    cases constant <;> cases hk
    obtain ⟨references, hr, hall⟩ := hpool.of_get? hget
    cases hr
    obtain ⟨hname, hdescriptor, -⟩ := by simpa only [List.forall_mem_cons] using hall
    obtain ⟨name, hname⟩ := exists_text_eq_ok.2 hname
    obtain ⟨descriptor, hdescriptor⟩ := exists_text_eq_ok.2 hdescriptor
    exact ⟨_, _, ⟨h0, _, hget, rfl⟩, name, hname, descriptor, hdescriptor, rfl⟩

end ConstantPool

/-! ### Stored references -/

/-- An index that is stored in a class file, with what it may refer to. -/
structure Reference where
  index : UInt16
  kinds : List Constant.Kind
  /-- Whether index 0 stands for absence. -/
  optional : Bool

namespace Reference

/-- A reference to a constant of one of the kinds. -/
def required (index : UInt16) (kinds : List Constant.Kind) : Reference := ⟨index, kinds, false⟩

/-- A reference to a constant of the kind, or index 0 for none. -/
def orZero (index : UInt16) (kind : Constant.Kind) : Reference := ⟨index, [kind], true⟩

/-- The index refers to something it may refer to, or stands for absence. -/
def Resolves (pool : ConstantPool) (r : Reference) : Prop :=
  r.optional = true ∧ r.index = 0 ∨ pool.Refers r.index r.kinds

variable {pool : ConstantPool} {index : UInt16} {kinds : List Constant.Kind} {kind : Constant.Kind}

instance (r : Reference) : Decidable (r.Resolves pool) := by
  unfold Resolves
  infer_instance

@[simp] theorem resolves_required :
    Resolves pool (required index kinds) ↔ pool.Refers index kinds := by
  simp [Resolves, required]

/-- An optional reference resolves to nothing at 0. -/
@[simp] theorem resolves_orZero :
    Resolves pool (orZero index kind) ↔ index = 0 ∨ pool.Refers index [kind] := by
  simp [Resolves, orZero]

end Reference

namespace ConstantPool

open Reader

variable (pool : ConstantPool)

/-- An index is read if there is a constant of the kinds to refer to. -/
theorem reads_index (kinds : List Constant.Kind) :
    (pool.readIndex kinds).Reads fun index bytes => bytes = Writer.u2 index ∧
      pool.Refers index kinds :=
  (reads_u2.bind fun index => Reads.guard (pool.require index kinds) fun _ =>
    Reads.pure index).congr fun index bytes => by simp [and_comm]

/-- An optional index is read if it is 0 or refers to a constant. -/
theorem reads_optionalIndex (kind : Constant.Kind) :
    (pool.readOptionalIndex kind).Reads fun index bytes =>
      bytes = Writer.u2 index ∧ (index = 0 ∨ pool.Refers index [kind]) :=
  (reads_u2.bind fun index => Reads.guard (pool.requireOptional index kind) fun _ =>
    Reads.pure index).congr fun index bytes => by simp [and_comm]

/-- An index is written as it was read. -/
theorem inverts_index (kinds : List Constant.Kind) :
    (pool.readIndex kinds).Inverts (fun index => .ok (Writer.u2 index)) fun index =>
      pool.Refers index kinds :=
  (pool.reads_index kinds).congr fun index bytes => by simp [eq_comm]

/-- A table of indices is written as it was read. -/
theorem inverts_indexTable (kinds : List Constant.Kind) :
    (table fun _ => pool.readIndex kinds).Inverts Writer.indices fun indices =>
      ∀ i ∈ indices, pool.Refers i kinds := by
  rw [Writer.indices_eq_table]
  exact Inverts.table fun _ => pool.inverts_index kinds

/-- A list of indices to one kind is written as it was read. -/
theorem inverts_indices (kind : Constant.Kind) :
    (pool.readIndices kind).Inverts Writer.indices fun indices => ∀ i ∈ indices,
      pool.Refers i [kind] :=
  inverts_indexTable pool [kind]

end ConstantPool

end ClassFormat
