import Mathlib
import ClassFormat.ConstantPool.Describe
import ClassFormat.Proofs.ConstantPool.Reference

/-!
# Constants can be described

Describing a constant follows its references, and theirs. In a pool that is resolved none of
these look-ups fails.

* `Succeeds`: a computation that does not fail, with a rule for each way to build one;
* `ConstantPool.Resolved.succeeds_describe`: every constant of a resolved pool can be described.
-/

namespace ClassFormat

/-! ### Computations that do not fail -/

section

variable {α β : Type}

/-- The computation does not fail. -/
def Succeeds (x : Except Failure α) : Prop := ∃ a, x = .ok a

namespace Succeeds

variable {x : Except Failure α} {k : α → Except Failure β}

theorem ok (a : α) : Succeeds (.ok a) := ⟨a, rfl⟩

protected theorem pure (a : α) : Succeeds (pure a : Except Failure α) := ⟨a, rfl⟩

/-- A sequence succeeds if both parts do, the second one whatever the first one gives. -/
theorem bind (hx : Succeeds x) (hk : ∀ a, Succeeds (k a)) : Succeeds (x >>= k) := by
  obtain ⟨a, rfl⟩ := hx
  exact hk a

/-- What follows may rely on the value that is passed on. -/
theorem bind_of_eq {a : α} (hx : x = .ok a) (hk : Succeeds (k a)) : Succeeds (x >>= k) := by
  subst hx
  exact hk

/-- If what follows does not fail, only the first step does. -/
theorem error_of_bind {f : Failure}
    (hk : ∀ a, x = .ok a → Succeeds (k a)) (h : x >>= k = .error f) : x = .error f := by
  rcases x with e | a
  · cases h
    rfl
  · obtain ⟨b, hb⟩ := hk a rfl
    cases hb.symm.trans h

theorem map {f : α → β} (hx : Succeeds x) : Succeeds (x >>= fun a => pure (f a)) :=
  hx.bind fun a => .pure (f a)

/-- A note on failures is no matter for success. -/
theorem inside {note : Note} (hx : Succeeds x) : Succeeds (Failure.inside note x) := by
  obtain ⟨a, rfl⟩ := hx
  exact ok a

/-- A list is mapped if each of its elements is. -/
theorem mapM {f : α → Except Failure β} {items : List α} (h : ∀ a ∈ items, Succeeds (f a)) :
    Succeeds (items.mapM f) := by
  induction items with
  | nil => exact .pure []
  | cons a rest ih =>
    obtain ⟨ha, hrest⟩ := List.forall_mem_cons.1 h
    rw [List.mapM_cons]
    exact ha.bind fun b => (ih hrest).map

end Succeeds

end

/-! ### Constants -/

namespace ConstantPool

variable {pool : ConstantPool} {index : UInt16} {kinds : List Constant.Kind} {kind : Constant.Kind}

/-- A constant of any kind is at the index. -/
theorem Refers.all (h : pool.Refers index kinds) : pool.Refers index Constant.Kind.all := by
  obtain ⟨h0, constant, hget, -⟩ := h
  refine ⟨h0, constant, hget, ?_⟩
  cases constant.kind <;> decide

theorem Refers.succeeds_text (h : pool.Refers index [.utf8]) : Succeeds (pool.text index) :=
  exists_text_eq_ok.2 h

namespace Resolved

variable (hpool : pool.Resolved)

include hpool

theorem succeeds_className (h : pool.Refers index [.classref]) : Succeeds (pool.className index) :=
  hpool.exists_className.2 h

/-- A member is described if both its owner and its name and type are there. -/
theorem succeeds_describeMember {owner member : UInt16} (howner : pool.Refers owner [.classref])
    (hmember : pool.Refers member [.nameAndType]) : Succeeds (pool.describeMember owner member) :=
  (hpool.succeeds_className howner).bind fun _ => Succeeds.map (hpool.exists_nameAndType.2 hmember)

/-- A name and type can be described. -/
theorem succeeds_describeNameAndType (h : pool.Refers index [.nameAndType]) :
    Succeeds (pool.describeNameAndType index) :=
  Succeeds.map (hpool.exists_nameAndType.2 h)

/-- A constant can be described to any depth, by induction on it: a method handle refers to a
    constant again, which is described one level less deep. -/
theorem succeeds_describeWithin (levels : Nat) (h : pool.Refers index Constant.Kind.all) :
    Succeeds (pool.describeWithin levels index) := by
  induction levels using Nat.strongRecOn generalizing index with
  | ind levels ih =>
    obtain ⟨h0, constant, hget, hkind⟩ := h
    obtain ⟨references, hr, hall⟩ := hpool.of_get? hget
    rw [describeWithin]
    refine Succeeds.bind_of_eq (require_eq_ok.2 ⟨h0, hget, hkind⟩) ?_
    cases constant with
    | utf8 | integer | float | long | double => exact .pure _
    | classref i | string i | methodType i | module i | package i =>
      cases hr
      exact (hall _ (List.mem_singleton.2 rfl)).succeeds_text.map
    | fieldref owner member | methodref owner member | interfaceMethodref owner member =>
      cases hr
      obtain ⟨howner, hmember, -⟩ := by simpa only [List.forall_mem_cons] using hall
      exact (hpool.succeeds_describeMember howner hmember).map
    | nameAndType name descriptor =>
      exact hpool.succeeds_describeNameAndType ⟨h0, _, hget, List.mem_singleton.2 rfl⟩
    | dynamic bootstrap member | invokeDynamic bootstrap member =>
      cases hr
      exact (hpool.succeeds_describeNameAndType (hall _ (List.mem_singleton.2 rfl))).map
    | methodHandle referenceKind reference =>
      cases levels with
      | zero => exact .pure _
      | succ levels =>
        -- What the handle refers to is of one of the kinds that its own kind allows.
        rw [Constant.references] at hr
        split at hr
        · cases hr
          exact (ih levels levels.lt_succ_self (hall _ (List.mem_singleton.2 rfl)).all).map
        · cases hr

/-- Every constant of the pool can be described. -/
theorem succeeds_describe (h : pool.Refers index kinds) : Succeeds (pool.describe index) :=
  hpool.succeeds_describeWithin pool.count h.all

end Resolved

end ConstantPool

end ClassFormat
