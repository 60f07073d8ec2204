import Mathlib
import ClassFormat.Proofs.ConstantPool.Alike

/-!
# The pool that is read in place of another one

Whatever texts a pool holds, what is written for it is read: as the pool with these texts joined.

* `Constant.join`, `ConstantPool.join`: the same with joined texts;
* `ConstantPool.WellFormed.spelled_join`, `ConstantPool.WellFormed.resolved_join`: what is written
  for a pool is a spelling of the joined one, which is resolved like the other one;
* `ConstantPool.text_of_join`: joining makes no text without code points from U+10000 on.
-/

namespace ClassFormat

/-! ### Constants -/

namespace Constant

variable {constant : Constant}

/-- The constant with its text joined, if it is one. -/
def join : Constant → Constant
  | utf8 t => utf8 t.join
  | constant => constant

@[simp] theorem kind_join (constant : Constant) : constant.join.kind = constant.kind := by
  cases constant <;> rfl

/-- Only texts are joined, and they refer to nothing. -/
@[simp] theorem references_join (constant : Constant) :
    constant.join.references = constant.references := by
  cases constant <;> rfl

/-- A constant is like its joined form. -/
theorem alike_join (constant : Constant) : Alike constant constant.join where
  kind := constant.kind_join
  text t hjoined ht := by rw [ht, join, Text.join_eq_self_iff.2 hjoined]

/-- What is written for a constant is read as the joined one. -/
theorem Fits.spelled_join (h : constant.Fits) :
    Spelled constant.join (constant.storedAs constant.content) := by
  refine ⟨constant.content, ?_, by cases constant <;> rfl⟩
  cases constant with
  | utf8 t => exact ⟨h, ModifiedUtf8.decode_encode t⟩
  | _ => rfl

end Constant

/-! ### Pools -/

namespace ConstantPool

variable {pool : ConstantPool} {index : UInt16} {constants : List Constant}

/-- The pool with its texts joined. -/
def join (pool : ConstantPool) : ConstantPool := ⟨pool.slots.map (Option.map Constant.join)⟩

/-- Each index holds what it held, joined. -/
theorem get?_join (pool : ConstantPool) (index : UInt16) :
    pool.join.get? index = (pool.get? index).map Constant.join := by
  simp only [get?, join, Array.getElem?_map]
  rcases pool.slots[index.toNat]? with _ | slot <;> rfl

/-- A pool is like its joined form. -/
theorem alike_join (pool : ConstantPool) : pool.Alike pool.join := fun index => by
  rw [get?_join]
  cases pool.get? index with
  | none => exact .none
  | some constant => exact .some constant.alike_join

@[simp] theorem count_join (pool : ConstantPool) : pool.join.count = pool.count := Array.size_map ..

/-- The slots of a constant are joined one by one. -/
theorem map_slotsOf (constant : Constant) :
    (slotsOf constant).map (Option.map Constant.join) = slotsOf constant.join := by
  rw [slotsOf, slotsOf, Constant.kind_join]
  split <;> rfl

/-- The joined constants are laid out as the constants were. -/
theorem LaidOut.join (h : pool.LaidOut constants) :
    pool.join.LaidOut (constants.map Constant.join) := by
  rw [LaidOut] at h
  simp only [LaidOut, ConstantPool.join, Array.toList_map, h, List.map_cons, List.map_flatMap,
    map_slotsOf, List.flatMap_map, Option.map_none]

/-- All references still resolve once the texts are joined. -/
theorem WellFormed.resolved_join (h : pool.WellFormed) : pool.join.Resolved := by
  refine resolved_iff.2 fun held hheld => ?_
  rw [join, Array.toList_map] at hheld
  obtain ⟨slot, hslot, hmap⟩ := List.mem_map.1 hheld
  obtain ⟨constant, rfl, rfl⟩ := Option.map_eq_some_iff.1 hmap
  -- The references of the constant are to constants of the same kinds.
  obtain ⟨references, hreferences, hall⟩ := resolved_iff.1 h.resolved constant hslot
  exact ⟨references, constant.references_join.trans hreferences, fun r hr =>
    pool.alike_join.refers_iff.2 (hall r hr)⟩

/-- What is written for a pool is a spelling of the joined one. -/
theorem WellFormed.spelled_join (h : pool.WellFormed) {x : Bytes} (hx : pool.write = .ok x) :
    pool.join.Spelled x := by
  obtain ⟨constants, hlaid⟩ := h.laidOut
  obtain ⟨hcount, hfits, rfl⟩ := hlaid.write_eq_ok.1 hx
  refine ⟨_, _, hlaid.join, pool.count_join.symm ▸ hcount, ?_, by rw [count_join]⟩
  rw [Spelling.each_map]
  clear hx hlaid
  induction constants with
  | nil => rfl
  | cons constant rest ih =>
    obtain ⟨hconstant, hrest⟩ := List.forall_mem_cons.1 hfits
    exact ⟨_, _, hconstant.spelled_join, ih hrest, rfl⟩

/-- Joining makes no text without code points from U+10000 on. -/
theorem text_of_join {t : Text} (hlow : ∀ c ∈ t, c.val < 0x10000)
    (h : pool.join.get? index = some (.utf8 t)) : pool.get? index = some (.utf8 t) := by
  rw [get?_join] at h
  obtain ⟨constant, hget, hjoin⟩ := Option.map_eq_some_iff.1 h
  cases constant with
  | utf8 t' =>
    obtain rfl : t'.join = t := by simpa [Constant.join] using hjoin
    rw [hget, Text.join_eq_self_iff.2 (Text.joined_of_join_lt hlow)]
  | _ => cases hjoin

end ConstantPool

end ClassFormat
