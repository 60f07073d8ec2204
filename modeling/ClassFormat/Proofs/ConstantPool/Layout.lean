import Mathlib
import ClassFormat.Proofs.ConstantPool.Reference

/-!
# The layout of a pool

A pool holds nothing at index 0, and after that its constants one after another, each on as
many slots as its kind takes up: `pool.LaidOut constants`.

* `ConstantPool.LaidOut.entries_eq`: the constants are those of the entries;
* `ConstantPool.LaidOut.append`, `ConstantPool.exists_laidOut_set`: what an edit makes of it;
* `ConstantPool.WellFormed`: a pool that is laid out, fits its count and is resolved. Both
  edits preserve this (`ConstantPool.WellFormed.push`, `ConstantPool.WellFormed.replace`).
-/

namespace ClassFormat

namespace ConstantPool

variable {pool pool' : ConstantPool} {index : UInt16} {constant old : Constant}
  {constants : List Constant}

/-- The slots of the pool are those of the constants, after the empty one at index 0. -/
def LaidOut (pool : ConstantPool) (constants : List Constant) : Prop :=
  pool.slots.toList = none :: constants.flatMap slotsOf

/-! ### Slots -/

/-- A constant takes up the slots of its kind. -/
@[simp] theorem length_slotsOf (constant : Constant) :
    (slotsOf constant).length = constant.kind.slots := by
  unfold slotsOf
  cases constant.kind <;> rfl

/-- Only the first slot of a constant holds it. -/
@[simp] theorem filterMap_slotsOf (constant : Constant) :
    (slotsOf constant).filterMap id = [constant] := by
  unfold slotsOf
  split <;> rfl

/-- The slots hold the constants that they were laid out for. -/
theorem filterMap_flatMap_slotsOf (constants : List Constant) :
    (constants.flatMap slotsOf).filterMap id = constants := by
  induction constants with
  | nil => rfl
  | cons constant rest ih =>
    rw [List.flatMap_cons, List.filterMap_append, filterMap_slotsOf, ih, List.singleton_append]

/-- The constants of the entries are what the slots hold. -/
theorem map_snd_entries (pool : ConstantPool) :
    pool.entries.map Prod.snd = pool.slots.toList.filterMap id := by
  rw [← List.zipIdx_map_fst 0 pool.slots.toList, List.filterMap_map, entries, List.map_filterMap]
  congr 1
  funext ⟨slot, index⟩
  cases slot <;> rfl

/-- The entries are the constants in the slots. -/
theorem exists_mem_entries : (∃ index, (index, constant) ∈ pool.entries) ↔
    some constant ∈ pool.slots.toList := by
  have h := congrArg (constant ∈ ·) pool.map_snd_entries
  simpa using h

/-- All references of a pool resolve if those of each slot do. -/
theorem resolved_iff :
    pool.Resolved ↔ ∀ constant, some constant ∈ pool.slots.toList → pool.ResolvesIn constant := by
  simp only [← exists_mem_entries, Resolved, Prod.forall]
  constructor
  · rintro h constant ⟨index, hc⟩
    exact h index constant hc
  · exact fun h index constant hc => h constant ⟨index, hc⟩

/-- The entries of a pool are the constants that it was laid out from. -/
theorem LaidOut.entries_eq (h : pool.LaidOut constants) :
    pool.entries.map Prod.snd = constants := by
  rw [map_snd_entries, h, List.filterMap_cons_none rfl, filterMap_flatMap_slotsOf]

/-- The count is one above the number of slots. -/
theorem LaidOut.count_eq (h : pool.LaidOut constants) :
    pool.count = (constants.flatMap slotsOf).length + 1 := by
  rw [count, ← Array.length_toList, h, List.length_cons]

/-- A pool is laid out from its constants in one way only. -/
theorem LaidOut.eq (h : pool.LaidOut constants) (h' : pool'.LaidOut constants) : pool = pool' := by
  rcases pool with ⟨slots⟩
  rcases pool' with ⟨slots'⟩
  rw [ConstantPool.mk.injEq]
  exact Array.toList_inj.1 (Eq.trans h h'.symm)

/-! ### Edits -/

theorem laidOut_empty : empty.LaidOut [] := rfl

/-- A constant is laid out behind those that are there. -/
theorem LaidOut.append (h : pool.LaidOut constants) (constant : Constant) :
    (pool.append constant).LaidOut (constants ++ [constant]) := by
  simp only [LaidOut, ConstantPool.append, Array.toList_appendList, List.flatMap_append,
    List.flatMap_singleton] at h ⊢
  rw [h, List.cons_append]

/-- A constant among slots replaced by one that takes up as many. -/
theorem exists_flatMap_slotsOf_set (hslots : old.kind.slots = constant.kind.slots) {n : Nat}
    (h : (constants.flatMap slotsOf)[n]? = some (some old)) :
    ∃ edited : List Constant, (constants.flatMap slotsOf).set n (some constant) =
      edited.flatMap slotsOf := by
  induction constants generalizing n with
  | nil => cases h
  | cons first rest ih =>
    rw [List.flatMap_cons] at h ⊢
    by_cases hn : n < (slotsOf first).length
    · -- The constant is the first one, as the second slot of a wide one holds nothing.
      rw [List.getElem?_append_left hn] at h
      rw [List.set_append_left _ _ hn]
      refine ⟨constant :: rest, ?_⟩
      rw [List.flatMap_cons]
      congr 1
      unfold slotsOf at h hn ⊢
      rcases n with _ | _ | n <;> split at h <;> simp_all
    · rw [List.getElem?_append_right (Nat.not_lt.1 hn)] at h
      rw [List.set_append_right _ _ (Nat.not_lt.1 hn)]
      obtain ⟨edited, he⟩ := ih h
      exact ⟨first :: edited, by rw [List.flatMap_cons, he]⟩

/-- A constant with as many slots fits in the place of another. -/
theorem exists_laidOut_set (h : pool.LaidOut constants) (hget : pool.get? index = some old)
    (hslots : old.kind.slots = constant.kind.slots) :
    ∃ edited, LaidOut ⟨pool.slots.setIfInBounds index.toNat (some constant)⟩ edited := by
  simp only [get?, Option.join_eq_some_iff, ← Array.getElem?_toList] at hget
  rw [LaidOut] at h
  simp only [LaidOut, Array.toList_setIfInBounds]
  rw [h] at hget ⊢
  rcases hn : index.toNat with _ | n
  · rw [hn] at hget
    cases hget
  · rw [hn] at hget
    obtain ⟨edited, he⟩ := exists_flatMap_slotsOf_set hslots hget
    exact ⟨edited, by rw [List.set_cons_succ, he]⟩

/-- Constants stay at their indices if another one is added. -/
theorem get?_append (h : pool.get? index = some old) :
    (pool.append constant).get? index = some old := by
  simp only [get?, Option.join_eq_some_iff, ← Array.getElem?_toList, ConstantPool.append,
    Array.toList_appendList] at h ⊢
  rw [List.getElem?_append_left (List.getElem?_eq_some_iff.1 h).1]
  exact h

/-- References still resolve if another constant is added. -/
theorem ResolvesIn.append (h : pool.ResolvesIn old) : (pool.append constant).ResolvesIn old := by
  obtain ⟨references, hr, hall⟩ := h
  refine ⟨references, hr, fun r hmem => ?_⟩
  obtain ⟨h0, target, hget, hk⟩ := hall r hmem
  exact ⟨h0, target, get?_append hget, hk⟩

/-- Adding a constant adds its slots and no others. -/
theorem mem_slots_append {slot : Option Constant} (h : slot ∈ (pool.append constant).slots.toList) :
    slot ∈ pool.slots.toList ∨ slot = some constant ∨ slot = none := by
  rw [ConstantPool.append, Array.toList_appendList, List.mem_append] at h
  refine h.imp_right fun h => ?_
  unfold slotsOf at h
  split at h <;> simp at h <;> tauto

/-! ### Pools that hold together -/

/-- The pool is laid out, its count fits, and its references resolve. -/
structure WellFormed (pool : ConstantPool) : Prop where
  laidOut : ∃ constants, pool.LaidOut constants
  count_le : pool.count ≤ maxCount
  resolved : pool.Resolved

/-- Index 0 holds no constant. -/
theorem WellFormed.get?_zero (h : pool.WellFormed) : pool.get? 0 = none := by
  obtain ⟨constants, hlaid⟩ := h.laidOut
  rw [get?, ← Array.getElem?_toList, hlaid]
  rfl

/-- The entries of a pool are what it holds at their indices. -/
theorem WellFormed.get?_of_mem_entries (h : pool.WellFormed) {entry : UInt16 × Constant}
    (hentry : entry ∈ pool.entries) : pool.get? entry.1 = some entry.2 := by
  obtain ⟨⟨slot, n⟩, hmem, hslot⟩ := List.mem_filterMap.1 hentry
  obtain ⟨constant, rfl, rfl⟩ := Option.map_eq_some_iff.1 hslot
  have hget := List.mem_zipIdx_iff_getElem?.1 hmem
  obtain ⟨hlt, -⟩ := List.getElem?_eq_some_iff.1 hget
  have hn : (UInt16.ofNat n).toNat = n :=
    UInt16.toNat_ofNat_of_lt' (lt_of_lt_of_le hlt (h.count_le.trans (by decide)))
  simp only [get?, hn, ← Array.getElem?_toList]
  rw [hget]
  rfl

/-- Every entry of a pool can be referred to. -/
theorem WellFormed.refers_of_mem_entries (h : pool.WellFormed) {entry : UInt16 × Constant}
    (hentry : entry ∈ pool.entries) : pool.Refers entry.1 [entry.2.kind] := by
  have hget := h.get?_of_mem_entries hentry
  refine ⟨fun h0 => ?_, entry.2, hget, List.mem_singleton.2 rfl⟩
  rw [h0, h.get?_zero] at hget
  cases hget

/-- A new pool is well-formed. -/
theorem wellFormed_empty : empty.WellFormed where
  laidOut := ⟨[], laidOut_empty⟩
  count_le := by decide
  resolved := resolved_iff.2 fun constant h => by simp [empty] at h

/-- A constant is added if there is room for it and its references resolve. -/
theorem push_eq_ok : pool.push constant = .ok (pool', index) ↔
    pool.count + constant.kind.slots ≤ maxCount ∧ pool.ResolvesIn constant ∧
      pool' = pool.append constant ∧ index = UInt16.ofNat pool.count := by
  simp [push, checkPush, checkReferences_eq_ok, and_assoc, eq_comm (b := pool'),
    eq_comm (b := index)]

/-- A constant is replaced if there is one, on as many slots, and all references still resolve. -/
theorem replace_eq_ok : pool.replace index constant = .ok (pool', old) ↔
    index ≠ 0 ∧ pool.get? index = some old ∧ old.kind.slots = constant.kind.slots ∧
      pool' = ⟨pool.slots.setIfInBounds index.toNat (some constant)⟩ ∧ pool'.Resolved := by
  have hall (kind : Constant.Kind) : kind ∈ Constant.Kind.all := by cases kind <;> decide
  simp only [replace, bind_eq_ok, require_eq_ok]
  constructor
  · rintro ⟨old', ⟨h0, hget, -⟩, h⟩
    obtain ⟨hslots, hres, rfl, rfl⟩ := by simpa [validate_eq_ok] using h
    exact ⟨h0, hget, hslots, rfl, hres⟩
  · rintro ⟨h0, hget, hslots, rfl, hres⟩
    exact ⟨old, ⟨h0, hget, hall _⟩, by simp [hslots, validate_eq_ok.2 hres]⟩

/-- Adding a constant leaves a pool well-formed. -/
theorem WellFormed.push (h : pool.WellFormed) (hpush : pool.push constant = .ok (pool', index)) :
    pool'.WellFormed := by
  obtain ⟨hcount, href, rfl, rfl⟩ := push_eq_ok.1 hpush
  obtain ⟨constants, hlaid⟩ := h.laidOut
  refine ⟨⟨_, hlaid.append constant⟩, ?_, resolved_iff.2 fun held hheld => ?_⟩
  · simpa [count, ConstantPool.append, ← Array.length_toList] using hcount
  · rcases mem_slots_append hheld with hold | hnew | hnone
    · exact (resolved_iff.1 h.resolved held hold).append
    · cases hnew
      exact href.append
    · cases hnone

/-- Replacing a constant leaves a pool well-formed. -/
theorem WellFormed.replace (h : pool.WellFormed)
    (hreplace : pool.replace index constant = .ok (pool', old)) : pool'.WellFormed := by
  obtain ⟨_, hget, hslots, rfl, hres⟩ := replace_eq_ok.1 hreplace
  obtain ⟨constants, hlaid⟩ := h.laidOut
  refine ⟨exists_laidOut_set hlaid hget hslots, ?_, hres⟩
  simpa [count] using h.count_le

end ConstantPool

end ClassFormat
