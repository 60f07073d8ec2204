import Mathlib

/-!
# Lists

Facts about any lists, which say nothing about class files:

* `List.exists_getElem_of_filter_eq`: the place of the only element that has a property;
* `List.Forall₂.exists_mem`, `List.Forall₂.rel_join_getElem?`: elements that are related because
  they stand in the same place.
-/

namespace List

variable {α β : Type} {R : α → β → Prop}

/-- A list in which one element has a property has it at one place. -/
theorem exists_getElem_of_filter_eq {items : List α} {p : α → Bool} {a : α}
    (h : items.filter p = [a]) : ∃ j, ∃ hj : j < items.length, items[j] = a ∧
      ∀ j' (_ : j' < items.length), p items[j'] = true ↔ j' = j := by
  obtain ⟨before, after, rfl, hbefore, ha, hafter⟩ := filter_eq_cons_iff.1 h
  rw [filter_eq_nil_iff] at hafter
  refine ⟨before.length, by simp, by simp, fun j' hj' => ⟨fun hp => ?_, ?_⟩⟩
  · by_contra hne
    rcases Nat.lt_or_gt_of_ne hne with hlt | hgt
    · rw [getElem_append_left hlt] at hp
      exact hbefore _ (getElem_mem hlt) hp
    · rw [getElem_append_right (by omega), getElem_cons, dif_neg (by omega)] at hp
      exact hafter _ (getElem_mem _) hp
  · rintro rfl
    simpa using ha

/-- Of lists that are related element by element, what is in the first one is related to
    something in the second one. -/
theorem Forall₂.exists_mem {items : List α} {items' : List β} (h : Forall₂ R items items') {a : α}
    (ha : a ∈ items) : ∃ b ∈ items', R a b := by
  obtain ⟨k, hk, rfl⟩ := getElem_of_mem ha
  exact ⟨_, getElem_mem (h.length_eq ▸ hk), h.get hk (h.length_eq ▸ hk)⟩

/-- What may be missing in a place is related to what may be missing in the same place of the
    other list, also beyond the ends of both. -/
theorem Forall₂.rel_join_getElem? {slots : List (Option α)} {slots' : List (Option β)}
    (h : Forall₂ (Option.Rel R) slots slots') (n : Nat) :
    Option.Rel R slots[n]?.join slots'[n]?.join := by
  induction h generalizing n with
  | nil => exact .none
  | cons hrel _ ih =>
    cases n with
    | zero => exact hrel
    | succ n => exact ih n

end List
