import Mathlib
import ClassFormat.Proofs.ConstantPool.Spelling

/-!
# Editing a pool in place

The edits of a pool as they are made in place. An edit that fails has to leave the pool as it
was: `ConstantPool.pushInPlace` checks before it adds, but `ConstantPool.replaceInPlace` has to
put the new constant in before it can check the pool, and puts the old one back if the check fails.

* `ConstantPool.pushInPlace_eq`, `ConstantPool.replaceInPlace_eq`: the edits in place give what
  `ConstantPool.push` and `ConstantPool.replace` give, and change nothing if those fail;
* `ConstantPool.Reached`: what edits, failing or not, make of new pools and of pools that were read;
* `ConstantPool.Intact`: the slots, the count and the references of such a pool are right;
* `ConstantPool.Reached.edits`: such a pool is intact, and what an edit makes of it.
-/

namespace ClassFormat

/-! ### Running edits -/

section

variable {σ α β : Type}

/-- The state that a computation leaves behind, whether it fails or not. -/
def after (x : EStateM Failure σ α) (s : σ) : σ :=
  match x s with
  | .ok _ s' => s'
  | .error _ s' => s'

/-- The state is read and left as it is. -/
theorem get_bind_run (k : σ → EStateM Failure σ β) (s : σ) : (get >>= k) s = k s s := rfl

/-- What comes next runs in the new state. -/
theorem modify_bind_run (f : σ → σ) (k : Unit → EStateM Failure σ β) (s : σ) :
    (modify f >>= k) s = k () (f s) := rfl

/-- A failure of a part that does not edit leaves the state as it was. -/
theorem liftM_bind_run (x : Except Failure α) (k : α → EStateM Failure σ β) (s : σ) :
    ((liftM x : EStateM Failure σ α) >>= k) s = match x with
      | .ok a => k a s
      | .error f => .error f s := by
  cases x <;> rfl

end

namespace ConstantPool

variable {pool pool' : ConstantPool} {index : UInt16} {constant old : Constant} {f : Failure}
  {constants : List Constant}

/-! ### Edits in place -/

/-- The pool with another constant at an index that holds one. -/
def put (index : UInt16) (constant : Constant) (pool : ConstantPool) : ConstantPool :=
  ⟨pool.slots.setIfInBounds index.toNat (some constant)⟩

/-- Adds a constant at the end, and gives its index. -/
def pushInPlace (constant : Constant) : EStateM Failure ConstantPool UInt16 := do
  let index := (← get).count
  let slots := constant.kind.slots
  if index + slots > maxCount then (Note.poolFull constant index).raise
  (← get).checkReferences (UInt16.ofNat index) constant
  modify fun pool => ⟨pool.slots.push (some constant)⟩
  if slots = 2 then
    modify fun pool => ⟨pool.slots.push none⟩
  return UInt16.ofNat index

/-- Replaces the constant at an index, and gives the old one, which is put back if the pool is not
    valid with the new one. -/
def replaceInPlace (index : UInt16) (constant : Constant) :
    EStateM Failure ConstantPool Constant := do
  let old ← (← get).require index Constant.Kind.all
  if old.kind.slots ≠ constant.kind.slots then
    (Note.slotsDiffer old.kind index constant.kind).raise
  modify (put index constant)
  match (← get).validate with
  | .ok () => return old
  | .error f =>
    modify (put index old)
    throw (f.within (.replacingConstant index))

/-- Adding in place succeeds and fails as `push` does. -/
theorem pushInPlace_eq (constant : Constant) (pool : ConstantPool) :
    pushInPlace constant pool = match pool.push constant with
      | .ok (pool', index) => .ok index pool'
      | .error f => .error f pool := by
  unfold pushInPlace push checkPush
  by_cases hroom : pool.count + constant.kind.slots > maxCount
  · simp only [get_bind_run, if_pos hroom]
    rfl
  · simp only [get_bind_run, if_neg hroom, liftM_bind_run]
    cases pool.checkReferences (UInt16.ofNat pool.count) constant with
    | error f => rfl
    | ok u =>
      have happend : pool.append constant = if constant.kind.slots = 2 then
          ⟨(pool.slots.push (some constant)).push none⟩ else ⟨pool.slots.push (some constant)⟩ := by
        by_cases hwide : constant.kind.slots = 2 <;> simp [append, slotsOf, hwide]
      -- The slots are added one after the other, or both at once.
      change _ = EStateM.Result.ok (UInt16.ofNat pool.count) (pool.append constant)
      rw [happend]
      by_cases hwide : constant.kind.slots = 2
      · rw [if_pos hwide, if_pos hwide]
        rfl
      · rw [if_neg hwide, if_neg hwide]
        rfl

/-- Putting the old constant back undoes an edit. -/
theorem put_put (h : pool.get? index = some old) :
    (pool.put index constant).put index old = pool := by
  simp only [get?, Option.join_eq_some_iff] at h
  obtain ⟨hlt, hget⟩ := Array.getElem?_eq_some_iff.1 h
  simp [put, Array.setIfInBounds, hlt, ← hget]

/-- Replacing a constant that is there. -/
theorem replace_of_require (h : pool.require index Constant.Kind.all = .ok old) :
    pool.replace index constant =
      if old.kind.slots ≠ constant.kind.slots then
        (Note.slotsDiffer old.kind index constant.kind).raise
      else do
        Failure.inside (.replacingConstant index) (pool.put index constant).validate
        return (pool.put index constant, old) := by
  rw [replace, h]
  change (if old.kind.slots ≠ constant.kind.slots then _ else _) = _
  by_cases hslots : old.kind.slots ≠ constant.kind.slots
  · rw [if_pos hslots, if_pos hslots]
    rfl
  · rw [if_neg hslots, if_neg hslots]
    rfl

/-- Replacing in place succeeds and fails as `replace` does. -/
theorem replaceInPlace_eq (index : UInt16) (constant : Constant) (pool : ConstantPool) :
    replaceInPlace index constant pool = match pool.replace index constant with
      | .ok (pool', old) => .ok old pool'
      | .error f => .error f pool := by
  simp only [replaceInPlace, get_bind_run, liftM_bind_run]
  cases hold : pool.require index Constant.Kind.all with
  | error f =>
    rw [replace, hold]
    rfl
  | ok old =>
    rw [replace_of_require hold]
    by_cases hslots : old.kind.slots ≠ constant.kind.slots
    · simp only [if_pos hslots]
      rfl
    · simp only [if_neg hslots, modify_bind_run, get_bind_run]
      cases (pool.put index constant).validate with
      | ok u => rfl
      | error f =>
        -- The old constant is put back.
        have hback := @put_put pool index constant old (require_eq_ok.1 hold).2.1
        exact congrArg (EStateM.Result.error _) hback

/-- A constant is added in place exactly if it is added to a copy. -/
theorem pushInPlace_eq_ok :
    pushInPlace constant pool = .ok index pool' ↔ pool.push constant = .ok (pool', index) := by
  rw [pushInPlace_eq]
  rcases pool.push constant with f | ⟨pool', index⟩
  · simp
  · simp [and_comm]

/-- A constant is replaced in place exactly if it is replaced in a copy. -/
theorem replaceInPlace_eq_ok :
    replaceInPlace index constant pool = .ok old pool' ↔
      pool.replace index constant = .ok (pool', old) := by
  rw [replaceInPlace_eq]
  rcases pool.replace index constant with f | ⟨pool', old⟩
  · simp
  · simp [and_comm]

/-- An edit that fails leaves the pool as it was. -/
theorem eq_of_pushInPlace (h : pushInPlace constant pool = .error f pool') : pool' = pool := by
  rw [pushInPlace_eq] at h
  rcases hpush : pool.push constant with f | ⟨pool', index⟩ <;> rw [hpush] at h <;> cases h
  rfl

/-- Replacing a constant leaves the pool as it was if it fails. -/
theorem eq_of_replaceInPlace (h : replaceInPlace index constant pool = .error f pool') :
    pool' = pool := by
  rw [replaceInPlace_eq] at h
  rcases hreplace : pool.replace index constant with f | ⟨pool', old⟩ <;>
    rw [hreplace] at h <;> cases h
  rfl

/-! ### Pools that edits lead to -/

/-- What edits, failing or not, make of new pools and of pools that were read. -/
inductive Reached : ConstantPool → Prop
  | new : Reached empty
  | read {pool : ConstantPool} {c c' : Cursor} (h : read c = .ok pool c') : Reached pool
  | push {pool : ConstantPool} (h : Reached pool) (constant : Constant) :
    Reached (after (pushInPlace constant) pool)
  | replace {pool : ConstantPool} (h : Reached pool) (index : UInt16) (constant : Constant) :
    Reached (after (replaceInPlace index constant) pool)

/-- Edits that fail may as well not have been made. -/
theorem Reached.built (h : pool.Reached) : pool.Built := by
  induction h with
  | new => exact .empty
  | read h => exact .read h
  | @push pool _ constant ih =>
    rw [after]
    cases hpush : pushInPlace constant pool with
    | ok index pool' => exact .push ih (pushInPlace_eq_ok.1 hpush)
    | error f pool' => exact eq_of_pushInPlace hpush ▸ ih
  | @replace pool _ index constant ih =>
    rw [after]
    cases hreplace : replaceInPlace index constant pool with
    | ok old pool' => exact .replace ih (replaceInPlace_eq_ok.1 hreplace)
    | error f pool' => exact eq_of_replaceInPlace hreplace ▸ ih

/-- The slots, the count and the references of a pool are right. -/
structure Intact (pool : ConstantPool) : Prop where
  first : pool.slots[0]? = some none
  /-- An index above 0 is empty exactly if the one before it holds a constant on two slots. -/
  gaps : ∀ i, pool.slots[i + 1]? = some none ↔
    ∃ constant, pool.slots[i]? = some (some constant) ∧
      (constant.kind = .long ∨ constant.kind = .double)
  count_pos : 1 ≤ pool.count
  count_le : pool.count ≤ 65535
  valid : pool.validate = .ok ()
  /-- Every reference between the constants is to one of a kind that is allowed there. -/
  resolved : pool.Resolved

/-- The pool has the constant at a new index at its end, and is otherwise as it was. -/
structure Pushed (pool : ConstantPool) (constant : Constant) (index : UInt16)
    (pool' : ConstantPool) : Prop where
  index_eq : index.toNat = pool.count
  slots : pool'.slots.toList = pool.slots.toList ++
    if constant.kind = .long ∨ constant.kind = .double then [some constant, none]
    else [some constant]
  kept : ∀ i < pool.count, pool'.slots[i]? = pool.slots[i]?

/-- The pool has the constant in the place of the old one, and is otherwise as it was. -/
structure Replaced (pool : ConstantPool) (index : UInt16) (constant old : Constant)
    (pool' : ConstantPool) : Prop where
  held : pool.slots[index.toNat]? = some (some old)
  holds : pool'.slots[index.toNat]? = some (some constant)
  kept : ∀ i, i ≠ index.toNat → pool'.slots[i]? = pool.slots[i]?
  /-- The old constant can take its place again. -/
  undone : replaceInPlace index old pool' = .ok constant pool

theorem slots_eq_two {kind : Constant.Kind} : kind.slots = 2 ↔ kind = .long ∨ kind = .double := by
  cases kind <;> decide

/-- A slot is empty exactly if the one before it holds a wide constant. -/
theorem gap_iff {first : Option Constant} (hfirst : ∀ c ∈ first, c.kind.slots ≠ 2) (i : Nat) :
    (first :: constants.flatMap slotsOf)[i + 1]? = some none ↔
      ∃ c, (first :: constants.flatMap slotsOf)[i]? = some (some c) ∧ c.kind.slots = 2 := by
  induction constants generalizing first i with
  | nil =>
    cases i with
    | zero => simpa using hfirst
    | succ i => simp
  | cons constant rest ih =>
    have hhead : ¬∃ c, some first = some (some c) ∧ c.kind.slots = 2 := by
      rintro ⟨c, hc, hwide⟩
      exact hfirst c (Option.some_inj.1 hc) hwide
    by_cases hwide : constant.kind.slots = 2
    · -- The second slot of the constant is empty, and the constants after it start anew.
      have hslots : (constant :: rest).flatMap slotsOf = some constant :: none ::
          rest.flatMap slotsOf := by
        simp [slotsOf, hwide]
      rw [hslots]
      rcases i with _ | _ | i
      · simpa using hhead
      · simp [hwide]
      · exact @ih none (by simp) i
    · have hslots : (constant :: rest).flatMap slotsOf = some constant :: rest.flatMap slotsOf := by
        simp [slotsOf, hwide]
      rw [hslots]
      rcases i with _ | i
      · simpa using hhead
      · exact @ih (some constant) (by simpa using hwide) i

/-- A well-formed pool is intact. -/
theorem WellFormed.intact (h : pool.WellFormed) : pool.Intact := by
  obtain ⟨constants, hlaid⟩ := h.laidOut
  have hslot (i : Nat) : pool.slots[i]? = (none :: constants.flatMap slotsOf)[i]? := by
    rw [← Array.getElem?_toList, hlaid]
  refine ⟨by simp [hslot], fun i => ?_, ?_, h.count_le, validate_eq_ok.2 h.resolved, h.resolved⟩
  · simp only [hslot, ← slots_eq_two]
    exact gap_iff (by simp) i
  · rw [hlaid.count_eq]
    exact Nat.succ_pos _

/-- What is added to a well-formed pool stands behind all that was there. -/
theorem WellFormed.pushed (h : pool.WellFormed)
    (hpush : pushInPlace constant pool = .ok index pool') : pool.Pushed constant index pool' := by
  obtain ⟨hcount, -, rfl, rfl⟩ := push_eq_ok.1 (pushInPlace_eq_ok.1 hpush)
  refine ⟨UInt16.toNat_ofNat_of_lt' (Nat.lt_succ_of_le h.count_le), ?_, fun i hi => ?_⟩
  · simp [append, slotsOf, slots_eq_two]
  · rw [← Array.getElem?_toList, ← Array.getElem?_toList, ConstantPool.append,
      Array.toList_appendList]
    exact List.getElem?_append_left (by simpa [count] using hi)

/-- A constant is replaced in a well-formed pool, and could be put back. -/
theorem WellFormed.replaced (h : pool.WellFormed)
    (hreplace : replaceInPlace index constant pool = .ok old pool') :
    pool.Replaced index constant old pool' := by
  obtain ⟨h0, hget, hslots, rfl, -⟩ := replace_eq_ok.1 (replaceInPlace_eq_ok.1 hreplace)
  have hheld := Option.join_eq_some_iff.1 hget
  obtain ⟨hlt, -⟩ := Array.getElem?_eq_some_iff.1 hheld
  have hholds : (pool.put index constant).slots[index.toNat]? = some (some constant) := by
    simp [put, hlt]
  refine ⟨hheld, hholds, fun i hi => ?_, ?_⟩
  · simp [hi.symm]
  · exact replaceInPlace_eq_ok.2 (replace_eq_ok.2 ⟨h0, Option.join_eq_some_iff.2 hholds,
      hslots.symm, (put_put hget).symm, h.resolved⟩)

/-- A pool that edits lead to is intact. An edit that fails leaves it as it was, one that succeeds
    changes the one index that it is about, and a replaced constant can take its place again. -/
theorem Reached.edits (h : pool.Reached) :
    pool.Intact ∧
    (∀ constant f pool', pushInPlace constant pool = .error f pool' → pool' = pool) ∧
    (∀ index constant f pool', replaceInPlace index constant pool = .error f pool' → pool' = pool) ∧
    (∀ constant index pool', pushInPlace constant pool = .ok index pool' →
      pool.Pushed constant index pool') ∧
    (∀ index constant old pool', replaceInPlace index constant pool = .ok old pool' →
      pool.Replaced index constant old pool') := by
  have hwell := h.built.wellFormed
  refine ⟨hwell.intact, ?_, ?_, ?_, ?_⟩
  · exact fun _ _ _ hfail => eq_of_pushInPlace hfail
  · exact fun _ _ _ _ hfail => eq_of_replaceInPlace hfail
  · exact fun _ _ _ hpush => hwell.pushed hpush
  · exact fun _ _ _ _ hreplace => hwell.replaced hreplace

/-- A pool that edits lead to, one of which failed: there is no constant at index 9 to refer to. -/
def edited : ConstantPool :=
  after (pushInPlace (.classref 9)) (after (pushInPlace (.long 7))
    (after (pushInPlace (.ofString "A")) empty))

/-- Two edits are made and one fails. -/
theorem reached_edited : edited.Reached := ((Reached.new.push _).push _).push _

/-- The pool is edited further, at its first constant and at its end. -/
theorem edits_edited :
    edited.Reached ∧ edited.Intact ∧
      edited.Replaced 1 (.ofString "B") (.ofString "A")
        ⟨#[none, some (.ofString "B"), some (.long 7), none]⟩ ∧
      edited.Pushed (.classref 1) 4
        ⟨#[none, some (.ofString "A"), some (.long 7), none, some (.classref 1)]⟩ := by
  obtain ⟨hintact, -, -, hpush, hreplace⟩ := reached_edited.edits
  exact ⟨reached_edited, hintact, hreplace 1 (.ofString "B") (.ofString "A") _ (by rfl),
    hpush (.classref 1) 4 _ (by rfl)⟩

end ConstantPool

end ClassFormat
