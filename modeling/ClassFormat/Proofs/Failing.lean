import Mathlib
import ClassFormat.Proofs.Truncation
import ClassFormat.Proofs.Writing

/-!
# Where readers fail

A reader that is run on bytes with something wrong in them takes what is before it as ever, and
fails there. What is behind it is never looked at.

* `Reader.Fails`: the reader fails on the bytes, with a fault of a certain sort;
* `Reader.Fails.next`, `Reader.Fails.row` and so on: one rule for each way to build a reader, which
  leads from the whole to the part that fails;
* `Reader.Fails.table_each`: a table fails at its first row that is not read;
* `Writer.Stands`: where a row stands in a table.
-/

namespace ClassFormat

namespace Spelling

variable {α : Type} {L : Spelling α}

/-- Two lists of values are spelled one after the other. -/
theorem each_append (xs ys : List α) {bytes : Bytes} :
    L.each (xs ++ ys) bytes ↔ ∃ x y, L.each xs x ∧ L.each ys y ∧ bytes = x ++ y := by
  induction xs generalizing bytes with
  | nil => simp
  | cons a rest ih =>
    simp only [List.cons_append, each_cons, ih]
    constructor
    · rintro ⟨u, _, hu, ⟨x, y, hx, hy, rfl⟩, rfl⟩
      exact ⟨u ++ x, y, ⟨u, x, hu, hx, rfl⟩, hy, (List.append_assoc ..).symm⟩
    · rintro ⟨_, y, ⟨u, x, hu, hx, rfl⟩, hy, rfl⟩
      exact ⟨u, x ++ y, hu, ⟨x, y, hx, hy, rfl⟩, List.append_assoc ..⟩

end Spelling

/-! ### Rows in a table -/

namespace Writer

variable {α : Type} {write : α → Written} {items : List α} {index : Nat}

/-- The row with the number `index` of a table stands between the bytes `before` and `after` of
    it. -/
structure Stands (write : α → Written) (items : List α) (index : Nat) (before after : Bytes) :
    Prop where
  before : ∃ x, rows write (items.take index) = .ok x ∧ before = u2 (UInt16.ofNat items.length) ++ x
  after : rows write (items.drop (index + 1)) = .ok after

/-- A table that is written is what is before one of its rows, the row, and what is after it. -/
theorem exists_stands {bytes : Bytes} {a : α} (h : table write items = .ok bytes)
    (ha : items[index]? = some a) :
    ∃ before row after, Stands write items index before after ∧ write a = .ok row ∧
      bytes = before ++ (row ++ after) := by
  obtain ⟨hindex, rfl⟩ := List.getElem?_eq_some_iff.1 ha
  obtain ⟨-, y, hy, rfl⟩ := table_eq_ok.1 h
  rw [← List.take_append_drop index items, Spelling.each_append, List.drop_eq_getElem_cons hindex]
    at hy
  obtain ⟨x, _, hx, ⟨row, after, hrow, hafter, rfl⟩, rfl⟩ := hy
  exact ⟨_, row, after, ⟨⟨x, rows_eq_ok.2 hx, rfl⟩, rows_eq_ok.2 hafter⟩, hrow,
    (List.append_assoc ..).symm⟩

end Writer

namespace Reader

variable {α β : Type} {r : Reader α} {k : α → Reader β} {L : Spelling α} {start : Nat} {x y : Bytes}
  {P : Fault → Prop}

/-- On the bytes, which are at the offset `start`, the reader fails with a fault that the condition
    holds of. -/
def Fails (r : Reader α) (start : Nat) (bytes : Bytes) (P : Fault → Prop) : Prop :=
  ∀ c : Cursor, c.offset = start → c.rest = bytes →
    ∃ f c' fault, r c = .error f c' ∧ f.fault? = some fault ∧ P fault

/-- The fault may be described more broadly. -/
theorem Fails.imp {Q : Fault → Prop} (h : r.Fails start y P) (himp : ∀ fault, P fault → Q fault) :
    r.Fails start y Q := by
  intro c hoffset hc
  obtain ⟨f, c', fault, hr, hfault, hP⟩ := h c hoffset hc
  exact ⟨f, c', fault, hr, hfault, himp fault hP⟩

/-- Nothing follows a reader that fails. -/
theorem Fails.bind (h : r.Fails start y P) : (r >>= k).Fails start y P := by
  intro c hoffset hc
  obtain ⟨f, c', fault, hr, hfault⟩ := h c hoffset hc
  exact ⟨f, c', fault, by simp only [Bind.bind, EStateM.bind, hr], hfault⟩

/-- What fails is behind what the first reader takes. -/
theorem Fails.next {a : α} (hr : r.Reads L) (ha : L a x) (hk : (k a).Fails (start + x.length) y P) :
    (r >>= k).Fails start (x ++ y) P := by
  intro c hoffset hc
  obtain ⟨c₁, h₁, past⟩ := hr.complete ha hc
  obtain ⟨f, c', fault, hfail, hfault⟩ := hk c₁ (by rw [past.offset, hoffset]) (past.rest_eq hc)
  refine ⟨f, c', fault, ?_, hfault⟩
  simp only [Bind.bind, EStateM.bind, h₁]
  exact hfail

/-- What fails is behind a reader that takes nothing. -/
theorem Fails.skip {a : α} (hr : r.Reads L) (ha : L a []) (hk : (k a).Fails start y P) :
    (r >>= k).Fails start y P := .next (x := []) hr ha hk

/-- The offset that a reader asks for is the one where it fails. -/
theorem Fails.offset {k : Nat → Reader α} (hk : (k start).Fails start y P) :
    (Reader.offset >>= k).Fails start y P := by
  rintro c rfl hc
  exact hk c rfl hc

/-- The fault may change with the failure. -/
theorem Fails.mapFailure {change : Failure → Failure} {Q : Fault → Prop} (h : r.Fails start y P)
    (hchange : ∀ f fault, f.fault? = some fault → P fault → ∃ fault',
      (change f).fault? = some fault' ∧ Q fault') : (mapFailure change r).Fails start y Q := by
  intro c hoffset hc
  obtain ⟨f, c', fault, hr, hfault, hP⟩ := h c hoffset hc
  obtain ⟨fault', hfault', hQ⟩ := hchange f fault hfault hP
  exact ⟨change f, c', fault', by simp only [Reader.mapFailure, hr], hfault', hQ⟩

theorem Fails.within {note : Note} (h : r.Fails start y P) : (within note r).Fails start y P :=
  h.mapFailure fun _ fault hfault hP => ⟨fault, hfault, hP⟩

/-- What fails is behind the refusal of a condition that does not hold. -/
theorem Fails.unless {p : Prop} [Decidable p] {fault : Fault} {k : β → Reader α} {b : β} (hp : ¬p)
    (hk : (k b).Fails start y P) :
    Fails (if p then (fault.raise : Reader β) >>= k else k b) start y P := by
  rw [if_neg hp]
  exact hk

/-- There are fewer bytes than are asked for. -/
theorem fails_bytes {n : Nat} (h : y.length < n) :
    (bytes n).Fails start y fun fault => fault = .truncated start n y.length := by
  rintro c rfl rfl
  refine ⟨.ofFault (.truncated c.offset n c.rest.length), c, _, ?_, rfl, rfl⟩
  simp only [bytes, List.take_of_length_le h.le, if_neg h.ne]

/-- A loop fails in the round that comes after the values that can be read. -/
theorem Fails.timesFrom {read : Nat → Reader α} {done : List α} (hreads : ∀ i, (read i).Reads L)
    (hx : L.each done x) (hrow : ∀ i, (read i).Fails (start + x.length) y P) {n : Nat}
    (hn : done.length < n) (index : Nat) (before : List α) :
    (timesFrom read index before n).Fails start (x ++ y) P := by
  induction done generalizing x start n index before with
  | nil =>
    obtain rfl := hx
    obtain ⟨n, rfl⟩ := Nat.exists_eq_succ_of_ne_zero hn.ne'
    exact (hrow index).bind
  | cons a rest ih =>
    obtain ⟨u, v, hu, hv, rfl⟩ := hx
    obtain ⟨n, rfl⟩ := Nat.exists_eq_succ_of_ne_zero (Nat.ne_zero_of_lt hn)
    rw [List.append_assoc]
    refine .next (hreads index) hu (ih hv (fun i => ?_) (Nat.lt_of_succ_lt_succ hn) _ _)
    rw [Nat.add_assoc, ← List.length_append]
    exact hrow i

/-- A table fails at the row that fails, if the rows before it are read. -/
theorem Fails.row_of_take {read : Nat → Reader α} {write : α → Written} {Q : α → Prop}
    {items : List α} {index : Nat} {before after : Bytes} (hreads : ∀ i, (read i).Inverts write Q)
    (hstands : Writer.Stands write items index before after) (hlength : items.length < 65536)
    (hindex : index < items.length) (hQ : ∀ a ∈ items.take index, Q a)
    (hrow : ∀ i, (read i).Fails (start + before.length) y P) :
    (table read).Fails start (before ++ y) P := by
  obtain ⟨x, hx, rfl⟩ := hstands.before
  have hdone : Spelling.each (fun a x => write a = .ok x ∧ Q a) (items.take index) x := by
    rw [Spelling.each_and]
    exact ⟨Writer.rows_eq_ok.1 hx, hQ⟩
  rw [List.append_assoc]
  refine .next reads_u2 rfl (.timesFrom hreads hdone (fun i => ?_) ?_ 0 [])
  · rw [Nat.add_assoc, ← List.length_append]
    exact hrow i
  · rw [List.length_take_of_le hindex.le, UInt16.toNat_ofNat_of_lt' hlength]
    exact hindex

/-- A table fails at the row that fails. -/
theorem Fails.row {read : Nat → Reader α} {write : α → Written} {Q : α → Prop} {items : List α}
    {index : Nat} {before after : Bytes} (hreads : ∀ i, (read i).Inverts write Q)
    (hstands : Writer.Stands write items index before after) (hlength : items.length < 65536)
    (hindex : index < items.length) (hQ : ∀ a ∈ items, Q a)
    (hrow : ∀ i, (read i).Fails (start + before.length) y P) :
    (table read).Fails start (before ++ y) P :=
  .row_of_take hreads hstands hlength hindex (fun a ha => hQ a (List.mem_of_mem_take ha)) hrow

/-! ### Rows that fail one by one -/

section

variable {read : Nat → Reader α} {write : α → Written} {Q : α → Prop} {items : List α}

/-- Rows that are read one after another fail at the first one that does not meet the condition, if
    such a row fails on what is written for it. -/
theorem Fails.timesFrom_each (hreads : ∀ i, (read i).Inverts write Q)
    (hfails : ∀ a ∈ items, ¬Q a → ∀ x, write a = .ok x → ∀ i start further,
      (read i).Fails start (x ++ further) P) (hexists : ∃ a ∈ items, ¬Q a) {x : Bytes}
    (hx : Spelling.each (fun a x => write a = .ok x) items x) (start index : Nat) (done : List α)
    (further : Bytes) :
    (Reader.timesFrom read index done items.length).Fails start (x ++ further) P := by
  induction items generalizing x start index done with
  | nil =>
    obtain ⟨a, ha, -⟩ := hexists
    exact absurd ha List.not_mem_nil
  | cons a rest ih =>
    obtain ⟨u, v, hu, hv, rfl⟩ := hx
    rw [List.append_assoc]
    by_cases ha : Q a
    · -- The row is read, so the one that fails is behind it.
      have hrest : ∃ b ∈ rest, ¬Q b := by
        obtain ⟨b, hb, hQ⟩ := hexists
        rcases List.mem_cons.1 hb with rfl | hb
        · exact absurd ha hQ
        · exact ⟨b, hb, hQ⟩
      exact .next (hreads index) ⟨hu, ha⟩
        (ih (fun b hb => hfails b (List.mem_cons_of_mem _ hb)) hrest hv _ _ _)
    · exact (hfails a List.mem_cons_self ha u hu index start _).bind

/-- A table fails at its first row that does not meet the condition. -/
theorem Fails.table_each (hreads : ∀ i, (read i).Inverts write Q)
    (hfails : ∀ a ∈ items, ¬Q a → ∀ x, write a = .ok x → ∀ i start further,
      (read i).Fails start (x ++ further) P) (hexists : ∃ a ∈ items, ¬Q a) {bytes : Bytes}
    (h : Writer.table write items = .ok bytes) (start : Nat) (further : Bytes) :
    (table read).Fails start (bytes ++ further) P := by
  obtain ⟨hlength, y, hy, rfl⟩ := Writer.table_eq_ok.1 h
  rw [List.append_assoc]
  refine .next reads_u2 rfl ?_
  rw [times, UInt16.toNat_ofNat_of_lt' hlength]
  exact .timesFrom_each hreads hfails hexists hy _ _ _ _

end

end Reader

end ClassFormat
