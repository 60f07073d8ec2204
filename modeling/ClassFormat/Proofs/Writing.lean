import Mathlib
import ClassFormat.Proofs.Reading

/-!
# What writers write

When a computation that may fail succeeds, step by step, and from this what counts and tables
are written as. A reader *inverts* a writer (`Reader.Inverts`) if it gives exactly the values
that are written as what it takes off and that meet a condition, which is what the reader
checks. Tables of rows are inverted as their rows are:

* `Writer.table_eq_ok`, `Writer.shortTable_eq_ok`: a count that fits, and the rows;
* `Reader.Inverts.table`, `Reader.Inverts.shortTable`: reading such tables.
-/

namespace ClassFormat

/-! ### Success -/

section

variable {α β : Type}

/-- Two steps succeed if both of them do. -/
@[simp] theorem bind_eq_ok {x : Except Failure α} {k : α → Except Failure β} {b : β} :
    x >>= k = .ok b ↔ ∃ a, x = .ok a ∧ k a = .ok b := by
  cases x <;> simp [bind, Except.bind]

@[simp] theorem pure_eq_ok {a b : α} : (pure a : Except Failure α) = .ok b ↔ a = b := by
  simp [pure, Except.pure]

/-- A result is changed only if there is one. -/
@[simp] theorem map_eq_ok {x : Except Failure α} {f : α → β} {b : β} :
    f <$> x = .ok b ↔ ∃ a, x = .ok a ∧ f a = b := by
  cases x <;> simp [Functor.map, Except.map]

@[simp] theorem exists_unit_eq_ok {x : Except Failure Unit} : (∃ u, x = .ok u) ↔ x = .ok () :=
  ⟨fun ⟨_, h⟩ => h, fun h => ⟨_, h⟩⟩

/-- A note about where a failure happens has no say in what succeeds. -/
@[simp] theorem inside_eq_ok {note : Note} {x : Except Failure α} {a : α} :
    Failure.inside note x = .ok a ↔ x = .ok a := by
  cases x <;> simp [Failure.inside, Except.mapError]

@[simp] theorem raise_ne_ok {fault : Fault} {a : α} : (fault.raise : Except Failure α) ≠ .ok a :=
  nofun

@[simp] theorem raise_note_ne_ok {note : Note} {a : α} : (note.raise : Except Failure α) ≠ .ok a :=
  nofun

/-- A computation that refuses what meets a condition. -/
@[simp] theorem refuse_eq_ok {p : Prop} [Decidable p] {x y : Except Failure α} {a : α}
    (hx : x ≠ .ok a) : (if p then x else y) = .ok a ↔ ¬p ∧ y = .ok a := by
  split <;> simp [*]

/-- A computation that admits only what meets a condition. -/
@[simp] theorem admit_eq_ok {p : Prop} [Decidable p] {x y : Except Failure α} {a : α}
    (hx : x ≠ .ok a) : (if p then y else x) = .ok a ↔ p ∧ y = .ok a := by
  split <;> simp [*]

/-- A list of checks succeeds as all of them do. -/
@[simp] theorem forM_eq_ok {check : α → Except Failure Unit} {items : List α} {u : Unit} :
    forM items check = .ok u ↔ ∀ a ∈ items, check a = .ok () := by
  induction items with
  | nil => simp
  | cons a rest ih =>
    simp only [List.forM_cons, bind_eq_ok, ih, List.forall_mem_cons]
    exact ⟨fun ⟨_, ha, hrest⟩ => ⟨ha, hrest⟩, fun ⟨ha, hrest⟩ => ⟨_, ha, hrest⟩⟩

/-- A list of checks fails as one of them does. -/
theorem exists_of_forM_eq_error {check : α → Except Failure Unit} {items : List α} {f : Failure}
    (h : items.forM check = .error f) : ∃ a ∈ items, check a = .error f := by
  induction items with
  | nil => cases h
  | cons a rest ih =>
    rw [List.forM_eq_forM, List.forM_cons] at h
    cases ha : check a with
    | error e =>
      rw [ha] at h
      cases h
      exact ⟨a, List.mem_cons_self, ha⟩
    | ok u =>
      rw [ha] at h
      obtain ⟨b, hb, hfail⟩ := ih h
      exact ⟨b, List.mem_cons_of_mem a hb, hfail⟩

/-- What succeeds for a list succeeds for each of its elements. -/
theorem forall₂_of_mapM_eq_ok {f : α → Except Failure β} {items : List α} {out : List β}
    (h : items.mapM f = .ok out) : List.Forall₂ (fun a b => f a = .ok b) items out := by
  induction items generalizing out with
  | nil =>
    cases h
    exact .nil
  | cons a rest ih =>
    obtain ⟨b, hb, out, hout, rfl⟩ := by simpa using h
    exact .cons hb (ih hout)

end

/-! ### Counts and tables -/

namespace Writer

variable {α : Type} {write : α → Written} {items : List α} {bytes : Bytes}

@[simp] theorem length_u1 (n : UInt8) : (u1 n).length = 1 := rfl

@[simp] theorem length_u2 (n : UInt16) : (u2 n).length = 2 := BigEndian.length_ofNat ..

@[simp] theorem length_u4 (n : UInt32) : (u4 n).length = 4 := BigEndian.length_ofNat ..

@[simp] theorem length_i1 (n : Int8) : (i1 n).length = 1 := rfl

@[simp] theorem length_i2 (n : Int16) : (i2 n).length = 2 := length_u2 _

@[simp] theorem length_i4 (n : Int32) : (i4 n).length = 4 := length_u4 _

/-- A count is written if it fits into its bytes. -/
theorem count_eq_ok {width : CountWidth} {n : Nat} :
    count width n = .ok bytes ↔
      n < BigEndian.capacity width.bytes ∧ bytes = BigEndian.ofNat width.bytes n := by
  simp only [count]
  split <;> simp [*, eq_comm]

@[simp] theorem count_u1_eq_ok {n : Nat} :
    count .u1 n = .ok bytes ↔ n < 256 ∧ bytes = u1 (UInt8.ofNat n) := count_eq_ok

/-- A count of two bytes. -/
@[simp] theorem count_u2_eq_ok {n : Nat} :
    count .u2 n = .ok bytes ↔ n < 65536 ∧ bytes = u2 (UInt16.ofNat n) :=
  count_eq_ok.trans <| and_congr_right fun hn => by rw [u2, UInt16.toNat_ofNat_of_lt' hn]; rfl

@[simp] theorem count_u4_eq_ok {n : Nat} :
    count .u4 n = .ok bytes ↔ n < 4294967296 ∧ bytes = u4 (UInt32.ofNat n) :=
  count_eq_ok.trans <| and_congr_right fun hn => by rw [u4, UInt32.toNat_ofNat_of_lt' hn]; rfl

/-- The first row is written before the others. -/
theorem rows_cons (write : α → Written) (a : α) (rest : List α) :
    rows write (a :: rest) = (do let x ← write a; let y ← rows write rest; return x ++ y) := by
  simp only [rows, List.mapM_cons, bind_assoc, pure_bind, List.flatten_cons]

/-- Rows are written one after another, if each of them can be. -/
theorem rows_eq_ok :
    rows write items = .ok bytes ↔ Spelling.each (fun a x => write a = .ok x) items bytes := by
  induction items generalizing bytes with
  | nil => exact pure_eq_ok.trans eq_comm
  | cons a rest ih =>
    simp only [rows_cons, bind_eq_ok, pure_eq_ok, ih, Spelling.each_cons]
    constructor
    · rintro ⟨x, hx, y, hy, rfl⟩
      exact ⟨x, y, hx, hy, rfl⟩
    · rintro ⟨x, y, hx, hy, rfl⟩
      exact ⟨x, hx, y, hy, rfl⟩

/-- A table is written as a count of two bytes and its rows. -/
theorem table_eq_ok :
    table write items = .ok bytes ↔ items.length < 65536 ∧
      ∃ y, Spelling.each (fun a x => write a = .ok x) items y ∧
        bytes = u2 (UInt16.ofNat items.length) ++ y := by
  simp only [table, bind_eq_ok, pure_eq_ok, count_u2_eq_ok, rows_eq_ok]
  constructor
  · rintro ⟨_, ⟨hn, rfl⟩, y, hy, rfl⟩
    exact ⟨hn, y, hy, rfl⟩
  · rintro ⟨hn, y, hy, rfl⟩
    exact ⟨_, ⟨hn, rfl⟩, y, hy, rfl⟩

/-- Each row of a table that is written is written. -/
theorem exists_of_table (h : table write items = .ok bytes) :
    ∀ a ∈ items, ∃ x, write a = .ok x := by
  obtain ⟨-, y, hy, -⟩ := table_eq_ok.1 h
  clear h
  induction items generalizing y with
  | nil => exact nofun
  | cons a rest ih =>
    obtain ⟨x, y, hx, hy, -⟩ := hy
    exact List.forall_mem_cons.2 ⟨⟨x, hx⟩, ih y hy⟩

/-- A table can be written if its rows can be counted and written. -/
theorem exists_table_iff :
    (∃ bytes, table write items = .ok bytes) ↔
      items.length ≤ 65535 ∧ ∀ a ∈ items, ∃ x, write a = .ok x := by
  simp only [table_eq_ok, ← Spelling.exists_each_iff (L := fun a x => write a = .ok x),
    exists_and_left]
  rw [Nat.lt_succ_iff]
  refine and_congr_right fun _ => ⟨?_, ?_⟩
  · rintro ⟨_, y, hy, -⟩
    exact ⟨y, hy⟩
  · rintro ⟨y, hy⟩
    exact ⟨_, y, hy, rfl⟩

/-- A short table is written as a count of one byte and its rows. -/
theorem shortTable_eq_ok :
    shortTable write items = .ok bytes ↔ items.length < 256 ∧
      ∃ y, Spelling.each (fun a x => write a = .ok x) items y ∧
        bytes = u1 (UInt8.ofNat items.length) ++ y := by
  simp only [shortTable, bind_eq_ok, pure_eq_ok, count_u1_eq_ok, rows_eq_ok]
  constructor
  · rintro ⟨_, ⟨hn, rfl⟩, y, hy, rfl⟩
    exact ⟨hn, y, hy, rfl⟩
  · rintro ⟨hn, y, hy, rfl⟩
    exact ⟨_, ⟨hn, rfl⟩, y, hy, rfl⟩

/-- Rows that can always be written. -/
theorem rows_ok (write : α → Bytes) (items : List α) :
    rows (fun a => .ok (write a)) items = .ok (items.flatMap write) :=
  rows_eq_ok.2 <| by simp [eq_comm (a := write _)]

/-- Rows that are gathered in a list, the last one first. -/
theorem gathered_eq_rows {gather : List Bytes → List α → Written}
    (hnil : ∀ done, gather done [] = .ok done.reverse.flatten)
    (hcons : ∀ done a rest, gather done (a :: rest) = do gather ((← write a) :: done) rest) :
    gather [] items = rows write items := by
  -- What has been gathered stands before the rows that are left.
  have h (done : List Bytes) :
      gather done items = do return done.reverse.flatten ++ (← rows write items) := by
    induction items generalizing done with
    | nil => simp [hnil, rows, pure, Except.pure, bind, Except.bind]
    | cons a rest ih => simp [hcons, ih, rows_cons]
  simpa using h []

/-- Indices are written as a table of them. -/
theorem indices_eq_table : indices = table fun index => .ok (u2 index) := by
  funext indices
  simp only [Writer.indices, table, rows_ok]
  rfl

end Writer

/-! ### Reading back -/

namespace Reader

variable {α : Type}

/-- The reader gives exactly the values that are written as what it takes off and that meet
    the condition. -/
abbrev Inverts (r : Reader α) (write : α → Written) (P : α → Prop) : Prop :=
  r.Reads fun a bytes => write a = .ok bytes ∧ P a

variable {read : Nat → Reader α} {write : α → Written} {P : α → Prop} {L : Spelling α}

/-- A table is read as a count of two bytes and as many rows. -/
theorem Reads.table (h : ∀ i, (read i).Reads L) : (table read).Reads fun items bytes =>
    items.length < 65536 ∧
      ∃ y, L.each items y ∧ bytes = Writer.u2 (UInt16.ofNat items.length) ++ y :=
  (reads_u2.bind fun n => Reads.times h n.toNat).congr fun items bytes => by
    constructor
    · rintro ⟨n, _, rfl, y, ⟨hn, hy⟩, rfl⟩
      exact ⟨hn ▸ n.toNat_lt, y, hy, by simp [hn]⟩
    · rintro ⟨hn, y, hy, rfl⟩
      exact ⟨_, _, rfl, y, ⟨(UInt16.toNat_ofNat_of_lt' hn).symm, hy⟩, rfl⟩

/-- A short table is read as a count of one byte and as many rows. -/
theorem Reads.shortTable (h : ∀ i, (read i).Reads L) : (shortTable read).Reads fun items bytes =>
    items.length < 256 ∧ ∃ y, L.each items y ∧ bytes = Writer.u1 (UInt8.ofNat items.length) ++ y :=
  (reads_u1.bind fun n => Reads.times h n.toNat).congr fun items bytes => by
    constructor
    · rintro ⟨n, _, rfl, y, ⟨hn, hy⟩, rfl⟩
      exact ⟨hn ▸ n.toNat_lt, y, hy, by simp [hn]⟩
    · rintro ⟨hn, y, hy, rfl⟩
      exact ⟨_, _, rfl, y, ⟨(UInt8.toNat_ofNat_of_lt' hn).symm, hy⟩, rfl⟩

/-- A table is inverted as its rows are, and admitted if all of them are. -/
theorem Inverts.table (h : ∀ i, (read i).Inverts write P) :
    (table read).Inverts (Writer.table write) fun items => ∀ a ∈ items, P a :=
  (Reads.table h).congr fun items bytes => by
    simp only [Spelling.each_and, Writer.table_eq_ok]
    tauto

/-- A short table is inverted as its rows are, and admitted if all of them are. -/
theorem Inverts.shortTable (h : ∀ i, (read i).Inverts write P) :
    (shortTable read).Inverts (Writer.shortTable write) fun items => ∀ a ∈ items, P a :=
  (Reads.shortTable h).congr fun items bytes => by
    simp only [Spelling.each_and, Writer.shortTable_eq_ok]
    tauto

theorem Inverts.within {r : Reader α} {note : Note} (h : r.Inverts write P) :
    (within note r).Inverts write P := Reads.within h

end Reader

end ClassFormat
