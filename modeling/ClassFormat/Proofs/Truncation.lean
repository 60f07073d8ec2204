import Mathlib
import ClassFormat.Proofs.Reading

/-!
# Readers that run out of bytes

What becomes of a reader that is given fewer bytes, or more, than those it takes.

* `Reader.Starves`: cut short of what it takes, the reader fails as truncated, at the end of the
  bytes, and asks for no more than was cut off. A sequence of readers starves if each of them does
  (`Reader.Starves.bind`); whoever has taken all of its bytes may fail in any way after that
  (`Reader.Still`), for which bytes it is given then does not depend on the cut;
* `Reader.starves_bytes`, `Reader.Starves.times`, `Reader.Starves.table`: bytes and tables;
* `Reader.Overflows`: with more bytes than it takes, the reader fails for what is left over;
* `Reader.Definite`: a reader that starves, and that takes the same whatever follows. Whether it is
  at the end has no say in what such a reader takes, so its end can be told from its beginning.
-/

namespace ClassFormat

namespace Reader

variable {α β : Type} {r : Reader α} {k : α → Reader β} {L : Spelling α}

/-! ### Too few bytes -/

/-- The reader fails for want of bytes that are before `limit`, at the end of those that it has. -/
def Lacks (r : Reader α) (c : Cursor) (limit : Nat) : Prop :=
  ∃ f c' offset needed available, r c = .error f c' ∧
    f.fault? = some (.truncated offset needed available) ∧
      offset + available = c.offset + c.rest.length ∧ available < needed ∧ offset + needed ≤ limit

/-- If the reader is given only a part of the bytes that it takes, it fails for want of the
    others. -/
structure Starves (r : Reader α) : Prop where
  cut : ∀ {c a c'}, r c = .ok a c' → ∃ x, c.Past x c' ∧
    ∀ {d : Cursor} {n}, d.offset = c.offset → n < x.length → d.rest = x.take n → r.Lacks d c'.offset

/-- The reader takes nothing. -/
structure Still (r : Reader α) : Prop where
  past : ∀ {c a c'}, r c = .ok a c' → c.Past [] c'

/-- A reader that takes nothing cannot be cut short. -/
theorem Still.starves (h : r.Still) : r.Starves :=
  ⟨fun hr => ⟨[], h.past hr, fun _ hn => by cases hn⟩⟩

/-- A reader that fails lacks what it lacks in a sequence, too. -/
theorem Lacks.bind {c : Cursor} {limit limit' : Nat} (h : r.Lacks c limit) (hle : limit ≤ limit') :
    (r >>= k).Lacks c limit' := by
  obtain ⟨f, c', offset, needed, available, hr, hfault, hend, hlt, hlimit⟩ := h
  refine ⟨f, c', offset, needed, available, ?_, hfault, hend, hlt, hlimit.trans hle⟩
  simp only [Bind.bind, EStateM.bind, hr]

/-- Whatever follows what the reader takes, it takes that and gives the same value. -/
structure Stable (r : Reader α) : Prop where
  again : ∀ {c a c'}, r c = .ok a c' → ∃ x, c.Past x c' ∧
    ∀ {d : Cursor} {rest}, d.offset = c.offset → d.rest = x ++ rest → ∃ d',
    r d = .ok a d' ∧ d.Past x d'

/-- A reader of spellings takes the same spelling whatever follows it. -/
theorem Reads.stable (h : r.Reads L) : r.Stable := ⟨fun hr =>
  let ⟨x, hx, past⟩ := h.sound hr
  ⟨x, past, fun _ hd => h.complete hx hd⟩⟩

/-- Cut short, a sequence lacks bytes in the reader that would have taken those at the cut. -/
theorem Starves.bind_stable (hstable : r.Stable) (hr : r.Starves) (hk : ∀ a, (k a).Starves) :
    (r >>= k).Starves := by
  refine ⟨fun {c b c'} h => ?_⟩
  obtain ⟨a, c₁, h₁, h₂⟩ := bind_eq_ok.1 h
  obtain ⟨x, past, hcut⟩ := hr.cut h₁
  obtain ⟨y, past', hcut'⟩ := (hk a).cut h₂
  refine ⟨x ++ y, past.trans past', fun {d n} hoffset hn hd => ?_⟩
  by_cases hx : n < x.length
  · -- The cut is within what the first reader takes.
    rw [List.take_append_of_le_length hx.le] at hd
    exact (hcut hoffset hx hd).bind (by rw [past'.offset]; exact Nat.le_add_right ..)
  · -- The first reader has all of its bytes, and the second one starves.
    obtain ⟨x', past₁, hagain⟩ := hstable.again h₁
    obtain rfl : x = x' := by
      have := past.rest.symm.trans past₁.rest
      exact List.append_cancel_right this
    rw [List.take_append, List.take_of_length_le (Nat.not_lt.1 hx)] at hd
    obtain ⟨d₁, hd₁, pastd⟩ := hagain hoffset hd
    rw [List.length_append] at hn
    obtain ⟨f, d', offset, needed, available, hfail, hfault, hend, hrest⟩ :=
      hcut' (d := d₁) (n := n - x.length) (by rw [pastd.offset, past.offset, hoffset]) (by omega)
        (pastd.rest_eq hd)
    refine ⟨f, d', offset, needed, available, ?_, hfault, ?_, hrest⟩
    · simp only [Bind.bind, EStateM.bind, hd₁]
      exact hfail
    · rw [hend, pastd.offset, pastd.rest, List.length_append, Nat.add_assoc]

/-- Readers of spellings starve in sequence. -/
theorem Starves.bind (hreads : r.Reads L) (hr : r.Starves) (hk : ∀ a, (k a).Starves) :
    (r >>= k).Starves :=
  .bind_stable hreads.stable hr hk

/-- A reader whose values are used only for what is given in the end. -/
theorem Starves.bind_still (hr : r.Starves) (hk : ∀ a, (k a).Still) : (r >>= k).Starves := by
  refine ⟨fun {c b c'} h => ?_⟩
  obtain ⟨a, c₁, h₁, h₂⟩ := bind_eq_ok.1 h
  obtain ⟨x, past, hcut⟩ := hr.cut h₁
  have past' := past.trans ((hk a).past h₂)
  rw [List.append_nil] at past'
  refine ⟨x, past', fun hoffset hn hd => (hcut hoffset hn hd).bind ?_⟩
  rw [past.offset, past'.offset]

/-- The offset that a reader asks for is the same for fewer bytes. -/
theorem Starves.offset {k : Nat → Reader α} (hk : ∀ o, (k o).Starves) :
    (Reader.offset >>= k).Starves := by
  refine ⟨fun {c a c'} h => ?_⟩
  obtain ⟨x, past, hcut⟩ := (hk c.offset).cut h
  refine ⟨x, past, fun {d n} hoffset hn hd => ?_⟩
  obtain ⟨f, d', offset, needed, available, hfail, hrest⟩ := hcut hoffset hn hd
  exact ⟨f, d', offset, needed, available, by rw [offset_bind, hoffset, hfail], hrest⟩

/-- What a reader gives does not depend on how its failures are reported. -/
theorem mapFailure_eq_ok {change : Failure → Failure} {c c' : Cursor} {a : α} :
    mapFailure change r c = .ok a c' ↔ r c = .ok a c' := by
  simp only [Reader.mapFailure]
  cases r c <;> simp

/-- A note about where a failure happens keeps what it tells of the bytes. -/
theorem Starves.within {note : Note} (hr : r.Starves) : (within note r).Starves := by
  refine ⟨fun {c a c'} h => ?_⟩
  obtain ⟨x, past, hcut⟩ := hr.cut (mapFailure_eq_ok.1 h)
  refine ⟨x, past, fun hoffset hn hd => ?_⟩
  obtain ⟨f, d', offset, needed, available, hfail, hrest⟩ := hcut hoffset hn hd
  exact ⟨f.within note, d', offset, needed,
    available, by simp only [Reader.within, mapFailure, hfail], hrest⟩

/-! ### Readers that take nothing -/

/-- Giving a value takes nothing. -/
theorem Still.pure (a : α) : Still (Pure.pure a : Reader α) where
  past h := by
    cases h
    exact .refl _

/-- A check takes nothing. -/
theorem Still.check (x : Except Failure α) : Still (liftM x : Reader α) where
  past h := by
    cases x <;> cases h
    exact .refl _

/-- An entry in the log takes nothing. -/
theorem Still.log (event : Log.Event) : Still (Reader.log event) where
  past h := by
    cases h
    exact ⟨rfl, rfl⟩

/-- A reader that fails gives no value for which it could have taken anything. -/
theorem Still.raise (fault : Fault) : Still (fault.raise : Reader α) where
  past h := by cases h

/-- Two readers that take nothing take nothing together. -/
theorem Still.bind (hr : r.Still) (hk : ∀ a, (k a).Still) : (r >>= k).Still where
  past h := by
    obtain ⟨a, _, h₁, h₂⟩ := bind_eq_ok.1 h
    exact (hr.past h₁).trans ((hk a).past h₂)

theorem Still.mapFailure {change : Failure → Failure} (hr : r.Still) :
    (mapFailure change r).Still where
  past h := hr.past (mapFailure_eq_ok.1 h)

/-- A confined reader takes none of the bytes outside. -/
theorem Still.confined (start : Nat) (body : Bytes) (r : Reader α) :
    (confined start body r).Still where
  past h := by
    obtain ⟨_, _, _, rfl⟩ := confined_eq_ok.1 h
    exact ⟨rfl, rfl⟩

/-- A reader that first refuses what meets a condition. -/
theorem Starves.refuse {p : Prop} [Decidable p] {fault : Fault} {k : β → Reader α} {b : β}
    (hk : (k b).Starves) : Starves (if p then (fault.raise : Reader β) >>= k else k b) := by
  split
  · exact ⟨fun h => by cases h⟩
  · exact hk

/-! ### Bytes, numbers and tables -/

/-- The base of all truncation: if too few bytes are left, the fault tells so. -/
theorem starves_bytes (n : Nat) : (bytes n).Starves := by
  refine ⟨fun {c b c'} h => ?_⟩
  obtain ⟨x, ⟨rfl, rfl⟩, past⟩ := (reads_bytes n).sound h
  refine ⟨x, past, fun {d m} hoffset hm hd => ?_⟩
  -- All that is left after the cut is less than what is asked for.
  have hshort : d.rest.take x.length = d.rest := by
    rw [hd, List.take_take, Nat.min_eq_right hm.le]
  have hlength : d.rest.length = m := by
    rw [hd, List.length_take, Nat.min_eq_left hm.le]
  refine ⟨.ofFault (.truncated d.offset x.length m), d, d.offset, x.length, m, ?_,
    rfl, by rw [hlength], hm, by rw [past.offset, hoffset]⟩
  simp only [bytes, hshort, hlength, if_neg hm.ne]

theorem starves_number (width : Nat) : (number width).Starves :=
  (starves_bytes width).bind_still fun _ => .pure _

theorem starves_u1 : u1.Starves := (starves_number 1).bind_still fun _ => .pure _

theorem starves_u2 : u2.Starves := (starves_number 2).bind_still fun _ => .pure _

theorem starves_u4 : u4.Starves := (starves_number 4).bind_still fun _ => .pure _

theorem starves_u8 : u8.Starves := (starves_number 8).bind_still fun _ => .pure _

theorem starves_i4 : i4.Starves := starves_u4.bind_still fun _ => .pure _

theorem starves_i8 : i8.Starves := starves_u8.bind_still fun _ => .pure _

/-- A loop starves in the round in which its bytes are cut off. -/
theorem Starves.timesFrom {read : Nat → Reader α} (hreads : ∀ i, (read i).Reads L)
    (h : ∀ i, (read i).Starves) (n index : Nat) (done : List α) :
    (timesFrom read index done n).Starves := by
  induction n generalizing index done with
  | zero => exact (Still.pure _).starves
  | succ n ih => exact .bind (hreads index) (h index) fun a => ih (index + 1) (a :: done)

theorem Starves.times {read : Nat → Reader α} (hreads : ∀ i, (read i).Reads L)
    (h : ∀ i, (read i).Starves) (n : Nat) : (times n read).Starves := .timesFrom hreads h n 0 []

/-- A table starves in its count or in one of its rows. -/
theorem Starves.table {read : Nat → Reader α} (hreads : ∀ i, (read i).Reads L)
    (h : ∀ i, (read i).Starves) : (table read).Starves :=
  .bind reads_u2 starves_u2 fun n => .times hreads h n.toNat

/-! ### Too many bytes -/

/-- If the reader is given more bytes than those it reads to the end of, it fails for what is
    left. -/
structure Overflows (r : Reader α) : Prop where
  fails : ∀ {c a c'}, r c = .ok a c' → ∀ {d : Cursor} {extra}, d.offset = c.offset → extra ≠ [] →
    d.rest = c.rest ++ extra → ∃ f d', r d = .error f d' ∧
      f.fault? = some (.malformed (.trailingData extra.length (c.offset + c.rest.length)))

/-- What is left over at the end of a sequence is left over by its last reader. -/
theorem Overflows.bind (hreads : r.Reads L) (hk : ∀ a, (k a).Overflows) : (r >>= k).Overflows := by
  refine ⟨fun {c b c'} h {d extra} hoffset hextra hd => ?_⟩
  obtain ⟨a, c₁, h₁, h₂⟩ := bind_eq_ok.1 h
  obtain ⟨x, hx, past⟩ := hreads.sound h₁
  rw [past.rest, List.append_assoc] at hd
  obtain ⟨d₁, hd₁, pastd⟩ := hreads.complete hx hd
  obtain ⟨f, d', hfail, hfault⟩ :=
    (hk a).fails h₂ (by rw [pastd.offset, past.offset, hoffset]) hextra (pastd.rest_eq hd)
  refine ⟨f, d', ?_, ?_⟩
  · simp only [Bind.bind, EStateM.bind, hd₁]
    exact hfail
  · rw [hfault, past.offset, past.rest, List.length_append, Nat.add_assoc]

/-- A condition that is refused first has no say in what is left over. -/
theorem Overflows.refuse {p : Prop} [Decidable p] {fault : Fault} {k : β → Reader α} {b : β}
    (hk : (k b).Overflows) : Overflows (if p then (fault.raise : Reader β) >>= k else k b) := by
  split
  · exact ⟨fun h => by cases h⟩
  · exact hk

/-! ### Readers that see where they end -/

/-- The reader takes the same whatever follows, and starves if it is cut short of that. -/
structure Definite (r : Reader α) : Prop extends Stable r, Starves r

/-- A reader of spellings that starves is definite. -/
theorem Definite.of_reads (hreads : r.Reads L) (h : r.Starves) : r.Definite := ⟨hreads.stable, h⟩

theorem Definite.pure (a : α) : Definite (Pure.pure a : Reader α) :=
  .of_reads (.pure a) (Still.pure a).starves

/-- A check is definite, as it takes nothing. -/
theorem Definite.check (x : Except Failure α) : Definite (liftM x : Reader α) :=
  .of_reads (.check x) (Still.check x).starves

theorem Definite.raise (fault : Fault) : Definite (fault.raise : Reader α) :=
  .of_reads (.raise fault) (Still.raise fault).starves

/-- A sequence of definite readers is definite. -/
theorem Definite.bind (hr : r.Definite) (hk : ∀ a, (k a).Definite) : (r >>= k).Definite where
  toStarves := .bind_stable hr.toStable hr.toStarves fun a => (hk a).toStarves
  again {c b c'} h := by
    obtain ⟨a, c₁, h₁, h₂⟩ := bind_eq_ok.1 h
    obtain ⟨x, past, hagain⟩ := hr.again h₁
    obtain ⟨y, past', hagain'⟩ := (hk a).again h₂
    refine ⟨x ++ y, past.trans past', fun {d rest} hoffset hd => ?_⟩
    rw [List.append_assoc] at hd
    obtain ⟨d₁, hd₁, pastd⟩ := hagain hoffset hd
    obtain ⟨d₂, hd₂, pastd'⟩ :=
      hagain' (by rw [pastd.offset, past.offset, hoffset]) (pastd.rest_eq hd)
    exact ⟨d₂, bind_eq_ok.2 ⟨a, d₁, hd₁, hd₂⟩, pastd.trans pastd'⟩

/-- The offset that a reader asks for does not depend on what follows. -/
theorem Definite.offset {k : Nat → Reader α} (hk : ∀ o, (k o).Definite) :
    (Reader.offset >>= k).Definite where
  toStarves := .offset fun o => (hk o).toStarves
  again {c _ _} h := by
    obtain ⟨x, past, hagain⟩ := (hk c.offset).again h
    refine ⟨x, past, fun {d rest} hoffset hd => ?_⟩
    rw [offset_bind, hoffset]
    exact hagain hoffset hd

/-- A note about where failures happen has no say in what is taken. -/
theorem Definite.within {note : Note} (h : r.Definite) : (within note r).Definite where
  toStarves := h.toStarves.within
  again hr := by
    obtain ⟨x, past, hagain⟩ := h.again (mapFailure_eq_ok.1 hr)
    refine ⟨x, past, fun hoffset hd => ?_⟩
    obtain ⟨d', hd', pastd⟩ := hagain hoffset hd
    exact ⟨d', mapFailure_eq_ok.2 hd', pastd⟩

/-- A reader that first refuses what meets a condition. -/
theorem Definite.refuse {p : Prop} [Decidable p] {fault : Fault} {k : β → Reader α} {b : β}
    (hk : (k b).Definite) : Definite (if p then (fault.raise : Reader β) >>= k else k b) := by
  split
  · exact ⟨⟨fun h => by cases h⟩, ⟨fun h => by cases h⟩⟩
  · exact hk

theorem definite_u1 : u1.Definite := .of_reads reads_u1 starves_u1

theorem definite_u2 : u2.Definite := .of_reads reads_u2 starves_u2

theorem definite_u4 : u4.Definite := .of_reads reads_u4 starves_u4

/-- A loop is definite if its rounds are. -/
theorem Definite.timesFrom {read : Nat → Reader α} (h : ∀ i, (read i).Definite) (n index : Nat)
    (done : List α) : (timesFrom read index done n).Definite := by
  induction n generalizing index done with
  | zero => exact .pure _
  | succ n ih => exact .bind (h index) fun a => ih (index + 1) (a :: done)

theorem Definite.times {read : Nat → Reader α} (h : ∀ i, (read i).Definite) (n : Nat) :
    (times n read).Definite := .timesFrom h n 0 []

theorem Definite.table {read : Nat → Reader α} (h : ∀ i, (read i).Definite) :
    (table read).Definite :=
  definite_u2.bind fun n => .times h n.toNat

theorem Definite.shortTable {read : Nat → Reader α} (h : ∀ i, (read i).Definite) :
    (shortTable read).Definite := definite_u1.bind fun n => .times h n.toNat

end Reader

end ClassFormat
