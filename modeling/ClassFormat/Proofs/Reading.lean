import Mathlib
import ClassFormat.Reader
import ClassFormat.Writer

/-!
# What readers read

A reader is described by the *spellings* of the values it gives: `r.Reads L` says that `r`
gives `a` exactly if what is left starts with a spelling of `a`, and that it takes just that
spelling off. Neither the offset within the class file, nor the log, nor what follows the
spelling has a say in it, so spellings compose as the readers do:

* `Reads.bind`, `Reads.guard`, `Reads.refuse` and so on: one rule for each way to build a reader;
* `reads_u1` to `reads_u8`: numbers;
* `Reads.times`: many values, one after another (`Spelling.each`).

A reader that is given certain bytes only, such as the body of an attribute, may take all of
them. `r.Covers L` says that `r` gives `a` and leaves nothing exactly if the bytes are a
spelling of `a`.
-/

namespace ClassFormat

/-- How the values of a type are spelled. -/
abbrev Spelling (α : Type) := α → Bytes → Prop

namespace Spelling

variable {α : Type}

/-- Values one after another. -/
def each (L : Spelling α) : Spelling (List α)
  | [], bytes => bytes = []
  | a :: rest, bytes => ∃ x y, L a x ∧ each L rest y ∧ bytes = x ++ y

@[simp] theorem each_nil {L : Spelling α} {bytes : Bytes} : each L [] bytes ↔ bytes = [] := Iff.rfl

@[simp] theorem each_cons {L : Spelling α} {a : α} {rest : List α} {bytes : Bytes} :
    each L (a :: rest) bytes ↔ ∃ x y, L a x ∧ each L rest y ∧ bytes = x ++ y := Iff.rfl

/-- A condition on the values one by one is a condition on all of them. -/
theorem each_and {L : Spelling α} {P : α → Prop} (items : List α) {bytes : Bytes} :
    each (fun a x => L a x ∧ P a) items bytes ↔ each L items bytes ∧ ∀ a ∈ items, P a := by
  induction items generalizing bytes with
  | nil => simp
  | cons a rest ih =>
    simp only [each_cons, ih, List.forall_mem_cons]
    constructor
    · rintro ⟨x, y, ⟨hx, ha⟩, ⟨hy, hrest⟩, rfl⟩
      exact ⟨⟨x, y, hx, hy, rfl⟩, ha, hrest⟩
    · rintro ⟨⟨x, y, hx, hy, rfl⟩, ha, hrest⟩
      exact ⟨x, y, ⟨hx, ha⟩, ⟨hy, hrest⟩, rfl⟩

/-- Values that each have one spelling are spelled by those put together. -/
@[simp] theorem each_eq (f : α → Bytes) (items : List α) {bytes : Bytes} :
    each (fun a x => x = f a) items bytes ↔ bytes = items.flatMap f := by
  induction items generalizing bytes with
  | nil => simp
  | cons a rest ih => simp [ih]

/-- Values that are all spelled as one byte are spelled as this byte, once for each of them. -/
@[simp] theorem each_singleton {items : List α} {b : UInt8} {bytes : Bytes} :
    each (fun _ x => x = [b]) items bytes ↔ bytes = List.replicate items.length b := by
  induction items generalizing bytes with
  | nil => simp
  | cons a rest ih => simp [ih, List.replicate_succ]

/-- Values that are made from others are spelled as these are. -/
@[simp] theorem each_map {β : Type} {L : Spelling α} (f : β → α) (items : List β) {bytes : Bytes} :
    L.each (items.map f) bytes ↔ each (fun b x => L (f b) x) items bytes := by
  induction items generalizing bytes with
  | nil => rfl
  | cons b rest ih => simp [ih]

/-- Values can be spelled one after another if each of them can. -/
theorem exists_each_iff {L : Spelling α} {items : List α} :
    (∃ bytes, L.each items bytes) ↔ ∀ a ∈ items, ∃ x, L a x := by
  induction items with
  | nil => simp
  | cons a rest ih =>
    rw [List.forall_mem_cons, ← ih]
    constructor
    · rintro ⟨_, x, y, hx, hy, -⟩
      exact ⟨⟨x, hx⟩, y, hy⟩
    · rintro ⟨⟨x, hx⟩, y, hy⟩
      exact ⟨_, x, y, hx, hy, rfl⟩

end Spelling

/-! ### Cursors -/

namespace Cursor

/-- `c'` is where `c` is after the first `bytes` of what is left. -/
structure Past (c : Cursor) (bytes : Bytes) (c' : Cursor) : Prop where
  rest : c.rest = bytes ++ c'.rest
  offset : c'.offset = c.offset + bytes.length

variable {c c' c'' : Cursor} {x y : Bytes}

theorem Past.refl (c : Cursor) : c.Past [] c := ⟨rfl, rfl⟩

/-- One part of what is left, and then another one, is taken off as both at once. -/
theorem Past.trans (h : c.Past x c') (h' : c'.Past y c'') : c.Past (x ++ y) c'' where
  rest := by rw [h.rest, h'.rest, List.append_assoc]
  offset := by rw [h'.offset, h.offset, List.length_append, Nat.add_assoc]

/-- What is left after the first bytes is what follows them. -/
theorem Past.rest_eq (h : c.Past x c') (hc : c.rest = x ++ y) : c'.rest = y :=
  List.append_cancel_left (h.rest.symm.trans hc)

end Cursor

namespace Reader

variable {α β : Type}

/-! ### Reading a spelling -/

/-- The reader takes off exactly the spellings of the values it gives. -/
structure Reads (r : Reader α) (L : Spelling α) : Prop where
  sound : ∀ {c a c'}, r c = .ok a c' → ∃ bytes, L a bytes ∧ c.Past bytes c'
  complete : ∀ {a bytes}, L a bytes → ∀ {c rest}, c.rest = bytes ++ rest →
    ∃ c', r c = .ok a c' ∧ c.Past bytes c'

/-- The reader gives a value and leaves nothing exactly for the spellings of the value. -/
structure Covers (r : Reader α) (L : Spelling α) : Prop where
  sound : ∀ {c a c'}, r c = .ok a c' → c'.rest = [] → L a c.rest
  complete : ∀ {c a}, L a c.rest → ∃ c', r c = .ok a c' ∧ c'.rest = []

variable {r : Reader α} {k : α → Reader β} {L L' : Spelling α} {M : α → Spelling β}

/-- Only what counts as a spelling matters, not how that is stated. -/
theorem Reads.congr (h : r.Reads L) (hL : ∀ a bytes, L a bytes ↔ L' a bytes) : r.Reads L' := by
  have : L = L' := funext fun a => funext fun bytes => propext (hL a bytes)
  exact this ▸ h

/-- Only what counts as a spelling matters, also for a reader that takes all that is left. -/
theorem Covers.congr (h : r.Covers L) (hL : ∀ a bytes, L a bytes ↔ L' a bytes) : r.Covers L' := by
  have : L = L' := funext fun a => funext fun bytes => propext (hL a bytes)
  exact this ▸ h

/-- A reader of spellings covers these, too: none of the bytes may be left then. -/
theorem Reads.covers (h : r.Reads L) : r.Covers L where
  sound hr hc := by
    obtain ⟨bytes, hb, past⟩ := h.sound hr
    rw [past.rest, hc, List.append_nil]
    exact hb
  complete hc := by
    obtain ⟨c', hr, past⟩ := h.complete hc (List.append_nil _).symm
    exact ⟨c', hr, past.rest_eq (List.append_nil _).symm⟩

/-- Spellings of different values are different, whatever follows them. -/
theorem Reads.unique (h : r.Reads L) {a b : α} {x y s t : Bytes} (ha : L a x) (hb : L b y)
    (he : x ++ s = y ++ t) : a = b ∧ s = t := by
  obtain ⟨c₁, h₁, past₁⟩ := h.complete ha (c := ⟨x ++ s, 0, []⟩) rfl
  obtain ⟨c₂, h₂, past₂⟩ := h.complete hb (c := ⟨x ++ s, 0, []⟩) he
  obtain ⟨rfl, rfl⟩ : a = b ∧ c₁ = c₂ := by simpa using h₁.symm.trans h₂
  exact ⟨rfl, (past₁.rest_eq rfl).symm.trans (past₂.rest_eq he)⟩

/-! ### Building readers -/

/-- A reader goes on after another one if both give a value, the second from where the first one
    stopped. -/
theorem bind_eq_ok {c c' : Cursor} {b : β} :
    (r >>= k) c = .ok b c' ↔ ∃ a c₁, r c = .ok a c₁ ∧ k a c₁ = .ok b c' := by
  simp only [bind, EStateM.bind]
  cases r c with
  | ok a c₁ =>
    refine ⟨fun h => ⟨a, c₁, rfl, h⟩, fun ⟨a', c', h, hk⟩ => ?_⟩
    cases h
    exact hk
  | error f c₁ => simp

/-- A reader that gives a value without reading takes nothing off. -/
theorem Reads.pure (a : α) : Reads (Pure.pure a) fun b bytes => b = a ∧ bytes = [] where
  sound h := by
    cases h
    exact ⟨[], ⟨rfl, rfl⟩, .refl _⟩
  complete := by
    rintro _ _ ⟨rfl, rfl⟩ c _ _
    exact ⟨c, rfl, .refl c⟩

/-- A reader that goes on after another one reads a spelling for each, one after the other. -/
theorem Reads.bind (hr : r.Reads L) (hk : ∀ a, (k a).Reads (M a)) :
    (r >>= k).Reads fun b bytes => ∃ a x, L a x ∧ ∃ y, M a b y ∧ bytes = x ++ y where
  sound h := by
    obtain ⟨a, c₁, h₁, h₂⟩ := bind_eq_ok.1 h
    obtain ⟨x, hx, past⟩ := hr.sound h₁
    obtain ⟨y, hy, past'⟩ := (hk a).sound h₂
    exact ⟨x ++ y, ⟨a, x, hx, y, hy, rfl⟩, past.trans past'⟩
  complete := by
    rintro b _ ⟨a, x, hx, y, hy, rfl⟩ c rest hc
    rw [List.append_assoc] at hc
    obtain ⟨c₁, h₁, past⟩ := hr.complete hx hc
    obtain ⟨c₂, h₂, past'⟩ := (hk a).complete hy (past.rest_eq hc)
    exact ⟨c₂, bind_eq_ok.2 ⟨a, c₁, h₁, h₂⟩, past.trans past'⟩

/-- Values that are made of those of a reader. -/
theorem Reads.map {f : α → β} (hr : r.Reads L) :
    Reads (r >>= fun a => Pure.pure (f a)) fun b bytes => ∃ a, b = f a ∧ L a bytes :=
  (hr.bind fun a => Reads.pure (f a)).congr fun b bytes => by simp [and_comm]

/-- The second reader may rely on what is known of the values of the first. -/
theorem Covers.bind_spelled (hr : r.Reads L) (hk : ∀ a x, L a x → (k a).Covers (M a)) :
    (r >>= k).Covers fun b bytes => ∃ a x, L a x ∧ ∃ y, M a b y ∧ bytes = x ++ y where
  sound h hc := by
    obtain ⟨a, c₁, h₁, h₂⟩ := bind_eq_ok.1 h
    obtain ⟨x, hx, past⟩ := hr.sound h₁
    exact ⟨a, x, hx, c₁.rest, (hk a x hx).sound h₂ hc, past.rest⟩
  complete := by
    rintro c b ⟨a, x, hx, y, hy, hc⟩
    obtain ⟨c₁, h₁, past⟩ := hr.complete hx hc
    rw [← past.rest_eq hc] at hy
    obtain ⟨c₂, h₂, hend⟩ := (hk a x hx).complete hy
    exact ⟨c₂, bind_eq_ok.2 ⟨a, c₁, h₁, h₂⟩, hend⟩

/-- Only the last one of the readers has to take all that is left. -/
theorem Covers.bind (hr : r.Reads L) (hk : ∀ a, (k a).Covers (M a)) :
    (r >>= k).Covers fun b bytes => ∃ a x, L a x ∧ ∃ y, M a b y ∧ bytes = x ++ y :=
  Covers.bind_spelled hr fun a _ _ => hk a

/-- The result of a check. -/
theorem Reads.check (x : Except Failure α) :
    Reads (liftM x : Reader α) fun a bytes => x = .ok a ∧ bytes = [] := by
  cases x with
  | ok a => exact (Reads.pure a).congr fun b bytes => by simp [eq_comm]
  | error f =>
    exact
      { sound := fun h => by cases h
        complete := by rintro _ _ ⟨h, _⟩; cases h }

/-- A check, the result of which is used in messages only. -/
theorem Reads.guard {k : α → Reader β} {M : Spelling β} (x : Except Failure α)
    (hk : ∀ a, (k a).Reads M) :
    Reads ((liftM x : Reader α) >>= k) fun b bytes => (∃ a, x = .ok a) ∧ M b bytes :=
  ((Reads.check x).bind (M := fun _ => M) hk).congr fun b bytes => by simp

/-- A check in front of a reader that takes all that is left. -/
theorem Covers.guard {k : α → Reader β} {M : Spelling β} (x : Except Failure α)
    (hk : ∀ a, (k a).Covers M) :
    Covers ((liftM x : Reader α) >>= k) fun b bytes => (∃ a, x = .ok a) ∧ M b bytes :=
  (Covers.bind (M := fun _ => M) (Reads.check x) hk).congr fun b bytes => by simp

/-- A check with a known result. -/
theorem Reads.known {x : Except Failure α} {a : α} {k : α → Reader β} {M : Spelling β}
    (hx : x = .ok a) (hk : (k a).Reads M) : ((liftM x : Reader α) >>= k).Reads M := by
  subst hx
  exact hk

/-- A reader that fails reads nothing. -/
theorem Reads.raise (fault : Fault) : Reads (fault.raise : Reader α) fun _ _ => False where
  sound h := by cases h
  complete h := h.elim

/-- A reader that first refuses what meets a condition, and goes on knowing that it does not. -/
theorem Reads.unless {p : Prop} [Decidable p] {fault : Fault} {k : β → Reader α} {b : β}
    (hk : ¬p → (k b).Reads L) :
    Reads (if p then (fault.raise : Reader β) >>= k else k b) fun a bytes => ¬p ∧ L a bytes := by
  split
  next hp =>
    exact
      { sound := fun h => by cases h
        complete := fun h => absurd hp h.1 }
  next hp => exact (hk hp).congr fun a bytes => by simp [hp]

/-- A reader that first refuses what meets a condition. -/
theorem Reads.refuse {p : Prop} [Decidable p] {fault : Fault} {k : β → Reader α} {b : β}
    (hk : (k b).Reads L) :
    Reads (if p then (fault.raise : Reader β) >>= k else k b) fun a bytes => ¬p ∧ L a bytes :=
  Reads.unless fun _ => hk

/-- A reader that takes all that is left, after it has refused what meets a condition. -/
theorem Covers.refuse {p : Prop} [Decidable p] {fault : Fault} {k : β → Reader α} {b : β}
    (hk : (k b).Covers L) :
    Covers (if p then (fault.raise : Reader β) >>= k else k b) fun a bytes => ¬p ∧ L a bytes := by
  split
  · exact
      { sound := fun h => by cases h
        complete := fun h => absurd ‹p› h.1 }
  · exact hk.congr fun a bytes => by simp [*]

/-- How failures are reported has no say in what is read. -/
theorem Reads.mapFailure {change : Failure → Failure} (h : r.Reads L) :
    (mapFailure change r).Reads L where
  sound {c a c'} hr := by
    refine @h.sound c a c' ?_
    simp only [Reader.mapFailure] at hr
    split at hr
    · next hc => exact hc.trans hr
    · cases hr
  complete ha c rest hc := by
    obtain ⟨c', hr, past⟩ := h.complete ha hc
    exact ⟨c', by simp only [Reader.mapFailure, hr], past⟩

theorem Reads.within {note : Note} (h : r.Reads L) : (within note r).Reads L := h.mapFailure

/-- An entry in the log takes nothing off. -/
theorem Reads.log (event : Log.Event) : (log event).Reads fun _ bytes => bytes = [] where
  sound {c a c'} h := by
    cases h
    exact ⟨[], rfl, rfl, rfl⟩
  complete := by
    rintro _ _ rfl c rest hc
    exact ⟨_, rfl, rfl, rfl⟩

/-- The offset within the class file is used in messages only. -/
theorem Reads.offset {k : Nat → Reader α} (hk : ∀ o, (k o).Reads L) :
    (Reader.offset >>= k).Reads L where
  sound {c _ _} h := (hk c.offset).sound h
  complete ha c _ hc := (hk c.offset).complete ha hc

/-! ### Bytes and numbers -/

/-- As many bytes as asked for are their own spelling. -/
theorem reads_bytes (n : Nat) : (bytes n).Reads fun b x => x = b ∧ b.length = n where
  sound {c b c'} h := by
    simp only [bytes] at h
    split at h
    · next hn =>
      cases h
      exact ⟨_, ⟨rfl, hn⟩, (List.take_append_drop n c.rest).symm, by rw [hn]⟩
    · cases h
  complete := by
    rintro _ b ⟨rfl, rfl⟩ c rest hc
    refine ⟨⟨rest, c.offset + b.length, c.log⟩, ?_, hc, rfl⟩
    simp [bytes, hc]

/-- A number is spelled in bytes that it fits into. -/
theorem reads_number (width : Nat) : (number width).Reads fun n x =>
    n < BigEndian.capacity width ∧ x = BigEndian.ofNat width n :=
  ((reads_bytes width).bind fun b => Reads.pure (BigEndian.toNat b)).congr fun n x => by
    constructor
    · rintro ⟨b, _, ⟨rfl, rfl⟩, _, ⟨rfl, rfl⟩, rfl⟩
      exact ⟨BigEndian.toNat_lt_capacity _, by rw [List.append_nil, BigEndian.ofNat_toNat]⟩
    · rintro ⟨hn, rfl⟩
      refine ⟨_, _, ⟨rfl, BigEndian.length_ofNat ..⟩, [], ⟨?_, rfl⟩, (List.append_nil _).symm⟩
      rw [BigEndian.toNat_ofNat, Nat.mod_eq_of_lt hn]

/-- A number as a value of a type that has one for each number of the width. -/
theorem Reads.ofNumber (width : Nat) {f : Nat → α} {g : α → Nat}
    (hlt : ∀ a, g a < BigEndian.capacity width) (hfg : ∀ a, f (g a) = a)
    (hgf : ∀ n < BigEndian.capacity width, g (f n) = n) :
    Reads (number width >>= fun n => Pure.pure (f n)) fun a x => x = BigEndian.ofNat width (g a) :=
  ((reads_number width).bind fun n => Reads.pure (f n)).congr fun a x => by
    constructor
    · rintro ⟨n, _, ⟨hn, rfl⟩, _, ⟨rfl, rfl⟩, rfl⟩
      rw [hgf n hn, List.append_nil]
    · rintro rfl
      exact ⟨g a, _, ⟨hlt a, rfl⟩, [], ⟨(hfg a).symm, rfl⟩, (List.append_nil _).symm⟩

/-- A number of one byte. -/
theorem reads_u1 : u1.Reads fun n x => x = Writer.u1 n :=
  (Reads.ofNumber 1 (f := UInt8.ofNat) UInt8.toNat_lt (fun _ => UInt8.ofNat_toNat)
    fun _ h => UInt8.toNat_ofNat_of_lt' h).congr fun n x => by simp [BigEndian.ofNat, Writer.u1]

theorem reads_u2 : u2.Reads fun n x => x = Writer.u2 n :=
  Reads.ofNumber 2 UInt16.toNat_lt (fun _ => UInt16.ofNat_toNat) fun _ h =>
    UInt16.toNat_ofNat_of_lt' h

theorem reads_u4 : u4.Reads fun n x => x = Writer.u4 n :=
  Reads.ofNumber 4 UInt32.toNat_lt (fun _ => UInt32.ofNat_toNat) fun _ h =>
    UInt32.toNat_ofNat_of_lt' h

theorem reads_u8 : u8.Reads fun n x => x = Writer.u8 n :=
  Reads.ofNumber 8 UInt64.toNat_lt (fun _ => UInt64.ofNat_toNat) fun _ h =>
    UInt64.toNat_ofNat_of_lt' h

/-- A value that is never spelled by nothing may be read by the byte that its spellings start
    with. -/
theorem Reads.firstByte {k : UInt8 → Reader α} (hne : ∀ a, ¬L a [])
    (hk : ∀ b, (k b).Reads fun a y => L a (Writer.u1 b ++ y)) : (u1 >>= k).Reads L :=
  (reads_u1.bind hk).congr fun a bytes => by
    constructor
    · rintro ⟨b, _, rfl, y, h, rfl⟩
      exact h
    · intro h
      cases bytes with
      | nil => exact absurd h (hne a)
      | cons b y => exact ⟨b, _, rfl, y, h, rfl⟩

/-- A number read as another one, each of which stands for the other. -/
theorem Reads.mapInverse {f : α → β} {g : β → α} (hr : r.Reads L) (hfg : ∀ b, f (g b) = b)
    (hgf : ∀ a, g (f a) = a) :
    Reads (r >>= fun a => Pure.pure (f a)) fun b x => L (g b) x :=
  hr.map.congr fun b x => by
    constructor
    · rintro ⟨a, rfl, hx⟩
      rwa [hgf]
    · intro hx
      exact ⟨g b, (hfg b).symm, hx⟩

theorem reads_i1 : i1.Reads fun n x => x = Writer.i1 n :=
  reads_u1.mapInverse Int8.toInt8_toUInt8 UInt8.toUInt8_toInt8

theorem reads_i2 : i2.Reads fun n x => x = Writer.i2 n :=
  reads_u2.mapInverse Int16.toInt16_toUInt16 UInt16.toUInt16_toInt16

theorem reads_i4 : i4.Reads fun n x => x = Writer.i4 n :=
  reads_u4.mapInverse Int32.toInt32_toUInt32 UInt32.toUInt32_toInt32

theorem reads_i8 : i8.Reads fun n x => x = Writer.i8 n :=
  reads_u8.mapInverse Int64.toInt64_toUInt64 UInt64.toUInt64_toInt64

/-! ### Confined readers -/

theorem get_bind {k : Cursor → Reader α} (c : Cursor) : (get >>= k) c = k c c := rfl

theorem offset_bind {k : Nat → Reader α} (c : Cursor) : (Reader.offset >>= k) c = k c.offset c :=
  rfl

/-- A reader that is confined to a body reads nothing else, and what it leaves of the body is passed
    on. -/
theorem confined_eq_ok {start : Nat} {body left : Bytes} {a : α} {c c' : Cursor} :
    confined start body r c = .ok (a, left) c' ↔
      ∃ inner, r ⟨body, start, c.log⟩ = .ok a inner ∧ left = inner.rest ∧
        c' = { c with log := inner.log } := by
  simp only [confined]
  cases r ⟨body, start, c.log⟩ with
  | ok a inner => simp [eq_comm]; tauto
  | error f inner => simp

/-- All that is left is its own spelling. -/
theorem covers_remaining : remaining.Covers fun b bytes => bytes = b where
  sound {c b c'} h _ := by
    rw [remaining, get_bind] at h
    obtain ⟨x, ⟨rfl, hlength⟩, past⟩ := (reads_bytes _).sound h
    have hc := past.rest
    have := congrArg List.length hc
    rw [List.length_append] at this
    rw [hc, List.eq_nil_of_length_eq_zero (l := c'.rest) (by omega), List.append_nil]
  complete {c b} h := by
    obtain ⟨c', hread, past⟩ := @(reads_bytes c.rest.length).complete b b ⟨rfl, by rw [h]⟩ c []
      (by rw [h, List.append_nil])
    exact ⟨c', by rw [remaining, get_bind, hread], past.rest_eq (by rw [h, List.append_nil])⟩

/-! ### Reading to the end -/

/-- The reader leaves nothing. -/
def Exhausts (r : Reader α) : Prop := ∀ {c a c'}, r c = .ok a c' → c'.rest = []

/-- A reader leaves nothing if the last one in it does. -/
theorem Exhausts.bind (hk : ∀ a, (k a).Exhausts) : (r >>= k).Exhausts := fun h =>
  let ⟨a, _, _, h'⟩ := bind_eq_ok.1 h
  hk a h'

/-- What is refused first has no say in what is left at the end. -/
theorem Exhausts.refuse {p : Prop} [Decidable p] {fault : Fault} {k : β → Reader α} {b : β}
    (hk : (k b).Exhausts) : Exhausts (if p then (fault.raise : Reader β) >>= k else k b) := by
  split
  · exact fun h => by cases h
  · exact hk

/-- A check that nothing is left, before a reader that takes nothing. -/
theorem Covers.ended {fault : Cursor → Nat → Fault} {k : Unit → Reader α} {P : α → Prop}
    (hk : (k ()).Reads fun a bytes => P a ∧ bytes = []) :
    Covers (get >>= fun c => if (!c.rest.isEmpty) = true then
      Reader.offset >>= fun o => (fault c o).raise >>= k else k ()) fun a bytes =>
        bytes = [] ∧ P a where
  sound {c a c'} h _ := by
    rw [get_bind] at h
    cases hc : c.rest with
    | nil =>
      rw [hc] at h
      obtain ⟨_, ⟨ha, -⟩, -⟩ := hk.sound h
      exact ⟨rfl, ha⟩
    | cons b rest =>
      rw [hc] at h
      cases h
  complete {c a} h := by
    obtain ⟨hc, ha⟩ := h
    obtain ⟨c', hr, past⟩ := @hk.complete a [] ⟨ha, rfl⟩ c [] hc
    refine ⟨c', ?_, past.rest_eq hc⟩
    rw [get_bind, hc]
    exact hr

/-- After a check that nothing is left, nothing is. -/
theorem Exhausts.ended {fault : Cursor → Nat → Fault} {k : Unit → Reader α} {P : α → Prop}
    (hk : (k ()).Reads fun a bytes => P a ∧ bytes = []) :
    Exhausts (get >>= fun c => if (!c.rest.isEmpty) = true then
      Reader.offset >>= fun o => (fault c o).raise >>= k else k ()) := fun {c a c'} h => by
  rw [get_bind] at h
  cases hc : c.rest with
  | nil =>
    rw [hc] at h
    obtain ⟨_, ⟨-, rfl⟩, past⟩ := hk.sound h
    exact past.rest_eq hc
  | cons b rest =>
    rw [hc] at h
    cases h

/-! ### Many values -/

/-- A loop adds as many values as it has rounds to those that are done. -/
theorem Reads.timesFrom {read : Nat → Reader α} (h : ∀ i, (read i).Reads L) (n index : Nat)
    (done : List α) : (timesFrom read index done n).Reads fun items bytes =>
      ∃ added, items = done.reverse ++ added ∧ added.length = n ∧ L.each added bytes := by
  -- The values so far are generalized: each run goes on with one more of them.
  induction n generalizing index done with
  | zero =>
    refine (Reads.pure done.reverse).congr fun items bytes => ?_
    constructor
    · rintro ⟨rfl, rfl⟩
      exact ⟨[], (List.append_nil _).symm, rfl, rfl⟩
    · rintro ⟨added, rfl, hn, hb⟩
      obtain rfl := List.eq_nil_of_length_eq_zero hn
      exact ⟨List.append_nil _, hb⟩
  | succ n ih =>
    refine ((h index).bind fun a => ih (index + 1) (a :: done)).congr fun items bytes => ?_
    constructor
    · rintro ⟨a, x, hx, y, ⟨added, rfl, rfl, hy⟩, rfl⟩
      exact ⟨a :: added, by simp, rfl, x, y, hx, hy, rfl⟩
    · rintro ⟨_ | ⟨a, added⟩, rfl, hn, hb⟩
      · cases hn
      · obtain ⟨x, y, hx, hy, rfl⟩ := hb
        exact ⟨a, x, hx, y, ⟨added, by simp, by simpa using hn, hy⟩, rfl⟩

/-- As many values as asked for, one after another. -/
theorem Reads.times {read : Nat → Reader α} (h : ∀ i, (read i).Reads L) (n : Nat) :
    (times n read).Reads fun items bytes => items.length = n ∧ L.each items bytes :=
  (Reads.timesFrom h n 0 []).congr fun items bytes => by simp

/-- As many values tell themselves apart by their spellings. -/
theorem Reads.flatMap_unique {f : α → Bytes} (h : r.Reads fun a x => x = f a)
    {items items' : List α} {s t : Bytes} (hn : items.length = items'.length)
    (he : items.flatMap f ++ s = items'.flatMap f ++ t) : items = items' ∧ s = t :=
  (Reads.times (fun _ => h) items.length).unique ⟨rfl, (Spelling.each_eq f items).2 rfl⟩
    ⟨hn.symm, (Spelling.each_eq f items').2 rfl⟩ he

end Reader

end ClassFormat
