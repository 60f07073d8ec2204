import Mathlib
import ClassFormat.Proofs.Text.Sequence

/-!
# Bytes that are written anew

The decoder accepts two forms that are never written: a zero in one byte, and a code point in four
bytes. The text is written with two bytes for the one, with six for the other, and with the bytes
that it was decoded from for everything else.

* `ModifiedUtf8.expansion`: how many more bytes are written;
* `ModifiedUtf8.respelled_of_decode`: the bytes of a decoded text, next to those that it was decoded
  from.
-/

namespace ClassFormat

open Utf8

namespace ModifiedUtf8

variable {a b c d e f : UInt8} {n : Nat} {p : CodePoint} {more : Nat} {tail bytes x x' y y' : Bytes}
  {t : Text}

/-- How many more bytes are written for a text than it was decoded from. -/
def expansion (bytes : Bytes) : Nat := bytes.count 0 + 2 * bytes.countP (0xF0 ≤ ·)

/-- Two parts expand by what each of them does. -/
@[simp] theorem expansion_append (x y : Bytes) :
    expansion (x ++ y) = expansion x + expansion y := by
  simp only [expansion, List.count_append, List.countP_append]
  omega

/-- Nothing is added to bytes without the forms that are never written. -/
theorem expansion_eq_zero_iff : expansion bytes = 0 ↔ ∀ b ∈ bytes, b ≠ 0 ∧ b < 0xF0 := by
  simp only [expansion, Nat.add_eq_zero_iff, Nat.mul_eq_zero, List.count_eq_zero,
    List.countP_eq_zero, decide_eq_true_eq, UInt8.not_le, OfNat.ofNat_ne_zero,
    false_or, forall₂_and]
  exact and_congr_left' ⟨fun h b hb => ne_of_mem_of_not_mem hb h, fun h h0 => h 0 h0 rfl⟩

/-- Bytes within the forms that are written do not expand. -/
theorem expansion_eq_zero (h : ∀ b ∈ bytes, 0 < b.toNat ∧ b.toNat < 0xF0) : expansion bytes = 0 :=
  expansion_eq_zero_iff.2 fun b hb => by
    obtain ⟨hpos, hlt⟩ := h b hb
    exact ⟨fun h0 => by simp [h0] at hpos, UInt8.lt_iff_toNat_lt.2 hlt⟩

/-- The first byte of a form in four bytes stands for two more. -/
theorem expansion_large (ha : 0xF0 ≤ a.toNat) : expansion [a] = 2 := by
  have hne : a ≠ 0 := fun h0 => by simp [h0] at ha
  have hle : 0xF0 ≤ a := UInt8.le_iff_toNat_le.2 ha
  simp [expansion, hne, hle]

/-- The bytes `y` are written in the place of the bytes `x`. -/
structure Respelled (x y : Bytes) : Prop where
  length : y.length = x.length + expansion x
  eq : expansion x = 0 → y = x

/-- Two parts are written anew one after the other. -/
theorem Respelled.append (h : Respelled x y) (h' : Respelled x' y') :
    Respelled (x ++ x') (y ++ y') where
  length := by
    rw [List.length_append, List.length_append, expansion_append, h.length, h'.length]
    omega
  eq hnone := by
    rw [expansion_append, Nat.add_eq_zero_iff] at hnone
    rw [h.eq hnone.1, h'.eq hnone.2]

/-- Bytes within the forms that are written are written as they are. -/
theorem respelled_self (h : ∀ b ∈ x, 0 < b.toNat ∧ b.toNat < 0xF0) : Respelled x x where
  length := by rw [expansion_eq_zero h, Nat.add_zero]
  eq _ := rfl

/-! ### Code points -/

/-- A code point below 0x10000 is written as one unit. -/
theorem encodePoint_ofNat (h : n < 0x10000) : encodePoint (CodePoint.ofNat n) = encodeUnit n := by
  rw [encodePoint, CodePoint.val_ofNat (by omega), if_pos h]

/-- One byte is written as it was read. -/
theorem encodeUnit_one (ha : 0 < a.toNat ∧ a.toNat < 0x80) : encodeUnit a.toNat = [a] := by
  generalize hu : encodeUnit a.toNat = unit
  cases unitForm_encodeUnit (by omega) hu with
  | one _ ha' => rw [UInt8.toNat_inj.1 ha']
  | _ => omega

/-- Two bytes are written as they were read. -/
theorem encodeUnit_two (ha : 0xC2 ≤ a.toNat ∧ a.toNat ≤ 0xDF) (hb : Continues b) :
    encodeUnit (a.toNat % 32 * 64 + b.toNat % 64) = [a, b] := by
  generalize hn : a.toNat % 32 * 64 + b.toNat % 64 = n
  generalize hu : encodeUnit n = unit
  cases unitForm_encodeUnit (by omega) hu with
  | @two a' b' _ ha' hb' =>
    rw [show a' = a from UInt8.toNat_inj.1 (by omega), show b' = b
      from UInt8.toNat_inj.1 (by omega)]
  | _ => omega

/-- Three bytes are written as they were read. -/
theorem encodeUnit_three (ha : 0xE0 ≤ a.toNat ∧ a.toNat ≤ 0xEF) (hb : Continues b)
    (hc : Continues c) (hshort : a.toNat = 0xE0 → 0xA0 ≤ b.toNat) :
    encodeUnit (a.toNat % 16 * 4096 + b.toNat % 64 * 64 + c.toNat % 64) = [a, b, c] := by
  generalize hn : a.toNat % 16 * 4096 + b.toNat % 64 * 64 + c.toNat % 64 = n
  generalize hu : encodeUnit n = unit
  cases unitForm_encodeUnit (by omega) hu with
  | @three a' b' c' _ ha' hb' hc' =>
    rw [show a' = a from UInt8.toNat_inj.1 (by omega), show b' = b from UInt8.toNat_inj.1
      (by omega), show c' = c from UInt8.toNat_inj.1 (by omega)]
  | _ => omega

/-- A half of a pair has the three bytes of a surrogate. -/
theorem encodeUnit_half (hb : 0xA0 ≤ b.toNat ∧ b.toNat ≤ 0xBF) (hc : Continues c)
    (hn : n = 0xD800 + (b.toNat - 0xA0) * 64 + c.toNat % 64) : encodeUnit n = [0xED, b, c] := by
  have hthree :=
    @encodeUnit_three 0xED b c (by decide) (by omega) hc (fun h => absurd h (by decide))
  rwa [show UInt8.toNat 0xED % 16 * 4096 + b.toNat % 64 * 64 + c.toNat % 64 = n by simp; omega]
    at hthree

/-- The bytes of a code point from U+10000 on are those of its halves. -/
theorem encodePoint_pair (hb : 0xA0 ≤ b.toNat ∧ b.toNat ≤ 0xAF) (hc : Continues c)
    (he : 0xB0 ≤ e.toNat ∧ e.toNat ≤ 0xBF) (hf : Continues f) :
    encodePoint (pair b c e f) = [0xED, b, c, 0xED, e, f] := by
  have hval : (pair b c e f).val = _ := CodePoint.val_ofNat (by omega)
  rw [encodePoint, hval, if_neg (by omega), encodeUnit_half (b := b) (c := c) (by omega) hc
    (by omega), encodeUnit_half (b := e) (c := f) (by omega) hf (by omega)]
  rfl

/-- The longest units take three bytes. -/
theorem length_encodeUnit (hn : 0x800 ≤ n ∧ n < 0x10000) : (encodeUnit n).length = 3 := by
  generalize hu : encodeUnit n = unit
  cases unitForm_encodeUnit hn.2 hu with
  | three => rfl
  | _ => omega

/-- A code point from 0x10000 on takes two units of three bytes. -/
theorem length_encodePoint (h : 0x10000 ≤ p.val) : (encodePoint p).length = 6 := by
  have hlt := p.isLt
  rw [encodePoint, if_neg (by omega), List.length_append, length_encodeUnit (by omega),
    length_encodeUnit (by omega)]

/-! ### Sequences -/

/-- A sequence of one byte is written as it was read. -/
theorem respelled_one (ha : 0 < a.toNat ∧ a.toNat < 0x80) :
    Respelled [a] (encodePoint (CodePoint.ofNat a.toNat)) := by
  rw [encodePoint_ofNat (by omega), encodeUnit_one ha]
  exact respelled_self (by simp; omega)

/-- A sequence of two bytes is written as it was read. -/
theorem respelled_two (ha : 0xC2 ≤ a.toNat ∧ a.toNat ≤ 0xDF) (hb : Continues b) :
    Respelled [a, b] (encodePoint (two a b)) := by
  rw [two, encodePoint_ofNat (by omega), encodeUnit_two ha hb]
  exact respelled_self (by simp; omega)

/-- A sequence of three bytes is written as it was read. -/
theorem respelled_three (ha : 0xE0 ≤ a.toNat ∧ a.toNat ≤ 0xEF) (hb : Continues b) (hc : Continues c)
    (hshort : a.toNat = 0xE0 → 0xA0 ≤ b.toNat) :
    Respelled [a, b, c] (encodePoint (three a b c)) := by
  rw [three, encodePoint_ofNat (by omega), encodeUnit_three ha hb hc hshort]
  exact respelled_self (by simp; omega)

/-- A sequence of standard UTF-8 is written anew. -/
theorem respelled_of_standard (h : Utf8.sequence false a tail = .ok (p, more)) :
    Respelled (a :: tail.take more) (encodePoint p) := by
  cases Utf8.form_of_sequence h with
  | one ha =>
    rcases Nat.eq_zero_or_pos a.toNat with h0 | hpos
    · -- One byte more is written for a zero.
      obtain rfl : a = 0 := UInt8.toNat_inj.1 h0
      exact ⟨rfl, nofun⟩
    · exact respelled_one ⟨hpos, ha⟩
  | two ha hb => exact respelled_two ha hb
  | three ha hb hc hshort hsurrogate => exact respelled_three ha hb hc hshort
  | @four b c d _ ha hb hc hd hshort hlarge =>
    -- Two more bytes are written for a code point from U+10000 on.
    have hval : (four a b c d).val = _ := CodePoint.val_ofNat (by omega)
    have hrest : expansion [b, c, d] = 0 := expansion_eq_zero (by simp; omega)
    have hexpansion : expansion [a, b, c, d] = 2 := by
      rw [← List.singleton_append, expansion_append, expansion_large ha.1, hrest]
    refine ⟨?_, fun hnone => ?_⟩
    · exact (length_encodePoint (by omega)).trans (congrArg (4 + ·) hexpansion).symm
    · exact nomatch hexpansion.symm.trans hnone

/-- In modified UTF-8 there are no forms that are never written. -/
theorem respelled_of_modified (h : sequence a tail = .ok (p, more)) :
    Respelled (a :: tail.take more) (encodePoint p) := by
  cases form_of_sequence h with
  | one ha => exact respelled_one ha
  | zero =>
    rw [encodePoint_ofNat (by decide)]
    exact respelled_self (x := [0xC0, 0x80]) (by simp)
  | two ha hb => exact respelled_two ha hb
  | three ha hb hc hshort halone => exact respelled_three ha hb hc hshort
  | pair hb hc he hf =>
    rw [encodePoint_pair hb hc he hf]
    exact respelled_self (by simp; omega)

/-! ### Texts -/

/-- If each sequence is written in the place of its bytes, then so is the text. -/
theorem respelled_of_sequences {ε : Type} {next : UInt8 → Bytes → Except ε (CodePoint × Nat)}
    (hnext : ∀ {a tail p more}, next a tail = .ok (p, more) → Respelled (a :: tail.take more)
      (encodePoint p)) {index : Nat} {done : Text} (h : sequences next index done bytes = .ok t) :
    ∃ added, t = done.reverse ++ added ∧ Respelled bytes (encode added) := by
  fun_induction sequences next index done bytes with
  | case1 index done =>
    cases h
    exact ⟨[], by simp, respelled_self nofun⟩
  | case2 => cases h
  | case3 index done a tail p more hp ih =>
    obtain ⟨added, rfl, hadded⟩ := ih h
    refine ⟨p :: added, by simp, ?_⟩
    have hall := (hnext hp).append hadded
    rwa [List.cons_append, List.take_append_drop] at hall

/-- The bytes of a decoded text are written in the place of those that it was decoded from. -/
theorem respelled_of_decode (h : decode bytes = .ok t) : Respelled bytes (encode t) := by
  rcases sequences_of_decode h with hstandard | hmodified
  · obtain ⟨added, rfl, hadded⟩ := respelled_of_sequences respelled_of_standard hstandard
    exact hadded
  · obtain ⟨added, rfl, hadded⟩ := respelled_of_sequences respelled_of_modified hmodified
    exact hadded

end ModifiedUtf8

end ClassFormat
