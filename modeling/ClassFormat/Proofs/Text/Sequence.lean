import Mathlib
import ClassFormat.Proofs.Text.ModifiedUtf8

/-!
# The forms of a sequence

Which bytes are taken as one code point. A text that is decoded is cut into sequences of standard
UTF-8, or into those of modified UTF-8.

* `Utf8.SequenceForm`, `Utf8.form_of_sequence`: the sequences of standard UTF-8;
* `ModifiedUtf8.SequenceForm`, `ModifiedUtf8.form_of_sequence`: those of modified UTF-8;
* `ModifiedUtf8.sequences_of_decode`: one kind or the other is used for a text.
-/

namespace ClassFormat

open Utf8 ModifiedUtf8

/-! ### Standard UTF-8 -/

namespace Utf8

theorem isContinuation_iff {b : UInt8} : isContinuation b ↔ Continues b := by
  simp [isContinuation, UInt8.le_iff_toNat_le]

/-- The sequences of standard UTF-8: `a`, and the first bytes of those that follow it. -/
inductive SequenceForm : UInt8 → Bytes → CodePoint → Nat → Prop
  | one {a : UInt8} {tail : Bytes} (ha : a.toNat < 0x80) :
    SequenceForm a tail (CodePoint.ofNat a.toNat) 0
  | two {a b : UInt8} {tail : Bytes} (ha : 0xC2 ≤ a.toNat ∧ a.toNat ≤ 0xDF) (hb : Continues b) :
    SequenceForm a (b :: tail) (two a b) 1
  | three {a b c : UInt8} {tail : Bytes} (ha : 0xE0 ≤ a.toNat ∧ a.toNat ≤ 0xEF) (hb : Continues b)
    (hc : Continues c) (hshort : a.toNat = 0xE0 → 0xA0 ≤ b.toNat)
    (hsurrogate : a.toNat = 0xED → b.toNat ≤ 0x9F) :
    SequenceForm a (b :: c :: tail) (three a b c) 2
  | four {a b c d : UInt8} {tail : Bytes} (ha : 0xF0 ≤ a.toNat ∧ a.toNat ≤ 0xF4) (hb : Continues b)
    (hc : Continues c) (hd : Continues d) (hshort : a.toNat = 0xF0 → 0x90 ≤ b.toNat)
    (hlarge : a.toNat = 0xF4 → b.toNat ≤ 0x8F) :
    SequenceForm a (b :: c :: d :: tail) (four a b c d) 3

variable {a : UInt8} {p : CodePoint} {more : Nat} {tail : Bytes}

/-- A sequence of standard UTF-8 has one of its forms. -/
theorem form_of_sequence (h : Utf8.sequence false a tail = .ok (p, more)) :
    SequenceForm a tail p more := by
  unfold Utf8.sequence at h
  simp only [Bool.and_eq_true, Bool.or_eq_true, decide_eq_true_eq, isContinuation_iff,
    UInt8.le_iff_toNat_le, UInt8.lt_iff_toNat_lt, bne_iff_ne, ne_eq, ← UInt8.toNat_inj,
    UInt8.reduceToNat, Bool.false_or] at h
  split_ifs at h with h1 h2 h3 h4
  · cases h
    exact .one h1
  · split at h
    · split_ifs at h with hb
      cases h
      exact .two h2 hb
    · cases h
  · split at h
    · split_ifs at h with hbytes
      cases h
      obtain ⟨⟨⟨hb, hc⟩, hshort⟩, hsurrogate⟩ := hbytes
      exact .three h3 hb hc (by omega) (by omega)
    · cases h
  · split at h
    · split_ifs at h with hbytes
      cases h
      obtain ⟨⟨⟨⟨hb, hc⟩, hd⟩, hshort⟩, hlarge⟩ := hbytes
      exact .four h4 hb hc hd (by omega) (by omega)
    · cases h

end Utf8

/-! ### Modified UTF-8 -/

namespace ModifiedUtf8

/-- The bytes start with a whole low surrogate. -/
def LeadsLow (bytes : Bytes) : Prop :=
  ∃ b c rest, bytes = 0xED :: b :: c :: rest ∧ 0xB0 ≤ b.toNat ∧ b.toNat ≤ 0xBF ∧ Continues c

/-- The sequences of modified UTF-8: `a`, and the first bytes of those that follow it. -/
inductive SequenceForm : UInt8 → Bytes → CodePoint → Nat → Prop
  | one {a : UInt8} {tail : Bytes} (ha : 0 < a.toNat ∧ a.toNat < 0x80) :
    SequenceForm a tail (CodePoint.ofNat a.toNat) 0
  | zero {tail : Bytes} : SequenceForm 0xC0 (0x80 :: tail) (CodePoint.ofNat 0) 1
  | two {a b : UInt8} {tail : Bytes} (ha : 0xC2 ≤ a.toNat ∧ a.toNat ≤ 0xDF) (hb : Continues b) :
    SequenceForm a (b :: tail) (two a b) 1
  /-- A high surrogate stands for itself unless a low one follows. -/
  | three {a b c : UInt8} {tail : Bytes} (ha : 0xE0 ≤ a.toNat ∧ a.toNat ≤ 0xEF) (hb : Continues b)
    (hc : Continues c) (hshort : a.toNat = 0xE0 → 0xA0 ≤ b.toNat)
    (halone : a.toNat = 0xED → 0xA0 ≤ b.toNat ∧ b.toNat ≤ 0xAF → ¬LeadsLow tail) :
    SequenceForm a (b :: c :: tail) (three a b c) 2
  | pair {b c e f : UInt8} {tail : Bytes} (hb : 0xA0 ≤ b.toNat ∧ b.toNat ≤ 0xAF) (hc : Continues c)
    (he : 0xB0 ≤ e.toNat ∧ e.toNat ≤ 0xBF) (hf : Continues f) :
    SequenceForm 0xED (b :: c :: 0xED :: e :: f :: tail) (pair b c e f) 5

variable {a : UInt8} {p : CodePoint} {more : Nat} {tail bytes : Bytes} {t : Text}

/-- A sequence of modified UTF-8 has one of its forms. -/
theorem form_of_sequence (h : sequence a tail = .ok (p, more)) : SequenceForm a tail p more := by
  unfold sequence at h
  obtain ⟨-, ⟨⟩⟩ | ⟨h0, h⟩ := ite_eq_iff.1 h
  obtain ⟨h1, ⟨⟩⟩ | ⟨-, h⟩ := ite_eq_iff.1 h
  · have hpos := Nat.pos_of_ne_zero fun hzero => h0 (UInt8.toNat_inj.1 hzero)
    exact .one ⟨hpos, UInt8.lt_iff_toNat_lt.1 h1⟩
  rcases tail with _ | ⟨b, tail⟩
  · cases h
  obtain ⟨ha, h⟩ | ⟨-, h⟩ := ite_eq_iff.1 h
  · obtain ⟨hb, ⟨⟩⟩ | ⟨-, ⟨⟩⟩ := ite_eq_iff.1 h
    subst ha hb
    exact .zero
  obtain ⟨-, ⟨⟩⟩ | ⟨hcont, h⟩ := ite_eq_iff.1 h
  have hb : Continues b := isContinuation_iff.1 (by simpa using hcont)
  obtain ⟨h2, ⟨⟩⟩ | ⟨-, h⟩ := ite_eq_iff.1 h
  · exact .two (by simpa [UInt8.le_iff_toNat_le] using h2) hb
  obtain ⟨h3, h⟩ | ⟨-, ⟨⟩⟩ := ite_eq_iff.1 h
  rcases tail with _ | ⟨c, tail⟩
  · cases h
  obtain ⟨-, ⟨⟩⟩ | ⟨hcont, h⟩ := ite_eq_iff.1 h
  have hc : Continues c := isContinuation_iff.1 (by simpa using hcont)
  obtain ⟨-, ⟨⟩⟩ | ⟨hshort, h⟩ := ite_eq_iff.1 h
  simp only [Bool.and_eq_true, decide_eq_true_eq, UInt8.le_iff_toNat_le, UInt8.lt_iff_toNat_lt,
    ← UInt8.toNat_inj, UInt8.reduceToNat] at h3 hshort
  obtain ⟨hhigh, h⟩ | ⟨hother, ⟨⟩⟩ := ite_eq_iff.1 h
  · simp only [Bool.and_eq_true, decide_eq_true_eq, UInt8.le_iff_toNat_le,
      UInt8.reduceToNat] at hhigh
    obtain ⟨⟨rfl, hlow⟩, hupper⟩ := hhigh
    split at h
    next d e f rest =>
      simp only [Bool.and_eq_true, decide_eq_true_eq, UInt8.le_iff_toNat_le, UInt8.reduceToNat,
        isContinuation_iff] at h
      obtain ⟨⟨⟨⟨rfl, he⟩, he'⟩, hf⟩, ⟨⟩⟩ | ⟨hpair, ⟨⟩⟩ := ite_eq_iff.1 h
      · exact .pair ⟨hlow, hupper⟩ hc ⟨he, he'⟩ hf
      · refine .three h3 hb hc (by omega) ?_
        rintro - - ⟨e, f, rest, he, hlow, hhigh, hf⟩
        cases he
        exact hpair ⟨⟨⟨rfl, hlow⟩, hhigh⟩, hf⟩
    next hend =>
      cases h
      refine .three h3 hb hc (by omega) ?_
      rintro - - ⟨e, f, rest, rfl, -⟩
      exact hend _ _ _ _ rfl
  · simp only [Bool.and_eq_true, decide_eq_true_eq, UInt8.le_iff_toNat_le, ← UInt8.toNat_inj,
      UInt8.reduceToNat] at hother
    exact .three h3 hb hc (by omega) fun ha hb => absurd ⟨⟨ha, hb.1⟩, hb.2⟩ hother

/-- A text is cut into sequences of standard UTF-8, or into those of modified UTF-8. -/
theorem sequences_of_decode (h : decode bytes = .ok t) :
    sequences (Utf8.sequence false) 0 [] bytes = .ok t ∨ sequences sequence 0 [] bytes = .ok t := by
  rw [decode, decode?] at h
  cases hstandard : sequences (Utf8.sequence false) 0 [] bytes with
  | ok t' =>
    rw [hstandard] at h
    cases h
    exact Or.inl rfl
  | error e =>
    rw [hstandard] at h
    cases hmodified : sequences sequence 0 [] bytes with
    | ok t' =>
      rw [hmodified] at h
      cases h
      exact Or.inr rfl
    | error e =>
      rw [hmodified] at h
      cases h

end ModifiedUtf8

end ClassFormat
