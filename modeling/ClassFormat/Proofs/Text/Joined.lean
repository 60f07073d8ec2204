import Mathlib
import ClassFormat.Proofs.Text.Sequence

/-!
# Decoded text

Whatever bytes a text was decoded from, it is read back as it is: standard UTF-8 has no form for a
surrogate, and modified UTF-8 takes a high surrogate for itself only if no low one follows.

* `Utf8.not_isSurrogate_of_sequence`, `ModifiedUtf8.surrogate_of_sequence`: the sequences that stand
  for surrogates;
* `ModifiedUtf8.joined_of_decode`: decoded texts are joined.
-/

namespace ClassFormat

open Utf8

variable {a b c d : UInt8} {p : CodePoint} {more : Nat} {tail bytes : Bytes} {t : Text}

namespace CodePoint

/-- The surrogates are a range of code points. -/
theorem isSurrogate_iff : p.isSurrogate ↔ 0xD800 ≤ p.val ∧ p.val ≤ 0xDFFF := by
  simp [isSurrogate]

/-- Code points on either side of the range are no surrogates. -/
theorem not_isSurrogate_ofNat {n : Nat} (h : n < 0xD800 ∨ 0xDFFF < n ∧ n < 0x110000) :
    ¬(ofNat n).isSurrogate := by
  rw [isSurrogate_iff, val_ofNat (by omega)]
  omega

end CodePoint

theorem Utf8.val_three :
    (three a b c).val = a.toNat % 16 * 4096 + b.toNat % 64 * 64 + c.toNat % 64 :=
  CodePoint.val_ofNat (by omega)

/-- Standard UTF-8 has no form for a surrogate. -/
theorem Utf8.not_isSurrogate_of_sequence (h : Utf8.sequence false a tail = .ok (p, more)) :
    ¬p.isSurrogate := by
  cases form_of_sequence h with
  | one ha => exact CodePoint.not_isSurrogate_ofNat (Or.inl (by omega))
  | two ha hb => exact CodePoint.not_isSurrogate_ofNat (Or.inl (by omega))
  | three ha hb hc hshort hsurrogate =>
    rw [CodePoint.isSurrogate_iff, val_three]
    omega
  | four ha hb hc hd hshort hlarge => exact CodePoint.not_isSurrogate_ofNat (by omega)

/-- Whatever sequences are taken as, the text consists of. -/
theorem Utf8.forall_of_sequences {ε : Type} {next : UInt8 → Bytes → Except ε (CodePoint × Nat)}
    {P : CodePoint → Prop} (hnext : ∀ {a tail p more}, next a tail = .ok (p, more) → P p)
    {index : Nat} {done : Text} (hdone : ∀ p ∈ done, P p)
    (h : sequences next index done bytes = .ok t) : ∀ p ∈ t, P p := by
  fun_induction sequences next index done bytes with
  | case1 index done =>
    cases h
    simpa using hdone
  | case2 => cases h
  | case3 index done a tail p more hp ih =>
    exact ih (List.forall_mem_cons.2 ⟨hnext hp, hdone⟩) h

namespace ModifiedUtf8

/-- A surrogate has the three bytes of a code point of its size, and a high one is taken as such
    only if no low one follows. -/
theorem surrogate_of_sequence (h : sequence a tail = .ok (p, more)) (hp : p.isSurrogate) :
    ∃ b c rest, a = 0xED ∧ tail = b :: c :: rest ∧ more = 2 ∧ p = three 0xED b c ∧ Continues b ∧
      Continues c ∧ (b.toNat ≤ 0xAF → ¬LeadsLow rest) := by
  cases form_of_sequence h with
  | one ha => exact absurd hp (CodePoint.not_isSurrogate_ofNat (Or.inl (by omega)))
  | zero => exact absurd hp (CodePoint.not_isSurrogate_ofNat (Or.inl (by decide)))
  | two ha hb => exact absurd hp (CodePoint.not_isSurrogate_ofNat (Or.inl (by omega)))
  | @three a b c rest ha hb hc hshort halone =>
    rw [CodePoint.isSurrogate_iff, val_three] at hp
    have ha : a.toNat = 0xED := by omega
    obtain rfl : a = 0xED := UInt8.toNat_inj.1 ha
    exact ⟨b, c, rest, rfl, rfl, rfl, rfl, hb, hc, fun hlow => halone ha (by omega)⟩
  | pair hb hc he hf => exact absurd hp (CodePoint.not_isSurrogate_ofNat (by omega))

/-- The text that the bytes are taken as is joined, and starts with a low surrogate only if the
    bytes do. -/
theorem joined_of_sequences {index : Nat} {done : Text}
    (h : sequences sequence index done bytes = .ok t) :
    ∃ added : Text, t = done.reverse ++ added ∧ added.Joined ∧
      ∀ p ∈ added.head?, p.isLowSurrogate → LeadsLow bytes := by
  fun_induction sequences sequence index done bytes with
  | case1 index done =>
    cases h
    exact ⟨[], by simp, .nil, nofun⟩
  | case2 => cases h
  | case3 index done a tail p more hp ih =>
    obtain ⟨added, rfl, hjoined, hlow⟩ := ih h
    refine ⟨p :: added, by simp, ?_, ?_⟩
    · refine List.isChain_cons.2 ⟨fun q hq hpair => ?_, hjoined⟩
      -- A high surrogate in front of a low one would not have been taken as such.
      obtain ⟨hhigh, -⟩ := hpair.bounds
      obtain ⟨b, c, rest, rfl, rfl, rfl, rfl, hb, hc, hnot⟩ :=
        surrogate_of_sequence hp (CodePoint.isSurrogate_iff.2 (by omega))
      rw [val_three] at hhigh
      exact hnot (by simp at hhigh; omega) (hlow q hq hpair.2)
    · rintro q hq hqlow
      obtain rfl : p = q := by simpa using hq
      simp only [CodePoint.isLowSurrogate, Bool.and_eq_true, decide_eq_true_eq] at hqlow
      obtain ⟨b, c, rest, rfl, rfl, rfl, rfl, hb, hc, -⟩ :=
        surrogate_of_sequence hp (CodePoint.isSurrogate_iff.2 (by omega))
      rw [val_three] at hqlow
      exact ⟨b, c, rest, rfl, by simp at hqlow; omega, hb.2, hc⟩

/-- Whatever is decoded is joined, so it is read back as it is. -/
theorem joined_of_decode (h : decode bytes = .ok t) : t.Joined := by
  rcases sequences_of_decode h with hstandard | hmodified
  · exact joined_of_forall (forall_of_sequences not_isSurrogate_of_sequence (by simp) hstandard)
  · obtain ⟨added, rfl, hjoined, -⟩ := joined_of_sequences hmodified
    exact hjoined

end ModifiedUtf8

end ClassFormat
