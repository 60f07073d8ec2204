import Mathlib
import ClassFormat.Text.Basic

/-!
# Texts and strings

The texts that are strings are those without surrogates, and each is the text of its string
(`Text.toString?_eq_some`).
-/

namespace ClassFormat

namespace CodePoint

/-- A character is no surrogate. -/
theorem not_isSurrogate_ofChar (c : Char) : (ofChar c).isSurrogate = false := by
  have h : c.toNat < 0xD800 ∨ 0xDFFF < c.toNat ∧ c.toNat < 0x110000 := c.valid
  rw [Bool.eq_false_iff]
  simp only [isSurrogate, ne_eq, Bool.and_eq_true, decide_eq_true_eq]
  simp only [ofChar]
  omega

/-- A character is what is read back from its code point. -/
theorem toChar_ofChar (c : Char) : (ofChar c).toChar = c := by
  rw [toChar, if_neg (by simp [not_isSurrogate_ofChar c])]
  exact Char.ofNat_toNat c

/-- A code point that is no surrogate is the one of the character that it stands for. -/
theorem ofChar_toChar {c : CodePoint} (h : c.isSurrogate = false) : ofChar c.toChar = c := by
  have hvalid : c.val.isValidChar := by
    simp [isSurrogate] at h
    have := c.isLt
    simp only [Nat.isValidChar]
    omega
  refine Fin.ext ?_
  simp [toChar, h, ofChar, Char.toNat_ofNat, hvalid]

end CodePoint

namespace Text

/-- A string is what is read back from its text. -/
theorem toString?_ofString (s : String) : (ofString s).toString? = some s := by
  have h : ¬(ofString s).any CodePoint.isSurrogate = true := by
    rw [Bool.not_eq_true, List.any_eq_false]
    rintro _ hc
    obtain ⟨c, -, rfl⟩ := List.mem_map.1 hc
    simp [CodePoint.not_isSurrogate_ofChar c]
  rw [toString?, if_neg h, lossy, ofString, List.map_map]
  simp [Function.comp_def, CodePoint.toChar_ofChar]

/-- Only a text without surrogates is a string, and the one that the text is made from. -/
theorem toString?_eq_some {t : Text} {s : String} : t.toString? = some s ↔ t = ofString s := by
  constructor
  · intro h
    simp only [toString?, Option.ite_none_left_eq_some, Option.some.injEq, Bool.not_eq_true,
      List.any_eq_false] at h
    obtain ⟨hplain, rfl⟩ := h
    rw [ofString, lossy, String.toList_ofList, List.map_map]
    exact (List.map_id t).symm.trans
      (List.map_congr_left fun c hc => (CodePoint.ofChar_toChar (hplain c hc)).symm)
  · rintro rfl
    exact toString?_ofString s

end Text

end ClassFormat
