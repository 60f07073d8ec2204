import Mathlib
import ClassFormat.Text.ModifiedUtf8

/-!
# Text that is read back

A text is read back as it was written, unless a high surrogate in it is directly followed by a
low one: the two are read as one code point.

* `Text.Joined`: no high surrogate is directly followed by a low one;
* `Text.join`: the joined text that is read in place of a text (`ModifiedUtf8.decode_encode`);
* `Utf8.Takes`: what a decoder makes of the next sequence;
* `ModifiedUtf8.decode_encode_eq_ok`: exactly joined texts are read back.
-/

namespace ClassFormat

namespace CodePoint

/-- The first half of a UTF-16 pair. -/
def isHighSurrogate (c : CodePoint) : Bool := 0xD800 ≤ c.val && c.val ≤ 0xDBFF

/-- The second half of a UTF-16 pair. -/
def isLowSurrogate (c : CodePoint) : Bool := 0xDC00 ≤ c.val && c.val ≤ 0xDFFF

theorem val_ofNat {n : Nat} (h : n < 0x110000) : (ofNat n).val = n := Nat.mod_eq_of_lt h

theorem ofNat_eq {n : Nat} {c : CodePoint} (h : n = c.val) : ofNat n = c :=
  Fin.ext <| (Nat.mod_eq_of_lt (h ▸ c.isLt)).trans h

end CodePoint

/-- The two code points are the halves of a UTF-16 pair. -/
def CodePoint.Pairs (c d : CodePoint) : Prop := c.isHighSurrogate ∧ d.isLowSurrogate

instance (c d : CodePoint) : Decidable (c.Pairs d) := inferInstanceAs (Decidable (_ ∧ _))

/-- No high surrogate is directly followed by a low one. -/
def Text.Joined (t : Text) : Prop := t.IsChain fun c d => ¬c.Pairs d

instance (t : Text) : Decidable t.Joined := inferInstanceAs (Decidable (t.IsChain _))

/-- The code point that a high surrogate and a low one are the halves of. -/
def CodePoint.paired (c d : CodePoint) : CodePoint :=
  ofNat (0x10000 + (c.val - 0xD800) * 1024 + (d.val - 0xDC00))

/-- The text with one code point for each high surrogate and the low one that directly follows
    it. -/
def Text.join : Text → Text
  | [] => []
  | [c] => [c]
  | c :: d :: rest => if c.Pairs d then c.paired d :: join rest else c :: join (d :: rest)

/-- The halves of a pair are a high surrogate and a low one. -/
theorem CodePoint.Pairs.bounds {c d : CodePoint} (h : c.Pairs d) :
    (0xD800 ≤ c.val ∧ c.val ≤ 0xDBFF) ∧ 0xDC00 ≤ d.val ∧ d.val ≤ 0xDFFF := by
  simpa [Pairs, isHighSurrogate, isLowSurrogate] using h

/-- A pair stands for a code point above the others. -/
theorem CodePoint.Pairs.le_paired {c d : CodePoint} (h : c.Pairs d) :
    0x10000 ≤ (c.paired d).val := by
  obtain ⟨hhigh, hlow⟩ := h.bounds
  rw [paired, val_ofNat (by omega)]
  omega

namespace Text

/-- Joining leaves a text as it is exactly if nothing in it pairs. -/
theorem join_eq_self_iff {t : Text} : t.join = t ↔ t.Joined := by
  induction t using join.induct with
  | case1 => simp [join, Joined]
  | case2 c => simp [join, Joined]
  | case3 c d rest hpair _ =>
    have hpaired := hpair.le_paired
    obtain ⟨hhigh, -⟩ := hpair.bounds
    rw [join, if_pos hpair, Joined, List.isChain_cons_cons]
    refine iff_of_false (fun h => ?_) fun h => h.1 hpair
    rw [(List.cons_eq_cons.1 h).1] at hpaired
    omega
  | case4 c d rest hnot ih =>
    rw [join, if_neg hnot, List.cons_inj_right, ih, Joined, Joined, List.isChain_cons_cons,
      and_iff_right hnot]

/-- Joining only ever makes code points from U+10000 on. -/
theorem joined_of_join_lt {t : Text} (h : ∀ c ∈ t.join, c.val < 0x10000) : t.Joined := by
  induction t using join.induct with
  | case1 => exact .nil
  | case2 c => exact .singleton c
  | case3 c d rest hpair _ =>
    rw [join, if_pos hpair] at h
    have := hpair.le_paired
    have := h _ List.mem_cons_self
    omega
  | case4 c d rest hnot ih =>
    rw [join, if_neg hnot] at h
    exact List.isChain_cons_cons.2 ⟨hnot, ih fun c hc => h c (List.mem_cons_of_mem _ hc)⟩

end Text

/-! ### Sequences -/

namespace Utf8

variable {ε : Type} {next : UInt8 → Bytes → Except ε (CodePoint × Nat)} {bytes rest : Bytes}
  {c : CodePoint}

/-- The decoder takes a code point off the bytes and goes on with the rest. -/
def Takes (next : UInt8 → Bytes → Except ε (CodePoint × Nat)) (bytes : Bytes) (c : CodePoint)
    (rest : Bytes) : Prop :=
  ∃ b tail more, bytes = b :: tail ∧ next b tail = .ok (c, more) ∧ tail.drop more = rest

/-- The decoder refuses the bytes. -/
def Refuses (next : UInt8 → Bytes → Except ε (CodePoint × Nat)) (bytes : Bytes) : Prop :=
  ∃ b tail e, bytes = b :: tail ∧ next b tail = .error e

/-- After a sequence that is taken the rest is decoded. -/
theorem Takes.exists_sequences (h : Takes next bytes c rest) (index : Nat) (done : Text) :
    ∃ index', sequences next index done bytes = sequences next index' (c :: done) rest := by
  obtain ⟨b, tail, more, rfl, hnext, rfl⟩ := h
  exact ⟨index + 1 + more, by rw [sequences, hnext]⟩

/-- Nothing is decoded from bytes that are refused. -/
theorem Refuses.exists_sequences (h : Refuses next bytes) (index : Nat) (done : Text) :
    ∃ e, sequences next index done bytes = .error e := by
  obtain ⟨b, tail, e, rfl, hnext⟩ := h
  exact ⟨(index, e), by rw [sequences, hnext]⟩

end Utf8

namespace ModifiedUtf8

open Utf8

/-! ### The form of a unit -/

/-- How a UTF-16 unit is spelled, byte by byte. -/
inductive UnitForm (n : Nat) : Bytes → Prop
  | zero (h : n = 0) : UnitForm n [0xC0, 0x80]
  | one {a : UInt8} (h : 0 < n ∧ n < 0x80) (ha : a.toNat = n) : UnitForm n [a]
  | two {a b : UInt8} (h : 0x80 ≤ n ∧ n < 0x800) (ha : a.toNat = 0xC0 + n / 64)
    (hb : b.toNat = 0x80 + n % 64) : UnitForm n [a, b]
  | three {a b c : UInt8} (h : 0x800 ≤ n ∧ n < 0x10000) (ha : a.toNat = 0xE0 + n / 4096)
    (hb : b.toNat = 0x80 + n / 64 % 64) (hc : c.toNat = 0x80 + n % 64) : UnitForm n [a, b, c]

theorem toNat_byte {n : Nat} (h : n < 256) : (UInt8.ofNat n).toNat = n := UInt8.toNat_ofNat_of_lt' h

/-- A unit is written in one of the three forms. -/
theorem unitForm_encodeUnit {n : Nat} {bytes : Bytes} (hn : n < 0x10000)
    (h : encodeUnit n = bytes) : UnitForm n bytes := by
  subst h
  unfold encodeUnit
  split_ifs with h0 h1 h2
  · exact .zero h0
  · exact .one (by omega) (toNat_byte (by omega))
  · exact .two (by omega) (toNat_byte (by omega)) (toNat_byte (by omega))
  · exact .three (by omega) (toNat_byte (by omega)) (toNat_byte (by omega)) (toNat_byte (by omega))

/-- The bytes start as those of a low surrogate do. -/
def StartsLow : Bytes → Prop
  | a :: b :: _ => a.toNat = 0xED ∧ 0xB0 ≤ b.toNat ∧ b.toNat ≤ 0xBF
  | _ => False

/-- Units other than low surrogates do not look like one. -/
theorem UnitForm.not_startsLow {n : Nat} {bytes rest : Bytes} (h : UnitForm n bytes)
    (hn : ¬(0xDC00 ≤ n ∧ n ≤ 0xDFFF)) : ¬StartsLow (bytes ++ rest) := by
  cases h with
  | zero _ => simp [StartsLow]
  | one h ha =>
    cases rest <;> simp [StartsLow, ha]
    omega
  | two h ha hb => simp [StartsLow, ha, hb]; omega
  | three h ha hb hc => simp [StartsLow, ha, hb]; omega

/-! ### Standard UTF-8 -/

section

variable {a b c e f : UInt8} {tail : Bytes}

/-- What continues a sequence. -/
abbrev Continues (b : UInt8) : Prop := 0x80 ≤ b.toNat ∧ b.toNat ≤ 0xBF

theorem Continues.isContinuation (h : Continues b) : isContinuation b = true := by
  simpa [Utf8.isContinuation, UInt8.le_iff_toNat_le] using h

/-- Standard UTF-8 takes one byte. -/
theorem standard_one (ha : a.toNat < 0x80) :
    Utf8.sequence false a tail = .ok (CodePoint.ofNat a.toNat, 0) := by
  simp only [Utf8.sequence, UInt8.lt_iff_toNat_lt]
  exact if_pos ha

/-- Standard UTF-8 takes two bytes. -/
theorem standard_two (ha : 0xC2 ≤ a.toNat ∧ a.toNat ≤ 0xDF) (hb : Continues b) :
    Utf8.sequence false a (b :: tail) = .ok (two a b, 1) := by
  simp only [Utf8.sequence, hb.isContinuation, UInt8.le_iff_toNat_le, UInt8.lt_iff_toNat_lt,
    UInt8.reduceToNat, Bool.and_eq_true, decide_eq_true_eq, if_true]
  rw [if_neg (by omega), if_pos ha]

/-- Standard UTF-8 takes three bytes that are neither overlong nor a surrogate. -/
theorem standard_three (ha : 0xE0 ≤ a.toNat ∧ a.toNat ≤ 0xEF) (hb : Continues b) (hc : Continues c)
    (hshort : a.toNat = 0xE0 → 0xA0 ≤ b.toNat) (hsur : a.toNat = 0xED → b.toNat ≤ 0x9F) :
    Utf8.sequence false a (b :: c :: tail) = .ok (three a b c, 2) := by
  simp only [Utf8.sequence, hb.isContinuation, hc.isContinuation, UInt8.le_iff_toNat_le,
    UInt8.lt_iff_toNat_lt, ← UInt8.toNat_inj, UInt8.reduceToNat, Bool.and_eq_true, Bool.or_eq_true,
    decide_eq_true_eq, bne_iff_ne, ne_eq, true_and, Bool.false_or]
  rw [if_neg (by omega), if_neg (by omega), if_pos ha, if_pos (by omega)]

/-- Surrogates have no standard form. -/
theorem standard_surrogate (ha : a.toNat = 0xED) (hb : 0xA0 ≤ b.toNat) :
    Utf8.sequence false a (b :: c :: tail) = .error () := by
  simp only [Utf8.sequence, UInt8.le_iff_toNat_le, UInt8.lt_iff_toNat_lt, ← UInt8.toNat_inj,
    UInt8.reduceToNat, Bool.and_eq_true, Bool.or_eq_true, decide_eq_true_eq, bne_iff_ne, ne_eq,
    Bool.false_or]
  rw [if_neg (by omega), if_neg (by omega), if_pos (by omega), if_neg (by omega)]

/-! ### Modified UTF-8 -/

/-- Modified UTF-8 takes one byte that is not zero. -/
theorem modified_one (ha : 0 < a.toNat ∧ a.toNat < 0x80) :
    sequence a tail = .ok (CodePoint.ofNat a.toNat, 0) := by
  simp only [sequence, UInt8.lt_iff_toNat_lt, ← UInt8.toNat_inj, UInt8.reduceToNat]
  rw [if_neg (by omega), if_pos ha.2]

/-- Modified UTF-8 takes two bytes. -/
theorem modified_two (ha : 0xC2 ≤ a.toNat ∧ a.toNat ≤ 0xDF) (hb : Continues b) :
    sequence a (b :: tail) = .ok (two a b, 1) := by
  simp only [sequence, hb.isContinuation, UInt8.le_iff_toNat_le, UInt8.lt_iff_toNat_lt,
    ← UInt8.toNat_inj, UInt8.reduceToNat, Bool.and_eq_true, decide_eq_true_eq, Bool.not_true,
    Bool.false_eq_true, if_false]
  rw [if_neg (by omega), if_neg (by omega), if_neg (by omega), if_pos ha]

/-- Modified UTF-8 takes three bytes unless a low surrogate follows a high one. -/
theorem modified_three (ha : 0xE0 ≤ a.toNat ∧ a.toNat ≤ 0xEF) (hb : Continues b) (hc : Continues c)
    (hshort : a.toNat = 0xE0 → 0xA0 ≤ b.toNat)
    (hpair : a.toNat = 0xED → 0xA0 ≤ b.toNat → b.toNat ≤ 0xAF → ¬StartsLow tail) :
    sequence a (b :: c :: tail) = .ok (three a b c, 2) := by
  simp only [sequence, hb.isContinuation, hc.isContinuation, UInt8.le_iff_toNat_le,
    UInt8.lt_iff_toNat_lt, ← UInt8.toNat_inj, UInt8.reduceToNat, Bool.and_eq_true,
    decide_eq_true_eq, Bool.not_true, Bool.false_eq_true, if_false]
  rw [if_neg (by omega), if_neg (by omega), if_neg (by omega), if_neg (by omega), if_pos ha,
    if_neg (by omega)]
  split_ifs with hhigh
  · rcases tail with _ | ⟨d, _ | ⟨e, _ | ⟨f, tail⟩⟩⟩
    · rfl
    · rfl
    · rfl
    · exact if_neg fun h => hpair hhigh.1.1 hhigh.1.2 hhigh.2 ⟨h.1.1.1, h.1.1.2, h.1.2⟩
  · rfl

/-- Modified UTF-8 takes a pair of surrogates in six bytes. -/
theorem modified_pair {d : UInt8} (ha : a.toNat = 0xED) (hb : 0xA0 ≤ b.toNat ∧ b.toNat ≤ 0xAF)
    (hc : Continues c) (hd : d.toNat = 0xED) (he : 0xB0 ≤ e.toNat ∧ e.toNat ≤ 0xBF)
    (hf : Continues f) : sequence a (b :: c :: d :: e :: f :: tail) = .ok (pair b c e f, 5) := by
  have hb' : Continues b := by omega
  simp only [sequence, hb'.isContinuation, hc.isContinuation, hf.isContinuation,
    UInt8.le_iff_toNat_le, UInt8.lt_iff_toNat_lt, ← UInt8.toNat_inj, UInt8.reduceToNat,
    Bool.and_eq_true, decide_eq_true_eq, Bool.not_true, Bool.false_eq_true, if_false, and_true]
  rw [if_neg (by omega), if_neg (by omega), if_neg (by omega), if_neg (by omega), if_pos (by omega),
    if_neg (by omega), if_pos (by omega), if_pos (by omega)]

end

/-! ### Code points -/

@[simp] theorem encode_nil : encode [] = [] := rfl

@[simp] theorem encode_cons (c : CodePoint) (rest : Text) :
    encode (c :: rest) = encodePoint c ++ encode rest := rfl

/-- A code point is put together from its two bytes. -/
theorem two_eq {a b : UInt8} {c : CodePoint} (ha : a.toNat = 0xC0 + c.val / 64)
    (hb : b.toNat = 0x80 + c.val % 64) (h : c.val < 0x800) : two a b = c :=
  CodePoint.ofNat_eq (by omega)

/-- A code point is put together from its three bytes. -/
theorem three_eq {a b d : UInt8} {c : CodePoint} (ha : a.toNat = 0xE0 + c.val / 4096)
    (hb : b.toNat = 0x80 + c.val / 64 % 64) (hd : d.toNat = 0x80 + c.val % 64)
    (h : c.val < 0x10000) : three a b d = c :=
  CodePoint.ofNat_eq (by omega)

/-- Standard UTF-8 refuses surrogates. -/
theorem refuses_surrogate {n : Nat} (h : 0xD800 ≤ n ∧ n ≤ 0xDFFF) (rest : Bytes) :
    Refuses (Utf8.sequence false) (encodeUnit n ++ rest) := by
  generalize hu : encodeUnit n = unit
  cases unitForm_encodeUnit (by omega) hu with
  | three _ ha hb hd => exact ⟨_, _, (), rfl, standard_surrogate (by omega) (by omega)⟩
  | _ => omega

/-- The standard decoder takes off what is not a surrogate, or refuses it. -/
theorem takes_or_refuses (c : CodePoint) (rest : Bytes) :
    Takes (Utf8.sequence false) (encodePoint c ++ rest) c rest ∧ ¬c.isSurrogate ∨
      Refuses (Utf8.sequence false) (encodePoint c ++ rest) := by
  unfold encodePoint
  split_ifs with hc
  · by_cases hsur : 0xD800 ≤ c.val ∧ c.val ≤ 0xDFFF
    · exact Or.inr (refuses_surrogate hsur rest)
    · have hplain : ¬c.isSurrogate := by simpa [CodePoint.isSurrogate] using hsur
      generalize hu : encodeUnit c.val = unit
      cases unitForm_encodeUnit hc hu with
      | zero h => exact Or.inr ⟨_, _, (), rfl, rfl⟩
      | one h ha =>
        exact Or.inl ⟨⟨_, _, 0, rfl, by rw [standard_one (by omega), CodePoint.ofNat_eq ha], rfl⟩,
          hplain⟩
      | two h ha hb =>
        refine Or.inl ⟨⟨_, _, 1, rfl, (standard_two (by omega) (by omega)).trans ?_, rfl⟩, hplain⟩
        rw [two_eq ha hb h.2]
      | three h ha hb hd =>
        refine Or.inl ⟨⟨_, _, 2, rfl, (standard_three (by omega) (by omega)
          (by omega) (by omega) (by omega)).trans ?_, rfl⟩, hplain⟩
        rw [three_eq ha hb hd h.2]
  · -- What is written starts with the high half of a pair.
    have := c.isLt
    rw [List.append_assoc]
    exact Or.inr (refuses_surrogate (by omega) _)

/-- A text that does not start with a low surrogate does not look like one. -/
theorem not_startsLow_encode {c : CodePoint} (rest : Text) (h : ¬c.isLowSurrogate) :
    ¬StartsLow (encode (c :: rest)) := by
  rw [encode_cons]
  unfold encodePoint
  simp only [CodePoint.isLowSurrogate, Bool.and_eq_true, decide_eq_true_eq] at h
  split_ifs with hc
  · exact (unitForm_encodeUnit hc rfl).not_startsLow h
  · have := c.isLt
    rw [List.append_assoc]
    exact (unitForm_encodeUnit (by omega) rfl).not_startsLow (by omega)

/-- A high surrogate and a low one are taken as the code point that they are the halves of. -/
theorem takes_pair {n m : Nat} (hn : 0xD800 ≤ n ∧ n ≤ 0xDBFF) (hm : 0xDC00 ≤ m ∧ m ≤ 0xDFFF)
    (rest : Bytes) : Takes sequence (encodeUnit n ++ encodeUnit m ++ rest)
      (CodePoint.ofNat (0x10000 + (n - 0xD800) * 1024 + (m - 0xDC00))) rest := by
  generalize hu : encodeUnit n = high
  generalize hv : encodeUnit m = low
  cases unitForm_encodeUnit (by omega) hu with
  | @three a b c _ ha hb hd =>
    cases unitForm_encodeUnit (by omega) hv with
    | @three d e f _ ha' hb' hd' =>
      refine ⟨_, _, 5, rfl, (modified_pair (by omega) (by omega) (by omega) (by omega) (by omega)
        (by omega)).trans ?_, rfl⟩
      have hhigh : b.toNat % 16 * 64 + c.toNat % 64 = n - 0xD800 := by omega
      have hlow : e.toNat % 16 * 64 + f.toNat % 64 = m - 0xDC00 := by omega
      rw [pair, hhigh, hlow]
    | _ => omega
  | _ => omega

/-- A code point is taken as it is written, unless it pairs with the next one. -/
theorem takes_encodePoint {c : CodePoint} {rest : Text}
    (h : ∀ d tail, rest = d :: tail → ¬c.Pairs d) :
    Takes sequence (encodePoint c ++ encode rest) c (encode rest) := by
  unfold encodePoint
  split_ifs with hc
  · generalize hu : encodeUnit c.val = unit
    cases unitForm_encodeUnit hc hu with
    | zero h0 => exact ⟨_, _, 1, rfl, by rw [← CodePoint.ofNat_eq h0.symm]; rfl, rfl⟩
    | one hn ha => exact ⟨_, _, 0, rfl, by rw [modified_one (by omega), CodePoint.ofNat_eq ha], rfl⟩
    | two hn ha hb =>
      refine ⟨_, _, 1, rfl, (modified_two (by omega) (by omega)).trans ?_, rfl⟩
      rw [two_eq ha hb hn.2]
    | three hn ha hb hd =>
      -- A high surrogate, which no low one follows.
      have hpair (hhigh : 0xD800 ≤ c.val ∧ c.val ≤ 0xDBFF) : ¬StartsLow (encode rest) := by
        cases rest with
        | nil => exact id
        | cons d rest =>
          refine not_startsLow_encode rest fun hlow => h d rest rfl ⟨?_, hlow⟩
          simpa [CodePoint.isHighSurrogate] using hhigh
      refine ⟨_, _, 2, rfl, (modified_three (by omega) (by omega)
        (by omega) (by omega) fun _ _ _ => hpair (by omega)).trans ?_, rfl⟩
      rw [three_eq ha hb hd hn.2]
  · have hlt := c.isLt
    generalize hn : 0xD800 + (c.val - 0x10000) / 1024 = n
    generalize hm : 0xDC00 + (c.val - 0x10000) % 1024 = m
    have hc' : CodePoint.ofNat (0x10000 + (n - 0xD800) * 1024 + (m - 0xDC00)) = c :=
      CodePoint.ofNat_eq (by omega)
    exact hc' ▸ takes_pair (by omega) (by omega) (encode rest)

/-! ### Texts -/

/-- A decoder that takes or refuses code points as they are written gives the text that was
    written, or nothing. -/
theorem decode?_encode (t : Text) :
    decode? false (encode t) = some t ∧ (∀ c ∈ t, ¬c.isSurrogate) ∨
    decode? false (encode t) = none := by
  have h : ∀ index done, (sequences (Utf8.sequence false) index done (encode t)).toOption =
      some (done.reverse ++ t) ∧ (∀ c ∈ t, ¬c.isSurrogate) ∨
        (sequences (Utf8.sequence false) index done (encode t)).toOption = none := by
    induction t with
    | nil => intro index done; left; simp [sequences, Except.toOption]
    | cons c rest ih =>
      intro index done
      rw [encode_cons]
      rcases takes_or_refuses c (encode rest) with ⟨h, hc⟩ | h
      · obtain ⟨index', hs⟩ := h.exists_sequences index done
        rw [hs]
        refine (ih index' (c :: done)).imp_left fun h => ⟨?_, List.forall_mem_cons.2 ⟨hc, h.2⟩⟩
        simpa using h.1
      · obtain ⟨e, hs⟩ := h.exists_sequences index done
        rw [hs]
        exact Or.inr rfl
  exact h 0 []

/-- A text without surrogates is joined. -/
theorem joined_of_forall {t : Text} (h : ∀ c ∈ t, ¬c.isSurrogate) : t.Joined := by
  induction t with
  | nil => exact .nil
  | cons c rest ih =>
    obtain ⟨hc, hrest⟩ := List.forall_mem_cons.1 h
    cases rest with
    | nil => exact .singleton c
    | cons d tail =>
      refine List.isChain_cons_cons.2 ⟨fun hpair => hc ?_, ih hrest⟩
      have hhigh := hpair.1
      simp only [CodePoint.isHighSurrogate, CodePoint.isSurrogate, Bool.and_eq_true,
        decide_eq_true_eq] at hhigh ⊢
      omega

/-- What is read in place of a text. -/
theorem sequences_encode (t : Text) (index : Nat) (done : Text) :
    sequences sequence index done (encode t) = .ok (done.reverse ++ t.join) := by
  induction t using Text.join.induct generalizing index done with
  | case1 => simp [sequences, Text.join]
  | case2 c =>
    have htakes : Takes sequence (encodePoint c ++ encode []) c (encode []) := by
      refine takes_encodePoint fun d tail he => ?_
      cases he
    obtain ⟨index', hs⟩ := htakes.exists_sequences index done
    rw [encode_cons, hs]
    simp [sequences, Text.join]
  | case3 c d rest hpair ih =>
    obtain ⟨hhigh, hlow⟩ := hpair.bounds
    obtain ⟨index', hs⟩ := (takes_pair hhigh hlow (encode rest)).exists_sequences index done
    rw [encode_cons, encode_cons, encodePoint, if_pos (by omega), encodePoint, if_pos (by omega),
      ← List.append_assoc, hs, ih, Text.join, if_pos hpair, List.reverse_cons, List.append_assoc]
    rfl
  | case4 c d rest hnot ih =>
    have htakes : Takes sequence (encodePoint c ++ encode (d :: rest)) c (encode (d :: rest)) := by
      refine takes_encodePoint fun d' tail he => ?_
      cases he
      exact hnot
    obtain ⟨index', hs⟩ := htakes.exists_sequences index done
    rw [encode_cons, hs, ih, Text.join, if_neg hnot, List.reverse_cons, List.append_assoc]
    rfl

/-- What is decoded from an encoded text is the text with its pairs joined. -/
theorem decode_encode (t : Text) : decode (encode t) = .ok t.join := by
  rw [decode]
  rcases decode?_encode t with ⟨hs, hall⟩ | hs
  · rw [hs, Text.join_eq_self_iff.2 (joined_of_forall hall)]
  · rw [hs, sequences_encode]
    rfl

/-- The texts that are read back as they are. -/
theorem decode_encode_eq_ok {t : Text} : decode (encode t) = .ok t ↔ t.Joined := by
  rw [decode_encode, Except.ok.injEq, Text.join_eq_self_iff]

end ModifiedUtf8

end ClassFormat
