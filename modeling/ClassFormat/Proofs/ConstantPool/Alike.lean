import Mathlib
import ClassFormat.Proofs.ConstantPool.Spelling
import ClassFormat.Proofs.List
import ClassFormat.Proofs.Text.Basic
import ClassFormat.Proofs.Text.ModifiedUtf8
import ClassFormat.Proofs.Unambiguity

/-!
# Pools that are read in place of others

A pool that is read from what was written for another one may differ from it, but only in texts
that are not joined. Each index holds a constant of the same kind, so what refers to the one refers
to the other.

* `Constant.Alike`, `ConstantPool.Alike`: the same, but for texts that are not joined;
* `ConstantPool.Alike.refers_iff`, `ConstantPool.Alike.text`: what alike pools have in common;
* `ConstantPool.WellFormed.alike_of_spelled`: what is read in place of a pool is alike.
-/

namespace ClassFormat

open Writer

/-- Whole characters never pair. -/
theorem Text.joined_ofString (s : String) : (Text.ofString s).Joined :=
  ModifiedUtf8.joined_of_forall <| List.forall_mem_map.2 fun c _ => by
    simp [CodePoint.not_isSurrogate_ofChar c]

/-! ### Constants -/

namespace Constant

variable {a b : Constant} {content s t : Bytes}

/-- Constants of the same kind, which are the same if the first one is a joined text. -/
structure Alike (a b : Constant) : Prop where
  kind : b.kind = a.kind
  text : ∀ t, t.Joined → a = .utf8 t → b = .utf8 t

/-- Constants other than texts need only be of the same kind. -/
theorem alike_of_ne_utf8 (h : ∀ t, a ≠ .utf8 t) (hkind : b.kind = a.kind) : Alike a b :=
  ⟨hkind, fun t _ ht => absurd ht (h t)⟩

/-- What may be stored as a constant is written is alike. -/
theorem HasContent.alike (hfits : a.Fits) (hb : b.HasContent content)
    (he : a.storedAs a.content ++ s = b.storedAs content ++ t) : Alike a b ∧ s = t := by
  simp only [storedAs, List.append_assoc, u1_append_inj] at he
  obtain ⟨htag, he⟩ := he
  have hkind : a.kind = b.kind := by simpa [Kind.ofTag?_tag] using Kind.ofTag?_eq_some.2 htag
  cases a <;> cases b <;> cases hkind
  case utf8 text text' =>
    simp only [payloadAs, List.append_assoc, u2_append_inj] at he
    have hcount := congrArg UInt16.toNat he.1
    rw [UInt16.toNat_ofNat_of_lt' hfits, UInt16.toNat_ofNat_of_lt' hb.1] at hcount
    obtain ⟨rfl, rfl⟩ := List.append_inj he.2 hcount
    refine ⟨⟨rfl, fun t hjoined ht => ?_⟩, rfl⟩
    -- A joined text is the one that its encoding is decoded to.
    cases ht
    have hdecode := ModifiedUtf8.decode_encode_eq_ok.2 hjoined
    cases hdecode.symm.trans hb.2
    rfl
  -- Other constants take up as many bytes as others of their kind.
  all_goals exact ⟨alike_of_ne_utf8 (by simp) rfl,
    (List.append_inj he (by simp [payloadAs, i8, u8])).2⟩

/-- Alike constants take up alike slots. -/
theorem Alike.forall₂_slotsOf (h : Alike a b) :
    List.Forall₂ (Option.Rel Alike) (ConstantPool.slotsOf a) (ConstantPool.slotsOf b) := by
  rw [ConstantPool.slotsOf, ConstantPool.slotsOf, h.kind]
  split
  · exact .cons (.some h) (.cons .none .nil)
  · exact .cons (.some h) .nil

/-- Constants that take up as many slots as others, and are read in place of them, are alike. -/
theorem forall₂_alike {constants constants' : List Constant} {y : Bytes}
    (hfits : ∀ constant ∈ constants, constant.Fits)
    (hlength : (constants.flatMap ConstantPool.slotsOf).length =
      (constants'.flatMap ConstantPool.slotsOf).length)
    (hy : Spelled.each constants' y)
    (he : (constants.flatMap fun constant => constant.storedAs constant.content) ++ s = y ++ t) :
    List.Forall₂ Alike constants constants' ∧ s = t := by
  induction constants generalizing constants' y with
  | nil =>
    obtain _ | ⟨b, rest'⟩ := constants'
    · obtain rfl := hy
      exact ⟨.nil, he⟩
    · have := b.kind.slots_pos
      simp at hlength
      omega
  | cons a rest ih =>
    obtain _ | ⟨b, rest'⟩ := constants'
    · have := a.kind.slots_pos
      simp at hlength
      omega
    obtain ⟨_, y, ⟨content, hcontent, rfl⟩, hy, rfl⟩ := hy
    obtain ⟨ha, hrest⟩ := List.forall_mem_cons.1 hfits
    rw [List.flatMap_cons, List.append_assoc, List.append_assoc] at he
    obtain ⟨halike, he⟩ := hcontent.alike ha he
    have hlengths : (rest.flatMap ConstantPool.slotsOf).length =
        (rest'.flatMap ConstantPool.slotsOf).length := by
      simpa [halike.kind] using hlength
    obtain ⟨hall, hst⟩ := ih hrest hlengths hy he
    exact ⟨.cons halike hall, hst⟩

end Constant

/-! ### Pools -/

namespace ConstantPool

variable {pool pool' : ConstantPool} {index : UInt16} {kinds : List Constant.Kind}

/-- Pools that hold alike constants at each index. -/
def Alike (pool pool' : ConstantPool) : Prop :=
  ∀ index, Option.Rel Constant.Alike (pool.get? index) (pool'.get? index)

/-- The same references are possible into alike pools. -/
theorem Alike.refers_iff (h : pool.Alike pool') :
    pool'.Refers index kinds ↔ pool.Refers index kinds := by
  rw [Refers, Refers]
  have hrel := h index
  generalize pool.get? index = held, pool'.get? index = held' at hrel
  cases hrel with
  | none => simp
  | some halike => simp [halike.kind]

theorem Alike.resolves_iff (h : pool.Alike pool') {r : Reference} :
    r.Resolves pool' ↔ r.Resolves pool := by
  rw [Reference.Resolves, Reference.Resolves, h.refers_iff]

/-- Alike pools hold the same joined texts. -/
theorem Alike.text (h : pool.Alike pool') {t : Text} (hjoined : t.Joined)
    (hget : pool.get? index = some (.utf8 t)) : pool'.get? index = some (.utf8 t) := by
  have hrel := h index
  rw [hget] at hrel
  generalize pool'.get? index = found at hrel
  cases hrel with
  | some halike => rw [halike.text t hjoined rfl]

/-- What is read in place of a pool is alike, and what follows it is the same. -/
theorem WellFormed.alike_of_spelled (h : pool.WellFormed) {x y s t : Bytes}
    (hx : pool.write = .ok x) (hy : pool'.Spelled y) (he : x ++ s = y ++ t) :
    pool.Alike pool' ∧ s = t := by
  obtain ⟨constants, hlaid⟩ := h.laidOut
  obtain ⟨hcount, hfits, rfl⟩ := hlaid.write_eq_ok.1 hx
  obtain ⟨constants', y, hlaid', hcount', hy, rfl⟩ := hy
  rw [List.append_assoc, List.append_assoc, u2_append_inj] at he
  have hcounts := congrArg UInt16.toNat he.1
  rw [UInt16.toNat_ofNat_of_lt' hcount, UInt16.toNat_ofNat_of_lt' hcount', hlaid.count_eq,
    hlaid'.count_eq] at hcounts
  obtain ⟨hall, hst⟩ := Constant.forall₂_alike hfits (Nat.succ_inj.1 hcounts) hy he.2
  have hslots : List.Forall₂ (Option.Rel Constant.Alike) pool.slots.toList pool'.slots.toList := by
    rw [hlaid, hlaid']
    exact .cons .none (List.rel_flatMap hall fun _ _ halike => halike.forall₂_slotsOf)
  refine ⟨fun index => ?_, hst⟩
  simpa only [get?, Array.getElem?_toList] using hslots.rel_join_getElem? index.toNat

end ConstantPool

end ClassFormat
