import Mathlib
import ClassFormat.ClassFile.Edit
import ClassFormat.Proofs.Code.Offset
import ClassFormat.Proofs.Instruction.Removal

/-!
# Looking instructions up by their offsets

A code offset is looked up in two ways: by halving the list of instructions, and in a map that has
a mark for each offset. Both rely on what decoding makes of a code array, and so they agree.

* `Instruction.Divides`: the instructions stand in a code array without gaps, from its start to its
  end;
* `Instruction.Consecutive.divides`: instructions that record their positions divide their bytes;
* `Code.bisect_eq`, `Code.instructionAt?_eq_some`: halving finds each of the instructions that
  ascend;
* `Instruction.divides_of_decode`: decoded instructions divide the code, and both ways of looking up
  find exactly them.
-/

namespace ClassFormat

/-! ### Halving -/

namespace Code

variable {instructions : Array Instruction} {offset : UInt32} {base size k : Nat}

/-- If the instructions ascend, halving a part that the instruction with the offset is in ends at
    that instruction. -/
theorem bisect_eq (hk : k < instructions.size) (hoffset : instructions[k].offset = offset)
    (hascending : instructions.Pairwise fun i j => i.offset < j.offset)
    (hbase : base ≤ k) (hend : k < base + size) (hsize : base + size ≤ instructions.size) :
    bisect instructions offset base size = k := by
  -- The part shrinks to the one instruction that it always holds.
  fun_induction bisect instructions offset base size with
  | case1 base size hlt half after ih =>
    have hhalf : half = size / 2 := rfl
    have hmiddle : base + half < instructions.size := by omega
    have hafter : after = true ↔ k < base + half := by
      have hlookup : after = true ↔ offset < instructions[base + half].offset := by
        simp [after, hmiddle]
      rw [hlookup, ← hoffset]
      have hmono {m n : Nat} (hn : n < instructions.size) (hmn : m < n) :
          instructions[m].offset < instructions[n].offset :=
        Array.pairwise_iff_getElem.1 hascending m n (hmn.trans hn) hn hmn
      constructor
      · intro hlater
        by_contra hle
        rcases Nat.eq_or_lt_of_le (Nat.not_lt.1 hle) with heq | hgt
        · simp [heq] at hlater
        · exact UInt32.lt_asymm hlater (hmono hk hgt)
      · exact hmono hmiddle
    by_cases hbefore : after = true
    · have := hafter.1 hbefore
      rw [if_pos hbefore]
      rw [dif_pos hbefore] at ih
      exact ih hbase (by omega) (by omega)
    · have := mt hafter.2 hbefore
      rw [if_neg hbefore]
      rw [dif_neg hbefore] at ih
      exact ih (by omega) (by omega) (by omega)
  | case2 => omega

variable {code : Code} {i : Instruction}

/-- The instruction at an offset is the one that records it, if the instructions ascend. -/
theorem instructionAt?_eq_some
    (hascending : code.instructions.Pairwise fun i j => i.offset < j.offset) :
    code.instructionAt? offset = some i ↔ i ∈ code.instructions ∧ i.offset = offset := by
  rw [instructionAt?, Option.filter_eq_some_iff]
  constructor
  · rintro ⟨hfound, hoffset⟩
    exact ⟨by simpa using Array.mem_of_getElem? hfound, by simpa using hoffset⟩
  · rintro ⟨hmem, hoffset⟩
    obtain ⟨k, hk, rfl⟩ := List.getElem_of_mem hmem
    have hfound := @bisect_eq code.instructions.toArray offset 0 code.instructions.length k
      (by simpa using hk) (by simpa using hoffset) hascending (Nat.zero_le _)
      (by simpa using hk) (by simp)
    simp [hfound, hoffset]

end Code

namespace Instruction

open Reader

variable {pool : ConstantPool} {position : Nat} {placed : List Placed} {decoded : List Instruction}
  {code rest : Bytes} {c c' : Cursor}

/-- The instructions stand in the code one after another, from its start to its end. -/
structure Divides (instructions : List Instruction) (code : Bytes) : Prop where
  first : instructions.head?.map Instruction.offset = some 0
  ascending : instructions.Pairwise fun i j => i.offset < j.offset
  /-- What is written for an instruction at the offset that it records stands there in the code, up
      to the offset of the next instruction, or up to the end of the code. -/
  meets : ∀ k (_ : k < instructions.length), ∃ x,
    instructions[k].write instructions[k].offset.toNat = .ok x ∧
      x <+: code.drop instructions[k].offset.toNat ∧
        instructions[k].offset.toNat + x.length =
          (instructions[k + 1]?.map fun next => next.offset.toNat).getD code.length

/-- Each instruction ends where the next one starts, and the last one where the bytes end. -/
theorem Consecutive.meets (h : Consecutive position placed) : ∀ k (_ : k < placed.length),
    position ≤ placed[k].position ∧
    placed[k].bytes <+: (placed.map Placed.bytes).flatten.drop (placed[k].position - position) ∧
      placed[k].position + placed[k].bytes.length = (placed[k + 1]?.map Placed.position).getD
        (position + (placed.map Placed.bytes).flatten.length) := by
  induction placed generalizing position with
  | nil => exact nofun
  | cons p rest ih =>
    obtain ⟨rfl, hp, hrest⟩ := h
    rintro (_ | k) hk
    · refine ⟨le_rfl, by simp, ?_⟩
      cases rest with
      | nil => simp
      | cons q rest => simp [hrest.1]
    · rw [List.length_cons, Nat.succ_lt_succ_iff] at hk
      obtain ⟨hle, hbytes, hmeets⟩ := ih hrest k hk
      refine ⟨by simpa using (Nat.le_add_right ..).trans hle, ?_, ?_⟩
      · -- The bytes of the first instruction are in front of those of the others.
        have hskip : rest[k].position - p.position =
            p.bytes.length + (rest[k].position - (p.position + p.bytes.length)) := by omega
        rw [List.getElem_cons_succ, List.map_cons, List.flatten_cons, hskip,
          List.drop_length_add_append]
        exact hbytes
      · simpa [Nat.add_assoc] using hmeets

/-- Instructions that record their positions divide their bytes. -/
theorem Consecutive.divides (h : Consecutive 0 placed) (hne : placed ≠ [])
    (hrecorded : ∀ p ∈ placed, p.instruction.offset.toNat = p.position) :
    Divides (placed.map Placed.instruction) (placed.map Placed.bytes).flatten where
  first := by
    cases placed with
    | nil => exact absurd rfl hne
    | cons p rest =>
      have hzero : p.instruction.offset.toNat = 0 := (hrecorded p List.mem_cons_self).trans h.1
      simpa using UInt32.toNat_inj.1 hzero
  ascending := by
    refine List.pairwise_map.2 (h.pairwise.imp_of_mem fun {p q} hp hq hlt => ?_)
    rw [UInt32.lt_iff_toNat_lt, hrecorded p hp, hrecorded q hq]
    exact hlt
  meets k hk := by
    rw [List.length_map] at hk
    obtain ⟨-, hbytes, hmeets⟩ := h.meets k hk
    have hoffset := hrecorded placed[k] (List.getElem_mem hk)
    have hwritten := (h.spelled placed[k] (List.getElem_mem hk)).write_eq
    have hnext : (placed.map Placed.instruction)[k + 1]?.map (fun next => next.offset.toNat) =
        placed[k + 1]?.map Placed.position := by
      rw [List.getElem?_map, Option.map_map]
      refine Option.map_congr fun q hq => hrecorded q (List.mem_of_getElem? hq)
    refine ⟨placed[k].bytes, ?_, ?_, ?_⟩
    · rw [List.getElem_map, hoffset, hwritten]
    · simpa [hoffset] using hbytes
    · rw [hnext, List.getElem_map, hoffset]
      simpa using hmeets

/-- The instructions that are decoded from a code array divide it. Halving their list finds the one
    that records an offset, or nothing if there is none, and the map of the code has exactly the
    offsets that they record. -/
theorem divides_of_decode (hne : code ≠ []) (hlength : code.length < 2 ^ 32)
    (hc : c.rest = code ++ rest) (hdec : decode pool code.length c = .ok decoded c') :
    Divides decoded code ∧
    (∀ body : Code, body.instructions = decoded → ∀ (offset : UInt32) (i : Instruction),
      body.instructionAt? offset = some i ↔ i ∈ decoded ∧ i.offset = offset) ∧
    (∀ (verify : Bool) (offset : Int),
      (CodeMap.ofInstructions code.length decoded verify).isStart offset = true ↔
        ∃ i ∈ decoded, (i.offset.toNat : Int) = offset) := by
  obtain ⟨placed, rfl, hchain, -, hrecorded, rfl⟩ := exists_placed_of_decode hlength hc hdec
  have hdivides := hchain.divides (by rintro rfl; exact hne rfl) hrecorded
  refine ⟨hdivides, ?_, ?_⟩
  · rintro body hbody offset i
    rw [← hbody] at hdivides ⊢
    exact Code.instructionAt?_eq_some hdivides.ascending
  · rintro verify (n | n)
    · -- Every offset that is recorded lies in the code.
      refine CodeMap.isStart_ofInstructions.trans ⟨fun ⟨_, i, hi, hn⟩ => ⟨i, hi, by simp [hn]⟩, ?_⟩
      rintro ⟨i, hi, hn⟩
      obtain ⟨p, hp, rfl⟩ := List.mem_map.1 hi
      obtain rfl : p.instruction.offset.toNat = n := by simpa using hn
      refine ⟨?_, _, hi, rfl⟩
      simpa [hrecorded p hp] using hchain.position_lt hp
    · simp [CodeMap.isStart]

/-- The bytes of `iconst_0`, a `tableswitch` with two bytes of padding, a wide `iload`, and
    `return`. -/
def switchCode : Bytes :=
  [0x03, 0xAA, 0, 0, 0, 0, 0, 19, 0, 0, 0, 1, 0, 0, 0, 1, 0, 0, 0, 23, 0xC4, 0x15, 1, 0, 0xB1]

/-- What is decoded from them. -/
def switchInstructions : List Instruction :=
  [⟨0, 0x03, .none⟩, ⟨1, 0xAA, .tableSwitch 19 1 1 [23]⟩, ⟨20, 0x15, .local 256 true⟩,
    ⟨24, 0xB1, .none⟩]

/-- The `iload` starts at offset 20, where the `tableswitch` ends, and nothing starts behind its
    prefix. -/
theorem divides_of_decode_switch :
    (∃ c, decode .empty 25 (.start switchCode) = .ok switchInstructions c) ∧
    Divides switchInstructions switchCode ∧
    (∀ body : Code, body.instructions = switchInstructions →
      body.instructionAt? 20 = some ⟨20, 0x15, .local 256 true⟩ ∧ body.instructionAt? 21 = none) ∧
    (CodeMap.ofInstructions 25 switchInstructions true).isStart 20 = true ∧
      (CodeMap.ofInstructions 25 switchInstructions true).isStart 21 = false := by
  have hdec : decode .empty 25 (.start switchCode) = .ok switchInstructions ⟨[], 25, []⟩ := by cbv
  have hstart : (Cursor.start switchCode).rest = switchCode ++ [] := rfl
  have hnone : ∀ i ∈ switchInstructions, i.offset ≠ 21 := by decide
  obtain ⟨hdivides, hlookup, hmap⟩ := divides_of_decode (by decide) (by decide) hstart hdec
  refine ⟨⟨_, hdec⟩, hdivides, fun body hbody => ⟨?_, ?_⟩, ?_, ?_⟩
  · exact (hlookup body hbody 20 _).2 (by decide)
  · refine Option.eq_none_iff_forall_ne_some.2 fun i hi => ?_
    obtain ⟨hmem, hoffset⟩ := (hlookup body hbody 21 i).1 hi
    exact hnone i hmem hoffset
  · exact (hmap true 20).2 (by decide)
  · exact Bool.eq_false_iff.2 (mt (hmap true 21).1 (by decide))

end Instruction

end ClassFormat
