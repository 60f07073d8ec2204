import Mathlib
import ClassFormat.Proofs.Instruction.Spelling

/-!
# Code arrays

Instructions one after another, each at the position where the one before it ends. Laying out
a list of instructions gives such a sequence, and so does decoding a code array, in which every
instruction moreover records its position.

* `Instruction.Consecutive`: a sequence of placed instructions;
* `Instruction.layOut_eq_ok`, `Instruction.reads_decode`: laying out and decoding;
* `Instruction.Recorded`, `Instruction.inverts_decode`: what is decoded is what encodes to the
  code as it is.
-/

namespace ClassFormat

namespace Instruction

open Reader

variable {pool : ConstantPool} {position start : Nat} {placed : List Placed}
  {instructions : List Instruction} {bytes : Bytes}

/-- The instructions follow each other, the first at `position`. -/
def Consecutive : (position : Nat) → List Placed → Prop
  | _, [] => True
  | position, p :: rest => p.position = position ∧ p.instruction.Spelled position p.bytes ∧
    Consecutive (position + p.bytes.length) rest

/-- Placed instructions are written at their positions. -/
theorem Consecutive.spelled (h : Consecutive position placed) :
    ∀ p ∈ placed, p.instruction.Spelled p.position p.bytes := by
  induction placed generalizing position with
  | nil => exact nofun
  | cons p rest ih =>
    obtain ⟨rfl, hp, hrest⟩ := h
    exact List.forall_mem_cons.2 ⟨hp, ih hrest⟩

/-! ### Laying out -/

/-- Laying out adds the instructions to those that were laid out, one behind the other. -/
theorem layOutFrom_eq_ok {done : List Placed} :
    layOutFrom position done instructions = .ok placed ↔ ∃ added, placed = done.reverse ++ added ∧
      added.map Placed.instruction = instructions ∧ Consecutive position added := by
  induction instructions generalizing position done with
  | nil => simp [layOutFrom, Consecutive, eq_comm (a := placed)]
  | cons i rest ih =>
    simp only [layOutFrom, bind_eq_ok, inside_eq_ok, write_eq_ok, ih, List.map_eq_cons_iff]
    constructor
    · rintro ⟨x, hx, added, rfl, rfl, hadded⟩
      exact ⟨⟨i, position, x⟩ :: added, by simp, ⟨_, _, rfl, rfl, rfl⟩, rfl, hx, hadded⟩
    · rintro ⟨_, rfl, ⟨p, added, rfl, rfl, rfl⟩, rfl, hx, hadded⟩
      exact ⟨p.bytes, hx, added, by simp, rfl, hadded⟩

/-- Instructions are laid out one behind the other. -/
theorem layOut_eq_ok : layOut instructions = .ok placed ↔
    placed.map Placed.instruction = instructions ∧ Consecutive 0 placed := by
  simp [layOut, layOutFrom_eq_ok]

/-! ### Decoding -/

/-- The instruction records its position, and may be read. -/
structure Placed.Decodable (pool : ConstantPool) (p : Placed) : Prop where
  offset : p.instruction.offset = .ofNat p.position
  admissible : p.instruction.operands.Admissible
  references : ∀ r ∈ p.instruction.references, r.Resolves pool

/-- Decoding ends with the bytes. -/
theorem decodeFrom_of_rest_eq_nil {fuel : Nat} {c : Cursor} {done : List Instruction}
    (h : c.rest = []) : decodeFrom pool start done fuel c = .ok done.reverse c := by
  cases fuel with
  | zero => rfl
  | succ fuel =>
    rw [decodeFrom, get_bind, h]
    rfl

/-- As long as bytes are left, one more instruction is decoded. -/
theorem decodeFrom_of_rest_ne_nil {fuel : Nat} {c c' : Cursor} {done : List Instruction}
    (h : c.rest ≠ []) : decodeFrom pool start done (fuel + 1) c = .ok instructions c' ↔
      ∃ i c₁, within (.decodingInstruction (c.offset - start))
        (mapFailure (cutOff (c.offset - start)) (read pool (c.offset - start))) c = .ok i c₁ ∧
          decodeFrom pool start (i :: done) fuel c₁ = .ok instructions c' := by
  rw [decodeFrom, get_bind, List.isEmpty_eq_false_iff.2 h]
  exact Reader.bind_eq_ok

/-- What is decoded are consecutive instructions, up to the last byte. -/
theorem decodeFrom_sound {fuel : Nat} {c c' : Cursor} {done : List Instruction}
    (hstart : start ≤ c.offset) (hfuel : c.rest.length ≤ fuel)
    (h : decodeFrom pool start done fuel c = .ok instructions c') :
    ∃ placed, instructions = done.reverse ++ placed.map Placed.instruction ∧
      Consecutive (c.offset - start) placed ∧ (∀ p ∈ placed, p.Decodable pool) ∧
        c.rest = (placed.map Placed.bytes).flatten ∧ c'.rest = [] := by
  -- Each instruction takes a byte, so the fuel lasts as long as bytes are left.
  induction fuel generalizing c done with
  | zero =>
    cases h
    have := List.eq_nil_of_length_eq_zero (Nat.le_zero.1 hfuel)
    exact ⟨[], by simp, trivial, nofun, this, this⟩
  | succ fuel ih =>
    by_cases hrest : c.rest = []
    · rw [decodeFrom_of_rest_eq_nil hrest] at h
      cases h
      exact ⟨[], by simp, trivial, nofun, hrest, hrest⟩
    · obtain ⟨i, c₁, hi, hnext⟩ := (decodeFrom_of_rest_ne_nil hrest).1 h
      obtain ⟨x, ⟨hoffset, hx, hadm, hrefs⟩, past⟩ :=
        (reads_read pool (c.offset - start)).mapFailure.within.sound hi
      have hlength := congrArg List.length past.rest
      have hpos := List.length_pos_iff.2 hx.ne_nil
      rw [List.length_append] at hlength
      obtain ⟨placed, rfl, hchain, hall, hbytes, hend⟩ :=
        ih (past.offset ▸ Nat.le_add_right_of_le hstart) (by omega) hnext
      refine ⟨⟨i, c.offset - start, x⟩ :: placed, by simp, ⟨rfl, hx, ?_⟩,
        List.forall_mem_cons.2 ⟨⟨hoffset, hadm, hrefs⟩, hall⟩, ?_, hend⟩
      · rwa [past.offset, Nat.sub_add_comm hstart] at hchain
      · rw [past.rest, hbytes, List.map_cons, List.flatten_cons]

/-- Consecutive instructions that are decodable are decoded. -/
theorem decodeFrom_complete {fuel : Nat} {c : Cursor} {done : List Instruction}
    (hstart : start ≤ c.offset) (hfuel : c.rest.length ≤ fuel)
    (hchain : Consecutive (c.offset - start) placed) (hall : ∀ p ∈ placed, p.Decodable pool)
    (hrest : c.rest = (placed.map Placed.bytes).flatten) :
    ∃ c', decodeFrom pool start done fuel c =
      .ok (done.reverse ++ placed.map Placed.instruction) c' := by
  induction placed generalizing c done fuel with
  | nil => exact ⟨c, by rw [decodeFrom_of_rest_eq_nil hrest, List.map_nil, List.append_nil]⟩
  | cons p placed ih =>
    obtain ⟨hp, hx, hchain⟩ := hchain
    obtain ⟨⟨hoffset, hadm, hrefs⟩, hall⟩ := List.forall_mem_cons.1 hall
    rw [List.map_cons, List.flatten_cons] at hrest
    obtain ⟨c₁, hi, past⟩ := (reads_read pool (c.offset - start)).mapFailure.within.complete
      ⟨hp ▸ hoffset, hx, hadm, hrefs⟩ hrest
    have hpos := List.length_pos_iff.2 hx.ne_nil
    have hlength := congrArg List.length past.rest
    rw [List.length_append] at hlength
    cases fuel with
    | zero => omega
    | succ fuel =>
      obtain ⟨c', hnext⟩ :=
        @ih fuel c₁ (p.instruction :: done) (past.offset ▸ Nat.le_add_right_of_le hstart)
        (by omega) (by rwa [past.offset, Nat.sub_add_comm hstart]) hall (past.rest_eq hrest)
      refine ⟨c', (decodeFrom_of_rest_ne_nil ?_).2 ⟨_, _, hi, ?_⟩⟩
      · exact List.ne_nil_of_length_pos (by omega)
      · simpa using hnext

/-- What is decoded are the consecutive instructions that take up the code array. -/
theorem reads_decode (pool : ConstantPool) (length : Nat) :
    (decode pool length).Reads fun instructions bytes => bytes.length = length ∧
      ∃ placed, placed.map Placed.instruction = instructions ∧ Consecutive 0 placed ∧
        (∀ p ∈ placed, p.Decodable pool) ∧ bytes = (placed.map Placed.bytes).flatten where
  sound {c is c'} h := by
    rw [decode, offset_bind] at h
    obtain ⟨⟨_, left⟩, c₁, hread, h⟩ := Reader.bind_eq_ok.1 h
    cases h
    rw [delimited, offset_bind] at hread
    obtain ⟨code, c₂, hcode, hread⟩ := Reader.bind_eq_ok.1 hread
    obtain ⟨_, ⟨rfl, hlength⟩, past⟩ := (reads_bytes length).sound hcode
    obtain ⟨inner, hinner, -, rfl⟩ := confined_eq_ok.1 hread
    obtain ⟨placed, rfl, hchain, hall, hrest, -⟩ :=
      decodeFrom_sound (c := ⟨_, c.offset, _⟩) le_rfl hlength.le hinner
    exact ⟨_, ⟨hlength, placed, rfl, by simpa using hchain, hall, hrest⟩, past.rest, past.offset⟩
  complete := by
    rintro _ code ⟨hlength, placed, rfl, hchain, hall, hcode⟩ c rest hc
    obtain ⟨c₁, hread, past⟩ := (reads_bytes length).complete ⟨rfl, hlength⟩ hc
    obtain ⟨inner, hinner⟩ := @decodeFrom_complete pool c.offset placed _ ⟨code, c.offset, c₁.log⟩
      [] le_rfl hlength.le (by simpa using hchain) hall hcode
    refine ⟨{ c₁ with log := inner.log }, ?_, past.rest, past.offset⟩
    rw [decode, offset_bind, Reader.bind_eq_ok]
    refine ⟨(_, inner.rest), _, ?_, rfl⟩
    rw [delimited, offset_bind, Reader.bind_eq_ok]
    exact ⟨code, c₁, hread, confined_eq_ok.2 ⟨inner, hinner, rfl, rfl⟩⟩

/-! ### Decoding and encoding -/

/-- Each instruction records the position it is laid out at. -/
def Recorded (instructions : List Instruction) : Prop :=
  ∃ placed, layOut instructions = .ok placed ∧ ∀ p ∈ placed, p.instruction.offset.toNat = p.position

/-- Instructions that record where they land are encoded as they are. -/
theorem Recorded.encode_eq_ok (h : Recorded instructions) : encode instructions = .ok bytes ↔
    ∃ placed, layOut instructions = .ok placed ∧ bytes = (placed.map Placed.bytes).flatten := by
  obtain ⟨placed, hlaid, hrec⟩ := h
  have hmoved : ¬∃ p ∈ placed, p.moved = true := by
    simpa [Placed.moved] using hrec
  simp [encode, hlaid, hmoved, eq_comm (a := bytes)]

/-- Placed instructions start before the end of their bytes. -/
theorem Consecutive.position_lt (h : Consecutive position placed) {p : Placed} (hp : p ∈ placed) :
    p.position < position + (placed.map Placed.bytes).flatten.length := by
  induction placed generalizing position with
  | nil => cases hp
  | cons q rest ih =>
    obtain ⟨rfl, hq, hrest⟩ := h
    have := List.length_pos_iff.2 hq.ne_nil
    rw [List.map_cons, List.flatten_cons, List.length_append]
    rcases List.mem_cons.1 hp with rfl | hp
    · omega
    · have := ih hrest hp
      omega

/-- What decodes from a code array is what encodes to it as it is and may be read. -/
theorem inverts_decode (pool : ConstantPool) {length : Nat} (hlength : length < 2 ^ 32) :
    (decode pool length).Reads fun instructions bytes => bytes.length = length ∧
      encode instructions = .ok bytes ∧ Recorded instructions ∧
        ∀ i ∈ instructions, i.operands.Admissible ∧ ∀ r ∈ i.references, r.Resolves pool := by
  refine (reads_decode pool length).congr fun instructions bytes => and_congr_right fun hn => ?_
  constructor
  · rintro ⟨placed, rfl, hchain, hall, rfl⟩
    have hrec : Recorded (placed.map Placed.instruction) := by
      -- Positions lie in the code, the length of which fits what an instruction can record.
      refine ⟨placed, layOut_eq_ok.2 ⟨rfl, hchain⟩, fun p hp => ?_⟩
      have := hchain.position_lt hp
      rw [(hall p hp).offset, UInt32.toNat_ofNat_of_lt' (by rw [UInt32.size]; omega)]
    refine ⟨hrec.encode_eq_ok.2 ⟨placed, layOut_eq_ok.2 ⟨rfl, hchain⟩, rfl⟩, hrec, ?_⟩
    exact List.forall_mem_map.2 fun p hp => ⟨(hall p hp).admissible, (hall p hp).references⟩
  · rintro ⟨henc, hrec, hall⟩
    obtain ⟨placed, hlaid, rfl⟩ := hrec.encode_eq_ok.1 henc
    obtain ⟨placed', hlaid', hoffset⟩ := hrec
    cases hlaid.symm.trans hlaid'
    obtain ⟨rfl, hchain⟩ := layOut_eq_ok.1 hlaid
    refine ⟨placed, rfl, hchain, fun p hp => ?_, rfl⟩
    obtain ⟨hadm, hrefs⟩ := List.forall_mem_map.1 hall p hp
    exact ⟨by rw [← hoffset p hp, UInt32.ofNat_toNat], hadm, hrefs⟩

end Instruction

end ClassFormat
