import Mathlib
import ClassFormat.Proofs.StackMap

/-!
# The code offsets of frames

The code offset of a frame is summed up over the frames before it. The sums of a table fit four
bytes, whatever it holds, since it counts its frames in two bytes, and so does every frame the
distance to the one before it. If code offsets are verified, the frames of a table are at different
instructions.

* `StackMapFrame.accumulated`: the code offsets of the frames of a table;
* `StackMapFrame.readTableIn4`: a reader of tables that adds numbers of four bytes;
* `StackMapFrame.readTableIn4_eq`: no sum of that reader is too large;
* `StackMapFrame.Lands`: the frames of a table are at instructions, in their order;
* `StackMapFrame.accumulates`: what the code offsets of a table are.
-/

namespace ClassFormat

namespace StackMapFrame

open Reader

variable {s : Surroundings} {frames : List StackMapFrame} {index : Nat}

/-! ### Sums of distances -/

/-- The code offsets of the frames that follow one at the offset `previous`. -/
def accumulated (previous : Option Nat) : List StackMapFrame → List Nat
  | [] => []
  | frame :: rest =>
    frame.offsetAfter previous :: accumulated (some (frame.offsetAfter previous)) rest

/-- The offsets that a stack map has verified are the sums of those of its frames. -/
theorem offsetsAfter_eq (previous : Option Nat) (frames : List StackMapFrame) :
    offsetsAfter previous frames = (accumulated previous frames).map fun offset =>
      .start offset := by
  induction frames generalizing previous with
  | nil => rfl
  | cons frame rest ih => rw [offsetsAfter, accumulated, List.map_cons, ih]

/-- Each frame has an offset. -/
@[simp] theorem length_accumulated (previous : Option Nat) (frames : List StackMapFrame) :
    (accumulated previous frames).length = frames.length := by
  induction frames generalizing previous with
  | nil => rfl
  | cons frame rest ih => rw [accumulated, List.length_cons, ih, List.length_cons]

/-- Each frame adds at most 65536, the first one less. -/
theorem offsetAfter_lt (frame : StackMapFrame) {previous : Option Nat}
    (h : ∀ p ∈ previous, p < 65536 * index) : frame.offsetAfter previous < 65536 * (index + 1) := by
  have hdelta := frame.delta.toNat_lt
  cases previous with
  | none =>
    rw [offsetAfter]
    omega
  | some p =>
    have hp := h p rfl
    rw [offsetAfter]
    omega

/-- No frame moves the offset by more than 65536. -/
theorem lt_of_mem_accumulated {previous : Option Nat} (h : ∀ p ∈ previous, p < 65536 * index) :
    ∀ offset ∈ accumulated previous frames, offset < 65536 * (index + frames.length) := by
  induction frames generalizing previous index with
  | nil => exact nofun
  | cons frame rest ih =>
    have hframe := offsetAfter_lt frame h
    have hrest := @ih (index + 1) (some (frame.offsetAfter previous)) (by simpa using hframe)
    intro offset hoffset
    rw [List.length_cons]
    rcases List.mem_cons.1 hoffset with rfl | hmem
    · omega
    · have hlt := hrest offset hmem
      omega

/-- The frames after one are at higher code offsets. -/
theorem lt_of_mem_accumulated_some {p : Nat} :
    ∀ offset ∈ accumulated (some p) frames, p < offset := by
  induction frames generalizing p with
  | nil => exact nofun
  | cons frame rest ih =>
    have hframe : p < frame.offsetAfter (some p) := by
      rw [offsetAfter]
      omega
    intro offset hoffset
    rcases List.mem_cons.1 hoffset with rfl | hrest
    · exact hframe
    · exact hframe.trans (ih offset hrest)

/-- Each frame lies beyond the one before it. -/
theorem pairwise_accumulated (previous : Option Nat) (frames : List StackMapFrame) :
    (accumulated previous frames).Pairwise (· < ·) := by
  induction frames generalizing previous with
  | nil => exact .nil
  | cons frame rest ih => exact .cons lt_of_mem_accumulated_some (ih _)

/-! ### Sums of four bytes -/

/-- The sum of two numbers, if it fits four bytes. -/
def sum? (a b : UInt32) : Option UInt32 := if a.toNat + b.toNat < 2 ^ 32 then some (a + b) else none

/-- Two numbers are added as usual, if their sum fits into 32 bits. -/
theorem sum?_eq_some {a b : UInt32} (h : a.toNat + b.toNat < 2 ^ 32) :
    ∃ c, sum? a b = some c ∧ c.toNat = a.toNat + b.toNat := by
  refine ⟨a + b, if_pos h, ?_⟩
  rw [UInt32.toNat_add, Nat.mod_eq_of_lt h]

/-- The code offset of a frame, if no sum on the way to it is too large. -/
def offsetIn4? (previous : Option UInt32) (frame : StackMapFrame) : Option UInt32 :=
  match previous with
  | none => some frame.delta.toUInt32
  | some previous => do sum? (← sum? previous frame.delta.toUInt32) 1

/-- Reads frames as `readFrom` does, but adds numbers of four bytes, and does what `overflow` does
    as soon as a sum is too large. -/
def readFromIn4 (s : Surroundings) (overflow : Reader (List StackMapFrame)) (index : Nat)
    (previous : Option UInt32) (done : List StackMapFrame) : (n : Nat) → Reader (List StackMapFrame)
  | 0 => return done.reverse
  | n + 1 => do
    let frame ← Reader.within (.readingFrame index) (read s)
    match frame.offsetIn4? previous with
    | none => overflow
    | some offset =>
      Failure.inside (.inFrame index)
        (s.ifCode fun code => code.requireStart .stackMapFrame offset.toNat)
      readFromIn4 s overflow (index + 1) (some offset) (frame :: done) n

/-- Reads a table of frames, adding numbers of four bytes. -/
def readTableIn4 (s : Surroundings) (overflow : Reader (List StackMapFrame)) :
    Reader (List StackMapFrame) := do
  readFromIn4 s overflow 0 none [] (← Reader.u2).toNat

/-- The sums for a frame are not too large, if there are fewer than 65535 frames before it. -/
theorem offsetIn4?_eq_some (frame : StackMapFrame) {previous : Option UInt32}
    (h : ∀ p ∈ previous, p.toNat < 65536 * index) (hindex : index < 65535) :
    ∃ offset, frame.offsetIn4? previous = some offset ∧
      offset.toNat = frame.offsetAfter (previous.map UInt32.toNat) := by
  have hdelta := frame.delta.toNat_lt
  cases previous with
  | none => exact ⟨_, rfl, frame.delta.toNat_toUInt32⟩
  | some p =>
    have hp := h p rfl
    have hwide := frame.delta.toNat_toUInt32
    have hsum : p.toNat + frame.delta.toUInt32.toNat < 2 ^ 32 := by omega
    obtain ⟨a, ha, hadd⟩ := sum?_eq_some hsum
    have hone : (1 : UInt32).toNat = 1 := rfl
    have hsum' : a.toNat + (1 : UInt32).toNat < 2 ^ 32 := by omega
    obtain ⟨b, hb, hadd'⟩ := sum?_eq_some hsum'
    refine ⟨b, ?_, ?_⟩
    · rw [offsetIn4?, ha]
      exact hb
    · rw [hadd', hadd, hwide]
      rfl

/-- Frames are read alike, by induction on their number. The invariant is that the sum so far is
    below 65536 for each frame read. -/
theorem readFromIn4_eq (overflow : Reader (List StackMapFrame)) {previous : Option UInt32}
    (h : ∀ p ∈ previous, p.toNat < 65536 * index) {n : Nat} (hn : index + n ≤ 65535)
    (done : List StackMapFrame) :
    readFromIn4 s overflow index previous done n =
      readFrom s index (previous.map UInt32.toNat) done n := by
  induction n generalizing index previous done with
  | zero => rfl
  | succ n ih =>
    rw [readFromIn4, readFrom]
    congr
    funext frame
    obtain ⟨offset, hoffset, hnat⟩ := offsetIn4?_eq_some frame h (by omega)
    have hlt : offset.toNat < 65536 * (index + 1) := by
      rw [hnat]
      exact offsetAfter_lt frame (by simpa using h)
    simp only [hoffset]
    rw [ih (by simpa using hlt) (by omega), Option.map_some, hnat]

/-- Tables are read alike, for a table counts its frames in two bytes. -/
theorem readTableIn4_eq (overflow : Reader (List StackMapFrame)) :
    readTableIn4 s overflow = readTable s := by
  rw [readTableIn4, readTable]
  congr
  funext n
  have hn := n.toNat_lt
  exact readFromIn4_eq overflow (by simp) (by omega) []

/-! ### Tables that are read -/

/-- The code offsets of a table that is read are admitted, and its frames are counted in two
    bytes. -/
theorem of_readTable {c c' : Cursor} (h : readTable s c = .ok frames c') :
    frames.length ≤ 65535 ∧ ∀ offset ∈ accumulated none frames, s.Admits (.start offset) := by
  obtain ⟨bytes, ⟨hwrite, -, hoffsets⟩, -⟩ := (inverts_readTable s).sound h
  refine ⟨(Writer.exists_table_iff.1 ⟨bytes, hwrite⟩).1, fun offset hoffset => hoffsets _ ?_⟩
  refine List.mem_append_left _ ?_
  rw [offsetsAfter_eq]
  exact List.mem_map_of_mem hoffset

/-- The frames are at instructions of code of a length, in their order and with none twice. -/
structure Lands (frames : List StackMapFrame) (length : Nat) (instructions : List Instruction) :
    Prop where
  ascending : (accumulated none frames).Pairwise (· < ·)
  starts : ∀ offset ∈ accumulated none frames,
    offset < length ∧ ∃ i ∈ instructions, i.offset.toNat = offset
  few : frames.length ≤ instructions.length

/-- Frames that lie at different starts of instructions are no more than these. -/
theorem lands_of_starts {length : Nat} {instructions : List Instruction}
    (h : ∀ offset ∈ accumulated none frames,
      offset < length ∧ ∃ i ∈ instructions, i.offset.toNat = offset) :
    Lands frames length instructions := by
  have hascending := pairwise_accumulated none frames
  refine ⟨hascending, h, ?_⟩
  have hsubset : accumulated none frames ⊆ instructions.map fun i => i.offset.toNat := by
    intro offset hoffset
    obtain ⟨-, hi⟩ := h offset hoffset
    exact List.mem_map.2 hi
  -- No two frames are at the same instruction.
  have hnodup : (accumulated none frames).Nodup := hascending.imp Nat.ne_of_lt
  simpa using (List.subperm_of_subset hnodup hsubset).length_le

/-- No code offset of a table is too large for four bytes, and if code offsets are verified, the
    frames of a table are at instructions, with none twice. -/
theorem accumulates (s : Surroundings) :
    (∀ overflow, readTableIn4 s overflow = readTable s) ∧
    (∀ c frames c', readTable s c = .ok frames c' →
      ∀ offset ∈ accumulated none frames, offset ≤ 4294901759) ∧
    ∀ length instructions handlers,
      s.code? = some { CodeMap.ofInstructions length instructions true with handlers := handlers } →
        ∀ c frames c', readTable s c = .ok frames c' → Lands frames length instructions := by
  refine ⟨readTableIn4_eq, ?_, ?_⟩
  · intro c frames c' h offset hoffset
    obtain ⟨hcount, -⟩ := of_readTable h
    have hlt := @lt_of_mem_accumulated frames 0 none nofun offset hoffset
    omega
  · intro length instructions handlers hcode c frames c' h
    obtain ⟨-, hadmits⟩ := of_readTable h
    refine lands_of_starts fun offset hoffset => ?_
    have hlies := hadmits offset hoffset _ hcode rfl
    exact (@CodeMap.isStart_ofInstructions instructions length true offset).1 hlies

/-- Code of three bytes, an instruction each, that is verified. -/
def threeInstructions : List Instruction := [⟨0, 0x00, .none⟩, ⟨1, 0x00, .none⟩, ⟨2, 0xB1, .none⟩]

/-- Surroundings with that code. -/
def inThreeInstructions : Surroundings :=
  ⟨.empty, ⟨true⟩, .code, 0, some (CodeMap.ofInstructions 3 threeInstructions true)⟩

/-- The first frame is at its distance from the start, and the second one right after it. -/
theorem accumulates_two :
    ∃ c, readTable inThreeInstructions (.start [0, 2, 1, 0]) = .ok [same 1, same 0] c ∧
      readTableIn4 inThreeInstructions (readTable inThreeInstructions) (.start [0, 2, 1, 0]) =
        .ok [same 1, same 0] c ∧
      accumulated none [same 1, same 0] = [1, 2] ∧
        Lands [same 1, same 0] 3 threeInstructions := by
  have hread : readTable inThreeInstructions (.start [0, 2, 1, 0]) = .ok [same 1, same 0]
    ⟨[], 4, []⟩ := by rfl
  obtain ⟨hread4, -, hlands⟩ := accumulates inThreeInstructions
  refine ⟨_, hread, ?_, by decide, hlands 3 threeInstructions 0 rfl _ _ _ hread⟩
  rw [hread4]
  exact hread

end StackMapFrame

end ClassFormat
