import ClassFormat.Instruction.Decode
import ClassFormat.Writer
import Std.Data.TreeMap

/-!
# Encoding instructions

A list of instructions is laid out one after another. If each lands on the offset it
records, its operands are written as they are. Otherwise instructions have moved, and
the branches are written anew: a branch leads to the instruction that records the offset
it led to before.

* `Instruction.write`: the bytes of an instruction at a position;
* `Instruction.layOut`: where each instruction of a list lands, and its bytes;
* `Instruction.positions`: where the instruction that records an offset lands;
* `Instruction.relocate`: an instruction with its branches adjusted to the new positions;
* `Instruction.encode`: the code array of a list.
-/

namespace ClassFormat

/-- Operands with each displacement replaced, that of `default` first. -/
def Operands.mapDisplacements (replace : Int32 → Except Failure Int32) :
    Operands → Except Failure Operands
  | .branch relative => return .branch (← replace relative)
  | .tableSwitch default low high offsets =>
    return .tableSwitch (← replace default) low high (← offsets.mapM replace)
  | .lookupSwitch default pairs =>
    return .lookupSwitch (← replace default)
      (← pairs.mapM fun (key, relative) => return (key, ← replace relative))
  | operands => .ok operands

namespace Instruction

/-- Checks that a number fits into a signed field of `bits` bits. -/
def checkSigned (bits : Nat) (n : Int) : Except Failure Unit :=
  let bound : Int := Nat.pow 2 (bits - 1)
  if bound ≤ n then Note.tooLarge.raise
  else if n < -bound then Note.tooSmall.raise
  else .ok ()

/-- The bytes of an instruction that is written at `position`. -/
def write (position : Nat) (i : Instruction) : Written :=
  match Opcode.layout? i.opcode with
  | none => (Fault.opcode i.opcode i.offset.toNat).raise
  | some layout =>
    match layout, i.operands with
    | .none, .none => .ok (Writer.u1 i.opcode)
    | .byte, .byte value => .ok (Writer.u1 i.opcode ++ Writer.i1 value)
    | .short, .short value => .ok (Writer.u1 i.opcode ++ Writer.i2 value)
    | .arrayType, .arrayType code => .ok (Writer.u1 i.opcode ++ Writer.u1 code)
    | .narrowConstant _, .constant index =>
      return Writer.u1 i.opcode ++
        (← Failure.inside .narrowConstantIndex (Writer.count .u1 index.toNat))
    | .constant _, .constant index => .ok (Writer.u1 i.opcode ++ Writer.u2 index)
    | .local, .local index true =>
      .ok (Writer.u1 Opcode.wide ++ Writer.u1 i.opcode ++ Writer.u2 index)
    | .local, .local index false =>
      return Writer.u1 i.opcode ++
        (← Failure.inside .narrowLocalIndex (Writer.count .u1 index.toNat))
    | .increment, .increment index amount true =>
      .ok (Writer.u1 Opcode.wide ++ Writer.u1 i.opcode ++ Writer.u2 index ++ Writer.i2 amount)
    | .increment, .increment index amount false => do
      let index ← Failure.inside .narrowIncrementIndex (Writer.count .u1 index.toNat)
      Failure.inside (.narrowIncrementAmount amount) (checkSigned 8 amount.toInt)
      return Writer.u1 i.opcode ++ index ++ Writer.i1 amount.toInt8
    | .branch, .branch relative => do
      Failure.inside (.shortBranch relative.toInt) (checkSigned 16 relative.toInt)
      return Writer.u1 i.opcode ++ Writer.i2 relative.toInt16
    | .branchWide, .branch relative => .ok (Writer.u1 i.opcode ++ Writer.i4 relative)
    | .tableSwitch, .tableSwitch default low high offsets => do
      if high.toInt - low.toInt + 1 ≠ offsets.length then
        (Fault.malformed (.switchSize low high offsets.length)).raise
      return Writer.u1 i.opcode ++ List.replicate (switchPadding position) 0 ++
        Writer.i4 default ++ Writer.i4 low ++ Writer.i4 high ++ offsets.flatMap Writer.i4
    | .lookupSwitch, .lookupSwitch default pairs => do
      -- The pairs are counted by a signed number.
      Failure.inside .tooManyPairs (checkSigned 32 pairs.length)
      return Writer.u1 i.opcode ++ List.replicate (switchPadding position) 0 ++
        Writer.i4 default ++ Writer.i4 (Int32.ofNat pairs.length) ++
        pairs.flatMap fun (key, relative) => Writer.i4 key ++ Writer.i4 relative
    | .invokeInterface, .invokeInterface index count =>
      .ok (Writer.u1 i.opcode ++ Writer.u2 index ++ Writer.u1 count ++ [0])
    | .invokeDynamic, .invokeDynamic index =>
      .ok (Writer.u1 i.opcode ++ Writer.u2 index ++ [0, 0])
    | .multiANewArray, .multiANewArray index dimensions =>
      .ok (Writer.u1 i.opcode ++ Writer.u2 index ++ Writer.u1 dimensions)
    | layout, operands => (Fault.malformed (.operandMismatch operands i.mnemonic layout)).raise

/-- An instruction with the position it is written at and its bytes there. -/
structure Placed where
  instruction : Instruction
  position : Nat
  bytes : Bytes

/-- Lays out instructions from `position` on; `done` are those before, the last one first. -/
def layOutFrom (position : Nat) (done : List Placed) :
    List Instruction → Except Failure (List Placed)
  | [] => .ok done.reverse
  | i :: rest => do
    let bytes ← Failure.inside (.encodingInstruction position) (i.write position)
    layOutFrom (position + bytes.length) (⟨i, position, bytes⟩ :: done) rest

/-- Where each instruction of a list lands, and its bytes as they are. -/
def layOut (instructions : List Instruction) : Except Failure (List Placed) :=
  layOutFrom 0 [] instructions

/-- Whether an instruction does not land on the offset it records. -/
def Placed.moved (p : Placed) : Bool := p.instruction.offset.toNat ≠ p.position

/-- For each offset, the positions of the instructions that record it. -/
abbrev Positions := Std.TreeMap Nat (List Nat)

/-- The positions of the instructions of a list. -/
def positions (placed : List Placed) : Positions :=
  -- From the last instruction on, which leaves the positions of an offset in order.
  placed.foldr (fun p found =>
    let offset := p.instruction.offset.toNat
    found.insert offset (p.position :: found.getD offset [])) ∅

/-- The new positions that are found for an offset are those of all instructions that record it, in
    order. -/
theorem getD_positions (placed : List Placed) (offset : Nat) :
    (positions placed).getD offset [] =
      (placed.filter fun p => p.instruction.offset.toNat = offset).map Placed.position := by
  induction placed with
  | nil => simp [positions]
  | cons p rest ih =>
    simp only [positions, List.foldr_cons] at ih ⊢
    by_cases h : p.instruction.offset.toNat = offset
    · simp [h, ih]
    · simp [Std.TreeMap.getD_insert, h, ih]

/-- The position of the one instruction that records the offset `target`. -/
def newTarget (found : Positions) (i : Instruction) (target : Int) : Except Failure Nat :=
  match if target < 0 then [] else found.getD target.toNat [] with
  | [position] => .ok position
  | [] => (Fault.malformed (.lostTarget i.mnemonic i.offset target)).raise
  | _ => (Fault.malformed (.ambiguousTarget i.mnemonic i.offset target)).raise

/-- The displacement by which an instruction that is written at `position` reaches the
    instruction that it reached by `relative`. -/
def newDisplacement (found : Positions) (i : Instruction) (position : Nat) (relative : Int32) :
    Except Failure Int32 := do
  let target ← newTarget found i (i.offset.toNat + relative.toInt)
  let displacement : Int := target - position
  Failure.inside (.wideBranch displacement) (checkSigned 32 displacement)
  return Int32.ofInt displacement

/-- The instruction as it is written at `position`, leading where it led before. -/
def relocate (found : Positions) (i : Instruction) (position : Nat) :
    Except Failure Instruction := do
  let operands ← i.operands.mapDisplacements (newDisplacement found i position)
  if UInt32.size ≤ position then
    Failure.inside .codeTooLong Note.tooLarge.raise
  return ⟨.ofNat position, i.opcode, operands⟩

/-- The code array of a list of instructions. -/
def encode (instructions : List Instruction) : Written := do
  let placed ← layOut instructions
  if placed.any Placed.moved then
    let found := positions placed
    Writer.rows (fun p => Failure.inside (.encodingInstruction p.position) do
      (← relocate found p.instruction p.position).write p.position) placed
  else
    return (placed.map Placed.bytes).flatten

end Instruction

end ClassFormat
