import ClassFormat.ConstantPool.Reference
import ClassFormat.Instruction.Basic

/-!
# Decoding instructions

The instructions of a code array. Where an instruction starts matters: its offset is
recorded, and the tables of the two switches are aligned to four bytes of the code.

* `Instruction.read`: one instruction;
* `Instruction.decode`: all instructions of a code array.

Each instruction takes at least one byte, so the length of the code bounds their number.
-/

namespace ClassFormat

/-- The number of bytes between the opcode of a switch at `position` and its table. -/
def switchPadding (position : Nat) : Nat := (4 - (position + 1) % 4) % 4

namespace Instruction

/-- Reads a byte that has to be zero. -/
def readReserved (which : ReservedByte) : Reader Unit := do
  let found ← Reader.u1
  if found ≠ 0 then
    (Fault.malformed (.reservedByte which found)).raise

/-- Reads the padding of a switch at `position`. -/
def readPadding (which : ReservedByte) (position : Nat) : Reader Unit := do
  let _ ← Reader.times (switchPadding position) fun _ => readReserved which

/-- Reads the operands of an instruction at `position`, except for those of `wide`. -/
def readOperands (pool : ConstantPool) (position : Nat) : OperandLayout → Reader Operands
  | .none | .wide => return .none
  | .byte => return .byte (← Reader.i1)
  | .short => return .short (← Reader.i2)
  | .arrayType => do
    let code ← Reader.u1
    if code < 4 || 11 < code then
      (Fault.malformed (.arrayType code)).raise
    return .arrayType code
  | .narrowConstant kinds => do
    let index := (← Reader.u1).toUInt16
    let _ ← pool.require index kinds
    return .constant index
  | .constant kinds => return .constant (← pool.readIndex kinds)
  | .local => return .local (← Reader.u1).toUInt16 false
  | .increment => do
    let index ← Reader.u1
    let amount ← Reader.i1
    return .increment index.toUInt16 amount.toInt16 false
  | .branch => return .branch (← Reader.i2).toInt32
  | .branchWide => return .branch (← Reader.i4)
  | .tableSwitch => do
    readPadding .tableSwitchPadding position
    let default ← Reader.i4
    let low ← Reader.i4
    let high ← Reader.i4
    if high < low then
      (Fault.malformed (.switchBounds low high)).raise
    let offsets ← Reader.times (high.toInt - low.toInt + 1).toNat fun _ => Reader.i4
    return .tableSwitch default low high offsets
  | .lookupSwitch => do
    readPadding .lookupSwitchPadding position
    let default ← Reader.i4
    let count ← Reader.i4
    if count < 0 then
      (Fault.malformed (.negativePairs count)).raise
    let pairs ← Reader.times count.toInt.toNat fun _ => return (← Reader.i4, ← Reader.i4)
    return .lookupSwitch default pairs
  | .invokeInterface => do
    let index ← pool.readIndex [.interfaceMethodref]
    let count ← Reader.u1
    if count = 0 then
      (Fault.malformed .zeroCount).raise
    readReserved .invokeInterfaceFourth
    return .invokeInterface index count
  | .invokeDynamic => do
    let index ← pool.readIndex [.invokeDynamic]
    readReserved .invokeDynamicThird
    readReserved .invokeDynamicFourth
    return .invokeDynamic index
  | .multiANewArray => do
    let index ← pool.readIndex [.classref]
    let dimensions ← Reader.u1
    if dimensions = 0 then
      (Fault.malformed .zeroDimensions).raise
    return .multiANewArray index dimensions

/-- Reads what follows the `wide` prefix at `position`: an opcode that takes a local variable
    and its operands, each in two bytes. -/
def readWide (position : Nat) : Reader Instruction := do
  let op ← Reader.u1
  match Opcode.layout? op with
  | some .local => return ⟨.ofNat position, op, .local (← Reader.u2) true⟩
  | some .increment => return ⟨.ofNat position, op, .increment (← Reader.u2) (← Reader.i2) true⟩
  | _ => (Fault.opcode op (position + 1)).raise

/-- Reads the instruction at `position`. -/
def read (pool : ConstantPool) (position : Nat) : Reader Instruction := do
  let op ← Reader.u1
  match Opcode.layout? op with
  | none => (Fault.opcode op position).raise
  | some .wide => readWide position
  | some layout => return ⟨.ofNat position, op, ← readOperands pool position layout⟩

/-- Running out of code means that the instruction at `position` is cut off. -/
def cutOff (position : Nat) (f : Failure) : Failure :=
  match f.fault? with
  | some (.truncated ..) => f.because (.malformed (.instructionCut position))
  | _ => f

/-- Reads instructions to the end of the code, which starts at the offset `start`, but
    `fuel` at most; `done` are those read so far, the last one first. -/
def decodeFrom (pool : ConstantPool) (start : Nat) (done : List Instruction) :
    (fuel : Nat) → Reader (List Instruction)
  | 0 => return done.reverse
  | fuel + 1 => do
    let here ← get
    if here.rest.isEmpty then return done.reverse
    let position := here.offset - start
    let instruction ← Reader.within (.decodingInstruction position)
      (Reader.mapFailure (cutOff position) (read pool position))
    decodeFrom pool start (instruction :: done) fuel

/-- Reads the instructions of a code array of the given length. -/
def decode (pool : ConstantPool) (length : Nat) : Reader (List Instruction) := do
  let start ← Reader.offset
  return (← Reader.delimited length (decodeFrom pool start [] length)).1

end Instruction

end ClassFormat
