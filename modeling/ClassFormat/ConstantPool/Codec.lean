import ClassFormat.ConstantPool.Edit
import ClassFormat.Reader
import ClassFormat.Writer

/-!
# The constant pool as bytes

A pool is stored as its count, followed by its constants. The slots that hold nothing are
not stored: they follow from the kinds of the constants.
-/

namespace ClassFormat

namespace Constant

/-- Reads a constant; `index` is where it will be, for the message of a failure. -/
def read (index : UInt16) : Reader Constant := do
  let tag ← Reader.u1
  match Kind.ofTag? tag with
  | none => (Fault.constantTag tag index).raise
  | some kind =>
    match kind with
    | .utf8 =>
      let length ← Reader.u2
      match ModifiedUtf8.decode (← Reader.bytes length.toNat) with
      | .ok t => return utf8 t
      | .error defect => (Fault.constant index (.text defect)).raise
    | .integer => return integer (← Reader.i4)
    | .float => return float (← Reader.u4)
    | .long => return long (← Reader.i8)
    | .double => return double (← Reader.u8)
    | .classref => return .classref (← Reader.u2)
    | .string => return string (← Reader.u2)
    | .fieldref => return fieldref (← Reader.u2) (← Reader.u2)
    | .methodref => return methodref (← Reader.u2) (← Reader.u2)
    | .interfaceMethodref => return interfaceMethodref (← Reader.u2) (← Reader.u2)
    | .nameAndType => return nameAndType (← Reader.u2) (← Reader.u2)
    | .methodHandle => return methodHandle (← Reader.u1) (← Reader.u2)
    | .methodType => return methodType (← Reader.u2)
    | .dynamic => return dynamic (← Reader.u2) (← Reader.u2)
    | .invokeDynamic => return invokeDynamic (← Reader.u2) (← Reader.u2)
    | .module => return module (← Reader.u2)
    | .package => return package (← Reader.u2)

/-- The bytes of a constant after its tag. -/
def payload : Constant → Written
  | utf8 t => do
    let bytes := ModifiedUtf8.encode t
    return (← Failure.inside .textTooLong (Writer.count .u2 bytes.length)) ++ bytes
  | integer value => .ok (Writer.i4 value)
  | float bits => .ok (Writer.u4 bits)
  | long value => .ok (Writer.i8 value)
  | double bits => .ok (Writer.u8 bits)
  | .classref i | string i | methodType i | module i | package i => .ok (Writer.u2 i)
  | fieldref i j | methodref i j | interfaceMethodref i j | nameAndType i j | dynamic i j
  | invokeDynamic i j => .ok (Writer.u2 i ++ Writer.u2 j)
  | methodHandle kind i => .ok (Writer.u1 kind ++ Writer.u2 i)

/-- The bytes of a constant. -/
def write (constant : Constant) : Written :=
  return Writer.u1 constant.kind.tag ++ (← constant.payload)

end Constant

namespace ConstantPool

/-- Reads constants until `left` more slots are filled, `done` being those filled so far. -/
def readSlots (done : Array (Option Constant)) : (left : Nat) → Reader (Array (Option Constant))
  | 0 => return done
  | left + 1 => do
    let offset ← Reader.offset
    let index := UInt16.ofNat done.size
    let constant ← Reader.within (.readingConstant done.size offset) (Constant.read index)
    if constant.kind.slots = 2 then
      match left with
      | 0 => (Fault.constant index (.noSecondSlot constant.kind)).raise
      | left + 1 => readSlots ((done.push (some constant)).push none) left
    else readSlots (done.push (some constant)) left

/-- Reads a pool and checks the references between its constants. -/
def read : Reader ConstantPool := do
  match (← Reader.u2).toNat with
  | 0 => (Fault.constant 0 .emptyPool).raise
  | left + 1 =>
    -- The count includes index 0, which holds nothing.
    let pool : ConstantPool := ⟨← readSlots #[none] left⟩
    pool.validate
    return pool

/-- The bytes of a pool. -/
def write (pool : ConstantPool) : Written :=
  return (← Writer.count .u2 pool.count) ++ (← Writer.rows
    (fun (index, constant) => Failure.inside (.writingConstant index) constant.write) pool.entries)

end ConstantPool

end ClassFormat
