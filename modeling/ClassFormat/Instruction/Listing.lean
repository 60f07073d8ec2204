import ClassFormat.ConstantPool.Describe
import ClassFormat.Instruction.Basic

/-!
# Listing instructions

An instruction as a line of a listing: its offset, its name and its operands, constants
being described and branches shown with their targets.
-/

namespace ClassFormat

/-- The name of a primitive type, as `newarray` numbers them. -/
def arrayTypeName (code : UInt8) : String :=
  match code with
  | 4 => "boolean"
  | 5 => "char"
  | 6 => "float"
  | 7 => "double"
  | 8 => "byte"
  | 9 => "short"
  | 10 => "int"
  | 11 => "long"
  | _ => "<invalid>"

namespace Instruction

/-- The index of a constant, and the constant in words. -/
def describeConstant (pool : ConstantPool) (index : UInt16) : Except Failure String :=
  return s!"#{index.toNat} " ++ (← pool.describe index)

/-- The operands in words. -/
def describeOperands (pool : ConstantPool) (i : Instruction) : Except Failure String :=
  match i.operands with
  | .none => .ok ""
  | .byte value => .ok (toString value.toInt)
  | .short value => .ok (toString value.toInt)
  | .arrayType code => .ok (arrayTypeName code)
  | .constant index | .invokeDynamic index => describeConstant pool index
  | .invokeInterface index count =>
    return (← describeConstant pool index) ++ s!" count {count.toNat}"
  | .multiANewArray index dimensions =>
    return (← describeConstant pool index) ++ s!" dimensions {dimensions.toNat}"
  | .local index _ => .ok (toString index.toNat)
  | .increment index amount _ => .ok s!"{index.toNat} by {amount.toInt}"
  | .branch _ | .tableSwitch .. | .lookupSwitch .. =>
    .ok ("-> " ++ ", ".intercalate (i.targets.map toString))

/-- Whether the instruction has a `wide` prefix. -/
def isWide (i : Instruction) : Bool :=
  match i.operands with
  | .local _ wide | .increment _ _ wide => wide
  | _ => false

/-- The line of the instruction. -/
def describe (pool : ConstantPool) (i : Instruction) : Except Failure String := do
  let operands ← describeOperands pool i
  let name := s!"{i.offset.toNat}: " ++ (if i.isWide then "wide " else "") ++ i.mnemonic
  return if operands.isEmpty then name else name ++ " " ++ operands

/-- The lines of instructions. -/
def listing (pool : ConstantPool) (instructions : List Instruction) :
    Except Failure (List String) :=
  instructions.mapM (describe pool)

end Instruction

end ClassFormat
