import ClassFormat.Opcode

/-!
# Instructions

A decoded instruction remembers the code offset it was found at. Its branch operands
are relative to that offset, so `Instruction.targets` are absolute code offsets.
-/

namespace ClassFormat

/-- The operands of an instruction. -/
inductive Operands where
  | none
  | byte (value : Int8)
  | short (value : Int16)
  /-- The code of a primitive type, for `newarray`. -/
  | arrayType (code : UInt8)
  /-- The index of a constant. -/
  | constant (index : UInt16)
  /-- The index of a local variable; `wide` says whether it follows a `wide` prefix. -/
  | local (index : UInt16) (wide : Bool)
  /-- The index of a local variable and the number that `iinc` adds to it. -/
  | increment (index : UInt16) (amount : Int16) (wide : Bool)
  /-- A branch offset. -/
  | branch (relative : Int32)
  /-- The branch offsets for the values from `low` to `high` and for all others. -/
  | tableSwitch (default low high : Int32) (offsets : List Int32)
  /-- Values with their branch offsets, and the offset for all others. -/
  | lookupSwitch (default : Int32) (pairs : List (Int32 × Int32))
  | invokeInterface (index : UInt16) (count : UInt8)
  | invokeDynamic (index : UInt16)
  | multiANewArray (index : UInt16) (dimensions : UInt8)
  deriving DecidableEq

namespace Operands

/-- The branch offsets among the operands, that of `default` first. -/
def displacements : Operands → List Int32
  | branch relative => [relative]
  | tableSwitch default _ _ offsets => default :: offsets
  | lookupSwitch default pairs => default :: pairs.map Prod.snd
  | _ => []

/-- How a message spells operands. -/
def display : Operands → String
  | none => "None"
  | byte value => Display.tuple "Byte" [toString value.toInt]
  | short value => Display.tuple "Short" [toString value.toInt]
  | arrayType code => Display.tuple "ArrayType" [toString code.toNat]
  | constant index => Display.tuple "Constant" [toString index.toNat]
  | .local index wide =>
    Display.record "Local" [("index", toString index.toNat), ("wide", Display.bool wide)]
  | increment index amount wide =>
    Display.record "Increment"
      [("index", toString index.toNat), ("constant", toString amount.toInt),
      ("wide", Display.bool wide)]
  | branch relative => Display.tuple "Branch" [toString relative.toInt]
  | tableSwitch default low high offsets =>
    Display.record "TableSwitch"
      [("default", toString default.toInt), ("low", toString low.toInt),
        ("high", toString high.toInt),
        ("offsets", Display.list (offsets.map fun relative => toString relative.toInt))]
  | lookupSwitch default pairs =>
    Display.record "LookupSwitch"
      [("default", toString default.toInt),
        ("pairs", Display.list (pairs.map fun (key, relative) =>
          Display.parenthesised [toString key.toInt, toString relative.toInt]))]
  | invokeInterface index count =>
    Display.record "InvokeInterface" [("index", toString index.toNat),
      ("count", toString count.toNat)]
  | invokeDynamic index => Display.record "InvokeDynamic" [("index", toString index.toNat)]
  | multiANewArray index dimensions =>
    Display.record "MultiANewArray"
      [("index", toString index.toNat), ("dimensions", toString dimensions.toNat)]

end Operands

/-- An instruction. For one with a `wide` prefix, `offset` is that of the prefix and
    `opcode` the opcode after it. -/
structure Instruction where
  /-- The code offset the instruction was found at. -/
  offset : UInt32
  opcode : UInt8
  operands : Operands
  deriving DecidableEq

namespace Instruction

/-- The name of the opcode in lower case, or its number if it is not assigned. -/
def mnemonic (i : Instruction) : String :=
  match Opcode.name? i.opcode with
  | some name => name.toLower
  | none => "<" ++ Display.hex 2 i.opcode.toNat ++ ">"

/-- The code offsets the instruction may branch to, that of `default` first. -/
def targets (i : Instruction) : List Int :=
  i.operands.displacements.map fun relative => i.offset.toNat + relative.toInt

end Instruction

end ClassFormat
