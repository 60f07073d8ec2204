import ClassFormat.Constant

/-!
# Opcodes

The instruction set of the Java Virtual Machine. An opcode is a byte; the bytes from
`0x00` to `0xc9` are assigned.

* `Opcode.name?`: the name of an assigned opcode;
* `Opcode.layout?`: which operands follow it.
-/

namespace ClassFormat

/-- The operands that follow an opcode. -/
inductive OperandLayout where
  | none
  /-- A signed byte. -/
  | byte
  /-- A signed two byte number. -/
  | short
  /-- The code of a primitive type. -/
  | arrayType
  /-- The index of a constant, in one byte. -/
  | narrowConstant (kinds : List Constant.Kind)
  /-- The index of a constant, in two bytes. -/
  | constant (kinds : List Constant.Kind)
  /-- The index of a local variable. -/
  | local
  /-- The index of a local variable and the number added to it. -/
  | increment
  /-- A branch offset of two bytes. -/
  | branch
  /-- A branch offset of four bytes. -/
  | branchWide
  | tableSwitch
  | lookupSwitch
  | invokeInterface
  | invokeDynamic
  | multiANewArray
  /-- Another opcode, whose operands are wider than usual. -/
  | wide
  deriving DecidableEq

/-- How a message spells a layout. -/
def OperandLayout.display : OperandLayout → String
  | .none => "None"
  | .byte => "Byte"
  | .short => "Short"
  | .arrayType => "ArrayType"
  | .narrowConstant kinds =>
    Display.tuple "NarrowConstant" [Display.list (kinds.map Constant.Kind.name)]
  | .constant kinds => Display.tuple "Constant" [Display.list (kinds.map Constant.Kind.name)]
  | .local => "Local"
  | .increment => "Increment"
  | .branch => "Branch"
  | .branchWide => "BranchWide"
  | .tableSwitch => "TableSwitch"
  | .lookupSwitch => "LookupSwitch"
  | .invokeInterface => "InvokeInterface"
  | .invokeDynamic => "InvokeDynamic"
  | .multiANewArray => "MultiANewArray"
  | .wide => "Wide"

namespace Opcode

/-- The names of the opcodes, in the order of their numbers. -/
def names : Array String :=
  #["NOP", "ACONST_NULL", "ICONST_M1", "ICONST_0", "ICONST_1", "ICONST_2", "ICONST_3", "ICONST_4",
    "ICONST_5", "LCONST_0", "LCONST_1", "FCONST_0", "FCONST_1", "FCONST_2", "DCONST_0",
    "DCONST_1", "BIPUSH", "SIPUSH", "LDC", "LDC_W", "LDC2_W", "ILOAD", "LLOAD", "FLOAD", "DLOAD",
    "ALOAD", "ILOAD_0", "ILOAD_1", "ILOAD_2", "ILOAD_3", "LLOAD_0", "LLOAD_1", "LLOAD_2",
    "LLOAD_3", "FLOAD_0", "FLOAD_1", "FLOAD_2", "FLOAD_3", "DLOAD_0", "DLOAD_1", "DLOAD_2",
    "DLOAD_3", "ALOAD_0", "ALOAD_1", "ALOAD_2", "ALOAD_3", "IALOAD", "LALOAD", "FALOAD", "DALOAD",
    "AALOAD", "BALOAD", "CALOAD", "SALOAD", "ISTORE", "LSTORE", "FSTORE", "DSTORE", "ASTORE",
    "ISTORE_0", "ISTORE_1", "ISTORE_2", "ISTORE_3", "LSTORE_0", "LSTORE_1", "LSTORE_2",
    "LSTORE_3", "FSTORE_0", "FSTORE_1", "FSTORE_2", "FSTORE_3", "DSTORE_0", "DSTORE_1",
    "DSTORE_2", "DSTORE_3", "ASTORE_0", "ASTORE_1", "ASTORE_2", "ASTORE_3", "IASTORE", "LASTORE",
    "FASTORE", "DASTORE", "AASTORE", "BASTORE", "CASTORE", "SASTORE", "POP", "POP2", "DUP",
    "DUP_X1", "DUP_X2", "DUP2", "DUP2_X1", "DUP2_X2", "SWAP", "IADD", "LADD", "FADD", "DADD",
    "ISUB", "LSUB", "FSUB", "DSUB", "IMUL", "LMUL", "FMUL", "DMUL", "IDIV", "LDIV", "FDIV",
    "DDIV", "IREM", "LREM", "FREM", "DREM", "INEG", "LNEG", "FNEG", "DNEG", "ISHL", "LSHL",
    "ISHR", "LSHR", "IUSHR", "LUSHR", "IAND", "LAND", "IOR", "LOR", "IXOR", "LXOR", "IINC", "I2L",
    "I2F", "I2D", "L2I", "L2F", "L2D", "F2I", "F2L", "F2D", "D2I", "D2L", "D2F", "I2B", "I2C",
    "I2S", "LCMP", "FCMPL", "FCMPG", "DCMPL", "DCMPG", "IFEQ", "IFNE", "IFLT", "IFGE", "IFGT",
    "IFLE", "IF_ICMPEQ", "IF_ICMPNE", "IF_ICMPLT", "IF_ICMPGE", "IF_ICMPGT", "IF_ICMPLE",
    "IF_ACMPEQ", "IF_ACMPNE", "GOTO", "JSR", "RET", "TABLESWITCH", "LOOKUPSWITCH", "IRETURN",
    "LRETURN", "FRETURN", "DRETURN", "ARETURN", "RETURN", "GETSTATIC", "PUTSTATIC", "GETFIELD",
    "PUTFIELD", "INVOKEVIRTUAL", "INVOKESPECIAL", "INVOKESTATIC", "INVOKEINTERFACE",
    "INVOKEDYNAMIC", "NEW", "NEWARRAY", "ANEWARRAY", "ARRAYLENGTH", "ATHROW", "CHECKCAST",
    "INSTANCEOF", "MONITORENTER", "MONITOREXIT", "WIDE", "MULTIANEWARRAY", "IFNULL", "IFNONNULL",
    "GOTO_W", "JSR_W"]

/-- The name of an opcode, if it is assigned. -/
def name? (op : UInt8) : Option String := names[op.toNat]?

/-- The prefix that widens the operands of the next opcode. -/
def wide : UInt8 := 0xC4

/-- The operands that follow an opcode, if it is assigned. -/
def layout? (op : UInt8) : Option OperandLayout :=
  if op = 0x10 then some .byte
  else if op = 0x11 then some .short
  else if op = 0x12 then some (.narrowConstant Constant.Kind.loadable)
  else if op = 0x13 then some (.constant Constant.Kind.loadable)
  else if op = 0x14 then some (.constant Constant.Kind.loadableWide)
  else if 0x15 ≤ op && op ≤ 0x19 || 0x36 ≤ op && op ≤ 0x3A || op = 0xA9 then some .local
  else if op = 0x84 then some .increment
  else if 0x99 ≤ op && op ≤ 0xA8 || op = 0xC6 || op = 0xC7 then some .branch
  else if op = 0xAA then some .tableSwitch
  else if op = 0xAB then some .lookupSwitch
  else if 0xB2 ≤ op && op ≤ 0xB5 then some (.constant [.fieldref])
  else if op = 0xB6 then some (.constant [.methodref])
  else if op = 0xB7 || op = 0xB8 then some (.constant Constant.Kind.anyMethod)
  else if op = 0xB9 then some .invokeInterface
  else if op = 0xBA then some .invokeDynamic
  else if op = 0xBB || op = 0xBD || op = 0xC0 || op = 0xC1 then some (.constant [.classref])
  else if op = 0xBC then some .arrayType
  else if op = wide then some .wide
  else if op = 0xC5 then some .multiANewArray
  else if op = 0xC8 || op = 0xC9 then some .branchWide
  else if op ≤ 0xC9 then some .none
  else none

end Opcode

end ClassFormat
