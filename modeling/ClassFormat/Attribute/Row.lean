import ClassFormat.ConstantPool.Describe
import ClassFormat.ConstantPool.Reference
import ClassFormat.Surroundings
import ClassFormat.Writer

/-!
# Rows of tables

The rows of the attributes that are tables: line numbers, local variables, inner classes,
bootstrap methods and method parameters. Each row is read, written and described.
-/

namespace ClassFormat

/-- The line of source code from which the code at an offset was made. -/
structure LineNumber where
  startPc : UInt16
  line : UInt16
  deriving DecidableEq

namespace LineNumber

/-- Reads a row. -/
def read (s : Surroundings) : Reader LineNumber := do
  let row : LineNumber := ⟨← Reader.u2, ← Reader.u2⟩
  s.ifCode fun code => code.requireStart .lineNumber row.startPc.toNat
  return row

/-- The bytes of a row. -/
def write (row : LineNumber) : Bytes := Writer.u2 row.startPc ++ Writer.u2 row.line

/-- The row in words. -/
def describe (row : LineNumber) : String := s!"{row.startPc.toNat}: line {row.line.toNat}"

end LineNumber

/-- A local variable of a method. -/
structure LocalVariable where
  startPc : UInt16
  /-- The length of the range of code in which the variable holds a value. -/
  length : UInt16
  nameIndex : UInt16
  /-- The descriptor of the type, or its signature in a `LocalVariableTypeTable`. -/
  descriptorIndex : UInt16
  /-- The slot of the variable. -/
  index : UInt16
  deriving DecidableEq

namespace LocalVariable

/-- Reads a row. -/
def read (s : Surroundings) : Reader LocalVariable := do
  let row : LocalVariable := ⟨← Reader.u2, ← Reader.u2, ← Reader.u2, ← Reader.u2, ← Reader.u2⟩
  let _ ← s.pool.require row.nameIndex [.utf8]
  let _ ← s.pool.require row.descriptorIndex [.utf8]
  s.ifCode fun code => code.requireRange .localVariable row.startPc row.length
  return row

/-- The bytes of a row. -/
def write (row : LocalVariable) : Bytes :=
  Writer.u2 row.startPc ++ Writer.u2 row.length ++ Writer.u2 row.nameIndex ++
    Writer.u2 row.descriptorIndex ++ Writer.u2 row.index

/-- The row in words. -/
def describe (pool : ConstantPool) (row : LocalVariable) : Except Failure String := do
  let name ← pool.text row.nameIndex
  let descriptor ← pool.text row.descriptorIndex
  let endPc := row.startPc.toNat + row.length.toNat
  return s!"{row.index.toNat} {name.lossy} {descriptor.lossy} [{row.startPc.toNat}, {endPc})"

end LocalVariable

/-- A class that is declared within another one. -/
structure InnerClass where
  innerIndex : UInt16
  /-- The class around it, or 0 if it is not a member of one. -/
  outerIndex : UInt16
  /-- The simple name, or 0 if it has none. -/
  nameIndex : UInt16
  accessFlags : UInt16
  deriving DecidableEq

namespace InnerClass

/-- Reads a row. -/
def read (pool : ConstantPool) : Reader InnerClass := do
  let row : InnerClass := ⟨← Reader.u2, ← Reader.u2, ← Reader.u2, ← Reader.u2⟩
  let _ ← pool.require row.innerIndex [.classref]
  let _ ← pool.requireOptional row.outerIndex .classref
  let _ ← pool.requireOptional row.nameIndex .utf8
  return row

/-- The bytes of a row. -/
def write (row : InnerClass) : Bytes :=
  Writer.u2 row.innerIndex ++ Writer.u2 row.outerIndex ++ Writer.u2 row.nameIndex ++
    Writer.u2 row.accessFlags

/-- The row in words. -/
def describe (pool : ConstantPool) (row : InnerClass) : Except Failure String :=
  return (← pool.className row.innerIndex).lossy

end InnerClass

/-- A method that links dynamic constants and call sites, with its constant arguments. -/
structure BootstrapMethod where
  /-- The `MethodHandle` of the method. -/
  methodIndex : UInt16
  arguments : List UInt16
  deriving DecidableEq

namespace BootstrapMethod

/-- Reads a row. -/
def read (pool : ConstantPool) : Reader BootstrapMethod := do
  let methodIndex ← pool.readIndex [.methodHandle]
  let arguments ← Reader.table fun _ => pool.readIndex Constant.Kind.bootstrapArgument
  return ⟨methodIndex, arguments⟩

/-- Reads a table of rows. -/
def readTable (pool : ConstantPool) : Reader (List BootstrapMethod) :=
  Reader.table fun index => Reader.within (.inBootstrapMethod index) (read pool)

/-- The bytes of a row. -/
def write (row : BootstrapMethod) : Written :=
  return Writer.u2 row.methodIndex ++ (← Writer.indices row.arguments)

/-- The row in words. -/
def describe (pool : ConstantPool) (row : BootstrapMethod) : Except Failure String := do
  -- If both cannot be described, it is the method that is told of.
  let arguments := row.arguments.mapM pool.describe
  let method ← pool.describe row.methodIndex
  return method ++ " " ++ Display.list (← arguments)

end BootstrapMethod

/-- A parameter of a method. -/
structure MethodParameter where
  /-- The name, or 0 if it has none. -/
  nameIndex : UInt16
  accessFlags : UInt16
  deriving DecidableEq

namespace MethodParameter

/-- Reads a row. -/
def read (pool : ConstantPool) : Reader MethodParameter := do
  let row : MethodParameter := ⟨← Reader.u2, ← Reader.u2⟩
  let _ ← pool.requireOptional row.nameIndex .utf8
  return row

/-- The bytes of a row. -/
def write (row : MethodParameter) : Bytes := Writer.u2 row.nameIndex ++ Writer.u2 row.accessFlags

/-- The row in words. -/
def describe (pool : ConstantPool) (row : MethodParameter) : Except Failure String :=
  if row.nameIndex = 0 then .ok "<unnamed>" else return (← pool.text row.nameIndex).lossy

end MethodParameter

end ClassFormat
