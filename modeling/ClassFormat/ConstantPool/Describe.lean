import ClassFormat.ConstantPool.Basic
import ClassFormat.Decimal.Binary

/-!
# Constants in words

A constant described with its references followed, for a reader of the pool.
-/

namespace ClassFormat

namespace ConstantPool

/-- A member in words: its class, its name and its descriptor. -/
def describeMember (pool : ConstantPool) (classIndex nameAndTypeIndex : UInt16) :
    Except Failure String := do
  let owner ← pool.className classIndex
  let (name, descriptor) ← pool.nameAndType nameAndTypeIndex
  return s!"{owner.lossy}.{name.lossy}:{descriptor.lossy}"

/-- A name and a descriptor in words. -/
def describeNameAndType (pool : ConstantPool) (index : UInt16) : Except Failure String := do
  let (name, descriptor) ← pool.nameAndType index
  return s!"{name.lossy}:{descriptor.lossy}"

/-- The constant at an index in words. A method handle is described with the constant it
    refers to, and so on for at most `levels` handles, the last of which is described
    without. -/
def describeWithin (pool : ConstantPool) : (levels : Nat) → (index : UInt16) → Except Failure String
  | levels, index => do
    match ← pool.require index Constant.Kind.all with
    | .utf8 t => return Quote.text.renderString t.lossy
    | .integer value => return s!"int {value.toInt}"
    | .float bits => return s!"float {Decimal.binary32.show bits.toNat}"
    | .long value => return s!"long {value.toInt}"
    | .double bits => return s!"double {Decimal.binary64.show bits.toNat}"
    | .classref nameIndex => return "class " ++ (← pool.text nameIndex).lossy
    | .string textIndex => return "string " ++ Quote.text.renderString (← pool.text textIndex).lossy
    | .fieldref owner member => return "field " ++ (← pool.describeMember owner member)
    | .methodref owner member => return "method " ++ (← pool.describeMember owner member)
    | .interfaceMethodref owner member =>
      return "interface method " ++ (← pool.describeMember owner member)
    | .nameAndType _ _ => pool.describeNameAndType index
    | .methodHandle kind reference =>
      match levels with
      | 0 => return Constant.handleName kind
      | levels + 1 =>
        return Constant.handleName kind ++ " " ++ (← pool.describeWithin levels reference)
    | .methodType descriptor => return "method type " ++ (← pool.text descriptor).lossy
    | .dynamic bootstrap member =>
      return s!"dynamic #{bootstrap.toNat} " ++ (← pool.describeNameAndType member)
    | .invokeDynamic bootstrap member =>
      return s!"invokedynamic #{bootstrap.toNat} " ++ (← pool.describeNameAndType member)
    | .module nameIndex => return "module " ++ (← pool.text nameIndex).lossy
    | .package nameIndex => return "package " ++ (← pool.text nameIndex).lossy

/-- The constant at an index in words. -/
def describe (pool : ConstantPool) (index : UInt16) : Except Failure String :=
  pool.describeWithin pool.count index

end ConstantPool

end ClassFormat
