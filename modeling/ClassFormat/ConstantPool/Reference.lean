import ClassFormat.ConstantPool.Basic
import ClassFormat.Reader

/-!
# Reading references

Where the rest of a class file refers to the constant pool it stores an index, which is
checked as soon as it is read.
-/

namespace ClassFormat

namespace ConstantPool

/-- Reads the index of a constant that has to be of one of the kinds. -/
def readIndex (pool : ConstantPool) (kinds : List Constant.Kind) : Reader UInt16 := do
  let index ← Reader.u2
  let _ ← pool.require index kinds
  return index

/-- Reads the index of a constant that has to be of the kind, or index 0 for none. -/
def readOptionalIndex (pool : ConstantPool) (kind : Constant.Kind) : Reader UInt16 := do
  let index ← Reader.u2
  let _ ← pool.requireOptional index kind
  return index

/-- Reads a table of indices of constants of a kind. -/
def readIndices (pool : ConstantPool) (kind : Constant.Kind) : Reader (List UInt16) :=
  Reader.table fun _ => pool.readIndex [kind]

end ConstantPool

end ClassFormat
