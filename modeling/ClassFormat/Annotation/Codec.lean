import ClassFormat.Annotation.Basic
import ClassFormat.ConstantPool.Basic
import ClassFormat.Reader
import ClassFormat.Writer

/-!
# Annotations as bytes

Values may be nested at most `ElementValue.maxDepth` levels deep; each level of an array
or an annotation counts. The reader is given the number of levels that are left.

* `ElementValue.read`, `Annotation.read`, `Annotation.readList`;
* `ElementValue.write`, `Annotation.write`, `Annotation.writeList`.
-/

namespace ClassFormat

/-- Reads an annotation, each value with `readValue`. -/
def Annotation.readWith (pool : ConstantPool) (readValue : Reader ElementValue) :
    Reader Annotation := do
  let typeIndex ← Reader.u2
  let type ← Failure.inside .readingAnnotationType (pool.text typeIndex)
  let pairs ← Reader.within (.inAnnotationOf type) <| Reader.table fun _ => do
    let nameIndex ← Reader.u2
    let _ ← pool.require nameIndex [.utf8]
    return ⟨nameIndex, ← readValue⟩
  return ⟨typeIndex, pairs⟩

namespace ElementValue

/-- How many levels values may be nested. -/
def maxDepth : Nat := 256

/-- Reads the index of a constant of a kind, for a value that starts at `offset`. -/
def readConstant (pool : ConstantPool) (code : UInt8) (offset : Nat) (kind : Constant.Kind) :
    Reader UInt16 := do
  let index ← Reader.u2
  Failure.inside (.inElementValue code offset) do
    let _ ← pool.require index [kind]
  return index

/-- Reads a value that is nested at most `levels` deep. -/
def readWithin (pool : ConstantPool) : (levels : Nat) → Reader ElementValue
  | 0 => (Fault.malformed .elementDepth).raise
  | levels + 1 => do
    let offset ← Reader.offset
    let code ← Reader.u1
    match ElementTag.ofCode? code with
    | some tag => return constant tag (← readConstant pool code offset tag.kind)
    | none =>
      if code = ElementTag.enumCode then
        return enum (← readConstant pool code offset .utf8) (← readConstant pool code offset .utf8)
      else if code = ElementTag.annotationCode then
        return nested (← Annotation.readWith pool (readWithin pool levels))
      else if code = ElementTag.arrayCode then
        return array (← Reader.table fun _ => readWithin pool levels)
      else (Fault.malformed (.elementTag code offset)).raise

/-- Reads a value. -/
def read (pool : ConstantPool) : Reader ElementValue := readWithin pool maxDepth

end ElementValue

mutual

/-- The bytes of a value. -/
def ElementValue.write : ElementValue → Written
  | .constant tag index => .ok (Writer.u1 tag.code ++ Writer.u2 index)
  | .enum typeIndex nameIndex =>
    .ok (Writer.u1 ElementTag.enumCode ++ Writer.u2 typeIndex ++ Writer.u2 nameIndex)
  | .nested a => return Writer.u1 ElementTag.annotationCode ++ (← Annotation.write a)
  | .array values => do
    let count ← Writer.count .u2 values.length
    return Writer.u1 ElementTag.arrayCode ++ count ++ (← ElementValue.writeAll [] values)

/-- The bytes of values one after another, after those of `done`, the last one first. -/
def ElementValue.writeAll (done : List Bytes) : List ElementValue → Written
  | [] => .ok done.reverse.flatten
  | value :: rest => do ElementValue.writeAll ((← ElementValue.write value) :: done) rest

/-- The bytes of elements one after another, after those of `done`, the last one first. -/
def ElementPair.writeAll (done : List Bytes) : List ElementPair → Written
  | [] => .ok done.reverse.flatten
  | ⟨nameIndex, value⟩ :: rest => do
    ElementPair.writeAll ((Writer.u2 nameIndex ++ (← ElementValue.write value)) :: done) rest

/-- The bytes of an annotation. -/
def Annotation.write : Annotation → Written
  | ⟨typeIndex, pairs⟩ => do
    let count ← Writer.count .u2 pairs.length
    return Writer.u2 typeIndex ++ count ++ (← ElementPair.writeAll [] pairs)

end

namespace Annotation

/-- Reads an annotation. -/
def read (pool : ConstantPool) : Reader Annotation := readWith pool (ElementValue.read pool)

/-- Reads a table of annotations. -/
def readList (pool : ConstantPool) : Reader (List Annotation) :=
  Reader.table fun index => Reader.within (.readingAnnotationAt index) (read pool)

/-- The bytes of a table of annotations. -/
def writeList (annotations : List Annotation) : Written := Writer.table write annotations

/-- Reads the annotations of each parameter of a method. -/
def readParameters (pool : ConstantPool) : Reader (List (List Annotation)) :=
  Reader.shortTable fun parameter => Reader.within (.inParameterAnnotations parameter)
    (readList pool)

/-- The bytes of the annotations of each parameter of a method. -/
def writeParameters (parameters : List (List Annotation)) : Written :=
  Writer.shortTable writeList parameters

end Annotation

end ClassFormat
