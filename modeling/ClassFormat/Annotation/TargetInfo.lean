import ClassFormat.Annotation.TargetType
import ClassFormat.Reader
import ClassFormat.Surroundings
import ClassFormat.Writer

/-!
# Target information

The data that locates an annotated type, in the form that its target type asks for.

* `TargetInfo`: the ten forms, and `TargetInfo.form`;
* `TargetInfo.read`, `TargetInfo.write`: as bytes, `TargetInfo.length` many;
* `TargetInfo.describe`: in words.
-/

namespace ClassFormat

/-- A range of code in which a local variable holds a value. -/
structure LocalVarRange where
  startPc : UInt16
  length : UInt16
  /-- The slot of the local variable. -/
  index : UInt16
  deriving DecidableEq

/-- Which use of a type is annotated. -/
inductive TargetInfo where
  | typeParameter (index : UInt8)
  /-- The superclass if the index is 65535, otherwise the interface with the index. -/
  | supertype (index : UInt16)
  | typeParameterBound (parameter bound : UInt8)
  | empty
  | formalParameter (index : UInt8)
  /-- The index of an exception that the method declares. -/
  | throws (index : UInt16)
  | localVar (ranges : List LocalVarRange)
  /-- The index of an entry of the exception table. -/
  | handler (index : UInt16)
  | offset (position : UInt16)
  | typeArgument (position : UInt16) (argument : UInt8)
  deriving DecidableEq

namespace LocalVarRange

/-- Reads a range, which has to be one of the code. -/
def read (code : CodeMap) : Reader LocalVarRange := do
  let range : LocalVarRange := ⟨← Reader.u2, ← Reader.u2, ← Reader.u2⟩
  code.requireRange .localVarTarget range.startPc range.length
  return range

/-- The bytes of a range. -/
def write (range : LocalVarRange) : Bytes :=
  Writer.u2 range.startPc ++ Writer.u2 range.length ++ Writer.u2 range.index

/-- The range in words. -/
def describe (range : LocalVarRange) : String :=
  s!"pc {range.startPc.toNat}..{range.startPc.toNat + range.length.toNat} " ++
    s!"in slot {range.index.toNat}"

end LocalVarRange

namespace TargetInfo

/-- The index that stands for the superclass. -/
def superclass : UInt16 := 0xFFFF

/-- The form of the data. -/
def form : TargetInfo → TargetForm
  | typeParameter _ => .typeParameter
  | supertype _ => .supertype
  | typeParameterBound .. => .typeParameterBound
  | empty => .empty
  | formalParameter _ => .formalParameter
  | throws _ => .throws
  | localVar _ => .localVar
  | handler _ => .handler
  | offset _ => .offset
  | typeArgument .. => .typeArgument

/-- The number of bytes of the data. -/
def length : TargetInfo → Nat
  | empty => 0
  | typeParameter _ | formalParameter _ => 1
  | supertype _ | typeParameterBound .. | throws _ | handler _ | offset _ => 2
  | typeArgument .. => 3
  | localVar ranges => 2 + 6 * ranges.length

/-- The data in words. -/
def describe : TargetInfo → String
  | empty => "<none>"
  | typeParameter index => s!"type parameter {index.toNat}"
  | supertype index => if index = superclass then "superclass" else s!"interface {index.toNat}"
  | typeParameterBound parameter bound =>
    s!"bound {bound.toNat} of type parameter {parameter.toNat}"
  | formalParameter index => s!"formal parameter {index.toNat}"
  | throws index => s!"thrown type {index.toNat}"
  | localVar ranges => "local variable " ++ Display.list (ranges.map LocalVarRange.describe)
  | handler index => s!"exception table entry {index.toNat}"
  | .offset position => s!"offset {position.toNat}"
  | typeArgument position argument => s!"offset {position.toNat}, type argument {argument.toNat}"

/-- Reads the data of a form. An index of a declared exception is not checked here, since
    the exceptions may be declared later. -/
def read (s : Surroundings) : TargetForm → Reader TargetInfo
  | .empty => return empty
  | .typeParameter => return typeParameter (← Reader.u1)
  | .supertype => do
    let index ← Reader.u2
    if index ≠ superclass && s.interfaces ≤ index.toNat then
      (Fault.malformed (.supertypeIndex index s.interfaces)).raise
    return supertype index
  | .typeParameterBound => return typeParameterBound (← Reader.u1) (← Reader.u1)
  | .formalParameter => return formalParameter (← Reader.u1)
  | .throws => return throws (← Reader.u2)
  | .localVar => do
    let code ← s.code
    return localVar (← Reader.table fun _ => LocalVarRange.read code)
  | .handler => do
    let index ← Reader.u2
    let code ← s.code
    if code.handlers ≤ index.toNat then
      (Fault.malformed (.handlerIndex index code.handlers)).raise
    return handler index
  | .offset => do
    let position ← Reader.u2
    let code ← s.code
    code.requireStart .offsetTarget position.toNat
    return offset position
  | .typeArgument => do
    let position ← Reader.u2
    let argument ← Reader.u1
    let code ← s.code
    code.requireStart .typeArgumentTarget position.toNat
    return typeArgument position argument

/-- The bytes of the data. -/
def write : TargetInfo → Written
  | empty => .ok []
  | typeParameter index | formalParameter index => .ok (Writer.u1 index)
  | supertype index | throws index | handler index => .ok (Writer.u2 index)
  | typeParameterBound parameter bound => .ok (Writer.u1 parameter ++ Writer.u1 bound)
  | localVar ranges => Writer.table (fun range => .ok range.write) ranges
  | .offset position => .ok (Writer.u2 position)
  | typeArgument position argument => .ok (Writer.u2 position ++ Writer.u1 argument)

end TargetInfo

end ClassFormat
