import ClassFormat.ClassFile.Basic
import ClassFormat.Instruction.Encode

/-!
# Parts of a class file

The lists of attributes of a class file and the code of its methods, each named by where
it is, to be looked at and to be edited.

* `AttributePlace`: where a list of attributes is;
* `ClassFile.attributesAt?`, `ClassFile.modifyAttributes`: the list at a place;
* `ClassFile.code?`, `ClassFile.modifyCode`: the code of a method;
* `Code.instructionAt?`: the instruction at a code offset.
-/

namespace ClassFormat

/-- Where a list of attributes is. -/
inductive AttributePlace where
  | classFile
  /-- The field with a number. -/
  | field (index : Nat)
  /-- The method with a number. -/
  | method (index : Nat)
  /-- The first code of the method with a number. -/
  | code (method : Nat)
  /-- The component with a number of the first record of the class. -/
  | component (index : Nat)

/-- A list with the first element that `edit` applies to edited. -/
def modifyFirst {α : Type} (edit : α → Option α) : List α → List α
  | [] => []
  | a :: rest =>
    match edit a with
    | some edited => edited :: rest
    | none => a :: modifyFirst edit rest

namespace Code

/-- Halves a part of the instructions until one is left: the last that does not start
    after `offset`, if they are in order. The part starts at `base`. -/
def bisect (instructions : Array Instruction) (offset : UInt32) (base size : Nat) : Nat :=
  if 1 < size then
    let half := size / 2
    let after := instructions[base + half]?.any fun i => offset < i.offset
    bisect instructions offset (if after then base else base + half) (size - half)
  else base
termination_by size

/-- The instruction at a code offset, if the instructions are in order. -/
def instructionAt? (code : Code) (offset : UInt32) : Option Instruction :=
  let instructions := code.instructions.toArray
  instructions[bisect instructions offset 0 instructions.size]?.filter fun i => i.offset = offset

/-- The number of bytes of the instructions. -/
def length (code : Code) : Except Failure Nat :=
  return (← Instruction.encode code.instructions).length

end Code

namespace NamedAttribute

/-- An attribute with its code edited, if it is code. -/
def editCode? (edit : Code → Code) : NamedAttribute → Option NamedAttribute
  | ⟨nameIndex, .code body⟩ => some ⟨nameIndex, .code (edit body)⟩
  | _ => none

/-- An attribute with its components edited, if it is a record. -/
def editRecord? (edit : List RecordComponent → List RecordComponent) :
    NamedAttribute → Option NamedAttribute
  | ⟨nameIndex, .record components⟩ => some ⟨nameIndex, .record (edit components)⟩
  | _ => none

end NamedAttribute

namespace ClassFile

/-- The first code of the method with a number. -/
def code? (c : ClassFile) (method : Nat) : Option Code := do
  Attribute.findCode? (← c.methods[method]?).attributes

/-- Edits the first code of the method with a number. -/
def modifyCode (c : ClassFile) (method : Nat) (edit : Code → Code) : ClassFile :=
  { c with methods := c.methods.modify method fun m =>
      { m with attributes := modifyFirst (NamedAttribute.editCode? edit) m.attributes } }

/-- The components of the first record of the class. -/
def components? (c : ClassFile) : Option (List RecordComponent) :=
  match Attribute.find? .record c.attributes with
  | some (.record components) => some components
  | _ => none

/-- The list of attributes at a place. -/
def attributesAt? (c : ClassFile) : AttributePlace → Option (List NamedAttribute)
  | .classFile => some c.attributes
  | .field index => c.fields[index]?.map Member.attributes
  | .method index => c.methods[index]?.map Member.attributes
  | .code method => (c.code? method).map Code.attributes
  | .component index => do return (← (← c.components?)[index]?).attributes

/-- Edits the list of attributes at a place. -/
def modifyAttributes (c : ClassFile) (edit : List NamedAttribute → List NamedAttribute) :
    AttributePlace → ClassFile
  | .classFile => { c with attributes := edit c.attributes }
  | .field index =>
    { c with fields := c.fields.modify index fun m => { m with attributes := edit m.attributes } }
  | .method index =>
    { c with methods := c.methods.modify index fun m => { m with attributes := edit m.attributes } }
  | .code method => c.modifyCode method fun code => { code with attributes := edit code.attributes }
  | .component index =>
    { c with attributes := modifyFirst (NamedAttribute.editRecord? fun components =>
        components.modify index fun r => { r with attributes := edit r.attributes }) c.attributes }

end ClassFile

end ClassFormat
