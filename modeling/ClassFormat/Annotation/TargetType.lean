import ClassFormat.Location
import ClassFormat.Text.Display

/-!
# Target types

A type annotation says by its target type which use of a type it is on. The target type
decides what locates the use, and where the annotation may stand: tables 4.7.20-A,
4.7.20-B and 4.7.20-C of the Java Virtual Machine Specification in one.
-/

namespace ClassFormat

/-- The ten forms of the data that locates an annotated type. -/
inductive TargetForm where
  | typeParameter
  | supertype
  | typeParameterBound
  | empty
  | formalParameter
  | throws
  | localVar
  /-- An entry of the exception table. -/
  | handler
  | offset
  | typeArgument
  deriving DecidableEq

/-- The name of the form. -/
def TargetForm.name : TargetForm → String
  | typeParameter => "TypeParameter"
  | supertype => "Supertype"
  | typeParameterBound => "TypeParameterBound"
  | empty => "Empty"
  | formalParameter => "FormalParameter"
  | throws => "Throws"
  | localVar => "LocalVar"
  | handler => "Catch"
  | offset => "Offset"
  | typeArgument => "TypeArgument"

/-- Which use of a type is annotated. -/
inductive TargetType where
  | classTypeParameter
  | methodTypeParameter
  | classExtends
  | classTypeParameterBound
  | methodTypeParameterBound
  | field
  | methodReturn
  | methodReceiver
  | methodFormalParameter
  | throws
  | localVariable
  | resourceVariable
  | exceptionParameter
  | instanceOf
  | new
  | constructorReference
  | methodReference
  | cast
  | constructorInvocationTypeArgument
  | methodInvocationTypeArgument
  | constructorReferenceTypeArgument
  | methodReferenceTypeArgument
  deriving DecidableEq

namespace TargetType

/-- What the specification says of a target type. -/
structure Row where
  name : String
  value : UInt8
  form : TargetForm
  locations : List Location

/-- The row of a target type. -/
def row : TargetType → Row
  | classTypeParameter => ⟨"CLASS_TYPE_PARAMETER", 0x00, .typeParameter, [.classFile]⟩
  | methodTypeParameter => ⟨"METHOD_TYPE_PARAMETER", 0x01, .typeParameter, [.method]⟩
  | classExtends => ⟨"CLASS_EXTENDS", 0x10, .supertype, [.classFile]⟩
  | classTypeParameterBound =>
    ⟨"CLASS_TYPE_PARAMETER_BOUND", 0x11, .typeParameterBound, [.classFile]⟩
  | methodTypeParameterBound =>
    ⟨"METHOD_TYPE_PARAMETER_BOUND", 0x12, .typeParameterBound, [.method]⟩
  | field => ⟨"FIELD", 0x13, .empty, [.field, .recordComponent]⟩
  | methodReturn => ⟨"METHOD_RETURN", 0x14, .empty, [.method]⟩
  | methodReceiver => ⟨"METHOD_RECEIVER", 0x15, .empty, [.method]⟩
  | methodFormalParameter => ⟨"METHOD_FORMAL_PARAMETER", 0x16, .formalParameter, [.method]⟩
  | throws => ⟨"THROWS", 0x17, .throws, [.method]⟩
  | localVariable => ⟨"LOCAL_VARIABLE", 0x40, .localVar, [.code]⟩
  | resourceVariable => ⟨"RESOURCE_VARIABLE", 0x41, .localVar, [.code]⟩
  | exceptionParameter => ⟨"EXCEPTION_PARAMETER", 0x42, .handler, [.code]⟩
  | instanceOf => ⟨"INSTANCEOF", 0x43, .offset, [.code]⟩
  | new => ⟨"NEW", 0x44, .offset, [.code]⟩
  | constructorReference => ⟨"CONSTRUCTOR_REFERENCE", 0x45, .offset, [.code]⟩
  | methodReference => ⟨"METHOD_REFERENCE", 0x46, .offset, [.code]⟩
  | cast => ⟨"CAST", 0x47, .typeArgument, [.code]⟩
  | constructorInvocationTypeArgument =>
    ⟨"CONSTRUCTOR_INVOCATION_TYPE_ARGUMENT", 0x48, .typeArgument, [.code]⟩
  | methodInvocationTypeArgument =>
    ⟨"METHOD_INVOCATION_TYPE_ARGUMENT", 0x49, .typeArgument, [.code]⟩
  | constructorReferenceTypeArgument =>
    ⟨"CONSTRUCTOR_REFERENCE_TYPE_ARGUMENT", 0x4A, .typeArgument, [.code]⟩
  | methodReferenceTypeArgument => ⟨"METHOD_REFERENCE_TYPE_ARGUMENT", 0x4B, .typeArgument, [.code]⟩

/-- The name that the specification gives to the target type. -/
def name (t : TargetType) : String := t.row.name

/-- The byte that stands for the target type. -/
def value (t : TargetType) : UInt8 := t.row.value

/-- What locates the annotated type. -/
def form (t : TargetType) : TargetForm := t.row.form

/-- Where an annotation with the target type may stand. -/
def locations (t : TargetType) : List Location := t.row.locations

/-- Every target type, in the order of their bytes. -/
def all : List TargetType :=
  [.classTypeParameter, .methodTypeParameter, .classExtends, .classTypeParameterBound,
    .methodTypeParameterBound, .field, .methodReturn, .methodReceiver, .methodFormalParameter,
    .throws, .localVariable, .resourceVariable, .exceptionParameter, .instanceOf, .new,
    .constructorReference, .methodReference, .cast, .constructorInvocationTypeArgument,
    .methodInvocationTypeArgument, .constructorReferenceTypeArgument, .methodReferenceTypeArgument]

/-- The target type that a byte stands for. -/
def ofValue? (value : UInt8) : Option TargetType := all.find? fun t => t.value = value

/-- Every target type is the one that its value stands for. -/
theorem ofValue?_value (t : TargetType) : ofValue? t.value = some t := by cases t <;> decide

/-- How a message spells a target type: its name and its byte. -/
def display (t : TargetType) : String := s!"{t.name} ({Display.hex 2 t.value.toNat})"

end TargetType

end ClassFormat
