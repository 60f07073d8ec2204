import ClassFormat.Annotation.TypeAnnotation
import ClassFormat.Attribute.ModuleDescriptor
import ClassFormat.Attribute.Row
import ClassFormat.Code.Handler
import ClassFormat.StackMap

/-!
# Attributes

What is known of a class, a field, a method, code or a record component beyond its
declaration. Code and record components have attributes of their own, so the four types
of this module refer to each other.

* `Attribute`: the contents of an attribute, decoded or as bytes;
* `Attribute.kind?`: the kind of a decoded attribute;
* `NamedAttribute`: an attribute with the index of its name;
* `Code`, `RecordComponent`: what holds attributes inside attributes.
-/

namespace ClassFormat

mutual

/-- The contents of an attribute. -/
inductive Attribute where
  /-- The initial value of a field. -/
  | constantValue (index : UInt16)
  | code (code : Code)
  | stackMapTable (frames : List StackMapFrame)
  /-- The exceptions that a method declares. -/
  | exceptions (classes : List UInt16)
  | innerClasses (rows : List InnerClass)
  /-- The method may be 0, for a class that is not inside one. -/
  | enclosingMethod (classIndex methodIndex : UInt16)
  | synthetic
  | signature (index : UInt16)
  | sourceFile (index : UInt16)
  | sourceDebugExtension (bytes : Bytes)
  | lineNumberTable (rows : List LineNumber)
  | localVariableTable (rows : List LocalVariable)
  | localVariableTypeTable (rows : List LocalVariable)
  | deprecated
  | annotations (visible : Bool) (annotations : List Annotation)
  /-- The annotations of each parameter of a method. -/
  | parameterAnnotations (visible : Bool) (parameters : List (List Annotation))
  | typeAnnotations (visible : Bool) (annotations : List TypeAnnotation)
  | annotationDefault (value : ElementValue)
  | bootstrapMethods (methods : List BootstrapMethod)
  | methodParameters (parameters : List MethodParameter)
  | module (descriptor : ModuleDescriptor)
  | modulePackages (packages : List UInt16)
  | moduleMainClass (index : UInt16)
  | nestHost (index : UInt16)
  | nestMembers (classes : List UInt16)
  | record (components : List RecordComponent)
  | permittedSubclasses (classes : List UInt16)
  /-- An attribute that is not decoded. -/
  | other (bytes : Bytes)

/-- An attribute with the index of its name. -/
structure NamedAttribute where
  nameIndex : UInt16
  content : Attribute

/-- The body of a method. -/
structure Code where
  maxStack : UInt16
  maxLocals : UInt16
  instructions : List Instruction
  handlers : List ExceptionHandler
  attributes : List NamedAttribute

/-- A component of a record class. -/
structure RecordComponent where
  nameIndex : UInt16
  descriptorIndex : UInt16
  attributes : List NamedAttribute

end

namespace Code

/-- The largest number of bytes of code. -/
def maxLength : Nat := 65535

/-- Checks the number of bytes of code. -/
def checkLength (length : Nat) : Except Failure Unit :=
  if length = 0 || maxLength < length then (Fault.malformed (.codeLength length)).raise
  else .ok ()

end Code

namespace Attribute

/-- The kind of a decoded attribute. -/
def kind? : Attribute → Option Kind
  | constantValue _ => some .constantValue
  | code _ => some .code
  | stackMapTable _ => some .stackMapTable
  | exceptions _ => some .exceptions
  | innerClasses _ => some .innerClasses
  | enclosingMethod .. => some .enclosingMethod
  | synthetic => some .synthetic
  | signature _ => some .signature
  | sourceFile _ => some .sourceFile
  | sourceDebugExtension _ => some .sourceDebugExtension
  | lineNumberTable _ => some .lineNumberTable
  | localVariableTable _ => some .localVariableTable
  | localVariableTypeTable _ => some .localVariableTypeTable
  | deprecated => some .deprecated
  | annotations true _ => some .runtimeVisibleAnnotations
  | annotations false _ => some .runtimeInvisibleAnnotations
  | parameterAnnotations true _ => some .runtimeVisibleParameterAnnotations
  | parameterAnnotations false _ => some .runtimeInvisibleParameterAnnotations
  | typeAnnotations true _ => some .runtimeVisibleTypeAnnotations
  | typeAnnotations false _ => some .runtimeInvisibleTypeAnnotations
  | annotationDefault _ => some .annotationDefault
  | bootstrapMethods _ => some .bootstrapMethods
  | methodParameters _ => some .methodParameters
  | module _ => some .module
  | modulePackages _ => some .modulePackages
  | moduleMainClass _ => some .moduleMainClass
  | nestHost _ => some .nestHost
  | nestMembers _ => some .nestMembers
  | record _ => some .record
  | permittedSubclasses _ => some .permittedSubclasses
  | other _ => none

/-- The first attribute of a kind in a list. -/
def find? (kind : Kind) (attributes : List NamedAttribute) : Option Attribute :=
  (attributes.map NamedAttribute.content).find? fun a => a.kind? = some kind

/-- The first `Code` of a list of attributes. -/
def findCode? (attributes : List NamedAttribute) : Option Code :=
  attributes.findSome? fun
    | ⟨_, .code body⟩ => some body
    | _ => none

end Attribute

end ClassFormat
