import ClassFormat.Location
import ClassFormat.Text.Basic

/-!
# Kinds of attributes

The thirty attributes that are decoded, each known by its name and allowed at some
locations only. An attribute with another name, or at another location, is kept as bytes.
-/

namespace ClassFormat

namespace Attribute

/-- The attributes that are decoded. -/
inductive Kind where
  | constantValue
  | code
  | stackMapTable
  | exceptions
  | innerClasses
  | enclosingMethod
  | synthetic
  | signature
  | sourceFile
  | sourceDebugExtension
  | lineNumberTable
  | localVariableTable
  | localVariableTypeTable
  | deprecated
  | runtimeVisibleAnnotations
  | runtimeInvisibleAnnotations
  | runtimeVisibleParameterAnnotations
  | runtimeInvisibleParameterAnnotations
  | runtimeVisibleTypeAnnotations
  | runtimeInvisibleTypeAnnotations
  | annotationDefault
  | bootstrapMethods
  | methodParameters
  | module
  | modulePackages
  | moduleMainClass
  | nestHost
  | nestMembers
  | record
  | permittedSubclasses
  deriving DecidableEq

namespace Kind

/-- Every kind. -/
def all : List Kind :=
  [.constantValue, .code, .stackMapTable, .exceptions, .innerClasses, .enclosingMethod,
    .synthetic, .signature, .sourceFile, .sourceDebugExtension, .lineNumberTable,
    .localVariableTable, .localVariableTypeTable, .deprecated, .runtimeVisibleAnnotations,
    .runtimeInvisibleAnnotations, .runtimeVisibleParameterAnnotations,
    .runtimeInvisibleParameterAnnotations, .runtimeVisibleTypeAnnotations,
    .runtimeInvisibleTypeAnnotations, .annotationDefault, .bootstrapMethods, .methodParameters,
    .module, .modulePackages, .moduleMainClass, .nestHost, .nestMembers, .record,
    .permittedSubclasses]

/-- The name under which attributes of the kind are stored. -/
def name : Kind → String
  | constantValue => "ConstantValue"
  | code => "Code"
  | stackMapTable => "StackMapTable"
  | exceptions => "Exceptions"
  | innerClasses => "InnerClasses"
  | enclosingMethod => "EnclosingMethod"
  | synthetic => "Synthetic"
  | signature => "Signature"
  | sourceFile => "SourceFile"
  | sourceDebugExtension => "SourceDebugExtension"
  | lineNumberTable => "LineNumberTable"
  | localVariableTable => "LocalVariableTable"
  | localVariableTypeTable => "LocalVariableTypeTable"
  | deprecated => "Deprecated"
  | runtimeVisibleAnnotations => "RuntimeVisibleAnnotations"
  | runtimeInvisibleAnnotations => "RuntimeInvisibleAnnotations"
  | runtimeVisibleParameterAnnotations => "RuntimeVisibleParameterAnnotations"
  | runtimeInvisibleParameterAnnotations => "RuntimeInvisibleParameterAnnotations"
  | runtimeVisibleTypeAnnotations => "RuntimeVisibleTypeAnnotations"
  | runtimeInvisibleTypeAnnotations => "RuntimeInvisibleTypeAnnotations"
  | annotationDefault => "AnnotationDefault"
  | bootstrapMethods => "BootstrapMethods"
  | methodParameters => "MethodParameters"
  | module => "Module"
  | modulePackages => "ModulePackages"
  | moduleMainClass => "ModuleMainClass"
  | nestHost => "NestHost"
  | nestMembers => "NestMembers"
  | record => "Record"
  | permittedSubclasses => "PermittedSubclasses"

/-- Where an attribute of the kind is allowed. -/
def locations : Kind → List Location
  | .constantValue => [.field]
  | .code | .exceptions | .runtimeVisibleParameterAnnotations |
    .runtimeInvisibleParameterAnnotations | .annotationDefault | .methodParameters =>
    [.method]
  | .stackMapTable | .lineNumberTable | .localVariableTable | .localVariableTypeTable => [.code]
  | .innerClasses | .enclosingMethod | .sourceFile | .sourceDebugExtension | .bootstrapMethods |
    .module | .modulePackages | .moduleMainClass | .nestHost | .nestMembers | .record |
    .permittedSubclasses =>
    [.classFile]
  | .synthetic | .deprecated => [.classFile, .field, .method]
  | .signature | .runtimeVisibleAnnotations | .runtimeInvisibleAnnotations =>
    [.classFile, .field, .method, .recordComponent]
  | .runtimeVisibleTypeAnnotations | .runtimeInvisibleTypeAnnotations =>
    [.classFile, .field, .method, .code, .recordComponent]

/-- The kind stored under a name. -/
def ofName? (name : Text) : Option Kind := do
  let name ← name.toString?
  all.find? fun kind => kind.name == name

end Kind

end Attribute

end ClassFormat
