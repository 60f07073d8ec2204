import ClassFormat.Attribute.Basic
import ClassFormat.Instruction.Decode

/-!
# Reading attributes

An attribute is stored as its name, the length of its body, and its body. The body is
decoded if the name is that of a kind which is allowed where the attribute is, and the
decoded contents have to take up the whole of it; otherwise the bytes are kept.

* `NamedAttribute.read`: one attribute, with a decoder for its body;
* `Attribute.readLeaf`: a decoder of what holds no attributes itself;
* `Code.read`, `RecordComponent.read`: what holds attributes inside attributes;
* `Attribute.readList`: the attributes of a class, a field or a method.

Neither code nor records are allowed inside attributes, so attributes are nested two
levels deep at most.
-/

namespace ClassFormat

namespace NamedAttribute

/-- Running out of bytes in a body means that the attribute declares too few of them. -/
def tooShort (kind : Attribute.Kind) (declared : UInt32) (start : Nat) (f : Failure) : Failure :=
  match f.fault? with
  | some (.truncated offset needed _) =>
    f.because (.lengthMismatch kind declared (offset + needed - start))
  | _ => f

/-- Decodes the body of an attribute, which starts at the offset `start`. -/
def readBody (kind : Attribute.Kind) (declared : UInt32) (start : Nat) (body : Bytes)
    (decode : Reader Attribute) : Reader Attribute :=
  Reader.mapFailure (tooShort kind declared start) do
    let (content, left) ← Reader.confined start body decode
    if !left.isEmpty then
      (Fault.lengthMismatch kind declared (body.length - left.length)).raise
    return content

/-- Reads an attribute, the body of which is decoded with the decoder of its kind. -/
def read (s : Surroundings) (decode : Attribute.Kind → Reader Attribute) :
    Reader NamedAttribute := do
  let offset ← Reader.offset
  let nameIndex ← Reader.u2
  let name ← Failure.inside (.readingAttributeName offset) (s.pool.text nameIndex)
  let length ← Reader.u4
  let start ← Reader.offset
  let body ← Reader.within (.readingAttributeBody name offset) (Reader.bytes length.toNat)
  match Attribute.Kind.ofName? name with
  | none =>
    Reader.log (.unknown name length offset)
    return ⟨nameIndex, .other body⟩
  | some kind =>
    if s.location ∈ kind.locations then
      Reader.log (.decoding kind length offset)
      let content ← Reader.within (.readingAttribute kind offset)
        (readBody kind length start body (decode kind))
      return ⟨nameIndex, content⟩
    else
      Reader.log (.misplaced kind offset s.location)
      return ⟨nameIndex, .other body⟩

/-- Reads a list of attributes. -/
def readList (s : Surroundings) (decode : Attribute.Kind → Reader Attribute) :
    Reader (List NamedAttribute) :=
  Reader.table fun _ => read s decode

end NamedAttribute

namespace Attribute

/-- Reads the contents of an attribute that holds no attributes itself. Code and records,
    which do, are kept as bytes; no list in which this decoder is used allows them. -/
def readLeaf (s : Surroundings) : Kind → Reader Attribute
  | .code | .record => return other (← Reader.remaining)
  | .constantValue => return constantValue (← s.pool.readIndex Constant.Kind.fieldValue)
  | .stackMapTable => return stackMapTable (← StackMapFrame.readTable s)
  | .exceptions => return exceptions (← s.pool.readIndices .classref)
  | .innerClasses => return innerClasses (← Reader.table fun _ => InnerClass.read s.pool)
  | .enclosingMethod => do
    let classIndex ← Reader.u2
    let methodIndex ← Reader.u2
    -- Both indices are taken before either of them is checked.
    let _ ← s.pool.require classIndex [.classref]
    let _ ← s.pool.requireOptional methodIndex .nameAndType
    return enclosingMethod classIndex methodIndex
  | .synthetic => return synthetic
  | .signature => return signature (← s.pool.readIndex [.utf8])
  | .sourceFile => return sourceFile (← s.pool.readIndex [.utf8])
  | .sourceDebugExtension => return sourceDebugExtension (← Reader.remaining)
  | .lineNumberTable => return lineNumberTable (← Reader.table fun _ => LineNumber.read s)
  | .localVariableTable => return localVariableTable (← Reader.table fun _ => LocalVariable.read s)
  | .localVariableTypeTable =>
    return localVariableTypeTable (← Reader.table fun _ => LocalVariable.read s)
  | .deprecated => return deprecated
  | .runtimeVisibleAnnotations => return annotations true (← Annotation.readList s.pool)
  | .runtimeInvisibleAnnotations => return annotations false (← Annotation.readList s.pool)
  | .runtimeVisibleParameterAnnotations =>
    return parameterAnnotations true (← Annotation.readParameters s.pool)
  | .runtimeInvisibleParameterAnnotations =>
    return parameterAnnotations false (← Annotation.readParameters s.pool)
  | .runtimeVisibleTypeAnnotations => return typeAnnotations true (← TypeAnnotation.readList s)
  | .runtimeInvisibleTypeAnnotations => return typeAnnotations false (← TypeAnnotation.readList s)
  | .annotationDefault => return annotationDefault (← ElementValue.read s.pool)
  | .bootstrapMethods => return bootstrapMethods (← BootstrapMethod.readTable s.pool)
  | .methodParameters =>
    return methodParameters (← Reader.shortTable fun _ => MethodParameter.read s.pool)
  | .module => return module (← ModuleDescriptor.read s.pool)
  | .modulePackages => return modulePackages (← s.pool.readIndices .package)
  | .moduleMainClass => return moduleMainClass (← s.pool.readIndex [.classref])
  | .nestHost => return nestHost (← s.pool.readIndex [.classref])
  | .nestMembers => return nestMembers (← s.pool.readIndices .classref)
  | .permittedSubclasses => return permittedSubclasses (← s.pool.readIndices .classref)

/-- Reads the attributes of code or of a record component. -/
def readInnerList (s : Surroundings) : Reader (List NamedAttribute) :=
  NamedAttribute.readList s (readLeaf s)

end Attribute

/-- Reads code. Its branches, its exception handlers and its attributes are checked against
    the instructions. -/
def Code.read (s : Surroundings) : Reader Code := do
  let maxStack ← Reader.u2
  let maxLocals ← Reader.u2
  let length ← Reader.u4
  Code.checkLength length.toNat
  let instructions ← Instruction.decode s.pool length.toNat
  let map := CodeMap.ofInstructions length.toNat instructions s.options.verifyCodeOffsets
  map.requireAllTargets instructions
  let handlers ← ExceptionHandler.readTable s.pool map
  -- Type annotations refer to handlers by number.
  let attributes ← Attribute.readInnerList (s.inCode { map with handlers := handlers.length })
  return { maxStack, maxLocals, instructions, handlers, attributes }

/-- Reads a component of a record class. -/
def RecordComponent.read (s : Surroundings) : Reader RecordComponent := do
  let nameIndex ← Reader.u2
  let descriptorIndex ← Reader.u2
  let name ← s.pool.text nameIndex
  let _ ← s.pool.require descriptorIndex [.utf8]
  let attributes ← Reader.within (.inRecordComponent name)
    (Attribute.readInnerList (s.moveTo .recordComponent))
  return { nameIndex, descriptorIndex, attributes }

namespace Attribute

/-- Reads the contents of any attribute. -/
def read (s : Surroundings) : Kind → Reader Attribute
  | .code => return code (← Code.read s)
  | .record => return record (← Reader.table fun _ => RecordComponent.read s)
  | kind => readLeaf s kind

/-- Reads the attributes of a class, a field or a method. -/
def readList (s : Surroundings) : Reader (List NamedAttribute) :=
  NamedAttribute.readList s (read s)

end Attribute

end ClassFormat
