import ClassFormat.Attribute.Basic
import ClassFormat.ConstantPool.Edit
import ClassFormat.Instruction.Encode

/-!
# Writing attributes

The bytes of an attribute. The name of a decoded attribute has to be that of its kind, and
the length of its body is that of what is written.
-/

namespace ClassFormat

/-- An attribute of a decoded kind, and the pool with its name, which is added if the pool
    does not hold it. -/
def NamedAttribute.named (pool : ConstantPool) (content : Attribute) :
    Except Failure (ConstantPool × NamedAttribute) :=
  match content.kind? with
  | none => Note.namelessAttribute.raise
  | some kind => do
    let (pool, nameIndex) ← pool.intern (Text.ofString kind.name)
    return (pool, ⟨nameIndex, content⟩)

/-- Checks that the name of an attribute is a text, and the right one for its kind. -/
def NamedAttribute.checkName (pool : ConstantPool) (a : NamedAttribute) : Except Failure Unit :=
  match a.content.kind? with
  | some kind =>
    if pool.holdsText a.nameIndex (Text.ofString kind.name) then .ok ()
    else (Fault.malformed (.attributeName a.nameIndex kind)).raise
  | none => do
    let _ ← pool.require a.nameIndex [.utf8]

mutual

/-- The body of an attribute. -/
def Attribute.write (pool : ConstantPool) : Attribute → Written
  | .code c => Code.write pool c
  | .record components => do
    let count ← Writer.count .u2 components.length
    return count ++ (← RecordComponent.writeAll pool [] components)
  | .constantValue index | .signature index | .sourceFile index | .moduleMainClass index
  | .nestHost index => .ok (Writer.u2 index)
  | .stackMapTable frames => StackMapFrame.writeTable frames
  | .exceptions indices | .modulePackages indices | .nestMembers indices
  | .permittedSubclasses indices => Writer.indices indices
  | .innerClasses rows => Writer.table (fun row => .ok row.write) rows
  | .enclosingMethod classIndex methodIndex => .ok (Writer.u2 classIndex ++ Writer.u2 methodIndex)
  | .synthetic | .deprecated => .ok []
  | .sourceDebugExtension bytes | .other bytes => .ok bytes
  | .lineNumberTable rows => Writer.table (fun row => .ok row.write) rows
  | .localVariableTable rows | .localVariableTypeTable rows =>
    Writer.table (fun row => .ok row.write) rows
  | .annotations _ annotations => Annotation.writeList annotations
  | .parameterAnnotations _ parameters => Annotation.writeParameters parameters
  | .typeAnnotations _ annotations => TypeAnnotation.writeList annotations
  | .annotationDefault value => value.write
  | .bootstrapMethods methods => Writer.table BootstrapMethod.write methods
  | .methodParameters parameters => Writer.shortTable (fun row => .ok row.write) parameters
  | .module descriptor => descriptor.write

/-- The bytes of an attribute. -/
def NamedAttribute.write (pool : ConstantPool) : NamedAttribute → Written
  | ⟨nameIndex, content⟩ => do
    NamedAttribute.checkName pool ⟨nameIndex, content⟩
    let body ← Failure.inside (.writingAttribute content.kind?) (Attribute.write pool content)
    return Writer.u2 nameIndex ++ (← Writer.count .u4 body.length) ++ body

/-- The bytes of attributes, after those of `done`, the last one first. -/
def NamedAttribute.writeAll (pool : ConstantPool) (done : List Bytes) :
    List NamedAttribute → Written
  | [] => .ok done.reverse.flatten
  | a :: rest => do NamedAttribute.writeAll pool ((← NamedAttribute.write pool a) :: done) rest

/-- The bytes of code. -/
def Code.write (pool : ConstantPool) : Code → Written
  | ⟨maxStack, maxLocals, instructions, handlers, attributes⟩ => do
    let code ← Instruction.encode instructions
    Code.checkLength code.length
    let handlers ← ExceptionHandler.writeTable handlers
    let count ← Writer.count .u2 attributes.length
    let attributes ← NamedAttribute.writeAll pool [] attributes
    return Writer.u2 maxStack ++ Writer.u2 maxLocals ++ BigEndian.ofNat 4 code.length ++ code ++
      handlers ++ count ++ attributes

/-- The bytes of a component of a record class. -/
def RecordComponent.write (pool : ConstantPool) : RecordComponent → Written
  | ⟨nameIndex, descriptorIndex, attributes⟩ => do
    let count ← Writer.count .u2 attributes.length
    let attributes ← NamedAttribute.writeAll pool [] attributes
    return Writer.u2 nameIndex ++ Writer.u2 descriptorIndex ++ count ++ attributes

/-- The bytes of components, after those of `done`, the last one first. -/
def RecordComponent.writeAll (pool : ConstantPool) (done : List Bytes) :
    List RecordComponent → Written
  | [] => .ok done.reverse.flatten
  | component :: rest => do
    RecordComponent.writeAll pool ((← RecordComponent.write pool component) :: done) rest

end

/-- The bytes of a list of attributes. -/
def Attribute.writeList (pool : ConstantPool) (attributes : List NamedAttribute) : Written :=
  return (← Writer.count .u2 attributes.length) ++ (← NamedAttribute.writeAll pool [] attributes)

end ClassFormat
