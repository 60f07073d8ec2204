import ClassFormat.Attribute.Basic

/-!
# Attributes in words

What an attribute holds, in one line, with its references followed.
-/

namespace ClassFormat

/-- Code in one line: how much of everything it has. -/
def Code.describe (code : Code) : String :=
  s!"max_stack {code.maxStack.toNat}, max_locals {code.maxLocals.toNat}, " ++
    s!"{code.instructions.length} instructions, {code.handlers.length} exception handlers, " ++
    s!"{code.attributes.length} attributes"

/-- A record component in words: its descriptor and its name. -/
def RecordComponent.describe (pool : ConstantPool) (component : RecordComponent) :
    Except Failure String := do
  let descriptor ← pool.text component.descriptorIndex
  let name ← pool.text component.nameIndex
  return s!"{descriptor.lossy} {name.lossy}"

namespace Attribute

/-- Rows in words, separated by commas. -/
def describeRows {α : Type} (describe : α → Except Failure String) (rows : List α) :
    Except Failure String :=
  return ", ".intercalate (← rows.mapM describe)

/-- The names of classes, separated by commas. -/
def describeClasses (pool : ConstantPool) : List UInt16 → Except Failure String :=
  describeRows fun index => return (← pool.className index).lossy

/-- What an attribute holds, in one line. -/
def describe (pool : ConstantPool) : Attribute → Except Failure String
  | constantValue index => pool.describe index
  | code body => .ok body.describe
  | stackMapTable frames => .ok s!"{frames.length} frames"
  | exceptions indices | nestMembers indices | permittedSubclasses indices =>
    describeClasses pool indices
  | innerClasses rows => describeRows (InnerClass.describe pool) rows
  | enclosingMethod classIndex methodIndex => do
    let name ← pool.className classIndex
    if methodIndex = 0 then return name.lossy
    else return name.lossy ++ "." ++ (← pool.describeNameAndType methodIndex)
  | synthetic | deprecated => .ok "<none>"
  | signature index | sourceFile index => return (← pool.text index).lossy
  | sourceDebugExtension bytes => .ok s!"{bytes.length} bytes of debug extension"
  | lineNumberTable rows => .ok (", ".intercalate (rows.map LineNumber.describe))
  | localVariableTable rows | localVariableTypeTable rows =>
    describeRows (LocalVariable.describe pool) rows
  | annotations _ list => Annotation.describeList pool list
  | parameterAnnotations _ parameters =>
    describeRows (fun (list, parameter) =>
      return s!"parameter {parameter}: " ++ (← Annotation.describeList pool list)) parameters.zipIdx
  | typeAnnotations _ list => describeRows (fun a => a.describe pool) list
  | annotationDefault value => value.describe pool
  | bootstrapMethods methods => describeRows (BootstrapMethod.describe pool) methods
  | methodParameters parameters => describeRows (MethodParameter.describe pool) parameters
  | module descriptor => descriptor.describe pool
  | modulePackages indices =>
    describeRows (fun index => return (← pool.packageName index).lossy) indices
  | moduleMainClass index | nestHost index => return (← pool.className index).lossy
  | record components => describeRows (RecordComponent.describe pool) components
  | other bytes => .ok s!"{bytes.length} bytes of unknown data"

end Attribute

/-- The name of an attribute in words. -/
def NamedAttribute.describeName (pool : ConstantPool) (a : NamedAttribute) :
    Except Failure String :=
  return (← pool.text a.nameIndex).lossy

end ClassFormat
