import ClassFormat.Attribute.Read
import ClassFormat.ClassFile.Basic
import ClassFormat.ConstantPool.Codec

/-!
# Reading class files

The constant pool comes first, so everything after it is checked against the whole pool.
What can be checked only at the end is that the declared exceptions of a method and the
bootstrap methods of the class are as many as the indices of them need.

* `ClassFile.read`: the reader of a class file;
* `ClassFile.ofBytes`: the class file in a byte string;
* `ClassFile.ofBytesLogged`: the same, with what was logged on the way.
-/

namespace ClassFormat

namespace Attribute

/-- The number of exceptions that the attributes of a method declare. -/
def exceptionCount (attributes : List NamedAttribute) : Nat :=
  match find? .exceptions attributes with
  | some (.exceptions classes) => classes.length
  | _ => 0

/-- Checks the type annotations of a method that are on declared exceptions. -/
def checkThrows (attributes : List NamedAttribute) : Except Failure Unit :=
  let count := exceptionCount attributes
  attributes.forM fun a =>
    match a.content with
    | .typeAnnotations _ list => TypeAnnotation.checkThrows count list
    | _ => .ok ()

end Attribute

/-- Reads a field or a method. -/
def Member.read (s : Surroundings) : Reader Member := do
  let accessFlags ← Reader.u2
  let nameIndex ← Reader.u2
  let descriptorIndex ← Reader.u2
  let name ← s.pool.text nameIndex
  let descriptor ← s.pool.text descriptorIndex
  Reader.log (.member s.location name descriptor)
  let attributes ← Reader.within (.inMember s.location name descriptor) do
    let attributes ← Attribute.readList s
    -- Exceptions may be declared after the annotations that refer to them.
    if s.location = .method then Attribute.checkThrows attributes
    return attributes
  return { accessFlags, nameIndex, descriptorIndex, attributes }

namespace ClassFile

/-- Reads a class file to the end. -/
def read (options : ReadOptions) : Reader ClassFile := do
  let found ← Reader.u4
  if found ≠ magic then (Fault.magic found).raise
  let minorVersion ← Reader.u2
  let majorVersion ← Reader.u2
  let pool ← Reader.within .readingPool ConstantPool.read
  Reader.log (.pool pool.count majorVersion minorVersion)
  let accessFlags ← Reader.u2
  let thisClass ← Reader.u2
  let name ← Failure.inside .readingThisClass (pool.className thisClass)
  let superClass ← Reader.u2
  let _ ← Failure.inside .readingSuperClass (pool.requireOptional superClass .classref)
  let interfaces ← Reader.within .readingInterfaces (pool.readIndices .classref)
  let s (location : Location) : Surroundings :=
    { pool, options, location, interfaces := interfaces.length, code? := none }
  let (fields, methods, attributes) ← Reader.within (.inClass name) do
    let fields ← Reader.table fun _ => Member.read (s .field)
    let methods ← Reader.table fun _ => Member.read (s .method)
    let attributes ← Attribute.readList (s .classFile)
    return (fields, methods, attributes)
  let rest := (← get).rest
  if !rest.isEmpty then
    (Fault.malformed (.trailingData rest.length (← Reader.offset))).raise
  let c : ClassFile :=
    { minorVersion, majorVersion, pool, accessFlags, thisClass, superClass, interfaces, fields,
      methods, attributes }
  -- Bootstrap methods are in an attribute, but constants refer to them.
  c.checkBootstrapIndices
  return c

/-- The class file in a byte string, and what was logged while it was read, in order. -/
def ofBytesLogged (options : ReadOptions) (bytes : Bytes) :
    Except Failure ClassFile × List Log.Event :=
  match read options (Cursor.start bytes) with
  | .ok c cursor => (.ok c, cursor.log.reverse)
  | .error f cursor => (.error f, cursor.log.reverse)

/-- The class file in a byte string. -/
def ofBytes (options : ReadOptions) (bytes : Bytes) : Except Failure ClassFile :=
  (ofBytesLogged options bytes).1

end ClassFile

end ClassFormat
