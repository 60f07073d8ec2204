import ClassFormat.Attribute.Write
import ClassFormat.ClassFile.Read

/-!
# Writing class files

All counts and lengths follow from what is written, so an edited class file is written
with the right ones.

* `ClassFile.toBytes`: the bytes of a class file;
* `ClassFile.validate`: checks a class file by reading what is written.
-/

namespace ClassFormat

namespace Member

/-- The bytes of a member. -/
def write (pool : ConstantPool) (m : Member) : Written :=
  return Writer.u2 m.accessFlags ++ Writer.u2 m.nameIndex ++ Writer.u2 m.descriptorIndex ++
    (← Attribute.writeList pool m.attributes)

/-- The name of a member in a message, nothing if it has none. -/
def shownName (pool : ConstantPool) (m : Member) : String :=
  match m.name pool with
  | .ok name => name.lossy
  | .error _ => ""

/-- The bytes of a table of members, `location` saying which. -/
def writeTable (pool : ConstantPool) (location : Location) (members : List Member) : Written :=
  Writer.table (fun m => Failure.inside (.writingMember location (m.shownName pool)) (m.write pool))
    members

end Member

namespace ClassFile

/-- The bytes of a class file. -/
def toBytes (c : ClassFile) : Written := do
  let pool ← c.pool.write
  let interfaces ← Writer.indices c.interfaces
  let fields ← Member.writeTable c.pool .field c.fields
  let methods ← Member.writeTable c.pool .method c.methods
  let attributes ← Attribute.writeList c.pool c.attributes
  return Writer.u4 magic ++ Writer.u2 c.minorVersion ++ Writer.u2 c.majorVersion ++ pool ++
    Writer.u2 c.accessFlags ++ Writer.u2 c.thisClass ++ Writer.u2 c.superClass ++ interfaces ++
    fields ++ methods ++ attributes

/-- Checks a class file, for an edit may have left a reference that does not resolve. -/
def validate (c : ClassFile) : Except Failure Unit := do
  let _ ← ofBytes {} (← c.toBytes)

end ClassFile

end ClassFormat
