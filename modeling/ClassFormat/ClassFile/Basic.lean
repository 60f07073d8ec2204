import ClassFormat.Attribute.Basic

/-!
# Class files

A class file as it is stored: references are kept as indices of the constant pool.

* `ClassFile`, `Member`: a class, and a field or a method of it;
* `ClassFile.name`, `Member.name` and so on: what the references stand for;
* `ClassFile.findField?`, `ClassFile.findMethod?`, `Attribute.findNamed?`: look-ups by name.
-/

namespace ClassFormat

/-- A field or a method. -/
structure Member where
  accessFlags : UInt16
  nameIndex : UInt16
  descriptorIndex : UInt16
  attributes : List NamedAttribute

/-- A class file. -/
structure ClassFile where
  minorVersion : UInt16
  majorVersion : UInt16
  pool : ConstantPool
  accessFlags : UInt16
  thisClass : UInt16
  /-- The superclass, or 0 if there is none. -/
  superClass : UInt16
  interfaces : List UInt16
  fields : List Member
  methods : List Member
  attributes : List NamedAttribute

/-- The first attribute in a list that is of the kind with a name. -/
def Attribute.findNamed? (name : Text) (attributes : List NamedAttribute) : Option Attribute := do
  find? (← Kind.ofName? name) attributes

namespace Member

/-- The name of a member. -/
def name (pool : ConstantPool) (m : Member) : Except Failure Text := pool.text m.nameIndex

/-- The descriptor of a member. -/
def descriptor (pool : ConstantPool) (m : Member) : Except Failure Text :=
  pool.text m.descriptorIndex

/-- The position in a list of the first member with a name and a descriptor. -/
def find? (pool : ConstantPool) (name descriptor : Text) (members : List Member) : Option Nat :=
  members.findIdx? fun m =>
    pool.holdsText m.nameIndex name && pool.holdsText m.descriptorIndex descriptor

end Member

namespace ClassFile

/-- The first four bytes of a class file. -/
def magic : UInt32 := 0xCAFEBABE

/-- A class file with nothing in it. -/
def empty : ClassFile where
  minorVersion := 0
  majorVersion := 0
  pool := .empty
  accessFlags := 0
  thisClass := 0
  superClass := 0
  interfaces := []
  fields := []
  methods := []
  attributes := []

/-- The name of the class. -/
def name (c : ClassFile) : Except Failure Text := c.pool.className c.thisClass

/-- The name of the superclass, if there is one. -/
def superName? (c : ClassFile) : Except Failure (Option Text) :=
  if c.superClass = 0 then .ok none else return some (← c.pool.className c.superClass)

/-- The names of the interfaces. -/
def interfaceNames (c : ClassFile) : Except Failure (List Text) :=
  c.interfaces.mapM c.pool.className

/-- The position of the first field with a name and a descriptor. -/
def findField? (c : ClassFile) (name descriptor : Text) : Option Nat :=
  Member.find? c.pool name descriptor c.fields

/-- The position of the first method with a name and a descriptor. -/
def findMethod? (c : ClassFile) (name descriptor : Text) : Option Nat :=
  Member.find? c.pool name descriptor c.methods

/-- The number of bootstrap methods. -/
def bootstrapCount (c : ClassFile) : Nat :=
  match Attribute.find? .bootstrapMethods c.attributes with
  | some (.bootstrapMethods methods) => methods.length
  | _ => 0

/-- Checks that dynamic constants and call sites refer to bootstrap methods. -/
def checkBootstrapIndices (c : ClassFile) : Except Failure Unit :=
  let count := c.bootstrapCount
  c.pool.entries.forM fun (index, constant) =>
    match constant with
    | .dynamic bootstrap _ | .invokeDynamic bootstrap _ =>
      if count ≤ bootstrap.toNat then
        Failure.inside (.inDynamicConstant index) (Fault.bootstrapMethod bootstrap count).raise
      else .ok ()
    | _ => .ok ()

end ClassFile

end ClassFormat
