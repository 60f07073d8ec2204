import ClassFormat.Text.Display

/-!
# Constants

The entries of the constant pool. A constant refers to others by their indices; which
kinds it may refer to is `Constant.references`.

* `Constant.Kind`: the seventeen kinds of constants, with their tags and slot counts;
* `Constant`: a constant of each kind, `float` and `double` as raw bits so that every
  NaN is kept;
* `Constant.references`: the indices a constant holds, with the kinds allowed there;
* `Constant.display`: how a message spells a constant.
-/

namespace ClassFormat

namespace Constant

/-- The kinds of constants. -/
inductive Kind where
  | utf8
  | integer
  | float
  | long
  | double
  | classref
  | string
  | fieldref
  | methodref
  | interfaceMethodref
  | nameAndType
  | methodHandle
  | methodType
  | dynamic
  | invokeDynamic
  | module
  | package
  deriving DecidableEq

namespace Kind

/-- Every kind, in the order of their tags. -/
def all : List Kind :=
  [.utf8, .integer, .float, .long, .double, .classref, .string, .fieldref, .methodref,
    .interfaceMethodref, .nameAndType, .methodHandle, .methodType, .dynamic, .invokeDynamic,
    .module, .package]

/-- The tag byte that announces a constant of the kind. -/
def tag : Kind → UInt8
  | .utf8 => 1
  | .integer => 3
  | .float => 4
  | .long => 5
  | .double => 6
  | .classref => 7
  | .string => 8
  | .fieldref => 9
  | .methodref => 10
  | .interfaceMethodref => 11
  | .nameAndType => 12
  | .methodHandle => 15
  | .methodType => 16
  | .dynamic => 17
  | .invokeDynamic => 18
  | .module => 19
  | .package => 20

/-- The kind announced by a tag byte. -/
def ofTag? (tag : UInt8) : Option Kind := all.find? fun kind => kind.tag = tag

/-- The number of indices a constant of the kind takes up. -/
def slots : Kind → Nat
  | .long | .double => 2
  | _ => 1

/-- The name of the kind. -/
def name : Kind → String
  | .utf8 => "Utf8"
  | .integer => "Integer"
  | .float => "Float"
  | .long => "Long"
  | .double => "Double"
  | .classref => "Class"
  | .string => "String"
  | .fieldref => "Fieldref"
  | .methodref => "Methodref"
  | .interfaceMethodref => "InterfaceMethodref"
  | .nameAndType => "NameAndType"
  | .methodHandle => "MethodHandle"
  | .methodType => "MethodType"
  | .dynamic => "Dynamic"
  | .invokeDynamic => "InvokeDynamic"
  | .module => "Module"
  | .package => "Package"

/-- What `ldc` and `ldc_w` load. -/
def loadable : List Kind :=
  [.integer, .float, .string, .classref, .methodHandle, .methodType, .dynamic]

/-- What `ldc2_w` loads. -/
def loadableWide : List Kind := [.long, .double, .dynamic]

/-- What a bootstrap method takes as an argument. -/
def bootstrapArgument : List Kind :=
  [.integer, .float, .long, .double, .string, .classref, .methodHandle, .methodType, .dynamic]

/-- What a `ConstantValue` attribute gives to a field. -/
def fieldValue : List Kind := [.integer, .float, .long, .double, .string]

/-- What `invokespecial` and `invokestatic` call. -/
def anyMethod : List Kind := [.methodref, .interfaceMethodref]

/-- Every kind of constants is the one that its tag stands for. -/
theorem ofTag?_tag (kind : Kind) : ofTag? kind.tag = some kind := by cases kind <;> decide

/-- A constant takes up at least one slot. -/
theorem slots_pos (kind : Kind) : 0 < kind.slots := by cases kind <;> decide

end Kind

end Constant

/-- A constant. The fields ending in `Index` are indices of other constants. -/
inductive Constant where
  | utf8 (text : Text)
  | integer (value : Int32)
  | float (bits : UInt32)
  | long (value : Int64)
  | double (bits : UInt64)
  | classref (nameIndex : UInt16)
  | string (textIndex : UInt16)
  | fieldref (classIndex nameAndTypeIndex : UInt16)
  | methodref (classIndex nameAndTypeIndex : UInt16)
  | interfaceMethodref (classIndex nameAndTypeIndex : UInt16)
  | nameAndType (nameIndex descriptorIndex : UInt16)
  | methodHandle (referenceKind : UInt8) (referenceIndex : UInt16)
  | methodType (descriptorIndex : UInt16)
  /-- `bootstrap` counts the entries of the `BootstrapMethods` attribute. -/
  | dynamic (bootstrap nameAndTypeIndex : UInt16)
  | invokeDynamic (bootstrap nameAndTypeIndex : UInt16)
  | module (nameIndex : UInt16)
  | package (nameIndex : UInt16)
  deriving DecidableEq

namespace Constant

/-- The kind of a constant. -/
def kind : Constant → Kind
  | utf8 _ => .utf8
  | integer _ => .integer
  | float _ => .float
  | long _ => .long
  | double _ => .double
  | .classref _ => .classref
  | string _ => .string
  | fieldref _ _ => .fieldref
  | methodref _ _ => .methodref
  | interfaceMethodref _ _ => .interfaceMethodref
  | nameAndType _ _ => .nameAndType
  | methodHandle _ _ => .methodHandle
  | methodType _ => .methodType
  | dynamic _ _ => .dynamic
  | invokeDynamic _ _ => .invokeDynamic
  | module _ => .module
  | package _ => .package

/-- A string as a constant. -/
def ofString (s : String) : Constant := utf8 (Text.ofString s)

/-- The kinds that a method handle of a reference kind refers to, none for a number
    that is no reference kind. -/
def handleTargets? (referenceKind : UInt8) : Option (List Kind) :=
  match referenceKind with
  | 1 | 2 | 3 | 4 => some [.fieldref]
  | 5 | 8 => some [.methodref]
  | 6 | 7 => some Kind.anyMethod
  | 9 => some [.interfaceMethodref]
  | _ => none

/-- The name of a reference kind. -/
def handleName (referenceKind : UInt8) : String :=
  match referenceKind with
  | 1 => "REF_getField"
  | 2 => "REF_getStatic"
  | 3 => "REF_putField"
  | 4 => "REF_putStatic"
  | 5 => "REF_invokeVirtual"
  | 6 => "REF_invokeStatic"
  | 7 => "REF_invokeSpecial"
  | 8 => "REF_newInvokeSpecial"
  | 9 => "REF_invokeInterface"
  | _ => "REF_unknown"

/-- The indices a constant holds, each with the kinds allowed there. A method handle
    whose reference kind is unknown holds none; that kind is given instead. The number of a
    bootstrap method is no index of the pool. -/
def references : Constant → Except UInt8 (List (UInt16 × List Kind))
  | utf8 _ | integer _ | float _ | long _ | double _ => .ok []
  | .classref name | string name | methodType name | module name | package name =>
    .ok [(name, [.utf8])]
  | fieldref owner member | methodref owner member | interfaceMethodref owner member =>
    .ok [(owner, [.classref]), (member, [.nameAndType])]
  | nameAndType name descriptor => .ok [(name, [.utf8]), (descriptor, [.utf8])]
  | methodHandle referenceKind reference =>
    match handleTargets? referenceKind with
    | some kinds => .ok [(reference, kinds)]
    | none => .error referenceKind
  | dynamic _ member | invokeDynamic _ member => .ok [(member, [.nameAndType])]

/-- How a message spells a text constant: quoted, a surrogate as its number. -/
def displayText (t : Text) : String :=
  "\"" ++ String.join (t.map fun c =>
    if c.isSurrogate then "\\u\x7b" ++ Quote.hexDigits c.val ++ "\x7d"
    else Quote.text.point c) ++ "\""

/-- How a message spells a constant. -/
def display (constant : Constant) : String :=
  let name := constant.kind.name
  let fields (items : List (String × String)) : String := Display.record name items
  match constant with
  | utf8 t => Display.tuple name [displayText t]
  | integer value => Display.tuple name [toString value.toInt]
  | float bits => Display.tuple name [toString bits.toNat]
  | long value => Display.tuple name [toString value.toInt]
  | double bits => Display.tuple name [toString bits.toNat]
  | .classref i | module i | package i => fields [("name_index", toString i.toNat)]
  | string i => fields [("string_index", toString i.toNat)]
  | fieldref i j | methodref i j | interfaceMethodref i j =>
    fields [("class_index", toString i.toNat), ("name_and_type_index", toString j.toNat)]
  | nameAndType i j =>
    fields [("name_index", toString i.toNat), ("descriptor_index", toString j.toNat)]
  | methodHandle k i =>
    fields [("reference_kind", toString k.toNat), ("reference_index", toString i.toNat)]
  | methodType i => fields [("descriptor_index", toString i.toNat)]
  | dynamic b i | invokeDynamic b i =>
    fields [("bootstrap_method_attr_index", toString b.toNat),
      ("name_and_type_index", toString i.toNat)]

end Constant

end ClassFormat
