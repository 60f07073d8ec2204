import ClassFormat.Constant

/-!
# Annotations

An annotation gives values to the elements of its type. A value is a constant, an
enumeration constant, another annotation or an array of values, so annotations nest.

* `ElementTag`: the ten kinds of values that are one constant;
* `ElementValue`, `ElementPair`, `Annotation`: values and what holds them.
-/

namespace ClassFormat

/-- What a value that is one constant stands for. -/
inductive ElementTag where
  | byte
  | char
  | double
  | float
  | int
  | long
  | short
  | boolean
  | string
  | classLiteral
  deriving DecidableEq

namespace ElementTag

/-- Every tag. -/
def all : List ElementTag :=
  [.byte, .char, .double, .float, .int, .long, .short, .boolean, .string, .classLiteral]

/-- The byte of a tag, an ASCII letter. -/
def code : ElementTag → UInt8
  | byte => 66
  | char => 67
  | double => 68
  | float => 70
  | int => 73
  | long => 74
  | short => 83
  | boolean => 90
  | string => 115
  | .classLiteral => 99

/-- The tag that a byte stands for. -/
def ofCode? (code : UInt8) : Option ElementTag := all.find? fun tag => tag.code = code

/-- The kind of constant that holds a value with the tag. -/
def kind : ElementTag → Constant.Kind
  | byte | char | int | short | boolean => .integer
  | double => .double
  | float => .float
  | long => .long
  | string | .classLiteral => .utf8

/-- Every tag is the one that its code stands for. -/
theorem ofCode?_code (tag : ElementTag) : ofCode? tag.code = some tag := by cases tag <;> decide

/-- The byte of an enumeration constant: `e`. -/
def enumCode : UInt8 := 101

/-- The byte of an annotation: `@`. -/
def annotationCode : UInt8 := 64

/-- The byte of an array: `[`. -/
def arrayCode : UInt8 := 91

end ElementTag

mutual

/-- The value of an element. -/
inductive ElementValue where
  | constant (tag : ElementTag) (index : UInt16)
  /-- An enumeration constant, by the descriptor of its type and its name. -/
  | enum (typeIndex nameIndex : UInt16)
  | nested (a : Annotation)
  | array (values : List ElementValue)

/-- An element and its value. -/
structure ElementPair where
  nameIndex : UInt16
  value : ElementValue

/-- An annotation: the descriptor of its type, and its elements. -/
structure Annotation where
  typeIndex : UInt16
  pairs : List ElementPair

end

/-- The byte that announces a value. -/
def ElementValue.code : ElementValue → UInt8
  | constant tag _ => tag.code
  | enum _ _ => ElementTag.enumCode
  | nested _ => ElementTag.annotationCode
  | array _ => ElementTag.arrayCode

end ClassFormat
