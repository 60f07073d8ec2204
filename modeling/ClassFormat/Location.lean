/-!
# Locations

The five places of a class file that hold a list of attributes.
-/

namespace ClassFormat

/-- What a list of attributes belongs to. -/
inductive Location where
  | classFile
  | field
  | method
  /-- The `Code` attribute of a method. -/
  | code
  /-- A component of a `Record` attribute. -/
  | recordComponent
  deriving DecidableEq

namespace Location

/-- Every location. -/
def all : List Location := [.classFile, .field, .method, .code, .recordComponent]

/-- The location in words. -/
def name : Location → String
  | .classFile => "class"
  | .field => "field"
  | .method => "method"
  | .code => "Code attribute"
  | .recordComponent => "record component"

end Location

end ClassFormat
