/-!
# Type paths

Where in a type an annotation is: the steps from the outermost type to the annotated one.
-/

namespace ClassFormat

namespace TypePath

/-- A step into a type. -/
inductive Step where
  /-- To the element type of an array. -/
  | array
  /-- To a nested type. -/
  | nested
  /-- To the bound of a wildcard. -/
  | wildcard
  /-- To a type argument, counted from zero. -/
  | argument (index : UInt8)
  deriving DecidableEq

/-- The two bytes of a step. -/
def Step.code : Step → UInt8 × UInt8
  | array => (0, 0)
  | nested => (1, 0)
  | wildcard => (2, 0)
  | argument index => (3, index)

/-- How a message spells a step. -/
def Step.display : Step → String
  | array => "ArrayDeeper"
  | nested => "NestedDeeper"
  | wildcard => "WildcardBound"
  | argument index => s!"TypeArgument \x7b index: {index.toNat} \x7d"

/-- The short form of a step. -/
def Step.symbol : Step → String
  | array => "["
  | nested => "."
  | wildcard => "*"
  | argument index => s!"{index.toNat};"

end TypePath

/-- The steps to an annotated type. -/
abbrev TypePath := List TypePath.Step

/-- The short form of a path. -/
def TypePath.symbols (path : TypePath) : String := String.join (path.map Step.symbol)

end ClassFormat
