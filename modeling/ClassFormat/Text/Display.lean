import ClassFormat.Text.Quoted

/-!
# Display of values

How a message spells a value of the model: a tuple `Name(a, b)`, a record
`Name { field: a }`, a list `[a, b]`, or a number in base sixteen.
-/

namespace ClassFormat

namespace Display

/-- A list: `[a, b]`. -/
def list (items : List String) : String := "[" ++ ", ".intercalate items ++ "]"

/-- Items between parentheses: `(a, b)`. -/
def parenthesised (items : List String) : String := "(" ++ ", ".intercalate items ++ ")"

/-- A name followed by its arguments: `Name(a, b)`. -/
def tuple (name : String) (items : List String) : String := name ++ parenthesised items

/-- A name followed by named fields, between braces. -/
def record (name : String) (fields : List (String × String)) : String :=
  name ++ " \x7b " ++ ", ".intercalate (fields.map fun (field, value) => field ++ ": " ++ value) ++
    " \x7d"

/-- A number in base sixteen after `0x`, with at least `digits` digits. -/
def hex (digits : Nat) (n : Nat) : String :=
  let shown := Quote.hexDigits n
  "0x" ++ String.ofList (List.replicate (digits - shown.length) '0') ++ shown

example : hex 2 10 = "0x0a" ∧ hex 4 8 = "0x0008" ∧ hex 1 0xCAFEBABF = "0xcafebabf" := by
  decide +kernel

/-- A boolean: `true` or `false`. -/
def bool (b : Bool) : String := if b then "true" else "false"

end Display

end ClassFormat
