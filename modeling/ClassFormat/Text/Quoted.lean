import ClassFormat.Text.Hidden

/-!
# Quoted text

How a message quotes text: between two marks, with escapes for the mark, the backslash
and everything that would not show. A `Quote` says which mark it is; a text and a single
character are quoted with different ones, `Quote.text` and `Quote.character`.
-/

namespace ClassFormat

/-- A way to quote text. -/
structure Quote where
  /-- The mark written on both sides, and escaped inside. -/
  mark : Char

namespace Quote

/-- A text: between double quotes, single ones standing for themselves. -/
def text : Quote := ⟨'"'⟩

/-- A single character: between single quotes, double ones standing for themselves. -/
def character : Quote := ⟨'\''⟩

/-- The digits of `n` in base sixteen, in lower case. -/
def hexDigits (n : Nat) : String := String.ofList (Nat.toDigits 16 n)

/-- What is written for a code point: a short escape if it has one, its number if it is
    hidden, otherwise itself. -/
def point (q : Quote) (c : CodePoint) : String :=
  if c.val = 0x00 then "\\0"
  else if c.val = 0x09 then "\\t"
  else if c.val = 0x0A then "\\n"
  else if c.val = 0x0D then "\\r"
  else if c.val = 0x5C then "\\\\"
  else if c.isHidden then "\\u\x7b" ++ hexDigits c.val ++ "\x7d"
  else if c.toChar = q.mark then String.ofList ['\\', c.toChar]
  else c.toChar.toString

/-- A text between marks. -/
def render (q : Quote) (t : Text) : String :=
  q.mark.toString ++ String.join (t.map q.point) ++ q.mark.toString

/-- A string between marks. -/
def renderString (q : Quote) (s : String) : String := q.render (Text.ofString s)

/-- A quoted text escapes its own mark and what does not show. -/
example : Quote.text.renderString "a\"'\n\u0301" = "\"a\\\"'\\n\\u\x7b301\x7d\"" := by
  decide +kernel

end Quote

end ClassFormat
