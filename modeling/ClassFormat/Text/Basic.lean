/-!
# Text

The string constants of a class file are sequences of code points in which a
surrogate may stand alone, so they are wider than `String`. `Text` is that type.

* `Text.ofString`: every `String` is a text;
* `Text.toString?`: a text without surrogates is a `String`;
* `Text.lossy`: the `String` shown to a reader, a surrogate becoming U+FFFD.
-/

namespace ClassFormat

/-- A code point: a number up to U+10FFFF, surrogates included. -/
abbrev CodePoint := Fin 0x110000

namespace CodePoint

/-- The code point of a number, meant for numbers up to U+10FFFF. -/
def ofNat (n : Nat) : CodePoint := ⟨n % 0x110000, Nat.mod_lt n (Nat.succ_pos _)⟩

/-- A surrogate is one half of a UTF-16 pair and no character by itself. -/
def isSurrogate (c : CodePoint) : Bool := 0xD800 ≤ c.val && c.val ≤ 0xDFFF

/-- The code point of a character. -/
def ofChar (c : Char) : CodePoint :=
  ⟨c.toNat, by
    have h : c.toNat < 0xD800 ∨ 0xDFFF < c.toNat ∧ c.toNat < 0x110000 := c.valid
    omega⟩

/-- The character of a code point, U+FFFD for a surrogate. -/
def toChar (c : CodePoint) : Char :=
  if c.isSurrogate then '\uFFFD' else Char.ofNat c.val

end CodePoint

/-- A sequence of code points. -/
abbrev Text := List CodePoint

namespace Text

/-- A string as a text. -/
def ofString (s : String) : Text := s.toList.map CodePoint.ofChar

/-- The text as a string, with U+FFFD in place of every surrogate. -/
def lossy (t : Text) : String := String.ofList (t.map CodePoint.toChar)

/-- The text as a string, if it holds no surrogate. -/
def toString? (t : Text) : Option String :=
  if t.any CodePoint.isSurrogate then none else some t.lossy

end Text

end ClassFormat
