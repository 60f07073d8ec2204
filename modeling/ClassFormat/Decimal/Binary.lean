import ClassFormat.Decimal.Shortest

/-!
# Binary floating-point numbers

The numbers of `Float` and `Double` constants, which are given by their bits, and how
they are shown: by the fewest digits that give the same bits back, without an exponent.
-/

namespace ClassFormat

namespace Decimal

/-- A binary interchange format: a sign bit, the bits of the exponent and those of the
    fraction. -/
structure BinaryFormat where
  exponentBits : Nat
  fractionBits : Nat
  /-- How many decimal digits tell all its numbers apart. -/
  places : Nat

/-- Numbers of 32 bits. -/
def binary32 : BinaryFormat := ⟨8, 23, 9⟩

/-- Numbers of 64 bits. -/
def binary64 : BinaryFormat := ⟨11, 52, 17⟩

/-- The numbers that are rounded to `mantissa * 2 ^ exponent`: from the middle between it
    and the number before to the middle between it and the number after. The number before
    is nearer if `narrow` says so. The ends are rounded to the even mantissa. -/
def roundingSpan (mantissa : Nat) (exponent : Int) (narrow : Bool) : Span :=
  -- In quarters of the last bit the ends are whole numbers, also the nearer one below.
  let low := 4 * mantissa - if narrow then 1 else 2
  let number := 4 * mantissa
  let high := 4 * mantissa + 2
  match exponent - 2 with
  | .ofNat e =>
    let unit := Nat.pow 2 e
    ⟨low * unit, number * unit, high * unit, 1, mantissa % 2 == 0⟩
  | .negSucc e => ⟨low, number, high, Nat.pow 2 (e + 1), mantissa % 2 == 0⟩

/-- A positive number `mantissa * 2 ^ exponent` in decimal. -/
def BinaryFormat.finite (f : BinaryFormat) (mantissa : Nat) (exponent : Int) (narrow : Bool) :
    String :=
  match (roundingSpan mantissa exponent narrow).shortest f.places with
  | some d => d.positional
  | none => "0"

/-- The number with the given bits in decimal. -/
def BinaryFormat.show (f : BinaryFormat) (bits : Nat) : String :=
  let fractions := Nat.pow 2 f.fractionBits
  let exponents := Nat.pow 2 f.exponentBits
  let fraction := bits % fractions
  let biased := bits / fractions % exponents
  let sign := if bits / fractions / exponents % 2 = 0 then "" else "-"
  let least : Int := 2 - (exponents / 2 + f.fractionBits : Nat)
  if biased = exponents - 1 then
    if fraction = 0 then sign ++ "inf" else "NaN"
  else if biased = 0 then
    -- There is no implied bit, and the exponent is that of the next numbers.
    sign ++ if fraction = 0 then "0" else f.finite fraction least false
  else
    sign ++ f.finite (fractions + fraction) (least + biased - 1) (fraction == 0 && biased != 1)

/-- One tenth in 32 bits. -/
example : binary32.show 0x3DCCCCCD = "0.1" := by decide +kernel

/-- The largest number of 32 bits, all digits before the point. -/
example : binary32.show 0x7F7FFFFF = "340282350000000000000000000000000000000" := by decide +kernel

/-- Zero keeps its sign, and a number that is no number has none. -/
example : binary64.show 0x8000000000000000 = "-0" ∧ binary64.show 0xFFF8000000000000 = "NaN" := by
  decide +kernel

end Decimal

end ClassFormat
