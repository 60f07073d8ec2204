/-!
# Shortest decimals

The decimal that stands for a number in an interval around it: of all that lie in the
interval, one on the coarsest decimal grid, and on that grid the one nearest to the
number, the larger one in a tie. All arithmetic is exact.
-/

namespace ClassFormat

namespace Decimal

/-- A positive number and the interval around it, as fractions of one denominator. -/
structure Span where
  low : Nat
  number : Nat
  high : Nat
  denominator : Nat
  /-- Whether the two ends belong to the interval. -/
  closed : Bool

/-- The decimal `digits * 10 ^ position`. -/
structure Scaled where
  digits : Nat
  position : Int
  deriving DecidableEq

/-- Whether `n` units lie in the interval, for a unit that is a whole number of the
    fractions. -/
def Span.contains (s : Span) (n : Nat) : Bool :=
  let point := n * s.denominator
  if s.closed then s.low ≤ point && point ≤ s.high else s.low < point && point < s.high

/-- The same number and interval measured in units of `10 ^ position`. -/
def Span.inUnits (s : Span) (position : Int) : Span :=
  match position with
  | .ofNat p => { s with denominator := s.denominator * Nat.pow 10 p }
  | .negSucc p =>
    let scale := Nat.pow 10 (p + 1)
    { s with low := s.low * scale, number := s.number * scale, high := s.high * scale }

/-- The multiple of `10 ^ position` in the interval that is nearest to the number, if one
    of the two around the number is in the interval. -/
def Span.onGrid (s : Span) (position : Int) : Option Scaled :=
  let s := s.inUnits position
  let below := s.number / s.denominator
  let nearBelow := 2 * (s.number % s.denominator) < s.denominator
  match s.contains below, s.contains (below + 1) with
  -- If both are equally near, the greater one is taken.
  | true, true => some ⟨if nearBelow then below else below + 1, position⟩
  | true, false => some ⟨below, position⟩
  | false, true => some ⟨below + 1, position⟩
  | false, false => none

/-- The number of decimal digits of `n`. -/
def digitCount (n : Nat) : Nat := (Nat.toDigits 10 n).length

/-- The least power of ten above the number. -/
def Span.magnitude (s : Span) : Int :=
  if s.denominator ≤ s.number then digitCount (s.number / s.denominator)
  else 1 - digitCount ((s.denominator + s.number - 1) / s.number - 1)

/-- The first hit on the grids from `10 ^ position` to one `steps` times finer. -/
def Span.search (s : Span) (position : Int) : (steps : Nat) → Option Scaled
  | 0 => s.onGrid position
  | steps + 1 => (s.onGrid position).or (s.search (position - 1) steps)

/-- The decimal that stands for the number, with at most `places` digits. -/
def Span.shortest (s : Span) (places : Nat) : Option Scaled := s.search s.magnitude places

/-- A decimal in positional notation, without an exponent. -/
def Scaled.positional (d : Scaled) : String :=
  let digits := Nat.toDigits 10 d.digits
  match d.position with
  | .ofNat p => String.ofList (digits ++ List.replicate p '0')
  | .negSucc p =>
    let places := p + 1
    -- One digit at least stands before the point.
    let digits := List.replicate (places + 1 - digits.length) '0' ++ digits
    let whole := digits.length - places
    String.ofList (digits.take whole ++ '.' :: digits.drop whole)

end Decimal

end ClassFormat
