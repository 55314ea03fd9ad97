import Aprs.Decimal.Rounding

/-!
The fewest decimal digits that still name a floating-point number: no other number is as near to
them, and of all texts with so few digits they are nearest to the number itself.
-/

namespace Aprs.Decimal

/-- The numbers that are read as one binary number, as halves of the spacing around it: from
`low / den` to `high / den`, with `value / den` the number itself. -/
structure Interval where
  low : Nat
  value : Nat
  high : Nat
  den : Nat
  closed : Bool
  deriving DecidableEq, Repr

namespace Interval

/-- Below a power of two the spacing is half of that above it. The ends belong to the number with
the even mantissa. -/
def around (mantissa : Nat) (exponent : Int) : Interval :=
  let atPower := decide (mantissa = Binary.leadingOne ∧ -1074 < exponent)
  let (value, den) := quotient (4 * mantissa) (exponent - 2)
  let (unit, _) := quotient 1 (exponent - 2)
  ⟨value - (if atPower then unit else 2 * unit), value, value + 2 * unit, den,
    decide (mantissa % 2 = 0)⟩

/-- Whether `n / scale` lies in the interval. -/
def holds (i : Interval) (n scale : Nat) : Bool :=
  let x := n * i.den
  if i.closed then decide (i.low * scale ≤ x) && decide (x ≤ i.high * scale)
  else decide (i.low * scale < x) && decide (x < i.high * scale)

/-- The point of the grid `n * 10 ^ exponent` in the interval that is nearest to the number. -/
def nearest? (i : Interval) (exponent : Int) : Option Nat :=
  let (num, den) := shift i.value i.den exponent
  let below := num / den
  let above := below + 1
  let inside (n : Nat) : Bool :=
    if 0 ≤ exponent then i.holds (n * tenTo exponent.toNat) 1
    else i.holds n (tenTo (-exponent).toNat)
  match decide (below ≠ 0) && inside below, inside above with
  | true, true => some (roundHalfEven num den)
  | true, false => some below
  | false, true => some above
  | false, false => none

/-- Tries ever finer grids; the `fuel`-th is fine enough for every number. -/
def search (i : Interval) : Nat → Int → Nat × Int
  | 0, exponent => (0, exponent)
  | fuel + 1, exponent =>
    match i.nearest? exponent with
    | some n => (n, exponent)
    | none => search i fuel (exponent - 1)

end Interval

/-- Shortest digits of a positive binary number, and the exponent of the last. -/
def shortest (mantissa : Nat) (exponent : Int) : Nat × Int :=
  let i := Interval.around mantissa exponent
  i.search 19 (leadingExponent i.value i.den + 1)

end Aprs.Decimal
