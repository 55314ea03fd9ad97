import Aprs.Text

/-!
Decimal numerals as stations write them: an optional minus sign, digits, and an optional point that
has digits after it.
-/

namespace Aprs

/-- The number `digits / 10 ^ places`, with the sign kept apart so that zero has one too. -/
structure Decimal where
  negative : Bool
  digits : Nat
  places : Nat
  deriving DecidableEq, Repr, Inhabited

namespace Decimal

def tenTo (n : Nat) : Nat := Nat.pow 10 n

def ofNat (n : Nat) : Decimal := ⟨false, n, 0⟩

def ofInt (i : Int) : Decimal := ⟨decide (i < 0), i.natAbs, 0⟩

def parseUnsigned? (negative : Bool) (t : Text) : Option Decimal :=
  let whole := t.takeWhile Char.isDigit
  match t.dropWhile Char.isDigit with
  | [] => if whole = [] then none else some ⟨negative, Text.natOfDigits whole, 0⟩
  | '.' :: fraction =>
    if fraction ≠ [] ∧ fraction.all Char.isDigit then
      some ⟨negative, Text.natOfDigits (whole ++ fraction), fraction.length⟩
    else none
  | _ => none

/-- Digits are needed after a point, but none before it. -/
def parse? : Text → Option Decimal
  | '-' :: t => parseUnsigned? true t
  | t => parseUnsigned? false t

/-- The nearest binary number, infinite beyond the largest. -/
def toFloat (d : Decimal) : Float :=
  let magnitude := Float.ofScientific d.digits true d.places
  if d.negative then -magnitude else magnitude

def toRat (d : Decimal) : Rat :=
  let magnitude := (d.digits : Rat) / (tenTo d.places : Rat)
  if d.negative then -magnitude else magnitude

end Decimal

end Aprs
