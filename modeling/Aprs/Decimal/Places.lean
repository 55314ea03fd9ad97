import Aprs.Decimal.Rounding

/-!
Numbers with a fixed count of decimal places.
-/

namespace Aprs.Decimal

/-- The exact binary value rounded to `places` digits after the point, a half going to the even
neighbour; the values that are no number have names. -/
def withPlaces (places : Nat) (x : Float) : List Char :=
  match Binary.ofFloat x with
  | .undefined => ['N', 'a', 'N']
  | .infinite negative => signed negative ['i', 'n', 'f']
  | .finite negative mantissa exponent =>
    let (num, den) := quotient mantissa exponent
    let scaled := roundHalfEven (num * tenTo places) den
    signed negative
      (Nat.toDigits 10 (scaled / tenTo places) ++ '.' :: padded places (scaled % tenTo places))

end Aprs.Decimal
