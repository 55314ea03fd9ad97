import Aprs.Decimal.Rounding

/-!
Numbers with a fixed count of significant digits, one before the point, and a power of ten.
-/

namespace Aprs.Decimal

/-- The digits of a positive quotient rounded to `count` of them, and the exponent of the first.
Rounding up to the next power of ten moves the exponent. -/
def significant (count : Nat) (num den : Nat) : Nat × Int :=
  let exponent := leadingExponent num den
  let (n, d) := shift num den (exponent - (count - 1 : Nat))
  let digits := roundHalfEven n d
  if digits = tenTo count then (tenTo (count - 1), exponent + 1) else (digits, exponent)

/-- There is such a text for every finite number only. -/
def scientific? (count : Nat) (x : Float) : Option (List Char) :=
  match Binary.ofFloat x with
  | .finite negative mantissa exponent =>
    let (digits, power) :=
      if mantissa = 0 then (0, 0)
      else
        let (num, den) := quotient mantissa exponent
        significant count num den
    match padded count digits with
    | first :: others => some (signed negative (first :: '.' :: others ++ 'e' :: intText power))
    | [] => none
  | _ => none

end Aprs.Decimal
