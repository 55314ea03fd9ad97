import Aprs.Binary
import Aprs.Decimal

/-!
Rounding of exact quotients to a decimal grid.
-/

namespace Aprs.Decimal

/-- The nearest whole number to a quotient; halfway between two, the even one. -/
def roundHalfEven (num den : Nat) : Nat :=
  let quotient := num / den
  let twice := 2 * (num % den)
  if twice < den then quotient
  else if den < twice then quotient + 1
  else quotient + quotient % 2

def digitCount (n : Nat) : Nat := (Nat.toDigits 10 n).length

/-- The exponent `e` with `10 ^ e ≤ num / den < 10 ^ (e + 1)`, for positive numbers. -/
def leadingExponent (num den : Nat) : Int :=
  if den ≤ num then (digitCount (num / den) : Int) - 1
  else -(digitCount ((den - 1) / num) : Int)

/-- A quotient divided by a power of ten, as a quotient. -/
def shift (num den : Nat) (exponent : Int) : Nat × Nat :=
  if 0 ≤ exponent then (num, den * tenTo exponent.toNat)
  else (num * tenTo (-exponent).toNat, den)

/-- A binary number as a quotient. -/
def quotient (mantissa : Nat) (exponent : Int) : Nat × Nat :=
  if 0 ≤ exponent then (mantissa <<< exponent.toNat, 1)
  else (mantissa, 1 <<< (-exponent).toNat)

/-- A number as decimal digits, with zeros in front up to `width`. -/
def padded (width : Nat) (n : Nat) : List Char :=
  let digits := Nat.toDigits 10 n
  List.replicate (width - digits.length) '0' ++ digits

def paddedHex (width : Nat) (n : Nat) : List Char :=
  let digits := Nat.toDigits 16 n
  List.replicate (width - digits.length) '0' ++ digits

def signed (negative : Bool) (t : List Char) : List Char := if negative then '-' :: t else t

def intText (i : Int) : List Char := signed (decide (i < 0)) (Nat.toDigits 10 i.natAbs)

end Aprs.Decimal
