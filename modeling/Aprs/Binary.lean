/-!
The exact value of a floating-point number.
-/

namespace Aprs

/-- A number `mantissa * 2 ^ exponent` with its sign, or one of the values that are no number. -/
inductive Binary where
  | finite (negative : Bool) (mantissa : Nat) (exponent : Int)
  | infinite (negative : Bool)
  | undefined
  deriving DecidableEq, Repr

namespace Binary

/-- The weight of the one before the fraction of a normal number: two to the power of 52. -/
def leadingOne : Nat := 0x10000000000000

/-- Bit 63 is the sign, the next eleven are the exponent and the last 52 the fraction, before which
a normal number has an unwritten one. -/
def ofFloat (x : Float) : Binary :=
  let bits := x.toBits.toNat
  let negative := decide (bits / 0x8000000000000000 = 1)
  let exponent : Nat := bits / leadingOne % 2048
  let fraction : Nat := bits % leadingOne
  if exponent = 2047 then if fraction = 0 then infinite negative else undefined
  else if exponent = 0 then finite negative fraction (-1074)
  else finite negative (leadingOne + fraction) (Int.ofNat exponent - 1075)

end Binary

def isFinite (x : Float) : Bool :=
  match Binary.ofFloat x with
  | .finite .. => true
  | _ => false

/-- The sign of a number, which also zero has. -/
def isNegative (x : Float) : Bool :=
  match Binary.ofFloat x with
  | .finite negative .. | .infinite negative => negative
  | .undefined => false

end Aprs
