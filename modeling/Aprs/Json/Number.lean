import Aprs.Decimal.Shortest
import Aprs.Json

/-!
JSON numbers as integers and as floating-point numbers, and floating-point numbers as JSON.
-/

namespace Aprs

namespace JsonNumber

/-- Digits are gathered while they fit in 64 bits. -/
def limit : Nat := UInt64.size - 1

/-- The digits gathered, and a power of ten by which they are to be multiplied. -/
structure Scan where
  significand : Nat
  exponent : Int
  deriving DecidableEq, Repr

/-- Past the limit, digits before the point only raise the exponent. -/
def scanWhole : Nat → Text → Scan
  | significand, [] => ⟨significand, 0⟩
  | significand, c :: t =>
    let next := 10 * significand + Text.digitValue c
    if limit < next then ⟨significand, (t.length : Int) + 1⟩ else scanWhole next t

/-- Past the limit, digits after the point say nothing. -/
def scanFraction : Scan → Text → Scan
  | s, [] => s
  | s, c :: t =>
    let next := 10 * s.significand + Text.digitValue c
    if limit < next then s else scanFraction ⟨next, s.exponent - 1⟩ t

def powerOfTen (n : Nat) : Float := Float.ofScientific 1 false n

def isZero (x : Float) : Bool :=
  match Binary.ofFloat x with
  | .finite _ 0 _ => true
  | _ => false

def finite? (x : Float) : Option Float := if isFinite x then some x else none

/-- Divides by powers of ten, the largest first, until the exponent is used up or nothing is
left. -/
def scaleDown : Nat → Float → Nat → Float
  | 0, x, _ => x
  | fuel + 1, x, exponent =>
    if exponent ≤ 308 then x / powerOfTen exponent
    else if isZero x then x
    else scaleDown fuel (x / powerOfTen 308) (exponent - 308)

/-- One multiplication, or divisions, by powers of ten. Four divisions leave nothing of any
significand. Numbers beyond the largest have no value. -/
def scaleBy? (x : Float) (exponent : Int) : Option Float :=
  if exponent < 0 then some (scaleDown 4 x exponent.natAbs)
  else if exponent ≤ 308 then finite? (x * powerOfTen exponent.toNat)
  else if isZero x then some x
  else none

def scan (n : JsonNumber) : Scan :=
  let s := scanFraction (scanWhole 0 (Nat.toDigits 10 n.whole)) n.fraction
  ⟨s.significand, s.exponent + n.exponent.getD 0⟩

def toFloat? (n : JsonNumber) : Option Float :=
  let s := n.scan
  (scaleBy? (Float.ofNat s.significand) s.exponent).map fun x => if n.negative then -x else x

/-- Exponents of the first digit from which and up to which no exponent is written. -/
def leastPositional : Int := -5

def greatestPositional : Int := 15

/-- Digits of a whole number times a power of ten. A number without exponent has a digit after the
point. -/
def ofDigits (negative : Bool) (digits : Nat) (exponent : Int) : JsonNumber :=
  let text := Nat.toDigits 10 digits
  let leading := exponent + text.length - 1
  if leading < leastPositional ∨ greatestPositional < leading then
    { negative
      whole := digits / Decimal.tenTo (text.length - 1)
      fraction := text.drop 1
      exponent := some leading }
  else if 0 ≤ exponent then
    { negative, whole := digits * Decimal.tenTo exponent.toNat, fraction := ['0'] }
  else
    let places := (-exponent).toNat
    { negative
      whole := digits / Decimal.tenTo places
      fraction := Decimal.padded places (digits % Decimal.tenTo places) }

/-- The fewest digits that name a finite number. -/
def ofFloat? (x : Float) : Option JsonNumber :=
  match Binary.ofFloat x with
  | .finite negative 0 _ => some (ofDigits negative 0 0)
  | .finite negative mantissa exponent =>
    let (digits, power) := Decimal.shortest mantissa exponent
    some (ofDigits negative digits power)
  | _ => none

end JsonNumber

namespace Json

/-- What is no finite number is written as null. -/
def ofFloat (x : Float) : Json := ofOption number (JsonNumber.ofFloat? x)

def toFloat? : Json → Option Float
  | number n => n.toFloat?
  | _ => none

end Json

end Aprs
