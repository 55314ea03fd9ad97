import Aprs.Binary
import Aprs.Decimal

/-!
Measured quantities, kept as the formulas that give them. A formula can be worked out exactly or in
floating-point arithmetic, one rounded operation after the other in the order in which it is
written.
-/

namespace Aprs

inductive Quantity where
  | decimal (value : Decimal)
  | neg (a : Quantity)
  | add (a b : Quantity)
  | sub (a b : Quantity)
  | mul (a b : Quantity)
  | div (a b : Quantity)
  | power (base : Quantity) (exponent : Int)
  | sqrt (a : Quantity)
  /-- The ratio of two powers that are so many decibels apart. -/
  | decibels (count : Fin 10)
  /-- A number moved away from zero by an offset. -/
  | outward (a offset : Quantity)
  deriving DecidableEq, Repr, Inhabited

namespace Quantity

instance : Neg Quantity := ⟨neg⟩
instance : Add Quantity := ⟨add⟩
instance : Sub Quantity := ⟨sub⟩
instance : Mul Quantity := ⟨mul⟩
instance : Div Quantity := ⟨div⟩

def ofNat (n : Nat) : Quantity := decimal (.ofNat n)

def ofInt (i : Int) : Quantity := decimal (.ofInt i)

/-- The number `digits / 10 ^ places`. -/
def scaled (digits places : Nat) : Quantity := decimal ⟨false, digits, places⟩

instance : OfNat Quantity n := ⟨ofNat n⟩

/-- Powers by repeated squaring, least significant bit of the exponent first. -/
def floatPower (product square : Float) (exponent : Nat) : Float :=
  let product := if exponent % 2 = 1 then product * square else product
  if exponent / 2 = 0 then product else floatPower product (square * square) (exponent / 2)
termination_by exponent
decreasing_by omega

/-- Ratios for whole decibels, as powers of ten whose exponent is a rounded tenth. -/
def ratios : Vector Float 10 :=
  #v[1.0, 1.2589254117941673, 1.5848931924611136, 1.9952623149688795, 2.51188643150958,
    3.1622776601683795, 3.9810717055349722, 5.011872336272722, 6.309573444801933,
    7.943282347242816]

def toFloat : Quantity → Float
  | decimal d => d.toFloat
  | neg a => -a.toFloat
  | add a b => a.toFloat + b.toFloat
  | sub a b => a.toFloat - b.toFloat
  | mul a b => a.toFloat * b.toFloat
  | div a b => a.toFloat / b.toFloat
  | power base exponent =>
    let p := floatPower 1.0 base.toFloat exponent.natAbs
    if exponent < 0 then 1.0 / p else p
  | sqrt a => a.toFloat.sqrt
  | decibels count => ratios[count]
  | outward a offset =>
    let x := a.toFloat
    if isNegative x then x + -offset.toFloat else x + offset.toFloat

/-- The exact value; roots and decibels have none in general. -/
def toRat? : Quantity → Option Rat
  | decimal d => some d.toRat
  | neg a => do return -(← a.toRat?)
  | add a b => do return (← a.toRat?) + (← b.toRat?)
  | sub a b => do return (← a.toRat?) - (← b.toRat?)
  | mul a b => do return (← a.toRat?) * (← b.toRat?)
  | div a b => do return (← a.toRat?) / (← b.toRat?)
  | power base exponent => do
    let p := (← base.toRat?).pow exponent.natAbs
    return if exponent < 0 then 1 / p else p
  | sqrt _ => none
  | decibels _ => none
  | outward a offset => do
    let x ← a.toRat?
    let d ← offset.toRat?
    return if x < 0 then x - d else x + d

end Quantity

end Aprs
