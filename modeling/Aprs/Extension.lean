import Aprs.Layout
import Aprs.Record
import Aprs.Units

/-!
Data extensions: the field that may follow the symbol of a position and tells course and speed,
power, height and gain of the antenna, or a range.
-/

namespace Aprs

/-- What a position report says besides where the station is. -/
structure Readings where
  course : Option Quantity := none
  speed : Option Quantity := none
  altitude : Option Quantity := none
  range : Option Quantity := none
  bearing : Option UInt16 := none
  nrq : Option UInt16 := none
  phg : Option (Phg Quantity) := none
  deriving DecidableEq, Repr, Inhabited

inductive Extension where
  /-- Course and speed in knots as sent, and the bearing and quality of a direction finder. -/
  | courseSpeed (course speed : Text) (finder : Option (Text × Text))
  | phg (digits : Text) (rate : Option Char)
  | range (miles : Nat)
  deriving DecidableEq, Repr

namespace Extension

def courseSpeedLayout : Layout :=
  Layout.columns 3 Text.isDigitOrFiller ++ Layout.exactly '/' ++
    Layout.columns 3 Text.isDigitOrFiller

def finderLayout : Layout := Layout.exactly '/' ++ courseSpeedLayout

/-- The height may run past the digits. -/
def phgLayout : Layout :=
  [(· == 'P'), (· == 'H'), (· == 'G'), Char.isDigit, Text.between '0' '~', Char.isDigit,
    Char.isDigit]

def rateLayout : Layout := [fun c => c.isDigit || c.isUpper, (· == '/')]

def rangeLayout : Layout := [(· == 'R'), (· == 'N'), (· == 'G')] ++ Layout.columns 4 Char.isDigit

def takeCourseSpeed? (t : Text) : Option (Extension × Text) :=
  (courseSpeedLayout.take? t).map fun (field, rest) =>
    let course := field.take 3
    let speed := field.drop 4
    match finderLayout.take? rest with
    | some (finder, rest) =>
      (.courseSpeed course speed (some (Text.slice 1 3 finder, finder.drop 5)), rest)
    | none => (.courseSpeed course speed none, rest)

def takePhg? (t : Text) : Option (Extension × Text) :=
  (phgLayout.take? t).map fun (field, rest) =>
    match rateLayout.take? rest with
    | some (rate, rest) => (.phg (field.drop 3) rate.head?, rest)
    | none => (.phg (field.drop 3) none, rest)

def takeRange? (t : Text) : Option (Extension × Text) :=
  (rangeLayout.take? t).map fun (field, rest) => (.range (Text.natOfDigits (field.drop 3)), rest)

def take? (t : Text) : Option (Extension × Text) :=
  takeCourseSpeed? t <|> takePhg? t <|> takeRange? t

/-- Cuts a data extension off the start of a text. -/
def split (t : Text) : Option Extension × Text :=
  match take? t with
  | some (extension, rest) => (some extension, rest)
  | none => (none, t)

/-- Hexadecimal digits count beacons in an hour; later letters are not in use. -/
def rateOf (c : Char) : Option UInt8 :=
  if c.isDigit then some (Text.digitValue c).toUInt8
  else if Text.between 'A' 'F' c then some (c.toNat - 'A'.toNat + 10).toUInt8
  else none

def directivityOf (c : Char) : Directivity :=
  match Text.digitValue c with
  | 0 => .omni
  | 9 => .invalid
  | d => .degrees (45 * d).toUInt16

/-- The first digit is the root of the power, the second counts doublings of ten feet, the third is
the gain in decibels, the fourth a direction in eighths of a circle. -/
def describe (digits : Text) (rate : Option Char) : Phg Quantity :=
  let digit (i : Nat) : Nat := Text.digitValue (digits.getD i '0')
  let power := .ofNat (digit 0 * digit 0)
  let height := Quantity.metresOfFeet (10 * .power 2 (digit 1))
  let gain := .decibels (Fin.ofNat 10 (digit 2))
  let reach := .sqrt (2 * (height / .scaled 3048 4) * .sqrt (power / 10 * (gain / 2)))
  { raw := digits ++ rate.toList
    power
    height
    gain
    directivity := directivityOf (digits.getD 3 '0')
    range := reach * .scaled 160934 5
    rate := rate.bind rateOf }

end Extension

namespace Readings

/-- Three zeros stand for no course, and a course beyond the circle clears an earlier one. -/
def withCourse (course : Text) (r : Readings) : Readings :=
  match Text.nat? course with
  | some n =>
    if course = ['0', '0', '0'] then r
    else if 1 ≤ n ∧ n ≤ 360 then { r with course := some (.ofNat n) }
    else { r with course := none }
  | none => r

def withSpeed (speed : Text) (r : Readings) : Readings :=
  match Text.nat? speed with
  | some n =>
    if speed = ['0', '0', '0'] then r else { r with speed := some (Quantity.ofKnots (.ofNat n)) }
  | none => r

/-- A direction finder that stands still has the course 000. -/
def withFinder (course : Text) (finder : Option (Text × Text)) (r : Readings) : Readings :=
  match finder with
  | some (bearing, nrq) =>
    { r with
      course := if course = ['0', '0', '0'] then some 0 else r.course
      bearing := (Text.nat? bearing).map Nat.toUInt16
      nrq := (Text.nat? nrq).map Nat.toUInt16 }
  | none => r

def apply (r : Readings) : Extension → Readings
  | .courseSpeed course speed finder =>
    ((r.withCourse course).withSpeed speed).withFinder course finder
  | .phg digits rate => { r with phg := some (Extension.describe digits rate) }
  | .range miles => { r with range := some (Quantity.kilometresOfMiles (.ofNat miles)) }

end Readings

end Aprs
