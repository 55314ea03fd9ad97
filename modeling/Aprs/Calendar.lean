/-!
The proleptic Gregorian calendar: days and seconds since the first instant of 1970, for years on
both sides of it.
-/

namespace Aprs

structure Date where
  year : Int
  month : Nat
  day : Nat
  deriving DecidableEq, Repr, Inhabited

namespace Calendar

def isLeap (year : Int) : Bool := year % 4 == 0 && (year % 100 != 0 || year % 400 == 0)

/-- Lengths of the twelve months, in order. -/
def monthLengths (year : Int) : List Nat :=
  [31, if isLeap year then 29 else 28, 31, 30, 31, 30, 31, 31, 30, 31, 30, 31]

/-- Zero for what is no month. -/
def monthLength (year : Int) (month : Nat) : Nat :=
  if month = 0 then 0 else (monthLengths year).getD (month - 1) 0

def daysBeforeMonth (year : Int) (month : Nat) : Nat :=
  ((monthLengths year).take (month - 1)).foldr (· + ·) 0

/-- Days from the first day of year 1 to the first day of `year`. -/
def daysBeforeYear (year : Int) : Int :=
  let y := year - 1
  365 * y + y / 4 - y / 100 + y / 400

/-- The days from the first day of year 1 to the first day of 1970. -/
def epochOffset : Int := 719162

/-- Finds the month in which a day of the year falls, counted from zero, and the day in it. -/
def monthOf : List Nat → Nat → Nat → Nat × Nat
  | [], month, day => (month, day)
  | length :: lengths, month, day =>
    if day < length then (month, day) else monthOf lengths (month + 1) (day - length)

end Calendar

namespace Date

open Calendar

def isValid (d : Date) : Bool := decide (1 ≤ d.day) && decide (d.day ≤ monthLength d.year d.month)

/-- Days since the first day of 1970. -/
def epochDay (d : Date) : Int :=
  daysBeforeYear d.year + daysBeforeMonth d.year d.month + (d.day : Int) - 1 - epochOffset

/-- The day `n` days after the first day of 1970. Cycles of four hundred years have the same number
of days; in one, the centuries, the spans of four years and the years follow by division, and only
the last century of the four and the last year of the span are a day longer. -/
def ofEpochDay (n : Int) : Date :=
  let day := n + epochOffset
  let cycle := day / 146097
  let inCycle := (day % 146097).toNat
  let century := min (inCycle / 36524) 3
  let inCentury := inCycle - 36524 * century
  let span := inCentury / 1461
  let inSpan := inCentury % 1461
  let yearInSpan := min (inSpan / 365) 3
  let year := 400 * cycle + (100 * century + 4 * span + yearInSpan + 1 : Nat)
  let (month, dayInMonth) := monthOf (monthLengths year) 0 (inSpan - 365 * yearInSpan)
  ⟨year, month + 1, dayInMonth + 1⟩

end Date

namespace Calendar

def secondsPerDay : Int := 86400

/-- The date of an instant given in seconds since the first instant of 1970. -/
def dateAt (now : Int) : Date := Date.ofEpochDay (now / secondsPerDay)

/-- The instant of a date and a time of day, if both exist. -/
def epoch? (date : Date) (hour minute second : Nat) : Option Int :=
  if date.isValid ∧ hour < 24 ∧ minute < 60 ∧ second < 60 then
    some (secondsPerDay * date.epochDay + (3600 * hour + 60 * minute + second : Nat))
  else none

end Calendar

end Aprs
