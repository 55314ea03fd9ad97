import Aprs.Calendar
import Aprs.Layout

/-!
Timestamps. None of the forms on the air carries a year, and one carries no date at all, so each is
read against the current instant.
-/

namespace Aprs

/-- A timestamp as received, and the instant it names: zero where its form is unknown or there is no
such date or time. -/
structure Timestamp where
  raw : Text
  epoch : Int
  deriving DecidableEq, Repr, Inhabited

namespace Timestamp

/-- Six digits and the character that tells their form. -/
def layout : Layout := Layout.columns 6 Char.isDigit ++ [(· != '\n')]

/-- The `n`-th pair of digits, counted from zero. -/
def pair (digits : Text) (n : Nat) : Nat := Text.natOfDigits ((digits.drop (2 * n)).take 2)

/-- Form `h` is a time of today; forms `z` and `/` are a day of this month and an hour of it, their
minutes being dropped. -/
def epochOf (now : Int) (digits : Text) (form : Char) : Option Int :=
  let today := Calendar.dateAt now
  match form with
  | 'h' => Calendar.epoch? today (pair digits 0) (pair digits 1) (pair digits 2)
  | 'z' | '/' => Calendar.epoch? { today with day := pair digits 0 } (pair digits 1) 0 0
  | _ => none

/-- Takes the timestamp off the start of a text. -/
def take? (now : Int) (body : Text) : Option (Timestamp × Text) :=
  (layout.take? body).map fun (raw, rest) =>
    (⟨raw, (epochOf now (raw.take 6) (raw.getD 6 ' ')).getD 0⟩, rest)

/-- The instant of month, day, hour and minute in the current year, zero if there is none. -/
def monthDay (now : Int) (digits : Text) : Int :=
  if Layout.fits (Layout.columns 8 Char.isDigit) digits then
    let date := ⟨(Calendar.dateAt now).year, pair digits 0, pair digits 1⟩
    (Calendar.epoch? date (pair digits 2) (pair digits 3) 0).getD 0
  else 0

end Timestamp

end Aprs
