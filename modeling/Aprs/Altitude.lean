import Aprs.Layout
import Aprs.Units

/-!
The altitude tag that may stand anywhere in a comment: feet in six columns, the first of which may
be a minus sign.
-/

namespace Aprs.Altitude

def opening : Layout := [(· == '/'), (· == 'A'), (· == '=')]

def below : Layout := opening ++ Layout.exactly '-' ++ Layout.columns 5 Char.isDigit

def above : Layout := opening ++ Layout.columns 6 Char.isDigit

/-- Feet of the tag at the start of a text. -/
def take? (t : Text) : Option (Int × Text) :=
  match below.take? t with
  | some (field, rest) => some (-(Text.natOfDigits (field.drop 4) : Int), rest)
  | none => (above.take? t).map fun (field, rest) => (Text.natOfDigits (field.drop 3), rest)

/-- Takes the first altitude out of a text of one line. -/
def split (t : Text) : Option Int × Text :=
  if Text.isSingleLine t then
    match Text.leftmost? take? t with
    | some (before, feet, after) => (some feet, before ++ after)
    | none => (none, t)
  else (none, t)

def metres (feet : Int) : Quantity := Quantity.metresOfFeet (.ofInt feet)

end Aprs.Altitude
