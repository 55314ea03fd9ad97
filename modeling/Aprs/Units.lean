import Aprs.Quantity

/-!
The units in which stations send quantities, turned into metric ones.
-/

namespace Aprs.Quantity

def metresOfFeet (q : Quantity) : Quantity := q * scaled 3048 4

/-- Kilometres in an hour. -/
def ofKnots (q : Quantity) : Quantity := q * scaled 1852 3

def kilometresOfMiles (q : Quantity) : Quantity := q * scaled 1609344 6

/-- Degrees and minutes of an arc. -/
def ofDegreesMinutes (degrees minutes : Quantity) : Quantity := degrees + minutes / 60

def negIf (negative : Bool) (q : Quantity) : Quantity := if negative then -q else q

end Aprs.Quantity
