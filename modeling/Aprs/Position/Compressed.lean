import Aprs.Base91
import Aprs.Error
import Aprs.Position.Fix

/-!
Positions in thirteen characters: symbol table, two base-91 coordinates, symbol code, and three
characters for course and speed, an altitude or a range.
-/

namespace Aprs.Compressed

def isAscii (c : Char) : Bool := decide (c.toNat < 128)

def layout : Layout := Layout.columns 13 isAscii

/-- A character less 33, which is below zero for controls and space. -/
def offset (c : Char) : Int := (c.toNat : Int) - 33

/-- Bit `n` of a number in two's complement. -/
def bit (n : Nat) (i : Int) : Bool := (i >>> n) % 2 == 1

/-- A space as first of the last three characters says that there is nothing more than the status of
the fix. -/
def fixStatus (c kind : Int) : Option Bool := if c = -1 then some (bit 5 kind) else none

/-- The kind tells an altitude from the rest, which the first character divides into course with
speed, and range. -/
def readings (c s kind : Int) : Readings :=
  if c = -1 ∨ s = -1 then {}
  else if bit 4 kind && !bit 3 kind then
    { altitude := some (Quantity.metresOfFeet (.power (.scaled 1002 3) (c * 91 + s))) }
  else if 0 ≤ c ∧ c ≤ 89 then
    { course := some (if c = 0 then 360 else .ofInt (c * 4))
      speed := some (Quantity.ofKnots (.power (.scaled 108 2) s - 1)) }
  else if c = 90 then
    { range := some (Quantity.kilometresOfMiles (2 * .power (.scaled 108 2) s)) }
  else {}

def latitude (n : Nat) : Quantity := 90 - .ofNat n / .ofNat 380926

def longitude (n : Nat) : Quantity := -.ofNat 180 + .ofNat n / .ofNat 190463

def number (t : Text) : Except DecodeError Nat := (Base91.decode t).mapError .invalidBase91

def decode (body : Text) : Except DecodeError (Fix × Text) :=
  match layout.take? body with
  | none => .error .invalidCompressed
  | some (block, rest) => do
    let north ← number (Text.slice 1 4 block)
    let east ← number (Text.slice 5 4 block)
    let c := offset (block.getD 10 ' ')
    let s := offset (block.getD 11 ' ')
    let kind := offset (block.getD 12 ' ')
    return (
      { form := .compressed (fixStatus c kind)
        latitude := latitude north
        longitude := longitude east
        symbolTable := block.getD 0 ' '
        symbolCode := block.getD 9 ' '
        readings := readings c s kind }, rest)

end Aprs.Compressed
