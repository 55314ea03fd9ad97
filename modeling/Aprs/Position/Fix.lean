import Aprs.Extension

/-!
A position as a packet states it.
-/

namespace Aprs

/-- The two ways to write a position, with what only one of them can say. -/
inductive PositionForm where
  /-- How many digits of the minutes are blank. -/
  | uncompressed (ambiguity : Nat)
  /-- Whether the receiver had a current fix. -/
  | compressed (current : Option Bool)
  deriving DecidableEq, Repr

namespace PositionForm

def format : PositionForm → Format
  | uncompressed _ => .uncompressed
  | compressed _ => .compressed

def ambiguity? : PositionForm → Option Nat
  | uncompressed blanks => some blanks
  | compressed _ => none

def current? : PositionForm → Option Bool
  | uncompressed _ => none
  | compressed current => current

end PositionForm

structure Fix where
  form : PositionForm
  latitude : Quantity
  longitude : Quantity
  symbolTable : Char
  symbolCode : Char
  readings : Readings := {}
  deriving DecidableEq, Repr

end Aprs
