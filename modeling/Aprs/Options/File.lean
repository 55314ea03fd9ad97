import Aprs.Options
import Aprs.Toml.Document

/-!
Options from a file.
-/

namespace Aprs.Options

def destinationKey : Text := "disable_destination_callsign_validation".toList

def depthKey : Text := "max_third_party_depth".toList

/-- A count of 64 bits. -/
def toCount? : Toml → Option Nat
  | .integer i => if 0 ≤ i ∧ i < UInt64.size then some i.toNat else none
  | _ => none

def toFlag? : Toml → Option Bool
  | .boolean b => some b
  | _ => none

/-- The value under a key, or another one where the key is not given. -/
def get? (members : Toml.Members) (key : Text) (read : Toml → Option α) (absent : α) : Option α :=
  match members.lookup key with
  | some value => read value
  | none => some absent

/-- Reads the text of a file. Keys without a meaning are left alone. -/
def parse? (t : Text) : Option Options := do
  let members ← Toml.parse? t
  let standard : Options := {}
  return {
    acceptAnyDestination := ← get? members destinationKey toFlag? standard.acceptAnyDestination
    maxThirdPartyDepth := ← get? members depthKey toCount? standard.maxThirdPartyDepth }

end Aprs.Options
