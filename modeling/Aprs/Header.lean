import Aprs.Callsign
import Aprs.Error
import Aprs.Options
import Aprs.Text.Blank

/-!
The header of a line: the source, the destination and the stations that the packet passed.
-/

namespace Aprs

structure Header where
  source : Text
  destination : Text
  path : List Text
  deriving DecidableEq, Repr, Inhabited

namespace Header

/-- Servers leave blank elements in the path, which count for nothing. -/
def decodePath (elements : List Text) : Except HeaderError (List Text) :=
  let path := elements.filter fun element => !Text.allBlank element
  if path.all Callsign.isPathElement then .ok path else .error .invalidPath

def acceptsDestination (options : Options) (destination : Text) : Bool :=
  options.acceptAnyDestination || Callsign.isStation destination

/-- Reads the source up to the first `>`, then the destination and the path, divided by commas. -/
def decode (options : Options) (head : Text) : Except HeaderError Header :=
  match Text.splitFirst? '>' head with
  | none => .error .missingSeparator
  | some (source, route) =>
    if !Callsign.isSource source then .error .invalidSource
    else
      match route.splitOn ',' with
      | [] | [] :: _ => .error .missingDestination
      | destination :: elements =>
        if !acceptsDestination options destination then .error .invalidDestination
        else (decodePath elements).map fun path => ⟨source, destination, path⟩

end Header

end Aprs
