/-!
Options of the decoder.
-/

namespace Aprs

structure Options where
  /-- Servers that relay traffic with destinations outside the callsign grammar need this. -/
  acceptAnyDestination : Bool := false
  /-- How many packets inside one another are unwrapped before a line is rejected. -/
  maxThirdPartyDepth : Nat := 8
  deriving DecidableEq, Repr, Inhabited

end Aprs
