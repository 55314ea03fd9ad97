import Aprs.Text.Quoted

/-!
Why a packet is rejected. Each rejection has one cause, a kind under which it is counted, and a
message.
-/

namespace Aprs

inductive HeaderError where
  | missingSeparator
  | invalidSource
  | missingDestination
  | invalidDestination
  | invalidPath
  deriving DecidableEq, Repr

namespace HeaderError

def message : HeaderError → String
  | missingSeparator => "missing '>' between source and destination"
  | invalidSource => "source callsign is invalid"
  | missingDestination => "no destination callsign in header"
  | invalidDestination => "destination callsign is invalid"
  | invalidPath => "invalid callsign in path"

end HeaderError

inductive PositionError where
  | ambiguityMismatch
  | latitudeOutOfRange
  | longitudeOutOfRange
  | invalidLatitudeMinutes
  | invalidLongitudeMinutes
  deriving DecidableEq, Repr

namespace PositionError

def message : PositionError → String
  | ambiguityMismatch => "latitude and longitude ambiguity mismatch"
  | latitudeOutOfRange => "latitude is out of range (0-89 degrees)"
  | longitudeOutOfRange => "longitude is out of range (0-179 degrees)"
  | invalidLatitudeMinutes => "invalid latitude minutes"
  | invalidLongitudeMinutes => "invalid longitude minutes"

end PositionError

inductive MicEError where
  | destinationLength
  | invalidDestination
  | bodyTooShort
  | invalidBody
  | invalidAmbiguity
  | unsupportedAmbiguity (blanks : Nat)
  | invalidTelemetryHex
  deriving DecidableEq, Repr

namespace MicEError

def message : MicEError → String
  | destinationLength => "destination callsign has to be 6 characters"
  | invalidDestination => "destination callsign is not a Mic-E destination"
  | bodyTooShort => "information field is too short"
  | invalidBody => "information field does not match the Mic-E layout"
  | invalidAmbiguity => "invalid latitude ambiguity"
  | unsupportedAmbiguity blanks => "unsupported position ambiguity: " ++ toString blanks
  | invalidTelemetryHex => "invalid telemetry hex data"

end MicEError

/-- The four kinds of messages that define telemetry channels. -/
inductive DefinitionKind where
  | parm
  | unit
  | eqns
  | bits
  deriving DecidableEq, Repr

namespace DefinitionKind

def tag : DefinitionKind → String
  | parm => "PARM"
  | unit => "UNIT"
  | eqns => "EQNS"
  | bits => "BITS"

def all : List DefinitionKind := [parm, unit, eqns, bits]

end DefinitionKind

inductive DefinitionError where
  | nameTooLong (kind : DefinitionKind)
  /-- Values are counted from one. -/
  | notANumber (place : Nat)
  | invalidBits
  deriving DecidableEq, Repr

namespace DefinitionError

def message : DefinitionError → String
  | nameTooLong kind => "incorrect format of " ++ kind.tag ++ " (name too long?)"
  | notANumber place => "value at " ++ toString place ++ " is not a number in EQNS"
  | invalidBits => "incorrect format of BITS (title too long?)"

end DefinitionError

inductive DecodeError where
  | emptyPacket
  | missingBody
  | emptyBody
  | invalidHeader (cause : HeaderError)
  | unsupportedFormat (discriminator : Char) (description : String)
  | invalidPosition (cause : PositionError)
  | invalidObject
  | invalidTimestamp
  | invalidCompressed
  | invalidMicE (cause : MicEError)
  | invalidWeather
  | invalidTelemetryConfig (cause : DefinitionError)
  | invalidBase91 (character : Char)
  | thirdPartyTooDeep (levels : Nat)
  deriving DecidableEq, Repr

namespace DecodeError

/-- The label of a rejection in counts. -/
def kind : DecodeError → String
  | emptyPacket => "empty_packet"
  | missingBody => "missing_body"
  | emptyBody => "empty_body"
  | invalidHeader _ => "invalid_header"
  | unsupportedFormat .. => "unsupported_format"
  | invalidPosition _ => "invalid_position"
  | invalidObject => "invalid_object"
  | invalidTimestamp => "invalid_timestamp"
  | invalidCompressed => "invalid_compressed"
  | invalidMicE _ => "invalid_mic_e"
  | invalidWeather => "invalid_weather"
  | invalidTelemetryConfig _ => "invalid_telemetry_config"
  | invalidBase91 _ => "invalid_base91"
  | thirdPartyTooDeep _ => "third_party_too_deep"

def message : DecodeError → String
  | emptyPacket => "packet is empty"
  | missingBody => "packet has no body"
  | emptyBody => "packet body is empty after packet type character"
  | invalidHeader cause => "invalid packet header: " ++ cause.message
  | unsupportedFormat c description =>
    "packet type '" ++ c.toString ++ "' (" ++ description ++ ") is unsupported"
  | invalidPosition cause => "invalid position: " ++ cause.message
  | invalidObject => "invalid object format"
  | invalidTimestamp => "invalid timestamp format"
  | invalidCompressed => "invalid compressed format"
  | invalidMicE cause => "invalid Mic-E packet: " ++ cause.message
  | invalidWeather => "invalid positionless weather report format"
  | invalidTelemetryConfig cause => "invalid telemetry definition: " ++ cause.message
  | invalidBase91 c => "invalid base91 character " ++ String.ofList (Text.quoteChar c)
  | thirdPartyTooDeep levels =>
    "third-party packet nested deeper than " ++ toString levels ++ " levels"

end DecodeError

end Aprs
