import Aprs.Report

/-!
Lines: a header, a colon and a body. A body can be a whole line again, which a station forwards for
a third party; such lines are unwrapped to a limited depth.
-/

namespace Aprs

/-- A rejected line and the cause. -/
structure Failure where
  raw : Text
  error : DecodeError
  deriving DecidableEq, Repr

namespace Failure

/-- Of a rejected line nothing but its text is kept. -/
def record (failure : Failure) : Record Quantity := { raw := failure.raw }

end Failure

namespace Line

def isLineEnd (c : Char) : Bool := c == '\r' || c == '\n'

/-- The bytes of the typographic quote read as other characters. -/
def garbledQuote : Text := ['\u00e2', '\u20ac', '\u02dc']

/-- The type of a body and its content. -/
def splitType? (body : Text) : Option (Char × Text) :=
  match Text.dropPrefix? garbledQuote body with
  | some rest => some (Report.typographicQuote, rest)
  | none =>
    match body with
    | type :: rest => some (type, rest)
    | [] => none

/-- Only a status may be empty. -/
def checkType (type : Char) (body : Text) : Except DecodeError Unit :=
  if body.isEmpty && type != '>' then .error .emptyBody
  else
    match Report.unsupported.lookup type with
    | some description => .error (.unsupportedFormat type description)
    | none => .ok ()

/-- A line cut into its header, the type of its body and the content of it. -/
def split (options : Options) (line : Text) : Except DecodeError (Header × Char × Text) :=
  if line.isEmpty then .error .emptyPacket
  else
    match Text.splitFirst? ':' (Text.trim isLineEnd line) with
    | none => .error .missingBody
    | some (head, body) => do
      let header ← (Header.decode options head).mapError .invalidHeader
      match splitType? body with
      | none => .error .emptyBody
      | some (type, content) =>
        checkType type content
        return (header, type, content)

def blankRecord (line : Text) (header : Header) : Record Quantity :=
  { raw := line
    source := header.source
    destination := header.destination
    path := header.path }

/-- Decodes a line in which packets may be forwarded through so many more levels. -/
def decodeWithin (options : Options) (now : Int) : Nat → Text →
    Except DecodeError (Packet Quantity)
  | levels, line => do
    let (header, type, content) ← split options line
    let record := blankRecord line header
    if type = '\x7d' then
      match levels with
      | 0 => .error (.thirdPartyTooDeep options.maxThirdPartyDepth)
      | levels + 1 =>
        let inner ← decodeWithin options now levels content
        return .forwarding { record with format := some .thirdParty } inner
    else
      let report ← Report.decode now header.destination type content
      return .plain (record.withReport report)

end Line

/-- Decodes one line at an instant, which completes the timestamps in it. -/
def decode (options : Options) (now : Int) (line : Text) : Except Failure (Packet Quantity) :=
  (Line.decodeWithin options now options.maxThirdPartyDepth line).mapError fun error =>
    ⟨line, error⟩

end Aprs
