import Aprs.Base91
import Aprs.Comment
import Aprs.Error

/-!
Mic-E reports, which pack a position into very few characters: latitude, a message and the
hemispheres into the destination, and longitude, speed, course and symbol into the body.
-/

namespace Aprs

/-- A message bit is zero, or one in the standard or in a custom table. -/
inductive MessageBit where
  | zero
  | standard
  | custom
  deriving DecidableEq, Repr, Inhabited

namespace MessageBit

def ofChar (c : Char) : MessageBit :=
  if c.isDigit || c == 'L' then zero else if Text.between 'P' 'Z' c then standard else custom

def digit : MessageBit → Char
  | zero => '0'
  | standard => '1'
  | custom => '2'

/-- A bit without the table that it is taken from. -/
def folded : MessageBit → MessageBit
  | zero => zero
  | standard => standard
  | custom => standard

end MessageBit

/-- The three message bits of a report. -/
structure MessageBits where
  first : MessageBit
  second : MessageBit
  third : MessageBit
  deriving DecidableEq, Repr, Inhabited

namespace MessageBits

def text (bits : MessageBits) : Text := [bits.first.digit, bits.second.digit, bits.third.digit]

def isCustom (bits : MessageBits) : Bool :=
  bits.first == .custom || bits.second == .custom || bits.third == .custom

/-- Meanings of the bits when none of them is custom. -/
def standardMessages : List (Text × String) :=
  [(['1', '1', '1'], "M0: Off Duty"), (['1', '1', '0'], "M1: En Route"),
    (['1', '0', '1'], "M2: In Service"), (['1', '0', '0'], "M3: Returning"),
    (['0', '1', '1'], "M4: Committed"), (['0', '1', '0'], "M5: Special"),
    (['0', '0', '1'], "M6: Priority"), (['0', '0', '0'], "Emergency")]

def customMessages : List (Text × String) :=
  [(['1', '1', '1'], "C0: Custom-0"), (['1', '1', '0'], "C1: Custom-1"),
    (['1', '0', '1'], "C2: Custom-2"), (['1', '0', '0'], "C3: Custom-3"),
    (['0', '1', '1'], "C4: Custom-4"), (['0', '1', '0'], "C5: Custom-5"),
    (['0', '0', '1'], "C6: Custom-6"), (['0', '0', '0'], "Emergency")]

def folded (bits : MessageBits) : MessageBits :=
  ⟨bits.first.folded, bits.second.folded, bits.third.folded⟩

/-- One custom bit is enough for the custom table, in which it counts as a one. -/
def message? (bits : MessageBits) : Option String :=
  if bits.isCustom then customMessages.lookup bits.folded.text
  else standardMessages.lookup bits.text

/-- The tables have a place for all bits. -/
theorem message?_isSome (bits : MessageBits) : bits.message?.isSome = true := by
  obtain ⟨first, second, third⟩ := bits
  cases first <;> cases second <;> cases third <;> decide

end MessageBits

structure MicE where
  latitude : Quantity
  longitude : Quantity
  ambiguity : Nat
  symbolTable : Char
  symbolCode : Char
  bits : MessageBits
  speed : Quantity
  course : Quantity
  channels : Option (List UInt8)
  altitude : Option Quantity
  telemetry : Option Telemetry
  dao : Option Dao
  comment : Text
  deriving DecidableEq, Repr

namespace MicE

def destinationLayout : Layout :=
  Layout.columns 3 (fun c => c.isDigit || c.isUpper) ++
    Layout.columns 3 (fun c => c.isDigit || Text.between 'L' 'Z' c)

def bodyLayout : Layout :=
  [Text.between '&' '\x7f', Text.between '&' 'a', Text.between '\x1c' '\x7f',
    Text.between '\x1c' '\x7f', Text.between '\x1c' '\x7d', Text.between '\x1c' '\x7f',
    Text.between '!' '~', Text.isSymbolTable]

/-- The digit that a character of the destination stands for, or a blank. -/
def latitudeDigit (c : Char) : Char :=
  if c = 'K' ∨ c = 'L' ∨ c = 'Z' then ' '
  else if 'L' < c then Char.ofNat (c.toNat - 32)
  else if '9' < c then Char.ofNat (c.toNat - 17)
  else c

/-- How many blanks follow the digits; there have to be digits, and nothing after the blanks. -/
def ambiguity? (digits : Text) : Option Nat :=
  let blanks := digits.dropWhile Char.isDigit
  if digits.takeWhile Char.isDigit ≠ [] ∧ blanks.all Text.isSpace then some blanks.length else none

/-- Blank digits become the middle of what they hide: tens of minutes count to six, so a three, and
other digits to ten, so a five. Later blanks become zero. -/
def fillBlanks (digits : Text) (ambiguity : Nat) : Text :=
  let marked :=
    if 4 ≤ ambiguity then digits.set 2 '3'
    else if 0 < ambiguity then digits.set (6 - ambiguity) '5'
    else digits
  marked.map fun c => if c = ' ' then '0' else c

/-- The latitude without its sign, and the ambiguity. -/
def decodeLatitude (destination : Text) : Except MicEError (Quantity × Nat) :=
  let digits := destination.map latitudeDigit
  match ambiguity? digits with
  | none => .error .invalidAmbiguity
  | some ambiguity =>
    if 4 < ambiguity then .error (.unsupportedAmbiguity ambiguity)
    else
      let filled := fillBlanks digits ambiguity
      match Decimal.parse? (Text.slice 2 2 filled ++ '.' :: Text.slice 4 2 filled),
          Decimal.parse? (Text.slice 0 2 filled) with
      | some minutes, some degrees =>
        .ok (.ofDegreesMinutes (.decimal degrees) (.decimal minutes), ambiguity)
      | _, _ => .error .invalidAmbiguity

/-- Characters of the body count from 28. -/
def count (c : Char) : Nat := c.toNat - 28

/-- Whole degrees. With the offset of one hundred, the places that no longitude needs stand for
degrees from 100 and below 10. -/
def longitudeDegrees (c : Char) (offset : Bool) : Nat :=
  let d := count c + if offset then 100 else 0
  if 180 ≤ d ∧ d ≤ 189 then d - 80 else if 190 ≤ d ∧ d ≤ 199 then d - 190 else d

/-- Whole minutes; those below ten are sent with sixty added. -/
def longitudeMinutes (c : Char) : Nat := if 60 ≤ count c then count c - 60 else count c

/-- Minutes and hundredths, or the middle of what an ambiguity hides of them. -/
def centre (minutes hundredths ambiguity : Nat) : Quantity :=
  let half := Quantity.scaled 5 1
  match ambiguity with
  | 4 => 30
  | 3 => (.ofNat (minutes / 10) + half) * 10
  | 2 => .ofNat minutes + half
  | 1 => (.ofNat (10 * minutes + hundredths / 10) + half) / 10
  | _ => .ofNat minutes + .ofNat hundredths / 100

/-- The longitude without its sign. -/
def decodeLongitude (body : Text) (offset : Bool) (ambiguity : Nat) : Quantity :=
  let minutes := longitudeMinutes (body.getD 1 ' ')
  .ofDegreesMinutes (.ofNat (longitudeDegrees (body.getD 0 ' ') offset))
    (centre minutes (count (body.getD 2 ' ')) ambiguity)

def wrap (bound n : Nat) : Nat := if bound ≤ n then n - bound else n

/-- Units of the speed and hundreds of the course share a character. -/
def knots (body : Text) : Nat :=
  wrap 800 (count (body.getD 3 ' ') * 10 + count (body.getD 4 ' ') / 10)

def degrees (body : Text) : Nat :=
  wrap 400 (count (body.getD 4 ' ') % 10 * 100 + count (body.getD 5 ' '))

def isHexDigit (c : Char) : Bool := c.isDigit || Text.between 'a' 'f' c

/-- Bytes of two hexadecimal digits each. -/
def hexBytes? : Text → Option (List UInt8)
  | [] => some []
  | [_] => none
  | a :: b :: t => do
    let high ← Text.hexDigit? a
    let low ← Text.hexDigit? b
    let bytes ← hexBytes? t
    return (16 * high + low).toUInt8 :: bytes

/-- Five channels after an apostrophe or two after a backquote. -/
def channelLayouts : List Layout :=
  [Layout.exactly '\'' ++ Layout.columns 10 isHexDigit,
    Layout.exactly '\u0060' ++ Layout.columns 4 isHexDigit]

def splitChannels (t : Text) : Except MicEError (Option (List UInt8) × Text) :=
  match channelLayouts.findSome? fun layout => layout.take? t with
  | none => .ok (none, t)
  | some (field, rest) =>
    match hexBytes? (field.drop 1) with
    | some channels => .ok (some channels, rest)
    | none => .error .invalidTelemetryHex

def altitudeLayout : Layout := Layout.columns 3 Base91.isDigit ++ Layout.exactly '\x7d'

/-- Takes the last altitude out of a text of one line: metres above ten thousand below the sea. -/
def splitAltitude (t : Text) : Except DecodeError (Option Quantity × Text) :=
  if Text.isSingleLine t then
    match Text.rightmost? altitudeLayout.take? t with
    | none => .ok (none, t)
    | some (before, field, after) =>
      match Base91.decode (field.take 3) with
      | .ok n => .ok (some (.ofNat n - 10000), before ++ after)
      | .error c => .error (.invalidBase91 c)
  else .ok (none, t)

/-- Checks the lengths and layouts of both parts. -/
def check (destination body : Text) : Except MicEError Unit :=
  if destination.byteLength ≠ 6 then .error .destinationLength
  else if body.byteLength < 8 then .error .bodyTooShort
  else if !destinationLayout.fits destination then .error .invalidDestination
  else if (bodyLayout.take? body).isNone then .error .invalidBody
  else .ok ()

def bitsOf (destination : Text) : MessageBits :=
  ⟨.ofChar (destination.getD 0 ' '), .ofChar (destination.getD 1 ' '),
    .ofChar (destination.getD 2 ' ')⟩

/-- The last three characters of the destination tell north, the offset of the longitude and west by
being letters from `P` on. -/
def isFlagged (destination : Text) (place : Nat) : Bool :=
  decide ('P' ≤ destination.getD place ' ')

/-- The identifier of the destination says nothing. -/
def decode (destination body : Text) : Except DecodeError MicE := do
  let destination := Text.upTo '-' destination
  (check destination body).mapError .invalidMicE
  let (latitude, ambiguity) ← (decodeLatitude destination).mapError .invalidMicE
  let longitude := decodeLongitude body (isFlagged destination 4) ambiguity
  let (channels, rest) ← (splitChannels (body.drop 8)).mapError .invalidMicE
  let (altitude, rest) ← splitAltitude rest
  let (telemetry, rest) := Telemetry.split rest
  let (dao, rest) := Dao.split rest
  return {
    latitude := .negIf (!isFlagged destination 3) latitude
    longitude := .negIf (isFlagged destination 5) longitude
    ambiguity
    symbolTable := body.getD 7 ' '
    symbolCode := body.getD 6 ' '
    bits := bitsOf destination
    speed := .ofKnots (.ofNat (knots body))
    course := .ofNat (degrees body)
    channels
    altitude
    telemetry
    dao
    comment := Text.trimSpaces rest }

end MicE

end Aprs
