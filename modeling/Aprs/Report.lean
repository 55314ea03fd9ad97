import Aprs.Header
import Aprs.Message
import Aprs.MicE
import Aprs.Position
import Aprs.Weather

/-!
What the body of a packet reports, and the record that says so.
-/

namespace Aprs

inductive Report where
  | position (position : Position)
  | micE (micE : MicE)
  | weather (report : WeatherReport)
  | message (message : Message)
  | status (timestamp : Option Timestamp) (text : Text)
  | userDefined (id type : Option Char) (body : Text)
  | undecoded (body : Text)
  deriving DecidableEq, Repr

namespace Report

/-- Types of packets that are known but not decoded. -/
def unsupported : List (Char × String) :=
  [('#', "raw weather report"), ('$', "raw gps"), ('%', "agrelo"), ('&', "reserved"),
    ('(', "unused"), (')', "item report"), ('*', "complete weather report"), ('+', "reserved"),
    ('-', "unused"), ('.', "reserved"), ('<', "station capabilities"),
    ('?', "general query format"), ('T', "telemetry report"),
    ('[', "maidenhead locator beacon"), ('\\', "unused"), (']', "unused"), ('^', "unused")]

/-- Some stations send the backquote that opens a Mic-E report as a typographic quote. -/
def typographicQuote : Char := '\u2018'

def isMicE (type : Char) : Bool := type == '\u0060' || type == '\'' || type == typographicQuote

/-- A status may begin with its time, which then has to be in the form `z`. -/
def statusTimeLayout : Layout := Layout.columns 6 Char.isDigit ++ Layout.exactly 'z'

def status? (now : Int) (body : Text) : Except DecodeError Report :=
  if (statusTimeLayout.take? body).isSome then
    match Timestamp.take? now body with
    | some (timestamp, rest) => .ok (.status (some timestamp) (Text.trimSpaces rest))
    | none => .error .invalidTimestamp
  else .ok (.status none (Text.trimSpaces body))

def readUserDefined : Text → Report
  | [] => .userDefined none none []
  | [id] => .userDefined (some id) none []
  | id :: type :: body => .userDefined (some id) (some type) body

/-- How far a position may be into a body of unknown type. -/
def bangLimit : Nat := 40

/-- Bodies of unknown type are read from an exclamation mark near their start, if there is one. -/
def decodeUnknown (now : Int) (body : Text) : Except DecodeError Report :=
  match Text.splitFirst? '!' body with
  | some (before, after) =>
    if before.byteLength < bangLimit then
      (Position.decode now (.station false false) after).map .position
    else .ok (.undecoded body)
  | none => .ok (.undecoded body)

/-- Reads a body by its type, which is its first character; the destination takes part in Mic-E
reports. -/
def decode (now : Int) (destination : Text) (type : Char) (body : Text) :
    Except DecodeError Report :=
  match PositionKind.ofChar? type with
  | some kind => (Position.decode now kind body).map .position
  | none =>
    if isMicE type then (MicE.decode destination body).map .micE
    else
      match type with
      | ',' => .ok (.undecoded body)
      | '\x7b' => .ok (readUserDefined body)
      | '>' => status? now body
      | ':' => ((Message.decode body).mapError .invalidTelemetryConfig).map .message
      | '_' =>
        match WeatherReport.decode? now body with
        | some report => .ok (.weather report)
        | none => .error .invalidWeather
      | _ => decodeUnknown now body

end Report

namespace Record

variable (r : Record Quantity)

def withReadings (readings : Readings) : Record Quantity :=
  { r with
    course := readings.course
    speed := readings.speed
    altitude := readings.altitude
    range := readings.range
    bearing := readings.bearing
    nrq := readings.nrq
    phg := readings.phg }

def withTimestamp (timestamp : Option Timestamp) : Record Quantity :=
  match timestamp with
  | some t => { r with rawTimestamp := some t.raw, timestamp := Int64.ofInt t.epoch }
  | none => r

def withFix (fix : Fix) : Record Quantity :=
  { r with
    format := some fix.form.format
    latitude := some fix.latitude
    longitude := some fix.longitude
    ambiguity := fix.form.ambiguity?.map Nat.toUInt8
    symbolTable := some fix.symbolTable
    symbolCode := some fix.symbolCode
    gpsFixStatus := fix.form.current? }

/-- Objects keep the format of their position beside their own. -/
def withObject (object : Option ObjectHeader) : Record Quantity :=
  match object with
  | some header =>
    { r with
      format := some .object
      objectFormat := r.format
      objectName := some header.name
      objectAlive := some header.alive }
  | none => r

def withDao (dao : Option Dao) (latitude longitude : Quantity) : Record Quantity :=
  match dao with
  | some dao =>
    let (latitude, longitude) := dao.refine latitude longitude
    { r with
      latitude := some latitude
      longitude := some longitude
      daoDatum := some dao.datum.toUpper }
  | none => { r with latitude := some latitude, longitude := some longitude }

def applied (readings : Readings) (extension : Option Extension) : Readings :=
  extension.elim readings readings.apply

def withRemark (fix : Fix) (remark : Remark) : Record Quantity :=
  match remark with
  | .comment comment =>
    let readings := applied fix.readings comment.extension
    let altitude := (comment.altitude.map Altitude.metres).or readings.altitude
    let told := r.withReadings { readings with altitude }
    { told.withDao comment.dao fix.latitude fix.longitude with
      telemetry := comment.telemetry
      comment := comment.text }
  | .weather extension weather text =>
    { r.withReadings (applied fix.readings extension) with weather, comment := text }

def withPosition (p : Position) : Record Quantity :=
  ((({ r with messageCapable := p.messageCapable }.withTimestamp p.timestamp).withFix
    p.fix).withRemark p.fix p.remark).withObject p.object

def withMicE (m : MicE) : Record Quantity :=
  { r.withDao m.dao m.latitude m.longitude with
    format := some .micE
    ambiguity := some m.ambiguity.toUInt8
    symbolTable := some m.symbolTable
    symbolCode := some m.symbolCode
    course := some m.course
    speed := some m.speed
    altitude := m.altitude
    comment := m.comment
    telemetry := m.telemetry
    micETelemetry := m.channels
    micEBits := some m.bits.text
    micEMessage := m.bits.message?.map String.toList }

def withContent (content : Message.Content) : Record Quantity :=
  match content with
  | .definition defs => { r with format := some .telemetryMessage, telemetryDefs := some defs }
  | .reply response number acked =>
    { r with
      format := some .message
      response := some response
      messageNumber := some number
      ackedNumber := acked }
  | .text text number acked =>
    { r with
      format := some .message
      messageText := some text
      messageNumber := number
      ackedNumber := acked }

/-- An empty group is no group. -/
def nonEmpty (t : Text) : Option Text := if t.isEmpty then none else some t

def withMessage (message : Message) : Record Quantity :=
  match message with
  | .bulletin id group text =>
    { r with
      format := some (if group.isEmpty then .bulletin else .groupBulletin)
      messageText := some text
      bulletinId := some [id]
      groupIdentifier := nonEmpty group }
  | .announcement id group text =>
    { r with
      format := some .announcement
      messageText := some text
      announcementId := some [id]
      groupIdentifier := nonEmpty group }
  | .addressed addressee content => { r with addressee := some addressee }.withContent content
  | .unaddressed => r

def withReport (report : Report) : Record Quantity :=
  match report with
  | .position p => r.withPosition p
  | .micE m => r.withMicE m
  | .weather w =>
    { r with
      format := some .weather
      rawTimestamp := some w.digits
      timestamp := Int64.ofInt w.epoch
      weather := w.weather
      comment := w.comment }
  | .message m => r.withMessage m
  | .status timestamp text =>
    { r.withTimestamp timestamp with format := some .status, status := some text }
  | .userDefined id type body =>
    { r with
      format := some .userDefined
      userDefinedId := id
      userDefinedType := type
      body := some body }
  | .undecoded body => { r with format := some .invalid, body := some body }

end Record

end Aprs
