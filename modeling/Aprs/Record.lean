import Aprs.Quantity
import Aprs.Text

/-!
The record of one decoded packet, in the flat form in which programs exchange it. It is written over
the type of its numbers: decoding fills it with formulas, and readers of it with floating-point
numbers.
-/

namespace Aprs

/-- What kind of report a packet carries. -/
inductive Format where
  | uncompressed
  | compressed
  | micE
  | object
  | status
  | message
  | bulletin
  | groupBulletin
  | announcement
  | telemetryMessage
  | thirdParty
  | userDefined
  | invalid
  | weather
  deriving DecidableEq, Repr, Inhabited

namespace Format

def tag : Format → String
  | uncompressed => "uncompressed"
  | compressed => "compressed"
  | micE => "mic-e"
  | object => "object"
  | status => "status"
  | message => "message"
  | bulletin => "bulletin"
  | groupBulletin => "group-bulletin"
  | announcement => "announcement"
  | telemetryMessage => "telemetry-message"
  | thirdParty => "thirdparty"
  | userDefined => "user-defined"
  | invalid => "invalid"
  | weather => "weather"

def all : List Format :=
  [uncompressed, compressed, micE, object, status, message, bulletin, groupBulletin, announcement,
    telemetryMessage, thirdParty, userDefined, invalid, weather]

end Format

/-- Answer to a numbered message. -/
inductive Response where
  | ack
  | rej
  deriving DecidableEq, Repr, Inhabited

namespace Response

def tag : Response → String
  | ack => "ack"
  | rej => "rej"

def all : List Response := [ack, rej]

end Response

/-- Where an antenna points. -/
inductive Directivity where
  | omni
  /-- The protocol keeps the digit nine for later use. -/
  | invalid
  | degrees (bearing : UInt16)
  deriving DecidableEq, Repr, Inhabited

/-- Power, height and gain of a station: watts, metres above the terrain around it, ratio of powers,
and the range in kilometres that follows from them. -/
structure Phg (N : Type) where
  raw : Text
  power : N
  height : N
  gain : N
  directivity : Directivity
  range : N
  /-- Beacons in an hour. -/
  rate : Option UInt8
  deriving DecidableEq, Repr, Inhabited

/-- Telemetry sent inside a comment. -/
structure Telemetry where
  seq : UInt32
  values : Vector UInt32 5
  /-- Eight zeros and ones, least significant bit first. -/
  bits : Option Text
  deriving DecidableEq, Repr, Inhabited

/-- Names, units, equations and bits of the telemetry channels of a station. A message defines one
of these kinds. -/
structure TelemetryDefs (N : Type) where
  parmNames : Option (List Text) := none
  unitNames : Option (List Text) := none
  /-- Coefficients of a square, a linear and a constant term for each analog channel. -/
  eqns : Option (Vector (Vector N 3) 5) := none
  bitsMask : Option Text := none
  title : Option Text := none
  deriving DecidableEq, Repr, Inhabited

/-- Weather in metric units: degrees, metres in a second, degrees Celsius, millimetres, percent,
hectopascals and watts on a square metre. -/
structure Weather (N : Type) where
  windDirection : Option N := none
  windSpeed : Option N := none
  windGust : Option N := none
  temperature : Option N := none
  rain1h : Option N := none
  rain24h : Option N := none
  rainSinceMidnight : Option N := none
  humidity : Option N := none
  pressure : Option N := none
  luminosity : Option N := none
  snow : Option N := none
  rainRaw : Option N := none
  deriving DecidableEq, Repr, Inhabited

namespace Weather

def isEmpty (w : Weather N) : Bool :=
  w.windDirection.isNone && w.windSpeed.isNone && w.windGust.isNone && w.temperature.isNone &&
    w.rain1h.isNone && w.rain24h.isNone && w.rainSinceMidnight.isNone && w.humidity.isNone &&
    w.pressure.isNone && w.luminosity.isNone && w.snow.isNone && w.rainRaw.isNone

end Weather

/-- All that one packet can say. Distances are in kilometres and metres, speeds in kilometres in an
hour, angles in degrees; what a packet does not say is absent. -/
structure Record (N : Type) where
  raw : Text
  source : Text := []
  destination : Text := []
  path : List Text := []
  format : Option Format := none
  latitude : Option N := none
  longitude : Option N := none
  ambiguity : Option UInt8 := none
  symbolTable : Option Char := none
  symbolCode : Option Char := none
  messageCapable : Bool := false
  course : Option N := none
  speed : Option N := none
  altitude : Option N := none
  bearing : Option UInt16 := none
  nrq : Option UInt16 := none
  phg : Option (Phg N) := none
  range : Option N := none
  gpsFixStatus : Option Bool := none
  daoDatum : Option Char := none
  comment : Text := []
  telemetry : Option Telemetry := none
  micETelemetry : Option (List UInt8) := none
  telemetryDefs : Option (TelemetryDefs N) := none
  weather : Option (Weather N) := none
  micEBits : Option Text := none
  micEMessage : Option Text := none
  addressee : Option Text := none
  messageText : Option Text := none
  messageNumber : Option Text := none
  ackedNumber : Option Text := none
  response : Option Response := none
  bulletinId : Option Text := none
  announcementId : Option Text := none
  groupIdentifier : Option Text := none
  status : Option Text := none
  objectName : Option Text := none
  objectAlive : Option Bool := none
  objectFormat : Option Format := none
  userDefinedId : Option Char := none
  userDefinedType : Option Char := none
  body : Option Text := none
  rawTimestamp : Option Text := none
  /-- Seconds since the first instant of 1970, zero when there is none. -/
  timestamp : Int64 := 0
  deriving DecidableEq, Repr, Inhabited

/-- A packet, around the packets of third parties that it forwards. -/
inductive Packet (N : Type) where
  | plain (record : Record N)
  | forwarding (record : Record N) (inner : Packet N)
  deriving DecidableEq, Repr, Inhabited

namespace Packet

def record : Packet N → Record N
  | plain r => r
  | forwarding r _ => r

/-- The records of a packet and of all that it forwards, the outermost first. -/
def records : Packet N → List (Record N)
  | plain r => [r]
  | forwarding r p => r :: p.records

end Packet

namespace Phg

def map (f : M → N) (p : Phg M) : Phg N :=
  { p with power := f p.power, height := f p.height, gain := f p.gain, range := f p.range }

end Phg

namespace TelemetryDefs

def map (f : M → N) (d : TelemetryDefs M) : TelemetryDefs N :=
  { d with eqns := d.eqns.map fun rows => rows.map fun row => row.map f }

end TelemetryDefs

namespace Weather

def map (f : M → N) (w : Weather M) : Weather N where
  windDirection := w.windDirection.map f
  windSpeed := w.windSpeed.map f
  windGust := w.windGust.map f
  temperature := w.temperature.map f
  rain1h := w.rain1h.map f
  rain24h := w.rain24h.map f
  rainSinceMidnight := w.rainSinceMidnight.map f
  humidity := w.humidity.map f
  pressure := w.pressure.map f
  luminosity := w.luminosity.map f
  snow := w.snow.map f
  rainRaw := w.rainRaw.map f

end Weather

namespace Record

def map (f : M → N) (r : Record M) : Record N :=
  { r with
    latitude := r.latitude.map f
    longitude := r.longitude.map f
    course := r.course.map f
    speed := r.speed.map f
    altitude := r.altitude.map f
    phg := r.phg.map (Phg.map f)
    range := r.range.map f
    telemetryDefs := r.telemetryDefs.map (TelemetryDefs.map f)
    weather := r.weather.map (Weather.map f) }

/-- Latitude and longitude, when both are there. -/
def position? (r : Record N) : Option (N × N) := do return (← r.latitude, ← r.longitude)

/-- Symbol table and code, when both are there. -/
def symbol? (r : Record N) : Option (Char × Char) := do return (← r.symbolTable, ← r.symbolCode)

end Record

namespace Packet

def map (f : M → N) : Packet M → Packet N
  | plain r => plain (r.map f)
  | forwarding r p => forwarding (r.map f) (p.map f)

end Packet

end Aprs
