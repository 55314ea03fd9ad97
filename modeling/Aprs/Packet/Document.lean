import Aprs.Json.Fields
import Aprs.Record

/-!
Packets as JSON documents, written and read. Both are given how a number of the record is written
and read.
-/

namespace Aprs

open Json

namespace Directivity

def toJson : Directivity → Json
  | omni => ofString "omni"
  | invalid => ofString "invalid"
  | degrees bearing => object [("degrees".toList, ofNat bearing.toNat)]

def tag? (t : Text) : Option Directivity :=
  if t = "omni".toList then some omni else if t = "invalid".toList then some invalid else none

def ofJson? (budget : Nat) : Json → Option Directivity
  | string t => tag? t
  | object [(t, json)] =>
    nested budget fun _ =>
      if t = "degrees".toList then (toUInt16? json).map degrees
      else
        match json with
        | null => tag? t
        | _ => none
  | _ => none

end Directivity

namespace Phg

def names : List Text :=
  ["raw", "power", "height", "gain", "directivity", "range", "rate"].map String.toList

def toJson (num : N → Json) (p : Phg N) : Json :=
  ofValues names
    [ofText p.raw, num p.power, num p.height, num p.gain, p.directivity.toJson, num p.range,
      ofOption (fun r => ofNat r.toNat) p.rate]

def ofJson? (num : Json → Option N) (budget : Nat) (json : Json) : Option (Phg N) :=
  nested budget fun budget => do
    let fields ← json.fields? names
    return {
      raw := ← fields.required "raw" toText?
      power := ← fields.required "power" num
      height := ← fields.required "height" num
      gain := ← fields.required "gain" num
      directivity := ← fields.required "directivity" (Directivity.ofJson? budget)
      range := ← fields.required "range" num
      rate := ← fields.optional "rate" toUInt8? }

end Phg

namespace Telemetry

def names : List Text := ["seq", "values", "bits"].map String.toList

def toJson (t : Telemetry) : Json :=
  ofValues names
    [ofNat t.seq.toNat, array (t.values.toList.map fun v => ofNat v.toNat), ofOption ofText t.bits]

def ofJson? (budget : Nat) (json : Json) : Option Telemetry :=
  nested budget fun budget => do
    let fields ← json.fields? names
    return {
      seq := ← fields.required "seq" toUInt32?
      values := ← fields.required "values" (toVector? 5 (fun _ => toUInt32?) budget)
      bits := ← fields.optional "bits" toText? }

end Telemetry

namespace TelemetryDefs

def names : List Text :=
  ["parmNames", "unitNames", "eqns", "bitsMask", "title"].map String.toList

def eqnsToJson (num : N → Json) (rows : Vector (Vector N 3) 5) : Json :=
  array (rows.toList.map fun row => array (row.toList.map num))

def toJson (num : N → Json) (d : TelemetryDefs N) : Json :=
  ofValues names
    [ofOption ofTexts d.parmNames, ofOption ofTexts d.unitNames,
      ofOption (eqnsToJson num) d.eqns, ofOption ofText d.bitsMask, ofOption ofText d.title]

def ofJson? (num : Json → Option N) (budget : Nat) (json : Json) : Option (TelemetryDefs N) :=
  nested budget fun budget => do
    let fields ← json.fields? names
    return {
      parmNames := ← fields.optional "parmNames" (toTexts? budget)
      unitNames := ← fields.optional "unitNames" (toTexts? budget)
      eqns := ← fields.optional "eqns" (toVector? 5 (toVector? 3 fun _ => num) budget)
      bitsMask := ← fields.optional "bitsMask" toText?
      title := ← fields.optional "title" toText? }

end TelemetryDefs

namespace Weather

def names : List Text :=
  ["windDirection", "windSpeed", "windGust", "temperature", "rain1h", "rain24h",
    "rainSinceMidnight", "humidity", "pressure", "luminosity", "snow", "rainRaw"].map String.toList

def toJson (num : N → Json) (w : Weather N) : Json :=
  ofValues names <|
    [w.windDirection, w.windSpeed, w.windGust, w.temperature, w.rain1h, w.rain24h,
      w.rainSinceMidnight, w.humidity, w.pressure, w.luminosity, w.snow, w.rainRaw].map
        (ofOption num)

def ofJson? (num : Json → Option N) (budget : Nat) (json : Json) : Option (Weather N) :=
  nested budget fun _ => do
    let fields ← json.fields? names
    return {
      windDirection := ← fields.optional "windDirection" num
      windSpeed := ← fields.optional "windSpeed" num
      windGust := ← fields.optional "windGust" num
      temperature := ← fields.optional "temperature" num
      rain1h := ← fields.optional "rain1h" num
      rain24h := ← fields.optional "rain24h" num
      rainSinceMidnight := ← fields.optional "rainSinceMidnight" num
      humidity := ← fields.optional "humidity" num
      pressure := ← fields.optional "pressure" num
      luminosity := ← fields.optional "luminosity" num
      snow := ← fields.optional "snow" num
      rainRaw := ← fields.optional "rainRaw" num }

end Weather

namespace Format

def toJson (f : Format) : Json := ofString f.tag

def ofJson? (budget : Nat) (json : Json) : Option Format := toConstant? all tag budget json

end Format

namespace Response

def toJson (r : Response) : Json := ofString r.tag

def ofJson? (budget : Nat) (json : Json) : Option Response := toConstant? all tag budget json

end Response

namespace Record

/-- The members of a record in the order in which they are written, the forwarded packet last. -/
def names : List Text :=
  ["raw", "from", "to", "path", "format", "lat", "lon", "posAmbiguity", "symbolTable", "symbolCode",
    "messageCapable", "course", "speed", "altitude", "bearing", "nrq", "phg", "range",
    "gpsFixStatus", "daoDatum", "comment", "telemetry", "telemetryMicE", "telemetryDefs", "weather",
    "micEBits", "micEMessage", "addressee", "messageText", "msgNo", "ackMsgNo", "response",
    "bulletinId", "announcementId", "groupIdentifier", "status", "objectName", "objectAlive",
    "objectFormat", "userDefinedId", "userDefinedType", "body", "rawTimestamp", "timestamp",
    "subPacket"].map String.toList

def values (num : N → Json) (r : Record N) (inner : Json) : List Json :=
  [ofText r.raw, ofText r.source, ofText r.destination, ofTexts r.path,
    ofOption Format.toJson r.format, ofOption num r.latitude, ofOption num r.longitude,
    ofOption (fun n => ofNat n.toNat) r.ambiguity, ofOption ofChar r.symbolTable,
    ofOption ofChar r.symbolCode, bool r.messageCapable, ofOption num r.course,
    ofOption num r.speed, ofOption num r.altitude, ofOption (fun n => ofNat n.toNat) r.bearing,
    ofOption (fun n => ofNat n.toNat) r.nrq, ofOption (Phg.toJson num) r.phg,
    ofOption num r.range, ofOption bool r.gpsFixStatus, ofOption ofChar r.daoDatum,
    ofText r.comment, ofOption Telemetry.toJson r.telemetry,
    ofOption (fun bytes => array (bytes.map fun b => ofNat b.toNat)) r.micETelemetry,
    ofOption (TelemetryDefs.toJson num) r.telemetryDefs, ofOption (Weather.toJson num) r.weather,
    ofOption ofText r.micEBits, ofOption ofText r.micEMessage, ofOption ofText r.addressee,
    ofOption ofText r.messageText, ofOption ofText r.messageNumber, ofOption ofText r.ackedNumber,
    ofOption Response.toJson r.response, ofOption ofText r.bulletinId,
    ofOption ofText r.announcementId, ofOption ofText r.groupIdentifier, ofOption ofText r.status,
    ofOption ofText r.objectName, ofOption bool r.objectAlive,
    ofOption Format.toJson r.objectFormat, ofOption ofChar r.userDefinedId,
    ofOption ofChar r.userDefinedType, ofOption ofText r.body, ofOption ofText r.rawTimestamp,
    ofInt r.timestamp.toInt, inner]

def ofFields? (num : Json → Option N) (budget : Nat) (fields : Fields) : Option (Record N) := do
  return {
    raw := ← fields.required "raw" toText?
    source := ← fields.required "from" toText?
    destination := ← fields.required "to" toText?
    path := ← fields.required "path" (toTexts? budget)
    format := ← fields.optional "format" (Format.ofJson? budget)
    latitude := ← fields.optional "lat" num
    longitude := ← fields.optional "lon" num
    ambiguity := ← fields.optional "posAmbiguity" toUInt8?
    symbolTable := ← fields.optional "symbolTable" toChar?
    symbolCode := ← fields.optional "symbolCode" toChar?
    messageCapable := ← fields.required "messageCapable" toBool?
    course := ← fields.optional "course" num
    speed := ← fields.optional "speed" num
    altitude := ← fields.optional "altitude" num
    bearing := ← fields.optional "bearing" toUInt16?
    nrq := ← fields.optional "nrq" toUInt16?
    phg := ← fields.optional "phg" (Phg.ofJson? num budget)
    range := ← fields.optional "range" num
    gpsFixStatus := ← fields.optional "gpsFixStatus" toBool?
    daoDatum := ← fields.optional "daoDatum" toChar?
    comment := ← fields.required "comment" toText?
    telemetry := ← fields.optional "telemetry" (Telemetry.ofJson? budget)
    micETelemetry := ← fields.optional "telemetryMicE" (toList? (fun _ => toUInt8?) budget)
    telemetryDefs := ← fields.optional "telemetryDefs" (TelemetryDefs.ofJson? num budget)
    weather := ← fields.optional "weather" (Weather.ofJson? num budget)
    micEBits := ← fields.optional "micEBits" toText?
    micEMessage := ← fields.optional "micEMessage" toText?
    addressee := ← fields.optional "addressee" toText?
    messageText := ← fields.optional "messageText" toText?
    messageNumber := ← fields.optional "msgNo" toText?
    ackedNumber := ← fields.optional "ackMsgNo" toText?
    response := ← fields.optional "response" (Response.ofJson? budget)
    bulletinId := ← fields.optional "bulletinId" toText?
    announcementId := ← fields.optional "announcementId" toText?
    groupIdentifier := ← fields.optional "groupIdentifier" toText?
    status := ← fields.optional "status" toText?
    objectName := ← fields.optional "objectName" toText?
    objectAlive := ← fields.optional "objectAlive" toBool?
    objectFormat := ← fields.optional "objectFormat" (Format.ofJson? budget)
    userDefinedId := ← fields.optional "userDefinedId" toChar?
    userDefinedType := ← fields.optional "userDefinedType" toChar?
    body := ← fields.optional "body" toText?
    rawTimestamp := ← fields.optional "rawTimestamp" toText?
    timestamp := ← fields.required "timestamp" toInt64? }

end Record

namespace Packet

/-- All members are written, absent ones as null. -/
def toJson (num : N → Json) : Packet N → Json
  | plain r => ofValues Record.names (r.values num null)
  | forwarding r inner => ofValues Record.names (r.values num (inner.toJson num))

/-- Reads a packet around which so many levels of arrays and objects may be opened. -/
def ofJsonWithin? (num : Json → Option N) : Nat → Json → Option (Packet N)
  | 0, _ => none
  | budget + 1, json => do
    let fields ← json.fields? Record.names
    let record ← Record.ofFields? num budget fields
    match ← fields.optional "subPacket" (ofJsonWithin? num budget) with
    | some inner => return forwarding record inner
    | none => return plain record

/-- Documents may be this many levels deep where packets stand; what is left out of a packet may be
deeper. -/
def deepestLevel : Nat := 127

def ofJson? (num : Json → Option N) (json : Json) : Option (Packet N) :=
  ofJsonWithin? num deepestLevel json

end Packet

end Aprs
