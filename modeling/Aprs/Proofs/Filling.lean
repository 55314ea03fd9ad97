import Aprs.Line

/-!
Records member by member. A record is filled in several strokes, some of which look at what others
left; for a record that only has a header, the outcome is stated here at once.
-/

namespace Aprs

namespace Remark

def extension? : Remark → Option Extension
  | comment c => c.extension
  | weather extension _ _ => extension

def altitude? : Remark → Option Quantity
  | comment c => c.altitude.map Altitude.metres
  | weather _ _ _ => none

def telemetry? : Remark → Option Telemetry
  | comment c => c.telemetry
  | weather _ _ _ => none

def dao? : Remark → Option Dao
  | comment c => c.dao
  | weather _ _ _ => none

def weather? : Remark → Option (Weather Quantity)
  | comment _ => none
  | weather _ found _ => found

def text : Remark → Text
  | comment c => c.text
  | weather _ _ t => t

end Remark

/-- Coordinates with the digits of a precision tag. -/
def Dao.refined (dao : Option Dao) (latitude longitude : Quantity) : Quantity × Quantity :=
  dao.elim (latitude, longitude) fun dao => dao.refine latitude longitude

namespace Position

variable (p : Position)

def format : Format := if p.object.isSome then .object else p.fix.form.format

def coordinates : Quantity × Quantity := Dao.refined p.remark.dao? p.fix.latitude p.fix.longitude

/-- An altitude in the comment counts before one in the position. -/
def readings : Readings :=
  let told := Record.applied p.fix.readings p.remark.extension?
  { told with altitude := p.remark.altitude?.or told.altitude }

end Position

namespace Record

variable {line : Text} {header : Header}

theorem withPosition_blankRecord (p : Position) :
    (Line.blankRecord line header).withPosition p =
      { Line.blankRecord line header with
        format := some p.format
        latitude := some p.coordinates.1
        longitude := some p.coordinates.2
        ambiguity := p.fix.form.ambiguity?.map Nat.toUInt8
        symbolTable := some p.fix.symbolTable
        symbolCode := some p.fix.symbolCode
        messageCapable := p.messageCapable
        course := p.readings.course
        speed := p.readings.speed
        altitude := p.readings.altitude
        bearing := p.readings.bearing
        nrq := p.readings.nrq
        phg := p.readings.phg
        range := p.readings.range
        gpsFixStatus := p.fix.form.current?
        daoDatum := p.remark.dao?.map fun dao => dao.datum.toUpper
        comment := p.remark.text
        telemetry := p.remark.telemetry?
        weather := p.remark.weather?
        objectName := p.object.map (·.name)
        objectAlive := p.object.map (·.alive)
        objectFormat := p.object.map fun _ => p.fix.form.format
        rawTimestamp := p.timestamp.map (·.raw)
        timestamp := p.timestamp.elim 0 fun t => Int64.ofInt t.epoch } := by
  obtain ⟨messageCapable, object, timestamp, fix, remark⟩ := p
  cases remark with
  | comment comment =>
    obtain ⟨extension, altitude, telemetry, dao, text⟩ := comment
    cases object <;> cases timestamp <;> cases dao <;> rfl
  | weather extension weather text => cases object <;> cases timestamp <;> rfl

theorem withMicE_blankRecord (m : MicE) :
    (Line.blankRecord line header).withMicE m =
      { Line.blankRecord line header with
        format := some .micE
        latitude := some (Dao.refined m.dao m.latitude m.longitude).1
        longitude := some (Dao.refined m.dao m.latitude m.longitude).2
        ambiguity := some m.ambiguity.toUInt8
        symbolTable := some m.symbolTable
        symbolCode := some m.symbolCode
        course := some m.course
        speed := some m.speed
        altitude := m.altitude
        daoDatum := m.dao.map fun dao => dao.datum.toUpper
        comment := m.comment
        telemetry := m.telemetry
        micETelemetry := m.channels
        micEBits := some m.bits.text
        micEMessage := m.bits.message?.map String.toList } := by
  obtain ⟨latitude, longitude, ambiguity, symbolTable, symbolCode, bits, speed, course, channels,
    altitude, telemetry, dao, comment⟩ := m
  cases dao <;> rfl

theorem withStatus_blankRecord (timestamp : Option Timestamp) (text : Text) :
    (Line.blankRecord line header).withReport (.status timestamp text) =
      { Line.blankRecord line header with
        format := some .status
        status := some text
        rawTimestamp := timestamp.map (·.raw)
        timestamp := timestamp.elim 0 fun t => Int64.ofInt t.epoch } := by
  cases timestamp <;> rfl

/-- Reports leave alone what a record has from the header. -/
theorem header_withReport (report : Report) :
    ((Line.blankRecord line header).withReport report).raw = line ∧
      ((Line.blankRecord line header).withReport report).source = header.source ∧
      ((Line.blankRecord line header).withReport report).destination = header.destination ∧
      ((Line.blankRecord line header).withReport report).path = header.path := by
  cases report with
  | position p =>
    rw [withReport, withPosition_blankRecord]
    exact ⟨rfl, rfl, rfl, rfl⟩
  | micE m =>
    rw [withReport, withMicE_blankRecord]
    exact ⟨rfl, rfl, rfl, rfl⟩
  | status timestamp text =>
    rw [withStatus_blankRecord]
    exact ⟨rfl, rfl, rfl, rfl⟩
  | message message =>
    cases message with
    | addressed addressee content => cases content <;> exact ⟨rfl, rfl, rfl, rfl⟩
    | _ => exact ⟨rfl, rfl, rfl, rfl⟩
  | _ => exact ⟨rfl, rfl, rfl, rfl⟩

end Record

end Aprs
