import Aprs.Proofs.Filling
import Aprs.Proofs.Line
import Aprs.Proofs.Soundness

/-!
The shape of decoded records: which members are present in which formats. Members outside the format
of a record stay absent, and those that a format is about are there.
-/

namespace Aprs

namespace Format

/-- Formats of position reports. -/
def positions : List Format := [uncompressed, compressed, object]

/-- Formats that say where a station or an object is. -/
def located : List Format := [uncompressed, compressed, micE, object]

def bulletins : List Format := [bulletin, groupBulletin]

/-- Formats of messages with a text of their own. -/
def texts : List Format := [message, bulletin, groupBulletin, announcement]

end Format

namespace Message

/-- Messages to nobody have no format. -/
def format? : Message → Option Format
  | bulletin _ group _ => some (if group.isEmpty then .bulletin else .groupBulletin)
  | announcement _ _ _ => some .announcement
  | addressed _ (.definition _) => some .telemetryMessage
  | addressed _ _ => some .message
  | unaddressed => none

theorem format?_mem {message : Message} {format : Format} (h : message.format? = some format) :
    format ∈ .telemetryMessage :: Format.texts := by
  cases message with
  | bulletin id group text =>
    cases group with
    | nil =>
      cases h
      decide
    | cons c group =>
      cases h
      simp [Format.texts]
  | announcement id group text =>
    cases h
    decide
  | addressed addressee content => cases content <;> cases h <;> decide
  | unaddressed => cases h

end Message

namespace Record

variable (r : Record Quantity)

def hasFormat (formats : List Format) : Bool := r.format.any fun format => formats.contains format

/-- The ambiguity of a place is told where digits of it can be blank. -/
structure PlaceShape : Prop where
  latitude : r.latitude.isSome = r.hasFormat Format.located
  longitude : r.longitude.isSome = r.hasFormat Format.located
  symbolTable : r.symbolTable.isSome = r.hasFormat Format.located
  symbolCode : r.symbolCode.isSome = r.hasFormat Format.located
  ambiguity : r.ambiguity.isSome = true ↔
    r.format = some .uncompressed ∨ r.objectFormat = some .uncompressed ∨ r.format = some .micE
  ambiguity_le : ∀ blanks ∈ r.ambiguity, blanks ≤ 4
  gpsFixStatus : r.gpsFixStatus.isSome = true →
    r.format = some .compressed ∨ r.objectFormat = some .compressed
  daoDatum : r.daoDatum.isSome = true → r.hasFormat Format.located = true

/-- Objects keep the format of their position. -/
structure ObjectShape : Prop where
  name : r.objectName.isSome = r.hasFormat [.object]
  alive : r.objectAlive.isSome = r.hasFormat [.object]
  format : r.objectFormat.isSome = r.hasFormat [.object]
  format_eq : ∀ format ∈ r.objectFormat, format = .uncompressed ∨ format = .compressed

structure MicEShape : Prop where
  bits : r.micEBits.isSome = r.hasFormat [.micE]
  message : r.micEMessage.isSome = r.hasFormat [.micE]
  course : r.hasFormat [.micE] = true → r.course.isSome = true
  speed : r.hasFormat [.micE] = true → r.speed.isSome = true
  telemetry : r.micETelemetry.isSome = true → r.hasFormat [.micE] = true
  channels : ∀ channels ∈ r.micETelemetry, channels.length = 2 ∨ channels.length = 5

structure ReadingsShape : Prop where
  phg : r.phg.isSome = true → r.hasFormat Format.positions = true
  range : r.range.isSome = true → r.hasFormat Format.positions = true
  bearing : r.bearing.isSome = true → r.hasFormat Format.positions = true
  nrq : r.nrq.isSome = true → r.hasFormat Format.positions = true
  course : r.course.isSome = true → r.hasFormat Format.located = true
  speed : r.speed.isSome = true → r.hasFormat Format.located = true
  altitude : r.altitude.isSome = true → r.hasFormat Format.located = true
  telemetry : r.telemetry.isSome = true → r.hasFormat Format.located = true
  messageCapable : r.messageCapable = true → r.hasFormat [.uncompressed, .compressed] = true

/-- Members of stations and objects. -/
structure StationShape : Prop where
  place : r.PlaceShape
  object : r.ObjectShape
  micE : r.MicEShape
  readings : r.ReadingsShape

/-- Weather comes in reports of its own and with the symbol of a weather station. -/
structure WeatherShape : Prop where
  nonempty : ∀ weather ∈ r.weather, weather.isEmpty = false
  carrier : r.weather.isSome = true → r.hasFormat [.weather] = true ∨
    r.symbolCode = some '_' ∧ r.hasFormat Format.positions = true
  comment : r.comment ≠ [] → r.hasFormat (.weather :: Format.located) = true

structure TimeShape : Prop where
  raw : r.rawTimestamp.isSome = true →
    r.hasFormat (.status :: .weather :: Format.positions) = true
  timestamp : r.timestamp ≠ 0 → r.rawTimestamp.isSome = true

structure MessageShape : Prop where
  addressee : r.addressee.isSome = r.hasFormat [.message, .telemetryMessage]
  telemetryDefs : r.telemetryDefs.isSome = r.hasFormat [.telemetryMessage]
  text : r.messageText.isSome = true → r.hasFormat Format.texts = true
  number : r.messageNumber.isSome = true → r.hasFormat [.message] = true
  acked : r.ackedNumber.isSome = true → r.hasFormat [.message] = true
  response : r.response.isSome = true → r.hasFormat [.message] = true
  bulletinId : r.bulletinId.isSome = r.hasFormat Format.bulletins
  announcementId : r.announcementId.isSome = r.hasFormat [.announcement]
  groupIdentifier : r.groupIdentifier.isSome = true →
    r.hasFormat [.groupBulletin, .announcement] = true

structure PayloadShape : Prop where
  status : r.status.isSome = r.hasFormat [.status]
  userDefinedId : r.userDefinedId.isSome = true → r.hasFormat [.userDefined] = true
  userDefinedType : r.userDefinedType.isSome = true → r.hasFormat [.userDefined] = true
  body : r.body.isSome = r.hasFormat [.userDefined, .invalid]

structure Shape : Prop where
  station : r.StationShape
  weather : r.WeatherShape
  time : r.TimeShape
  message : r.MessageShape
  payload : r.PayloadShape

variable {r}

theorem hasFormat_eq_true_iff {formats : List Format} :
    r.hasFormat formats = true ↔ ∃ format ∈ formats, r.format = some format := by
  unfold hasFormat
  cases r.format with
  | none => simp
  | some format => simp

theorem hasFormat_of_subset {formats more : List Format} (hsubset : formats ⊆ more)
    (h : r.hasFormat formats = true) : r.hasFormat more = true := by
  obtain ⟨format, hmem, hformat⟩ := hasFormat_eq_true_iff.mp h
  exact hasFormat_eq_true_iff.mpr ⟨format, hsubset hmem, hformat⟩

theorem hasFormat_eq_false_of_subset {formats more : List Format} (hsubset : formats ⊆ more)
    (h : r.hasFormat more = false) : r.hasFormat formats = false := by
  cases hfound : r.hasFormat formats with
  | false => rfl
  | true =>
    rw [hasFormat_of_subset hsubset hfound] at h
    cases h

theorem hasFormat_eq_false_of_disjoint {formats others : List Format}
    (hdisjoint : ∀ format ∈ formats, format ∉ others) (h : r.hasFormat formats = true) :
    r.hasFormat others = false := by
  cases hfound : r.hasFormat others with
  | false => rfl
  | true =>
    obtain ⟨format, hmem, hformat⟩ := hasFormat_eq_true_iff.mp h
    obtain ⟨other, hother, hformat'⟩ := hasFormat_eq_true_iff.mp hfound
    rw [hformat] at hformat'
    cases hformat'
    exact absurd hother (hdisjoint format hmem)

/-- A record with all members of stations and objects cleared. -/
def withoutStation (r : Record Quantity) : Record Quantity :=
  { r with
    latitude := none
    longitude := none
    ambiguity := none
    symbolTable := none
    symbolCode := none
    messageCapable := false
    course := none
    speed := none
    altitude := none
    bearing := none
    nrq := none
    phg := none
    range := none
    gpsFixStatus := none
    daoDatum := none
    telemetry := none
    micETelemetry := none
    micEBits := none
    micEMessage := none
    objectName := none
    objectAlive := none
    objectFormat := none }

/-- The same for the members of messages. -/
def withoutMessage (r : Record Quantity) : Record Quantity :=
  { r with
    telemetryDefs := none
    addressee := none
    messageText := none
    messageNumber := none
    ackedNumber := none
    response := none
    bulletinId := none
    announcementId := none
    groupIdentifier := none }

def withoutPayload (r : Record Quantity) : Record Quantity :=
  { r with
    status := none
    userDefinedId := none
    userDefinedType := none
    body := none }

/-- Without these members a record has their shape, provided that its format asks for none. -/
theorem stationShape_of_absent (h : r.withoutStation = r)
    (hformat : r.hasFormat Format.located = false) : r.StationShape := by
  have hobject : r.hasFormat [.object] = false := hasFormat_eq_false_of_subset (by decide) hformat
  have hmicE : r.hasFormat [.micE] = false := hasFormat_eq_false_of_subset (by decide) hformat
  have hneither : ∀ format ∈ Format.located, r.format ≠ some format := by
    intro format hmem heq
    rw [hasFormat_eq_true_iff.mpr ⟨format, hmem, heq⟩] at hformat
    cases hformat
  -- In the cleared record these members are absent by computation.
  rw [← h]
  refine ⟨?place, ?object, ?micE, ?readings⟩
  case place =>
    refine ⟨hformat.symm, hformat.symm, hformat.symm, hformat.symm, ⟨nofun, ?_⟩, nofun, nofun,
      nofun⟩
    rintro (heq | heq | heq)
    · exact absurd heq (hneither _ (by decide))
    · cases heq
    · exact absurd heq (hneither _ (by decide))
  case object => exact ⟨hobject.symm, hobject.symm, hobject.symm, nofun⟩
  case micE =>
    have hnone : r.withoutStation.hasFormat [.micE] = true → False := by
      intro heq
      exact absurd (hmicE.symm.trans heq) (by decide)
    exact ⟨hmicE.symm, hmicE.symm, fun heq => (hnone heq).elim, fun heq => (hnone heq).elim, nofun,
      nofun⟩
  case readings => exact ⟨nofun, nofun, nofun, nofun, nofun, nofun, nofun, nofun, nofun⟩

theorem messageShape_of_absent (h : r.withoutMessage = r)
    (hformat : r.hasFormat (.telemetryMessage :: Format.texts) = false) : r.MessageShape := by
  have haddressee : r.hasFormat [.message, .telemetryMessage] = false :=
    hasFormat_eq_false_of_subset (by decide) hformat
  have hdefinition : r.hasFormat [.telemetryMessage] = false :=
    hasFormat_eq_false_of_subset (by decide) hformat
  have hbulletin : r.hasFormat Format.bulletins = false :=
    hasFormat_eq_false_of_subset (by decide) hformat
  have hannouncement : r.hasFormat [.announcement] = false :=
    hasFormat_eq_false_of_subset (by decide) hformat
  rw [← h]
  exact ⟨haddressee.symm, hdefinition.symm, nofun, nofun, nofun, nofun, hbulletin.symm,
    hannouncement.symm, nofun⟩

theorem payloadShape_of_absent (h : r.withoutPayload = r)
    (hformat : r.hasFormat [.status, .userDefined, .invalid] = false) : r.PayloadShape := by
  have hstatus : r.hasFormat [.status] = false := hasFormat_eq_false_of_subset (by decide) hformat
  have hbody : r.hasFormat [.userDefined, .invalid] = false :=
    hasFormat_eq_false_of_subset (by decide) hformat
  rw [← h]
  exact ⟨hstatus.symm, nofun, nofun, hbody.symm⟩

theorem weatherShape_of_absent (hweather : r.weather = none)
    (hcomment : r.comment ≠ [] → r.hasFormat (.weather :: Format.located) = true) :
    r.WeatherShape := by
  refine ⟨?_, ?_, hcomment⟩
  · intro found hfound
    rw [hweather] at hfound
    cases hfound
  · intro hsome
    rw [hweather] at hsome
    cases hsome

theorem timeShape_of_absent (hraw : r.rawTimestamp = none) (htimestamp : r.timestamp = 0) :
    r.TimeShape := by
  refine ⟨?_, fun hne => (hne htimestamp).elim⟩
  intro hsome
  rw [hraw] at hsome
  cases hsome

/-- A timestamp leaves its text and its instant together. -/
theorem timeShape_of_timestamp {timestamp : Option Timestamp}
    (hraw : r.rawTimestamp = timestamp.map (·.raw))
    (htimestamp : r.timestamp = timestamp.elim 0 fun t => Int64.ofInt t.epoch)
    (hformat : r.hasFormat (.status :: .weather :: Format.positions) = true) : r.TimeShape := by
  cases timestamp with
  | none => exact timeShape_of_absent hraw htimestamp
  | some t =>
    refine ⟨fun _ => hformat, fun _ => ?_⟩
    rw [hraw]
    rfl

variable {line : Text} {header : Header}

theorem toUInt8_le {blanks : Nat} (h : blanks ≤ 4) : blanks.toUInt8 ≤ 4 := by
  rw [UInt8.le_iff_toNat_le]
  change blanks % 256 ≤ 4
  omega

/-- Stations and objects differ in where they keep the format of their position. -/
theorem placeShape_withPosition {p : Position} (h : p.WellFormed) :
    ((Line.blankRecord line header).withPosition p).PlaceShape := by
  rw [withPosition_blankRecord]
  obtain ⟨messageCapable, object, timestamp, ⟨form, latitude, longitude, table, code, readings⟩,
    remark⟩ := p
  cases form with
  | uncompressed blanks =>
    have hblanks : blanks.toUInt8 ≤ 4 := toUInt8_le (h.ambiguity_le blanks rfl)
    cases object <;> constructor <;>
      simp [Position.format, PositionForm.format, PositionForm.ambiguity?, PositionForm.current?,
        hasFormat, Format.located, hblanks]
  | compressed current =>
    cases object <;> constructor <;>
      simp [Position.format, PositionForm.format, PositionForm.ambiguity?, PositionForm.current?,
        hasFormat, Format.located]

theorem objectShape_withPosition (p : Position) :
    ((Line.blankRecord line header).withPosition p).ObjectShape := by
  rw [withPosition_blankRecord]
  obtain ⟨messageCapable, object, timestamp, ⟨form, latitude, longitude, table, code, readings⟩,
    remark⟩ := p
  cases object <;> cases form <;> constructor <;>
    simp [Position.format, PositionForm.format, hasFormat]

theorem micEShape_withPosition (p : Position) :
    ((Line.blankRecord line header).withPosition p).MicEShape := by
  rw [withPosition_blankRecord]
  obtain ⟨messageCapable, object, timestamp, ⟨form, latitude, longitude, table, code, readings⟩,
    remark⟩ := p
  cases object <;> cases form <;> constructor <;>
    simp [Position.format, PositionForm.format, hasFormat, Line.blankRecord]

theorem hasFormat_withPosition (line : Text) (header : Header) (p : Position) :
    ((Line.blankRecord line header).withPosition p).hasFormat Format.positions = true := by
  rw [withPosition_blankRecord]
  obtain ⟨messageCapable, object, timestamp, ⟨form, latitude, longitude, table, code, readings⟩,
    remark⟩ := p
  cases object <;> cases form <;> rfl

theorem readingsShape_withPosition {p : Position} (h : p.WellFormed) :
    ((Line.blankRecord line header).withPosition p).ReadingsShape := by
  have hpositions := hasFormat_withPosition line header p
  have hlocated := hasFormat_of_subset (show Format.positions ⊆ Format.located by decide) hpositions
  refine ⟨fun _ => hpositions, fun _ => hpositions, fun _ => hpositions, fun _ => hpositions,
    fun _ => hlocated, fun _ => hlocated, fun _ => hlocated, fun _ => hlocated, ?_⟩
  rw [withPosition_blankRecord]
  intro hcapable
  have hobject := h.messageCapable hcapable
  obtain ⟨messageCapable, object, timestamp, ⟨form, latitude, longitude, table, code, readings⟩,
    remark⟩ := p
  cases hobject
  cases form <;> rfl

theorem weatherShape_withPosition {p : Position} (h : p.WellFormed) :
    ((Line.blankRecord line header).withPosition p).WeatherShape := by
  have hpositions := hasFormat_withPosition line header p
  have hcomment := hasFormat_of_subset
    (show Format.positions ⊆ .weather :: Format.located by decide) hpositions
  rw [withPosition_blankRecord] at hpositions hcomment ⊢
  refine ⟨fun found hfound => (h.weather found hfound).2, ?_, fun _ => hcomment⟩
  intro hsome
  obtain ⟨found, hfound⟩ := Option.isSome_iff_exists.mp hsome
  exact .inr ⟨congrArg some (h.weather found hfound).1, hpositions⟩

theorem timeShape_withPosition (p : Position) :
    ((Line.blankRecord line header).withPosition p).TimeShape := by
  have hformat := hasFormat_of_subset
    (show Format.positions ⊆ .status :: .weather :: Format.positions by decide)
    (hasFormat_withPosition line header p)
  rw [withPosition_blankRecord] at hformat ⊢
  exact timeShape_of_timestamp rfl rfl hformat

theorem shape_withPosition {p : Position} (h : p.WellFormed) :
    ((Line.blankRecord line header).withPosition p).Shape := by
  have hpositions := hasFormat_withPosition line header p
  refine ⟨⟨placeShape_withPosition h, objectShape_withPosition p, micEShape_withPosition p,
    readingsShape_withPosition h⟩, weatherShape_withPosition h, timeShape_withPosition p, ?_, ?_⟩
  · apply messageShape_of_absent
    · rw [withPosition_blankRecord]
      rfl
    · exact hasFormat_eq_false_of_disjoint (by decide) hpositions
  · apply payloadShape_of_absent
    · rw [withPosition_blankRecord]
      rfl
    · exact hasFormat_eq_false_of_disjoint (by decide) hpositions

theorem stationShape_withMicE {m : MicE} (h : m.WellFormed) :
    ((Line.blankRecord line header).withMicE m).StationShape := by
  rw [withMicE_blankRecord]
  have hambiguity : m.ambiguity.toUInt8 ≤ 4 := toUInt8_le h.ambiguity_le
  have hmessage : m.bits.message?.isSome = true := m.bits.message?_isSome
  refine ⟨?place, ?object, ?micE, ?readings⟩
  case place => constructor <;> simp [hasFormat, Format.located, Line.blankRecord, hambiguity]
  case object => constructor <;> simp [hasFormat, Line.blankRecord]
  case micE => refine ⟨?_, ?_, ?_, ?_, ?_, h.channels⟩ <;> simp [hasFormat, hmessage]
  case readings => constructor <;> simp [hasFormat, Format.located, Line.blankRecord]

theorem shape_withMicE {m : MicE} (h : m.WellFormed) :
    ((Line.blankRecord line header).withMicE m).Shape := by
  refine ⟨stationShape_withMicE h, ?weather, ?time, ?message, ?payload⟩ <;>
    rw [withMicE_blankRecord]
  case weather => exact weatherShape_of_absent rfl fun _ => rfl
  case time => exact timeShape_of_absent rfl rfl
  case message => exact messageShape_of_absent rfl rfl
  case payload => exact payloadShape_of_absent rfl rfl

theorem messageShape_withMessage (message : Message) :
    ((Line.blankRecord line header).withMessage message).MessageShape := by
  cases message with
  | bulletin id group text =>
    cases group <;> constructor <;>
      simp [withMessage, nonEmpty, hasFormat, Format.texts, Format.bulletins, Line.blankRecord]
  | announcement id group text =>
    constructor <;>
      simp [withMessage, hasFormat, Format.texts, Format.bulletins, Line.blankRecord]
  | addressed addressee content =>
    cases content <;> constructor <;>
      simp [withMessage, withContent, hasFormat, Format.texts, Format.bulletins, Line.blankRecord]
  | unaddressed => constructor <;> simp [withMessage, hasFormat, Line.blankRecord]

/-- Messages say nothing else. -/
theorem withMessage_absent (line : Text) (header : Header) (message : Message) :
    let r := (Line.blankRecord line header).withMessage message
    r.withoutStation = r ∧ r.withoutPayload = r ∧ r.weather = none ∧ r.comment = [] ∧
      r.rawTimestamp = none ∧ r.timestamp = 0 ∧ r.format = message.format? := by
  cases message with
  | addressed addressee content =>
    cases content <;> exact ⟨rfl, rfl, rfl, rfl, rfl, rfl, rfl⟩
  | _ => exact ⟨rfl, rfl, rfl, rfl, rfl, rfl, rfl⟩

theorem shape_withMessage (message : Message) :
    ((Line.blankRecord line header).withMessage message).Shape := by
  obtain ⟨hstation, hpayload, hweather, hcomment, hraw, htimestamp, hformat⟩ :=
    withMessage_absent line header message
  have hother : ∀ others : List Format,
      (∀ format ∈ .telemetryMessage :: Format.texts, format ∉ others) →
      ((Line.blankRecord line header).withMessage message).hasFormat others = false := by
    intro others hdisjoint
    cases hmessage : message.format? with
    | none => rw [hasFormat, hformat, hmessage, Option.any_none]
    | some format =>
      exact hasFormat_eq_false_of_disjoint hdisjoint
        (hasFormat_eq_true_iff.mpr
          ⟨format, Message.format?_mem hmessage, hformat.trans hmessage⟩)
  exact {
    station := stationShape_of_absent hstation (hother _ (by decide))
    weather := weatherShape_of_absent hweather fun hne => (hne hcomment).elim
    time := timeShape_of_absent hraw htimestamp
    message := messageShape_withMessage message
    payload := payloadShape_of_absent hpayload (hother _ (by decide)) }

theorem shape_withReport {report : Report} (h : report.WellFormed) :
    ((Line.blankRecord line header).withReport report).Shape := by
  cases report with
  | position p => exact shape_withPosition h
  | micE m => exact shape_withMicE h
  | weather w =>
    exact {
      station := stationShape_of_absent rfl rfl
      weather := ⟨h, fun _ => .inl rfl, fun _ => rfl⟩
      time := ⟨fun _ => rfl, fun _ => rfl⟩
      message := messageShape_of_absent rfl rfl
      payload := payloadShape_of_absent rfl rfl }
  | message message => exact shape_withMessage message
  | status timestamp text =>
    rw [withStatus_blankRecord]
    exact {
      station := stationShape_of_absent rfl rfl
      weather := weatherShape_of_absent rfl fun hne => (hne rfl).elim
      time := timeShape_of_timestamp rfl rfl rfl
      message := messageShape_of_absent rfl rfl
      payload := ⟨rfl, nofun, nofun, rfl⟩ }
  | userDefined id type body =>
    exact {
      station := stationShape_of_absent rfl rfl
      weather := weatherShape_of_absent rfl fun hne => (hne rfl).elim
      time := timeShape_of_absent rfl rfl
      message := messageShape_of_absent rfl rfl
      payload := ⟨rfl, fun _ => rfl, fun _ => rfl, rfl⟩ }
  | undecoded body =>
    exact {
      station := stationShape_of_absent rfl rfl
      weather := weatherShape_of_absent rfl fun hne => (hne rfl).elim
      time := timeShape_of_absent rfl rfl
      message := messageShape_of_absent rfl rfl
      payload := ⟨rfl, nofun, nofun, rfl⟩ }

theorem shape_forwardingRecord : (Line.forwardingRecord line header).Shape where
  station := stationShape_of_absent rfl rfl
  weather := weatherShape_of_absent rfl fun hne => (hne rfl).elim
  time := timeShape_of_absent rfl rfl
  message := messageShape_of_absent rfl rfl
  payload := payloadShape_of_absent rfl rfl

end Record

/-- The record of an accepted line, and all records of lines inside it, have the shape of a record:
their members are those of their formats. -/
theorem shape_of_decode {options : Options} {now : Int} {line : Text} {packet : Packet Quantity}
    (h : decode options now line = .ok packet) : ∀ r ∈ packet.records, r.Shape := by
  refine Line.decodeWithin_induction
    (motive := fun _ packet => ∀ r ∈ packet.records, r.Shape) ?plain ?forwarding
    (Reading.mapError_eq_ok_iff.mp h)
  case plain =>
    intro line header type content report _ _ hreport r hr
    rw [Packet.records, List.mem_singleton] at hr
    rw [hr]
    exact Record.shape_withReport (Report.wellFormed_of_decode hreport)
  case forwarding =>
    intro line header content inner _ ih r hr
    rw [Packet.records, List.mem_cons] at hr
    rcases hr with rfl | hr
    · exact Record.shape_forwardingRecord
    · exact ih r hr

/-- An object with weather, in a line that another station forwards. -/
theorem shape_of_decode_weather_object :
    ∃ packet, decode {} 0
        "N1GATE>APRS:\x7dN0CALL>APRS:;LEADER   *092345z4903.50N/07201.75W_t072".toList =
          .ok packet ∧
      packet.records.map (·.format) = [some .thirdParty, some .object] ∧
      ∀ r ∈ packet.records, r.Shape := by
  have hformats : (decode {} 0
      "N1GATE>APRS:\x7dN0CALL>APRS:;LEADER   *092345z4903.50N/07201.75W_t072".toList).map
      (fun packet => packet.records.map (·.format)) = .ok [some .thirdParty, some .object] := by
    cbv
  obtain ⟨packet, hdecode, hformats⟩ := Reading.map_eq_ok_iff.mp hformats
  exact ⟨packet, hdecode, hformats, shape_of_decode hdecode⟩

end Aprs
