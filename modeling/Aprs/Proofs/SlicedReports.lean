import Aprs.Proofs.Rejection
import Aprs.Proofs.SlicedMicE

/-!
Packets decoded at byte offsets. Each decoder fills in the record of its line, as far as it gets,
and what it fills in is what the report says that is read from the same text. So no line leads to an
offset inside a character or behind the text, to a byte behind the last, or to a difference below
zero: a decoder that comes to nothing on any of these has an answer for every line, and the same.
-/

namespace Aprs.Sliced

open Byte Text

section Positions

/-- What follows a position, with the readings and the coordinates that the position gave. -/
def remark (fix : Fix) (r : Record Quantity) (t : Text) : Option (Record Quantity) := do
  let (readings, t) ← dataExtension fix.readings t
  if fix.symbolCode = Remark.weatherSymbol then
    let (found, t) ← weather t
    return { r.withReadings readings with weather := found, comment := trimSpaces t }
  else
    let (feet, t) := Altitude.split t
    let (telemetry, t) ← telemetry t
    let (datum, latitude, longitude, t) ← dao fix.latitude fix.longitude t
    let altitude := (feet.map Altitude.metres).or readings.altitude
    return { r.withReadings { readings with altitude } with
      latitude := some latitude
      longitude := some longitude
      daoDatum := datum.or r.daoDatum
      telemetry
      comment := trimSpaces (Comment.dropSlash t) }

def takeObject : PositionKind → Text → Run DecodeError (Option ObjectHeader × Text)
  | .station .., body => pure (none, body)
  | .object, body => do
    let (header, rest) ← objectHeader body
    return (some header, rest)

def takeTimestamp (now : Int) (kind : PositionKind) (body : Text) :
    Run DecodeError (Option Timestamp × Text) :=
  if kind.isTimed then do
    let (timestamp, rest) ← timestamp now body
    return (some timestamp, rest)
  else pure (none, body)

def takeFix (body : Text) : Run DecodeError (Fix × Text) := do
  match ← uncompressed body with
  | some result => return result
  | none => compressed body

def position (now : Int) (kind : PositionKind) (body : Text) (r : Record Quantity) :
    Run DecodeError (Record Quantity) := do
  let (object, body) ← takeObject kind body
  let (timestamp, body) ← takeTimestamp now kind body
  if Position.endsEarly timestamp body then throw .invalidTimestamp
  let (fix, body) ← takeFix body
  let r := { r with messageCapable := kind.messageCapable }
  let r ← remark fix ((r.withTimestamp timestamp).withFix fix) body
  return r.withObject object

theorem remark_eq_some (fix : Fix) (r : Record Quantity) (t : Text) :
    remark fix r t = some (r.withRemark fix (Remark.read fix.symbolCode t)) := by
  rw [remark, dataExtension_eq_some, Remark.read]
  simp only [Option.bind_eq_bind, Option.bind_some]
  split
  · rw [weather_eq_some]
    rfl
  · rw [telemetry_eq_some, Option.bind_some, dao_eq_some, Option.bind_some]
    simp only [Comment.read, Record.withRemark]
    cases (Dao.split _).1 <;> rfl

theorem comesTo_takeObject (kind : PositionKind) (body : Text) :
    (takeObject kind body).ComesTo (Position.takeObject kind body) := by
  cases kind with
  | station capable timed => exact Run.comesTo_pure _
  | object =>
    rw [takeObject, Position.takeObject]
    refine (comesTo_objectHeader body).optional_bind (fun hnone => by rw [hnone]) ?_
    intro found hfound
    rw [hfound]
    exact Run.comesTo_pure _

theorem comesTo_takeTimestamp (now : Int) (kind : PositionKind) (body : Text) :
    (takeTimestamp now kind body).ComesTo (Position.takeTimestamp now kind body) := by
  rw [takeTimestamp, Position.takeTimestamp]
  split
  · refine (comesTo_timestamp now body).optional_bind (fun hnone => by rw [hnone]) ?_
    intro found hfound
    rw [hfound]
    exact Run.comesTo_pure _
  · exact Run.comesTo_pure _

theorem comesTo_takeFix (body : Text) : (takeFix body).ComesTo (Position.takeFix body) := by
  have huncompressed := comesTo_uncompressed body
  rw [takeFix, Position.takeFix]
  cases hdecode : Uncompressed.decode? body with
  | error cause =>
    rw [hdecode] at huncompressed
    exact huncompressed.error_bind _
  | ok result =>
    rw [hdecode] at huncompressed
    refine huncompressed.ok_bind ?_
    cases result with
    | none => exact comesTo_compressed body
    | some result => exact Run.comesTo_pure _

theorem comesTo_position (now : Int) (kind : PositionKind) (body : Text) (r : Record Quantity) :
    (position now kind body r).ComesTo ((Position.decode now kind body).map r.withPosition) := by
  rw [position, Position.decode]
  refine Run.ComesTo.bind_map (comesTo_takeObject kind body) fun parts _ => ?_
  obtain ⟨object, body⟩ := parts
  refine Run.ComesTo.bind_map (comesTo_takeTimestamp now kind body) fun parts _ => ?_
  obtain ⟨timestamp, body⟩ := parts
  dsimp only
  split
  · exact Run.comesTo_throw _
  · refine Run.ComesTo.bind_map (comesTo_takeFix body) fun parts _ => ?_
    obtain ⟨fix, body⟩ := parts
    exact Run.ComesTo.lift_bind (remark_eq_some fix _ body) (Run.comesTo_pure _)

end Positions

section Lines

def status (now : Int) (body : Text) (r : Record Quantity) : Run DecodeError (Record Quantity) :=
  if (Report.statusTimeLayout.take? body).isSome then do
    let (timestamp, rest) ← timestamp now body
    return { r.withTimestamp (some timestamp) with
      format := some .status
      status := some (trimSpaces rest) }
  else pure { r with format := some .status, status := some (trimSpaces body) }

/-- Bodies of some types are kept or matched as a whole and not cut at any offset. -/
def report (now : Int) (destination : Text) (type : Char) (body : Text) (r : Record Quantity) :
    Run DecodeError (Record Quantity) :=
  match PositionKind.ofChar? type with
  | some kind => position now kind body r
  | none =>
    if Report.isMicE type then micE destination body r
    else
      match type with
      | ',' | '\x7b' | ':' => do
        return r.withReport (← Run.ofExcept (Report.decode now destination type body))
      | '>' => status now body r
      | '_' => do return r.withReport (.weather (← weatherReport now body))
      | _ =>
        match splitFirst? '!' body with
        | some (before, after) =>
          if before.byteLength < Report.bangLimit then position now (.station false false) after r
          else pure (r.withReport (.undecoded body))
        | none => pure (r.withReport (.undecoded body))

def splitType (body : Text) : Option (Option (Char × Text)) :=
  match dropPrefix? Line.garbledQuote body with
  | some rest => some (some (Report.typographicQuote, rest))
  | none =>
    match body with
    | [] => some none
    | type :: _ => do return some (type, ← body.dropBytes? type.utf8Size)

def split (options : Options) (line : Text) : Run DecodeError (Header × Char × Text) :=
  if line.isEmpty then throw .emptyPacket
  else
    match splitFirst? ':' (trim Line.isLineEnd line) with
    | none => throw .missingBody
    | some (head, body) => do
      let header ← Run.ofExcept ((Header.decode options head).mapError .invalidHeader)
      match ← splitType body with
      | none => throw .emptyBody
      | some (type, content) => do
        Run.ofExcept (Line.checkType type content)
        return (header, type, content)

def decodeWithin (options : Options) (now : Int) :
    Nat → Text → Run DecodeError (Packet Quantity)
  | levels, line => do
    let (header, type, content) ← split options line
    let record := Line.blankRecord line header
    if type = '\x7d' then
      match levels with
      | 0 => throw (.thirdPartyTooDeep options.maxThirdPartyDepth)
      | levels + 1 =>
        let inner ← decodeWithin options now levels content
        return .forwarding { record with format := some .thirdParty } inner
    else return .plain (← report now header.destination type content record)

def decode (options : Options) (now : Int) (line : Text) :
    Option (Except Failure (Packet Quantity)) := do
  let answer ← decodeWithin options now options.maxThirdPartyDepth line
  return answer.mapError fun error => ⟨line, error⟩

theorem comesTo_status (now : Int) (body : Text) (r : Record Quantity) :
    (status now body r).ComesTo ((Report.status? now body).map r.withReport) := by
  rw [status, Report.status?]
  split
  · refine (comesTo_timestamp now body).optional_bind (fun hnone => by rw [hnone]; rfl) ?_
    intro found hfound
    rw [hfound]
    exact Run.comesTo_pure _
  · exact Run.comesTo_pure _

theorem comesTo_reportedPosition (now : Int) (kind : PositionKind) (body : Text)
    (r : Record Quantity) :
    (position now kind body r).ComesTo
      (((Position.decode now kind body).map Report.position).map r.withReport) := by
  have hposition := comesTo_position now kind body r
  cases hdecode : Position.decode now kind body <;> rwa [hdecode] at hposition

theorem comesTo_report (line : Text) (header : Header) (now : Int) (destination : Text)
    (type : Char) (body : Text) :
    (report now destination type body (Line.blankRecord line header)).ComesTo
      ((Report.decode now destination type body).map
        (Line.blankRecord line header).withReport) := by
  unfold report
  cases hkind : PositionKind.ofChar? type with
  | some kind =>
    unfold Report.decode
    rw [hkind]
    exact comesTo_reportedPosition now kind body _
  | none =>
    dsimp only
    split
    · next hmicE =>
      have hreport := comesTo_micE line header destination body
      unfold Report.decode
      rw [hkind]
      dsimp only
      rw [if_pos hmicE]
      cases hdecode : MicE.decode destination body <;> rwa [hdecode] at hreport
    · next hmicE =>
      split
      · exact Run.comesTo_map _ _
      · exact Run.comesTo_map _ _
      · exact Run.comesTo_map _ _
      · exact comesTo_status now body _
      · unfold Report.decode
        rw [hkind]
        dsimp only
        rw [if_neg hmicE]
        refine (comesTo_weatherReport now body).optional_bind (fun hnone => by rw [hnone]; rfl) ?_
        intro found hfound
        rw [hfound]
        exact Run.comesTo_pure _
      · next hinvalid huser hmessage hstatus hweather =>
        rw [Report.decode_eq_decodeUnknown hkind hmicE hinvalid huser hmessage hstatus hweather,
          Report.decodeUnknown]
        cases splitFirst? '!' body with
        | none => exact Run.comesTo_pure _
        | some parts =>
          dsimp only
          split
          · exact comesTo_reportedPosition ..
          · exact Run.comesTo_pure _

theorem splitType_eq_some (body : Text) : splitType body = some (Line.splitType? body) := by
  unfold splitType Line.splitType?
  cases dropPrefix? Line.garbledQuote body with
  | some rest => rfl
  | none =>
    cases body with
    | nil => rfl
    | cons type rest =>
      have hrest : dropBytes? type.utf8Size (type :: rest) = some rest :=
        dropBytes?_append (byteLength_cons type []) rest
      dsimp only
      rw [hrest]
      rfl

theorem comesTo_split (options : Options) (line : Text) :
    (split options line).ComesTo (Line.split options line) := by
  rw [split, Line.split]
  split
  · exact Run.comesTo_throw _
  · cases splitFirst? ':' (trim Line.isLineEnd line) with
    | none => exact Run.comesTo_throw _
    | some parts =>
      obtain ⟨head, body⟩ := parts
      refine Run.ComesTo.bind (Run.comesTo_ofExcept _) fun header _ => ?_
      refine Run.ComesTo.lift_bind (splitType_eq_some body) ?_
      cases Line.splitType? body with
      | none => exact Run.comesTo_throw _
      | some parts =>
        exact Run.ComesTo.bind (Run.comesTo_ofExcept _) fun _ _ => Run.comesTo_pure _

theorem comesTo_plain (line : Text) (header : Header) (now : Int) (type : Char) (content : Text) :
    Run.ComesTo (do
        let record ← report now header.destination type content (Line.blankRecord line header)
        return Packet.plain record) (do
        let report ← Report.decode now header.destination type content
        return Packet.plain ((Line.blankRecord line header).withReport report)) := by
  have hreport := comesTo_report line header now header.destination type content
  cases hdecode : Report.decode now header.destination type content with
  | error e =>
    rw [hdecode] at hreport
    exact hreport.error_bind _
  | ok report =>
    rw [hdecode] at hreport
    exact hreport.ok_bind (Run.comesTo_pure _)

theorem comesTo_decodeWithin (options : Options) (now : Int) (levels : Nat) (line : Text) :
    (decodeWithin options now levels line).ComesTo (Line.decodeWithin options now levels line) := by
  induction levels generalizing line with
  | zero =>
    rw [decodeWithin, Line.decodeWithin]
    refine Run.ComesTo.bind (comesTo_split options line) fun parts _ => ?_
    obtain ⟨header, type, content⟩ := parts
    dsimp only
    split
    · exact Run.comesTo_throw _
    · exact comesTo_plain line header now type content
  | succ levels ih =>
    rw [decodeWithin, Line.decodeWithin]
    refine Run.ComesTo.bind (comesTo_split options line) fun parts _ => ?_
    obtain ⟨header, type, content⟩ := parts
    dsimp only
    split
    · exact Run.ComesTo.bind (ih content) fun inner _ => Run.comesTo_pure _
    · exact comesTo_plain line header now type content

/-- Every line is decoded with all offsets, places and differences in place, and to the packet or
the failure that it has when it is taken character by character. -/
theorem decode_eq_some_decode (options : Options) (now : Int) (line : Text) :
    decode options now line = some (Aprs.decode options now line) := by
  have hrun : decodeWithin options now options.maxThirdPartyDepth line =
      ExceptT.mk (some (Line.decodeWithin options now options.maxThirdPartyDepth line)) :=
    comesTo_decodeWithin ..
  rw [decode, hrun]
  rfl

end Lines

end Aprs.Sliced
