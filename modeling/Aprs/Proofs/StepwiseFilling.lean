import Aprs.Proofs.CommentTags
import Aprs.Proofs.Filling
import Aprs.Proofs.WeatherText

/-!
Records filled while a body is read. Each reader writes what it finds into the record at hand and
passes on the rest of the text. What it does not find stays in the record as it was, and a block
that is refused leaves all of the record so. To read first, and to fill the record from what was
read, comes to the same.
-/

namespace Aprs

/-- A reader that writes into a record as it goes, and that may break off. -/
abbrev Filling (α : Type) := EStateM DecodeError (Record Quantity) α

/-- New readings before those that were known. -/
def Readings.or (found known : Readings) : Readings where
  course := found.course.or known.course
  speed := found.speed.or known.speed
  altitude := found.altitude.or known.altitude
  range := found.range.or known.range
  bearing := found.bearing.or known.bearing
  nrq := found.nrq.or known.nrq
  phg := found.phg.or known.phg

theorem Readings.or_empty (found : Readings) : found.or {} = found := by
  simp only [Readings.or, Option.or_none]

namespace Record

variable (r : Record Quantity)

/-- The readings in the record so far. -/
def known : Readings where
  course := r.course
  speed := r.speed
  altitude := r.altitude
  range := r.range
  bearing := r.bearing
  nrq := r.nrq
  phg := r.phg

/-- What a position tells replaces what was known, and the rest stays. -/
def told (fix : Fix) : Record Quantity :=
  { r.withReadings (fix.readings.or r.known) with
    format := some fix.form.format
    latitude := some fix.latitude
    longitude := some fix.longitude
    ambiguity := (fix.form.ambiguity?.map Nat.toUInt8).or r.ambiguity
    symbolTable := some fix.symbolTable
    symbolCode := some fix.symbolCode
    gpsFixStatus := fix.form.current?.or r.gpsFixStatus }

/-- Coordinates with the digits of a precision tag. -/
def refined (dao : Dao) : Record Quantity :=
  { r with
    latitude := r.latitude.map (.outward · dao.offsets.1)
    longitude := r.longitude.map (.outward · dao.offsets.2)
    daoDatum := some dao.datum.toUpper }

/-- The same for a comment, whose text replaces any earlier one. -/
def withComment (comment : Comment) : Record Quantity :=
  let told := r.withReadings (applied r.known comment.extension)
  let told :=
    { told with
      altitude := (comment.altitude.map Altitude.metres).or told.altitude
      telemetry := comment.telemetry.or told.telemetry }
  { comment.dao.elim told told.refined with comment := comment.text }

/-- As long as nothing of the kind was known, a position tells the record what it is filled with. -/
theorem told_eq (hambiguity : r.ambiguity = none) (hstatus : r.gpsFixStatus = none)
    (hknown : r.known = {}) (fix : Fix) :
    r.told fix = (r.withFix fix).withReadings fix.readings := by
  rw [told, hambiguity, hstatus, hknown, Readings.or_empty, Option.or_none, Option.or_none]
  rfl

theorem withComment_eq (htelemetry : r.telemetry = none) (fix : Fix) (comment : Comment) :
    ((r.withFix fix).withReadings fix.readings).withComment comment =
      (r.withFix fix).withRemark fix (.comment comment) := by
  have hnone : r = { r with telemetry := none } := by rw [← htelemetry]
  obtain ⟨extension, altitude, telemetry, dao, text⟩ := comment
  rw [hnone]
  cases telemetry <;> cases dao <;> rfl

end Record

namespace Compressed

def fillFixStatus (c kind : Int) : Filling Unit :=
  if c = -1 then modify fun r => { r with gpsFixStatus := some (bit 5 kind) } else pure ()

def fillReadings (c s kind : Int) : Filling Unit :=
  if c = -1 ∨ s = -1 then pure ()
  else if bit 4 kind && !bit 3 kind then
    modify fun r =>
      { r with altitude := some (.metresOfFeet (.power (.scaled 1002 3) (c * 91 + s))) }
  else if 0 ≤ c ∧ c ≤ 89 then
    modify fun r =>
      { r with
        course := some (if c = 0 then 360 else .ofInt (c * 4))
        speed := some (.ofKnots (.power (.scaled 108 2) s - 1)) }
  else if c = 90 then
    modify fun r => { r with range := some (.kilometresOfMiles (2 * .power (.scaled 108 2) s)) }
  else pure ()

/-- Nothing is written until both coordinates have been read. -/
def fill (body : Text) : Filling Text :=
  match layout.take? body with
  | none => throw .invalidCompressed
  | some (block, rest) => do
    let north ← MonadExcept.ofExcept (number (Text.slice 1 4 block))
    let east ← MonadExcept.ofExcept (number (Text.slice 5 4 block))
    let c := offset (block.getD 10 ' ')
    let s := offset (block.getD 11 ' ')
    let kind := offset (block.getD 12 ' ')
    fillFixStatus c kind
    fillReadings c s kind
    modify fun r =>
      { r with
        format := some .compressed
        latitude := some (latitude north)
        longitude := some (longitude east)
        symbolTable := some (block.getD 0 ' ')
        symbolCode := some (block.getD 9 ' ') }
    return rest

theorem run_fillFixStatus (c kind : Int) (r : Record Quantity) :
    (fillFixStatus c kind).run r =
      .ok () { r with gpsFixStatus := (fixStatus c kind).or r.gpsFixStatus } := by
  unfold fillFixStatus fixStatus
  split <;> rfl

theorem run_fillReadings (c s kind : Int) (r : Record Quantity) :
    (fillReadings c s kind).run r =
      .ok () (r.withReadings ((readings c s kind).or r.known)) := by
  unfold fillReadings readings
  split_ifs <;> rfl

theorem run_fill (body : Text) (r : Record Quantity) :
    (fill body).run r =
      match decode body with
      | .ok (fix, rest) => .ok rest (r.told fix)
      | .error e => .error e r := by
  unfold fill decode
  cases layout.take? body with
  | none => rfl
  | some parts =>
    obtain ⟨block, rest⟩ := parts
    dsimp only
    cases number (Text.slice 1 4 block) with
    | error e => rfl
    | ok north =>
      cases number (Text.slice 5 4 block) with
      | error e => rfl
      | ok east =>
        simp only [MonadExcept.ofExcept, pure_bind, EStateM.run_bind, run_fillFixStatus,
          run_fillReadings]
        rfl

end Compressed

def Uncompressed.fill (body : Text) : Filling (Option Text) :=
  match decode? body with
  | .error cause => throw (.invalidPosition cause)
  | .ok none => pure none
  | .ok (some (fix, rest)) => do
    modify (·.told fix)
    return some rest

section Remarks

def Extension.fill (t : Text) : Filling Text := do
  let (extension, rest) := split t
  modify fun r => r.withReadings (Record.applied r.known extension)
  return rest

def Altitude.fill (t : Text) : Filling Text := do
  let (feet, rest) := split t
  modify fun r => { r with altitude := (feet.map metres).or r.altitude }
  return rest

def Telemetry.fill (t : Text) : Filling Text := do
  let (found, rest) := split t
  modify fun r => { r with telemetry := found.or r.telemetry }
  return rest

def Dao.fill (t : Text) : Filling Text := do
  let (found, rest) := split t
  modify fun r => found.elim r r.refined
  return rest

def Comment.fill (t : Text) : Filling Unit := do
  let t ← Extension.fill t
  let t ← Altitude.fill t
  let t ← Telemetry.fill t
  let t ← Dao.fill t
  modify fun r => { r with comment := Text.trimSpaces (dropSlash t) }

def Weather.fill (t : Text) : Filling Text := do
  let (found, rest) := splitOnto (← get).weather t
  modify fun r => { r with weather := found }
  return rest

/-- The symbol in the record tells a weather station. -/
def Remark.fill (t : Text) : Filling Unit := do
  if (← get).symbolCode = some weatherSymbol then
    let t ← Extension.fill t
    let t ← Weather.fill t
    modify fun r => { r with comment := Text.trimSpaces t }
  else
    Comment.fill t

theorem Extension.run_fill {t rest : Text} {found : Option Extension}
    (h : split t = (found, rest)) (r : Record Quantity) :
    (fill t).run r = .ok rest (r.withReadings (Record.applied r.known found)) := by
  rw [fill, h]
  rfl

theorem Altitude.run_fill {t rest : Text} {feet : Option Int} (h : split t = (feet, rest))
    (r : Record Quantity) :
    (fill t).run r = .ok rest { r with altitude := (feet.map metres).or r.altitude } := by
  rw [fill, h]
  rfl

theorem Telemetry.run_fill {t rest : Text} {found : Option Telemetry}
    (h : split t = (found, rest)) (r : Record Quantity) :
    (fill t).run r = .ok rest { r with telemetry := found.or r.telemetry } := by
  rw [fill, h]
  rfl

theorem Dao.run_fill {t rest : Text} {found : Option Dao} (h : split t = (found, rest))
    (r : Record Quantity) : (fill t).run r = .ok rest (found.elim r r.refined) := by
  rw [fill, h]
  rfl

theorem Comment.run_fill (t : Text) (r : Record Quantity) :
    (fill t).run r = .ok () (r.withComment (read t)) :=
  rfl

theorem Remark.run_fill (t : Text) {r : Record Quantity} (htelemetry : r.telemetry = none)
    (hweather : r.weather = none) (fix : Fix) :
    (fill t).run ((r.withFix fix).withReadings fix.readings) =
      .ok () ((r.withFix fix).withRemark fix (read fix.symbolCode t)) := by
  have hcode : ((r.withFix fix).withReadings fix.readings).symbolCode = some weatherSymbol ↔
      fix.symbolCode = weatherSymbol := Option.some_inj
  rw [fill, EStateM.run_bind, EStateM.run_get, read]
  dsimp only
  by_cases hsymbol : fix.symbolCode = weatherSymbol
  · have hnone : r = { r with weather := none } := by rw [← hweather]
    rw [if_pos (hcode.mpr hsymbol), if_pos hsymbol, hnone]
    rfl
  · rw [if_neg (mt hcode.mp hsymbol), if_neg hsymbol, Comment.run_fill, r.withComment_eq htelemetry]

end Remarks

/-- A text in neither layout is refused as a block. -/
def Position.fill (body : Text) : Filling Unit := do
  match ← Uncompressed.fill body with
  | some rest => Remark.fill rest
  | none => Remark.fill (← Compressed.fill body)

theorem Position.run_fill (body : Text) {r : Record Quantity} (hambiguity : r.ambiguity = none)
    (hstatus : r.gpsFixStatus = none) (hknown : r.known = {})
    (htelemetry : r.telemetry = none) (hweather : r.weather = none) :
    (fill body).run r =
      match takeFix body with
      | .ok (fix, rest) => .ok () ((r.withFix fix).withRemark fix (Remark.read fix.symbolCode rest))
      | .error e => .error e r := by
  have htold := r.told_eq hambiguity hstatus hknown
  have hremark := fun fix rest => Remark.run_fill rest htelemetry hweather fix
  rw [fill, EStateM.run_bind, Uncompressed.fill, takeFix]
  cases Uncompressed.decode? body with
  | error cause => rfl
  | ok found =>
    cases found with
    | some parts =>
      obtain ⟨fix, rest⟩ := parts
      change (Remark.fill rest).run (r.told fix) = _
      rw [htold, hremark]
    | none =>
      change (Compressed.fill body >>= Remark.fill).run r = _
      rw [EStateM.run_bind, Compressed.run_fill]
      cases Compressed.decode body with
      | error e => rfl
      | ok found =>
        dsimp only
        rw [htold, hremark]

namespace MicE

/-- What the destination and the first eight characters of a body tell. -/
def fillPosition (destination body : Text) : Filling Unit := do
  let (latitude, ambiguity) ← MonadExcept.ofExcept
    ((decodeLatitude destination).mapError .invalidMicE)
  modify fun r =>
    { r with
      latitude := some (.negIf (!isFlagged destination 3) latitude)
      longitude := some (.negIf (isFlagged destination 5)
        (decodeLongitude body (isFlagged destination 4) ambiguity))
      ambiguity := some ambiguity.toUInt8
      symbolTable := some (body.getD 7 ' ')
      symbolCode := some (body.getD 6 ' ')
      micEBits := some (bitsOf destination).text
      micEMessage := (bitsOf destination).message?.map String.toList
      speed := some (.ofKnots (.ofNat (knots body)))
      course := some (.ofNat (degrees body)) }

def fillChannels (t : Text) : Filling Text := do
  let (channels, rest) ← MonadExcept.ofExcept ((splitChannels t).mapError .invalidMicE)
  modify fun r => { r with micETelemetry := channels.or r.micETelemetry }
  return rest

def fillAltitude (t : Text) : Filling Text := do
  let (altitude, rest) ← MonadExcept.ofExcept (splitAltitude t)
  modify fun r => { r with altitude := altitude.or r.altitude }
  return rest

/-- What stands behind the position. -/
def fillRest (t : Text) : Filling Unit := do
  let t ← fillChannels t
  let t ← fillAltitude t
  let t ← Telemetry.fill t
  let t ← Dao.fill t
  modify fun r => { r with comment := Text.trimSpaces t }

def fill (destination body : Text) : Filling Unit := do
  let destination := Text.upTo '-' destination
  modify fun r => { r with format := some .micE }
  MonadExcept.ofExcept ((check destination body).mapError .invalidMicE)
  fillPosition destination body
  fillRest (body.drop 8)

theorem run_fillChannels {t rest : Text} {channels : Option (List UInt8)}
    (h : splitChannels t = .ok (channels, rest)) (r : Record Quantity) :
    (fillChannels t).run r = .ok rest { r with micETelemetry := channels.or r.micETelemetry } := by
  rw [fillChannels, h]
  rfl

theorem run_fillAltitude {t rest : Text} {altitude : Option Quantity}
    (h : splitAltitude t = .ok (altitude, rest)) (r : Record Quantity) :
    (fillAltitude t).run r = .ok rest { r with altitude := altitude.or r.altitude } := by
  rw [fillAltitude, h]
  rfl

theorem run_fillRest {t first second third last : Text} {channels : Option (List UInt8)}
    {altitude : Option Quantity} {telemetry : Option Telemetry} {dao : Option Dao}
    (hchannels : splitChannels t = .ok (channels, first))
    (haltitude : splitAltitude first = .ok (altitude, second))
    (htelemetry : Telemetry.split second = (telemetry, third))
    (hdao : Dao.split third = (dao, last)) (r : Record Quantity) :
    let told :=
      { r with
        micETelemetry := channels.or r.micETelemetry
        altitude := altitude.or r.altitude
        telemetry := telemetry.or r.telemetry }
    (fillRest t).run r =
      .ok () { dao.elim told told.refined with comment := Text.trimSpaces last } := by
  rw [fillRest, EStateM.run_bind, run_fillChannels hchannels]
  dsimp only
  rw [EStateM.run_bind, run_fillAltitude haltitude]
  dsimp only
  rw [EStateM.run_bind, Telemetry.run_fill htelemetry]
  dsimp only
  rw [EStateM.run_bind, Dao.run_fill hdao]
  rfl

/-- A report that is refused is a Mic-E report nevertheless. Once the position has been read, there
is nothing left that could fail. -/
theorem run_fill (destination body : Text) {r : Record Quantity} (haltitude : r.altitude = none)
    (htelemetry : r.telemetry = none) (hchannels : r.micETelemetry = none) :
    (fill destination body).run r =
      match decode destination body with
      | .ok m => .ok () (r.withMicE m)
      | .error e => .error e { r with format := some .micE } := by
  have hblank : r = { r with altitude := none, telemetry := none, micETelemetry := none } := by
    rw [← haltitude, ← htelemetry, ← hchannels]
  obtain ⟨channels, rest, hfirst, -⟩ := exists_splitChannels_eq_ok (body.drop 8)
  obtain ⟨altitude, rest, hsecond, -⟩ := exists_splitAltitude_eq_ok rest
  obtain ⟨⟨telemetry, rest⟩, hthird⟩ : ∃ parts, Telemetry.split rest = parts := ⟨_, rfl⟩
  obtain ⟨⟨dao, rest⟩, hfourth⟩ : ∃ parts, Dao.split rest = parts := ⟨_, rfl⟩
  unfold fill decode
  dsimp only
  cases check (Text.upTo '-' destination) body with
  | error e => rfl
  | ok =>
    rw [fillPosition]
    cases decodeLatitude (Text.upTo '-' destination) with
    | error e => rfl
    | ok found =>
      change (fillRest (body.drop 8)).run _ = _
      rw [run_fillRest hfirst hsecond hthird hfourth, hblank, hfirst]
      change _ = (match (splitAltitude _ >>= _ : Except DecodeError MicE) with
        | .ok m => EStateM.Result.ok () (Record.withMicE _ m)
        | .error e => .error e _)
      rw [hsecond]
      dsimp only [bind, Except.bind]
      rw [hthird]
      dsimp only
      rw [hfourth]
      rw [Option.or_none, Option.or_none, Option.or_none]
      cases dao <;> rfl

end MicE

end Aprs
