import Aprs.Proofs.MicECoordinates
import Aprs.Proofs.SlicedComments

/-!
Mic-E reports, cut at byte offsets. The layouts of the destination and of the body leave only
characters of one byte, six and eight of them, and what becomes of the latitude in between keeps
that so: each of its characters is turned into another one of one byte.
-/

namespace Aprs.Sliced

open Byte Text

def charAt (bytes : List UInt8) (i : Nat) : Option Char := do return toChar (← at? bytes i)

section Latitude

def latitudeDigit (b : UInt8) : Option Char :=
  if b = 75 ∨ b = 76 ∨ b = 90 then some ' '
  else if 76 < b then do return toChar (← sub? b 32)
  else if 57 < b then do return toChar (← sub? b 17)
  else some (toChar b)

def latitudeDigits : List UInt8 → Option Text
  | [] => some []
  | b :: bytes => do return (← latitudeDigit b) :: (← latitudeDigits bytes)

/-- Puts the middle in the place of the first blank. The place is a difference as well. -/
def mark (ambiguity : Nat) (digits : List UInt8) : Option (List UInt8) :=
  if 4 ≤ ambiguity then set? 2 51 digits
  else if 0 < ambiguity then if ambiguity ≤ 6 then set? (6 - ambiguity) 53 digits else none
  else some digits

/-- The latitude with its sign, and the ambiguity. -/
def latitude (dst : List UInt8) : Run MicEError (Quantity × Nat) := do
  let digits ← latitudeDigits dst
  match MicE.ambiguity? digits with
  | none => throw .invalidAmbiguity
  | some ambiguity =>
    if 4 < ambiguity then throw (.unsupportedAmbiguity ambiguity)
    else do
      let marked ← ofBytes? (← mark ambiguity digits.bytes)
      let filled : Text := marked.map fun c => if c = ' ' then '0' else c
      let whole ← filled.sliceBytes? 2 4
      let hundredths ← filled.sliceBytes? 4 6
      match Decimal.parse? (whole ++ '.' :: hundredths) with
      | none => throw .invalidAmbiguity
      | some minutes => do
        match Decimal.parse? (← filled.takeBytes? 2) with
        | none => throw .invalidAmbiguity
        | some degrees => do
          let south := decide ((← charAt dst 3) ≤ 'L')
          return (.negIf south (.ofDegreesMinutes (.decimal degrees) (.decimal minutes)), ambiguity)

theorem latitudeDigit_eq_some {c : Char} (h : c.toNat < 128) :
    latitudeDigit c.toUInt8 = some (MicE.latitudeDigit c) ∧ (MicE.latitudeDigit c).toNat < 128 := by
  refine ascii_cases h ?_
  decide

theorem latitudeDigits_eq_some {destination : Text} (h : IsAscii destination) :
    latitudeDigits (destination.map Char.toUInt8) = some (destination.map MicE.latitudeDigit) := by
  induction destination with
  | nil => rfl
  | cons c destination ih =>
    obtain ⟨hc, hdestination⟩ := isAscii_cons.mp h
    rw [List.map_cons, latitudeDigits, (latitudeDigit_eq_some hc).1, ih hdestination]
    rfl

theorem isAscii_map {f : Char → Char} {t : Text} (h : IsAscii t)
    (hf : ∀ c, c.toNat < 128 → (f c).toNat < 128) : IsAscii (t.map f) := by
  intro d hd
  obtain ⟨c, hc, rfl⟩ := List.mem_map.mp hd
  exact hf c (h c hc)

theorem isAscii_set {t : Text} {c : Char} (h : IsAscii t) (hc : c.toNat < 128) (i : Nat) :
    IsAscii (t.set i c) := by
  intro d hd
  obtain hd | rfl := List.mem_or_eq_of_mem_set hd
  · exact h d hd
  · exact hc

theorem set?_map {t : Text} {i : Nat} (hi : i < t.length) (c : Char) :
    set? i c.toUInt8 (t.map Char.toUInt8) = some ((t.set i c).map Char.toUInt8) := by
  rw [set?, if_pos (by rwa [List.length_map]), List.map_set]

theorem ofBytes?_map {t : Text} (h : IsAscii t) : ofBytes? (t.map Char.toUInt8) = some t := by
  rw [← h.bytes, ofBytes?_bytes]

/-- The place of the first blank is one of six, and behind the degrees. -/
theorem exists_mark_eq_some {digits : Text} (h : IsAscii digits) (hlength : digits.length = 6)
    (ambiguity : Nat) :
    ∃ marked : Text, mark ambiguity digits.bytes = some (marked.map Char.toUInt8) ∧
      IsAscii marked ∧ marked.length = 6 ∧
      MicE.fillBlanks digits ambiguity = marked.map fun c => if c = ' ' then '0' else c := by
  rw [h.bytes, MicE.fillBlanks, mark]
  split
  · exact ⟨digits.set 2 '3', set?_map (by omega) '3', isAscii_set h (by decide) 2,
      by rw [List.length_set, hlength], rfl⟩
  · split
    · rw [if_pos (by omega)]
      exact ⟨digits.set (6 - ambiguity) '5', set?_map (by omega) '5', isAscii_set h (by decide) _,
        by rw [List.length_set, hlength], rfl⟩
    · exact ⟨digits, rfl, h, hlength, rfl⟩

theorem isAscii_fillBlanks {digits : Text} (h : IsAscii digits) (hlength : digits.length = 6)
    (ambiguity : Nat) : IsAscii (MicE.fillBlanks digits ambiguity) ∧
      (MicE.fillBlanks digits ambiguity).length = 6 := by
  obtain ⟨marked, _, hmarked, hmarkedLength, hfill⟩ := exists_mark_eq_some h hlength ambiguity
  rw [hfill]
  refine ⟨isAscii_map hmarked fun c hc => ?_, by rw [List.length_map, hmarkedLength]⟩
  split
  · decide
  · exact hc

/-- Letters between those of the blanks and those of the flags stand for no digit. -/
theorem decide_le_eq_not_decide_le {c : Char} (h : c.toNat < 128)
    (hdigit : (MicE.latitudeDigit c).isDigit = true ∨ MicE.latitudeDigit c = ' ') :
    decide (c ≤ 'L') = !decide ('P' ≤ c) := by
  revert hdigit
  refine ascii_cases h ?_
  decide

theorem isDigit_or_blank_of_ambiguity? {digits : Text} {ambiguity : Nat}
    (h : MicE.ambiguity? digits = some ambiguity) :
    ∀ c ∈ digits, c.isDigit = true ∨ c = ' ' := by
  obtain ⟨known, rfl, hknown⟩ := MicE.exists_eq_append_of_ambiguity? h
  intro c hc
  rcases List.mem_append.mp hc with hc | hc
  · exact .inl (hknown c hc)
  · exact .inr (List.eq_of_mem_replicate hc)

theorem charAt_bytes_append {u : Text} (h : IsAscii u) {i : Nat} (hi : i < u.length) (v : Text) :
    charAt (Text.bytes (u ++ v)) i = some ((u ++ v).getD i ' ') := by
  rw [charAt, h.at?_bytes_append hi, Option.bind_eq_bind, Option.bind_some,
    toChar_toUInt8 (h.getD i), List.getD_append _ _ _ _ hi]
  rfl

theorem charAt_bytes {t : Text} (h : IsAscii t) {i : Nat} (hi : i < t.length) :
    charAt t.bytes i = some (t.getD i ' ') := by
  have hat := charAt_bytes_append h hi []
  rwa [List.append_nil] at hat

theorem comesTo_latitude {destination : Text} (h : IsAscii destination)
    (hlength : destination.length = 6) :
    (latitude destination.bytes).ComesTo
      ((MicE.decodeLatitude destination).map fun (latitude, ambiguity) =>
        (.negIf (!MicE.isFlagged destination 3) latitude, ambiguity)) := by
  have hdigits : latitudeDigits destination.bytes = some (destination.map MicE.latitudeDigit) := by
    rw [h.bytes, latitudeDigits_eq_some h]
  have hascii : IsAscii (destination.map MicE.latitudeDigit) :=
    isAscii_map h fun c hc => (latitudeDigit_eq_some hc).2
  have hsix : (destination.map MicE.latitudeDigit).length = 6 := by rw [List.length_map, hlength]
  rw [latitude, MicE.decodeLatitude]
  refine Run.ComesTo.lift_bind hdigits ?_
  cases hambiguity : MicE.ambiguity? (destination.map MicE.latitudeDigit) with
  | none => exact Run.comesTo_throw _
  | some ambiguity =>
    dsimp only
    split
    · exact Run.comesTo_throw _
    -- the hemisphere is read off the code of a letter, which is one of a digit or of a blank here
    have hdigit : (MicE.latitudeDigit (destination.getD 3 ' ')).isDigit = true ∨
        MicE.latitudeDigit (destination.getD 3 ' ') = ' ' := by
      refine isDigit_or_blank_of_ambiguity? hambiguity _ (List.mem_map_of_mem ?_)
      rw [List.getD_eq_getElem _ _ (by omega)]
      exact List.getElem_mem _
    obtain ⟨marked, hmark, hmarked, _, hfill⟩ := exists_mark_eq_some hascii hsix ambiguity
    obtain ⟨hfilled, hfilledLength⟩ := isAscii_fillBlanks hascii hsix ambiguity
    refine Run.ComesTo.lift_bind hmark (Run.ComesTo.lift_bind (ofBytes?_map hmarked) ?_)
    rw [← hfill]
    generalize MicE.fillBlanks (destination.map MicE.latitudeDigit) ambiguity = filled at *
    have hwhole : filled.sliceBytes? 2 4 = some (slice 2 2 filled) :=
      hfilled.sliceBytes?_eq_some (by decide) (by omega)
    have hhundredths : filled.sliceBytes? 4 6 = some (slice 4 2 filled) :=
      hfilled.sliceBytes?_eq_some (by decide) (by omega)
    have hdegrees : filled.takeBytes? 2 = some (slice 0 2 filled) :=
      hfilled.takeBytes?_eq_some (by omega)
    refine Run.ComesTo.lift_bind hwhole (Run.ComesTo.lift_bind hhundredths ?_)
    cases Decimal.parse? (slice 2 2 filled ++ '.' :: slice 4 2 filled) with
    | none => exact Run.comesTo_throw _
    | some minutes =>
      refine Run.ComesTo.lift_bind hdegrees ?_
      cases Decimal.parse? (slice 0 2 filled) with
      | none => exact Run.comesTo_throw _
      | some degrees =>
        refine Run.ComesTo.lift_bind (charAt_bytes h (by omega)) ?_
        rw [decide_le_eq_not_decide_le (h.getD 3) hdigit]
        exact Run.comesTo_pure _

end Latitude

section Body

/-- The longitude with its sign. -/
def longitude (dst info : List UInt8) (ambiguity : Nat) : Option Quantity := do
  let offset := decide ('P' ≤ (← charAt dst 4))
  let degrees := MicE.longitudeDegrees (← charAt info 0) offset
  let minutes := MicE.longitudeMinutes (← charAt info 1)
  let hundredths := MicE.count (← charAt info 2)
  let west := decide ('P' ≤ (← charAt dst 5))
  return .negIf west
    (.ofDegreesMinutes (.ofNat degrees) (MicE.centre minutes hundredths ambiguity))

/-- Speed in knots, and course. -/
def speedCourse (info : List UInt8) : Option (Nat × Nat) := do
  let tens := MicE.count (← charAt info 3)
  let shared := MicE.count (← charAt info 4)
  let units := MicE.count (← charAt info 5)
  return (MicE.wrap 800 (tens * 10 + shared / 10), MicE.wrap 400 (shared % 10 * 100 + units))

theorem longitude_eq_some {destination field : Text} (hdestination : IsAscii destination)
    (hsix : destination.length = 6) (hfield : IsAscii field) (height : field.length = 8)
    (rest : Text) (ambiguity : Nat) :
    longitude destination.bytes (Text.bytes (field ++ rest)) ambiguity =
      some (.negIf (MicE.isFlagged destination 5)
        (MicE.decodeLongitude (field ++ rest) (MicE.isFlagged destination 4) ambiguity)) := by
  rw [longitude, charAt_bytes hdestination (by omega), charAt_bytes hdestination (by omega),
    charAt_bytes_append hfield (by omega), charAt_bytes_append hfield (by omega),
    charAt_bytes_append hfield (by omega)]
  rfl

theorem speedCourse_eq_some {field : Text} (hfield : IsAscii field) (height : field.length = 8)
    (rest : Text) :
    speedCourse (Text.bytes (field ++ rest)) =
      some (MicE.knots (field ++ rest), MicE.degrees (field ++ rest)) := by
  rw [speedCourse, charAt_bytes_append hfield (by omega), charAt_bytes_append hfield (by omega),
    charAt_bytes_append hfield (by omega)]
  rfl

end Body

section Rest

def hexAt (hex : Text) (i : Nat) : Run MicEError UInt8 := do
  match ← hex.sliceBytes? i (i + 2) with
  | [a, b] =>
    match MicE.hexByte? a b with
    | some byte => return byte
    | none => throw .invalidTelemetryHex
  | _ => throw .invalidTelemetryHex

/-- So many bytes of two digits each, from an offset on. -/
def hexBytes (hex : Text) (i : Nat) : Nat → Run MicEError (List UInt8)
  | 0 => pure []
  | steps + 1 => do
    let byte ← hexAt hex i
    let bytes ← hexBytes hex (i + 2) steps
    return byte :: bytes

def channels (t : Text) : Run MicEError (Option (List UInt8) × Text) :=
  match MicE.channelLayouts.findSome? fun layout => layout.take? t with
  | none => pure (none, t)
  | some (field, _) => do
    let hex ← field.dropBytes? 1
    let found ← hexBytes hex 0 ((hex.byteLength + 1) / 2)
    let rest ← t.dropBytes? field.byteLength
    return (some found, rest)

def altitude (t : Text) : Run DecodeError (Option Quantity × Text) :=
  if isSingleLine t then
    match rightmost? MicE.altitudeLayout.take? t with
    | none => pure (none, t)
    | some (before, field, after) => do
      let n ← ExceptT.adapt .invalidBase91 (base91 (field.take 3))
      return (some (.ofNat n - 10000), before ++ after)
  else pure (none, t)

/-- What is behind the eight characters of the body. -/
def micERest (latitude longitude : Quantity) (r : Record Quantity) (t : Text) :
    Run DecodeError (Record Quantity) := do
  let (channels, t) ← ExceptT.adapt .invalidMicE (channels t)
  let (altitude, t) ← altitude t
  let (telemetry, t) ← telemetry t
  let (datum, latitude, longitude, t) ← dao latitude longitude t
  return { r with
    latitude := some latitude
    longitude := some longitude
    altitude
    daoDatum := datum
    comment := trimSpaces t
    telemetry
    micETelemetry := channels }

def micE (destination body : Text) (r : Record Quantity) : Run DecodeError (Record Quantity) := do
  let destination := upTo '-' destination
  Run.ofExcept ((MicE.check destination body).mapError .invalidMicE)
  let dst := destination.bytes
  let info := body.bytes
  let symbolCode ← charAt info 6
  let symbolTable ← charAt info 7
  let (latitude, ambiguity) ← ExceptT.adapt .invalidMicE (latitude dst)
  let bits := MicE.bitsOf (← destination.takeBytes? 3)
  let longitude ← longitude dst info ambiguity
  let (knots, degrees) ← speedCourse info
  let r := { r with
    format := some .micE
    latitude := some latitude
    longitude := some longitude
    ambiguity := some ambiguity.toUInt8
    symbolTable := some symbolTable
    symbolCode := some symbolCode
    course := some (.ofNat degrees)
    speed := some (.ofKnots (.ofNat knots))
    micEBits := some bits.text
    micEMessage := bits.message?.map String.toList }
  if 8 < body.byteLength then micERest latitude longitude r (← body.dropBytes? 8)
  else return r

theorem isAscii_of_isHexDigit {c : Char} (h : MicE.isHexDigit c = true) : c.toNat < 128 := by
  rw [MicE.isHexDigit, Bool.or_eq_true] at h
  rcases h with h | h
  · exact isAscii_of_isDigit h
  · exact isAscii_of_between (by decide) h

/-- In front of a pair of digits stand pairs of digits, so it begins at an even offset. -/
theorem comesTo_hexBytes {digits : Text} (hdigits : ∀ c ∈ digits, MicE.isHexDigit c = true)
    {found : List UInt8} (hfound : pairs? MicE.hexByte? digits = some found) {before : Text}
    (hbefore : IsAscii before) :
    (hexBytes (before ++ digits) before.length (digits.length / 2)).ComesTo (.ok found) := by
  induction digits using MicE.hexBytes?.induct generalizing before found with
  | case1 =>
    cases hfound
    exact Run.comesTo_pure _
  | case2 => cases hfound
  | case3 a b digits ih =>
    simp only [List.forall_mem_cons] at hdigits
    obtain ⟨ha, hb, hdigits⟩ := hdigits
    rw [pairs?, Option.bind_eq_bind, Option.bind_eq_some_iff] at hfound
    obtain ⟨byte, hbyte, hfound⟩ := hfound
    obtain ⟨bytes, hbytes, heq⟩ := Option.bind_eq_some_iff.mp hfound
    cases heq
    have hpair : IsAscii (before ++ [a, b]) := by
      simp [hbefore, isAscii_of_isHexDigit ha, isAscii_of_isHexDigit hb]
    have hslice : sliceBytes? before.length (before.length + 2) (before ++ a :: b :: digits) =
        some [a, b] := by
      have hcut := sliceBytes?_append hbefore.byteLength hpair.byteLength digits
      rwa [List.append_assoc, List.length_append] at hcut
    have hat : (hexAt (before ++ a :: b :: digits) before.length).ComesTo (.ok byte) := by
      refine Run.ComesTo.lift_bind hslice ?_
      dsimp only
      rw [hbyte]
      exact Run.comesTo_pure _
    have hrest := ih hdigits hbytes hpair
    rw [List.append_assoc, List.length_append] at hrest
    have hsteps : (a :: b :: digits).length / 2 = digits.length / 2 + 1 := by
      rw [List.length_cons, List.length_cons]
      omega
    rw [hsteps, hexBytes]
    exact hat.ok_bind (hrest.ok_bind (Run.comesTo_pure _))

theorem isAscii_of_mem_channelLayouts {layout : Layout} (h : layout ∈ MicE.channelLayouts) :
    layout.IsAscii ∧ 1 ≤ layout.length := by
  have hdigits := Layout.isAscii_columns fun c => isAscii_of_isHexDigit (c := c)
  simp only [MicE.channelLayouts, List.mem_cons, List.not_mem_nil, or_false] at h
  rcases h with rfl | rfl
  · exact ⟨Layout.isAscii_append.mpr ⟨Layout.isAscii_exactly (by decide), hdigits 10⟩, by decide⟩
  · exact ⟨Layout.isAscii_append.mpr ⟨Layout.isAscii_exactly (by decide), hdigits 4⟩, by decide⟩

theorem comesTo_channels (t : Text) : (channels t).ComesTo (MicE.splitChannels t) := by
  rw [channels, MicE.splitChannels]
  cases hfind : MicE.channelLayouts.findSome? fun layout => layout.take? t with
  | none => exact Run.comesTo_pure _
  | some result =>
    obtain ⟨field, rest⟩ := result
    obtain ⟨layout, hlayout, htake⟩ := List.exists_of_findSome?_eq_some hfind
    obtain ⟨rfl, hfills⟩ := Layout.take?_eq_some_iff.mp htake
    obtain ⟨heven, hdigits⟩ := MicE.isHexDigit_of_mem_channels hlayout hfills
    obtain ⟨found, hfound⟩ := MicE.exists_hexBytes?_eq_some heven hdigits
    obtain ⟨hascii, hlength⟩ := isAscii_of_mem_channelLayouts hlayout
    rw [← Layout.length_eq_of_fills hfills] at hlength
    have hfield : IsAscii field := hfills.isAscii hascii
    have hsteps : (Text.byteLength (field.drop 1) + 1) / 2 = (field.drop 1).length / 2 := by
      have hdrop : IsAscii (field.drop 1) := fun c hc => hfield c (List.mem_of_mem_drop hc)
      rw [hdrop.byteLength]
      omega
    dsimp only
    refine Run.ComesTo.lift_bind (hfield.dropBytes?_eq_some hlength) ?_
    rw [hsteps, hfound]
    have hbytes := comesTo_hexBytes hdigits ((MicE.pairs?_hexByte? hdigits).trans hfound)
      isAscii_nil
    refine hbytes.ok_bind ?_
    exact Run.ComesTo.lift_bind (dropBytes?_append rfl rest) (Run.comesTo_pure _)

theorem comesTo_altitude (t : Text) : (altitude t).ComesTo (MicE.splitAltitude t) := by
  rw [altitude, MicE.splitAltitude]
  split
  · cases rightmost? MicE.altitudeLayout.take? t with
    | none => exact Run.comesTo_pure _
    | some found =>
      obtain ⟨before, field, after⟩ := found
      have hrun : base91 (field.take 3) = ExceptT.mk (some (Base91.decode (field.take 3))) :=
        comesTo_base91 _
      dsimp only
      rw [hrun]
      cases Base91.decode (field.take 3) <;> rfl
  · exact Run.comesTo_pure _

theorem isAscii_destinationLayout : MicE.destinationLayout.IsAscii := by
  refine Layout.isAscii_append.mpr
    ⟨Layout.isAscii_columns (fun c hc => ?_) 3, Layout.isAscii_columns (fun c hc => ?_) 3⟩
  · rw [Bool.or_eq_true] at hc
    rcases hc with hc | hc
    · exact isAscii_of_isDigit hc
    · exact Nat.lt_of_le_of_lt (isUpper_iff_toNat.mp hc).2 (by decide)
  · rw [Bool.or_eq_true] at hc
    rcases hc with hc | hc
    · exact isAscii_of_isDigit hc
    · exact isAscii_of_between (by decide) hc

theorem isAscii_bodyLayout : MicE.bodyLayout.IsAscii := by
  simp only [MicE.bodyLayout, Layout.isAscii_cons]
  refine ⟨?_, ?_, ?_, ?_, ?_, ?_, ?_, ?_, Layout.isAscii_nil⟩
  case refine_8 =>
    exact fun c hc => Telemetry.toNat_lt_of_isDigit (Uncompressed.isDigit_of_isSymbolTable hc)
  all_goals exact fun c hc => isAscii_of_between (by decide) hc

/-- Six characters of the destination and eight of the body, all of one byte. -/
theorem exists_append_of_check {destination body : Text}
    (h : MicE.check destination body = .ok ()) :
    IsAscii destination ∧ destination.length = 6 ∧
      ∃ field rest, body = field ++ rest ∧ IsAscii field ∧ field.length = 8 := by
  obtain ⟨_, _, hdestination, hbody⟩ := MicE.check_eq_ok_iff.mp h
  obtain ⟨⟨field, rest⟩, htake⟩ := Option.isSome_iff_exists.mp hbody
  obtain ⟨rfl, hfield⟩ := Layout.take?_eq_some_iff.mp htake
  exact ⟨hdestination.isAscii isAscii_destinationLayout, Layout.length_eq_of_fills hdestination,
    field, rest, rfl, hfield.isAscii isAscii_bodyLayout, Layout.length_eq_of_fills hfield⟩

theorem comesTo_micE (line : Text) (header : Header) (destination body : Text) :
    (micE destination body (Line.blankRecord line header)).ComesTo
      ((MicE.decode destination body).map (Line.blankRecord line header).withMicE) := by
  rw [micE, MicE.decode]
  refine Run.ComesTo.bind_map (Run.comesTo_ofExcept _) fun _ hcheck => ?_
  generalize upTo '-' destination = destination at hcheck
  obtain ⟨hdestination, hsix, field, rest, rfl, hfield, height⟩ :=
    exists_append_of_check (Reading.mapError_eq_ok_iff.mp hcheck)
  have hlatitude := comesTo_latitude hdestination hsix
  refine Run.ComesTo.lift_bind (charAt_bytes_append hfield (by omega) rest) ?_
  refine Run.ComesTo.lift_bind (charAt_bytes_append hfield (by omega) rest) ?_
  cases hdecode : MicE.decodeLatitude destination with
  | error e =>
    rw [hdecode] at hlatitude
    exact (hlatitude.adapt _).error_bind _
  | ok result =>
    obtain ⟨latitude, ambiguity⟩ := result
    rw [hdecode] at hlatitude
    refine (hlatitude.adapt _).ok_bind ?_
    have hbits : MicE.bitsOf (destination.take 3) = MicE.bitsOf destination := by
      simp [MicE.bitsOf]
    have hdrop : (field ++ rest).drop 8 = rest := List.drop_left' height
    have hbytes : field.byteLength = 8 := hfield.byteLength.trans height
    refine Run.ComesTo.lift_bind (hdestination.takeBytes?_eq_some (by omega)) ?_
    refine Run.ComesTo.lift_bind
      (longitude_eq_some hdestination hsix hfield height rest ambiguity) ?_
    refine Run.ComesTo.lift_bind (speedCourse_eq_some hfield height rest) ?_
    rw [hbits, hdrop]
    dsimp only
    split
    · refine Run.ComesTo.lift_bind (dropBytes?_append hbytes rest) ?_
      refine Run.ComesTo.bind_map ((comesTo_channels rest).adapt _) fun found _ => ?_
      obtain ⟨channels, t⟩ := found
      refine Run.ComesTo.bind_map (comesTo_altitude t) fun found _ => ?_
      obtain ⟨altitude, t⟩ := found
      refine Run.ComesTo.lift_bind (telemetry_eq_some t) ?_
      refine Run.ComesTo.lift_bind (dao_eq_some _ _ _) ?_
      change Run.ComesTo _ (.ok _)
      rw [Record.withMicE_blankRecord]
      exact Run.comesTo_pure _
    · next hshort =>
      -- without a comment the members that it would fill stay blank
      have hrest : rest = [] := by
        have hle := length_le_byteLength rest
        rw [byteLength_append, hbytes] at hshort
        exact List.length_eq_zero_iff.mp (by omega)
      rw [hrest]
      change Run.ComesTo _ (.ok _)
      rw [Record.withMicE_blankRecord]
      exact Run.comesTo_pure _

end Rest

end Aprs.Sliced
