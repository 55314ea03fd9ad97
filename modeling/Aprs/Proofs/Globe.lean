import Aprs.Proofs.PositionKinds
import Aprs.Proofs.PositionValues

/-!
Positions and the globe. A record with a position has it from one place in its line, which the exact
coordinates are worked out from, and the place says whether they are on the globe: none of the three
ways to write a position keeps it there by itself.
-/

namespace Aprs

open Quantity Reading

section Infixes

variable {t u rest : Text}

theorem Text.infix_trim (p : Char → Bool) (t : Text) : trim p t <:+: t := by
  exact (prefix_trimEnd p _).isInfix.trans (List.dropWhile_suffix p).isInfix

theorem Text.dropPrefix?_eq_some {start : Text} (h : dropPrefix? start t = some rest) :
    t = start ++ rest := by
  induction start generalizing t with
  | nil =>
    cases h
    rfl
  | cons c start ih =>
    cases t with
    | nil => cases h
    | cons d t =>
      rw [dropPrefix?] at h
      split at h
      · next heq => rw [heq, ih h, List.cons_append]
      · cases h

theorem Line.suffix_of_splitType? {type : Char} (h : splitType? t = some (type, rest)) :
    rest <:+ t := by
  unfold splitType? at h
  split at h
  · next found hstart =>
    cases h
    rw [Text.dropPrefix?_eq_some hstart]
    exact List.suffix_append garbledQuote rest
  · split at h
    · cases h
      exact List.suffix_cons type rest
    · cases h

/-- The content of a line stands in the line. -/
theorem Line.infix_of_split {options : Options} {header : Header} {type : Char}
    (h : split options t = .ok (header, type, rest)) : rest <:+: t := by
  obtain ⟨_, head, body, htrim, _, _, htype, _⟩ := split_eq_ok_iff.mp h
  have hbody : body <:+ Text.trim isLineEnd t := by
    rw [htrim]
    exact (List.suffix_cons ':' body).trans (List.suffix_append head _)
  exact ((suffix_of_splitType? htype).trans hbody).isInfix.trans (Text.infix_trim isLineEnd t)

variable {kind : PositionKind} {now : Int}

theorem Position.suffix_of_takeObject {object : Option ObjectHeader}
    (h : takeObject kind t = .ok (object, rest)) : rest <:+ t := by
  cases kind with
  | station =>
    cases h
    exact List.suffix_refl t
  | object =>
    rw [takeObject] at h
    split at h
    · next header after htake =>
      cases h
      obtain ⟨⟨field, _⟩, hfield, heq⟩ := Option.map_eq_some_iff.mp htake
      cases heq
      exact Layout.suffix_of_take? hfield
    · cases h

theorem Position.suffix_of_takeTimestamp {timestamp : Option Timestamp}
    (h : takeTimestamp now kind t = .ok (timestamp, rest)) : rest <:+ t := by
  rw [takeTimestamp] at h
  split at h
  · split at h
    · next found after htake =>
      cases h
      obtain ⟨⟨field, _⟩, hfield, heq⟩ := Option.map_eq_some_iff.mp htake
      cases heq
      exact Layout.suffix_of_take? hfield
    · cases h
  · cases h
    exact List.suffix_refl t

end Infixes

/-- Where a position is stated. -/
inductive Place where
  | uncompressed (field : Text)
  | compressed (block : Text)
  | micE (destination body : Text)
  deriving DecidableEq, Repr

namespace Place

def latitude : Place → Rat
  | uncompressed field => Uncompressed.latitudeOf field
  | compressed block => Compressed.latitudeOf block
  | micE destination _ => MicE.latitudeOf destination

def longitude : Place → Rat
  | uncompressed field => Uncompressed.longitudeOf field
  | compressed block => Compressed.longitudeOf block
  | micE destination body => MicE.longitudeOf destination body

/-- The place is in a text, or for Mic-E reports in the text and a destination. -/
def IsIn (destination t : Text) : Place → Prop
  | uncompressed field => Layout.Fills Uncompressed.layout field ∧ field <:+: t
  | compressed block => Layout.Fills Compressed.layout block ∧ block <:+: t
  | micE sent body =>
    sent = Text.upTo '-' destination ∧ Layout.Fills MicE.destinationLayout sent ∧
      (MicE.bodyLayout.take? body).isSome = true ∧ body <:+: t

/-- What has to hold of the digits for the latitude to be on the globe. -/
def LatitudeFits : Place → Prop
  | uncompressed field =>
    6000 * Text.natOfDigits (Text.slice 0 2 field) +
      Uncompressed.hundredths (Text.slice 2 5 field) ≤ 540000
  | compressed block => Base91.value (Text.slice 1 4 block) ≤ 68566680
  | micE destination _ =>
    6000 * Text.natOfDigits (Text.slice 0 2 (MicE.filledDigits destination)) +
      Text.natOfDigits (Text.slice 2 4 (MicE.filledDigits destination)) ≤ 540000

/-- Nothing has to hold of the longitude of a Mic-E report. -/
def LongitudeFits : Place → Prop
  | uncompressed field =>
    6000 * Text.natOfDigits (Text.slice 9 3 field) +
      Uncompressed.hundredths (Text.slice 12 5 field) ≤ 1080000
  | compressed block => Base91.value (Text.slice 5 4 block) ≤ 68566680
  | micE _ _ => True

theorem isIn_of_infix {destination t u : Text} {place : Place} (h : place.IsIn destination t)
    (hinside : t <:+: u) : place.IsIn destination u := by
  cases place with
  | uncompressed field => exact ⟨h.1, h.2.trans hinside⟩
  | compressed block => exact ⟨h.1, h.2.trans hinside⟩
  | micE sent body => exact ⟨h.1, h.2.1, h.2.2.1, h.2.2.2.trans hinside⟩

/-- These coordinates were read at the place. They are on the globe just when its digits fit, and
never far from it. -/
structure Gives (place : Place) (latitude longitude : Quantity) : Prop where
  latitude : latitude.toRat? = some place.latitude
  longitude : longitude.toRat? = some place.longitude
  latitude_le_iff : |place.latitude| ≤ 90 ↔ place.LatitudeFits
  longitude_le_iff : |place.longitude| ≤ 180 ↔ place.LongitudeFits
  latitude_lt : |place.latitude| < 101
  longitude_lt : |place.longitude| < 181

end Place

theorem Position.exists_place_of_takeFix {body rest : Text} {fix : Fix}
    (h : takeFix body = .ok (fix, rest)) (destination : Text) :
    ∃ place : Place, place.IsIn destination body ∧ place.Gives fix.latitude fix.longitude := by
  unfold takeFix at h
  split at h
  · cases h
  · next hdecode =>
    cases h
    obtain ⟨_, field, hlayout, hread⟩ := Uncompressed.decode?_eq_some_iff.mp hdecode
    obtain ⟨rfl, hfills⟩ := Layout.take?_eq_some_iff.mp hlayout
    obtain ⟨hlatitude, hlongitude, hnorth, heast⟩ := Uncompressed.toRat?_of_read hfills hread
    refine ⟨.uncompressed field, ⟨hfills, (List.prefix_append field rest).isInfix⟩, ?_⟩
    exact {
      latitude := hlatitude
      longitude := hlongitude
      latitude_le_iff := by exact_mod_cast abs_signed_arc_le_iff 90
      longitude_le_iff := by exact_mod_cast abs_signed_arc_le_iff 180
      latitude_lt := hnorth.trans (by norm_num)
      longitude_lt := heast }
  · obtain ⟨block, rfl, hfills, hlatitude, hlongitude, hnorth, heast⟩ :=
      Compressed.toRat?_of_decode h
    refine ⟨.compressed block, ⟨hfills, (List.prefix_append block rest).isInfix⟩, ?_⟩
    exact {
      latitude := hlatitude
      longitude := hlongitude
      latitude_le_iff := Compressed.abs_latitudeOf_le_iff
      longitude_le_iff := Compressed.abs_longitudeOf_le_iff
      latitude_lt := hnorth.trans (by norm_num)
      longitude_lt := heast }

theorem Position.exists_place_of_decode {now : Int} {kind : PositionKind} {body : Text}
    {p : Position} (h : decode now kind body = .ok p) (destination : Text) :
    ∃ place : Place, place.IsIn destination body ∧
      place.Gives p.fix.latitude p.fix.longitude := by
  unfold decode at h
  obtain ⟨⟨object, afterObject⟩, hobject, h⟩ := bind_eq_ok_iff.mp h
  obtain ⟨⟨timestamp, afterTimestamp⟩, htimestamp, h⟩ := bind_eq_ok_iff.mp h
  dsimp only at h
  split at h
  · cases h
  · obtain ⟨⟨fix, rest⟩, hfix, h⟩ := bind_eq_ok_iff.mp h
    cases pure_eq_ok_iff.mp h
    obtain ⟨place, hplace, hgives⟩ := exists_place_of_takeFix hfix destination
    have hsuffix := (suffix_of_takeTimestamp htimestamp).trans (suffix_of_takeObject hobject)
    exact ⟨place, Place.isIn_of_infix hplace hsuffix.isInfix, hgives⟩

theorem MicE.exists_place_of_decode {destination body : Text} {m : MicE}
    (h : decode destination body = .ok m) :
    ∃ place : Place, place.IsIn destination body ∧ place.Gives m.latitude m.longitude := by
  obtain ⟨hdestination, hbody, hlatitude, hlongitude, hnorth, heast⟩ := toRat?_of_decode h
  refine ⟨.micE (Text.upTo '-' destination) body,
    ⟨rfl, hdestination, hbody, List.infix_refl body⟩, ?_⟩
  exact {
    latitude := hlatitude
    longitude := hlongitude
    latitude_le_iff := by exact_mod_cast abs_signed_arc_le_iff 90
    longitude_le_iff := iff_of_true heast.le trivial
    latitude_lt := hnorth
    longitude_lt := heast.trans (by norm_num) }

namespace Report

/-- What a report says of a position, before any precision tag. -/
def coordinates? : Report → Option (Quantity × Quantity)
  | position p => some (p.fix.latitude, p.fix.longitude)
  | micE m => some (m.latitude, m.longitude)
  | _ => none

variable {now : Int} {destination body : Text} {type : Char} {report : Report}
  {latitude longitude : Quantity}

theorem exists_place_of_decode (h : decode now destination type body = .ok report)
    (hcoordinates : report.coordinates? = some (latitude, longitude)) :
    ∃ place : Place, place.IsIn destination body ∧ place.Gives latitude longitude := by
  revert hcoordinates
  refine decode_induction
    (motive := fun report => report.coordinates? = some (latitude, longitude) →
      ∃ place : Place, place.IsIn destination body ∧ place.Gives latitude longitude)
    ?position ?micE ?weather ?message ?status ?userDefined ?undecoded h
  case position =>
    rintro kind rest p hsuffix hposition ⟨⟩
    obtain ⟨place, hplace, hgives⟩ := Position.exists_place_of_decode hposition destination
    exact ⟨place, Place.isIn_of_infix hplace hsuffix.isInfix, hgives⟩
  case micE =>
    rintro m hmicE ⟨⟩
    exact MicE.exists_place_of_decode hmicE
  case weather | message => exact fun _ => nofun
  case status => exact fun _ _ => nofun
  case userDefined => exact fun _ _ _ => nofun
  case undecoded => exact nofun

end Report

/-- A record has a position if its report has one, which a precision tag may have moved. -/
theorem Record.position?_withReport {line : Text} {header : Header} {report : Report}
    {latitude longitude : Quantity}
    (h : ((Line.blankRecord line header).withReport report).position? =
      some (latitude, longitude)) :
    ((Line.blankRecord line header).withReport report).raw = line ∧
      ((Line.blankRecord line header).withReport report).destination = header.destination ∧
      ∃ dao a b, report.coordinates? = some (a, b) ∧
        (latitude, longitude) = Dao.refined dao a b := by
  cases report with
  | position p =>
    simp only [withReport, withPosition_blankRecord] at h ⊢
    cases h
    exact ⟨rfl, rfl, p.remark.dao?, p.fix.latitude, p.fix.longitude, rfl, rfl⟩
  | micE m =>
    simp only [withReport, withMicE_blankRecord] at h ⊢
    cases h
    exact ⟨rfl, rfl, m.dao, m.latitude, m.longitude, rfl, rfl⟩
  | message message =>
    cases message with
    | addressed addressee content => cases content <;> cases h
    | _ => cases h
  | status timestamp text =>
    rw [withStatus_blankRecord] at h
    cases h
  | _ => cases h

/-- The position of a record comes from one place in its line, wherever the record lies in a packet.
A precision tag moves it after that. -/
theorem place_of_decode {options : Options} {now : Int} {line : Text} {packet : Packet Quantity}
    (h : decode options now line = .ok packet) :
    ∀ r ∈ packet.records, ∀ latitude longitude, r.position? = some (latitude, longitude) →
      ∃ (place : Place) (dao : Option Dao) (a b : Quantity),
        (latitude, longitude) = Dao.refined dao a b ∧ place.IsIn r.destination r.raw ∧
          place.Gives a b := by
  refine Line.decodeWithin_induction
    (motive := fun _ packet => ∀ r ∈ packet.records, ∀ latitude longitude,
      r.position? = some (latitude, longitude) →
      ∃ (place : Place) (dao : Option Dao) (a b : Quantity),
        (latitude, longitude) = Dao.refined dao a b ∧ place.IsIn r.destination r.raw ∧
          place.Gives a b) ?plain ?forwarding (mapError_eq_ok_iff.mp h)
  case plain =>
    intro line header type content report hsplit _ hreport r hr latitude longitude hposition
    rw [Packet.records, List.mem_singleton] at hr
    subst hr
    obtain ⟨hraw, hdestination, dao, a, b, hcoordinates, heq⟩ :=
      Record.position?_withReport hposition
    obtain ⟨place, hplace, hgives⟩ := Report.exists_place_of_decode hreport hcoordinates
    rw [hraw, hdestination]
    exact ⟨place, dao, a, b, heq, Place.isIn_of_infix hplace (Line.infix_of_split hsplit), hgives⟩
  case forwarding =>
    intro line header content inner _ ih r hr latitude longitude hposition
    rw [Packet.records, List.mem_cons] at hr
    rcases hr with rfl | hr
    · cases hposition
    · exact ih r hr latitude longitude hposition

/-- A forwarded object that a precision tag moves. -/
theorem place_of_decode_forwarded :
    ∃ packet, decode {} 0
        "N1GATE>APRS:\x7dN0CALL>APRS:;LEADER   *092345z4903.50N/07201.75W-!W55!".toList =
          .ok packet ∧
      ∃ r ∈ packet.records, ∃ latitude longitude, r.position? = some (latitude, longitude) ∧
        ∃ (place : Place) (dao : Option Dao) (a b : Quantity),
          (latitude, longitude) = Dao.refined dao a b ∧ place.IsIn r.destination r.raw ∧
            place.Gives a b := by
  let dao : Dao := ⟨'W', '5', '5'⟩
  have hpositions : (decode {} 0
      "N1GATE>APRS:\x7dN0CALL>APRS:;LEADER   *092345z4903.50N/07201.75W-!W55!".toList).map
      (fun packet => packet.records.map (·.position?)) =
        .ok [none, some (dao.refine (Uncompressed.coordinate 49 ⟨false, 350, 2⟩ false)
          (Uncompressed.coordinate 72 ⟨false, 175, 2⟩ true))] := by cbv
  obtain ⟨packet, hdecode, hpositions⟩ := map_eq_ok_iff.mp hpositions
  obtain ⟨r, hr, hposition⟩ := List.mem_map.mp
    (hpositions ▸ List.mem_cons_of_mem none (List.mem_singleton_self _))
  exact ⟨packet, hdecode, r, hr, _, _, hposition, place_of_decode hdecode r hr _ _ hposition⟩

/-- Sixty minutes and more beside 89 degrees, degrees beyond 89, and the end of the scale. -/
theorem positions_off_the_globe :
    (∃ packet latitude x, decode {} 0 "N0CALL>APRS:!8960.01N/07201.75W-".toList = .ok packet ∧
        packet.record.latitude = some latitude ∧ packet.record.daoDatum = none ∧
        latitude.toRat? = some x ∧ 90 < |x|) ∧
      (∃ packet latitude x, decode {} 0 "N0CALL>990P00:'(_fn\"Oj/".toList = .ok packet ∧
        packet.record.latitude = some latitude ∧ packet.record.daoDatum = none ∧
        latitude.toRat? = some x ∧ 90 < |x|) ∧
      (∃ packet latitude x,
        decode {} 0 "N0CALL>APRS:!/\x7b\x7b\x7b\x7b5L!!> sT".toList = .ok packet ∧
        packet.record.latitude = some latitude ∧ packet.record.daoDatum = none ∧
        latitude.toRat? = some x ∧ 90 < |x|) := by
  have hfound : ∀ {line : Text} (latitude : Quantity) {x : Rat},
      (decode {} 0 line).map (fun packet => (packet.record.latitude, packet.record.daoDatum)) =
        .ok (some latitude, none) →
      latitude.toRat? = some x → 90 < |x| →
      ∃ packet latitude x, decode {} 0 line = .ok packet ∧
        packet.record.latitude = some latitude ∧ packet.record.daoDatum = none ∧
        latitude.toRat? = some x ∧ 90 < |x| := by
    intro line latitude x hdecode hvalue hoff
    obtain ⟨packet, hpacket, heq⟩ := map_eq_ok_iff.mp hdecode
    obtain ⟨hlatitude, hdatum⟩ := Prod.mk.inj heq
    exact ⟨packet, latitude, x, hpacket, hlatitude, hdatum, hvalue, hoff⟩
  have hminutes : arc 89 6001 = 90 + 1 / 6000 := by
    rw [arc]
    norm_num
  have hdegrees : arc 99 0 = 99 := by
    rw [arc]
    norm_num
  refine ⟨?_, ?_, ?_⟩
  · refine hfound (Uncompressed.coordinate 89 ⟨false, 6001, 2⟩ false) (by cbv)
      (Uncompressed.toRat?_coordinate (toRat?_hundredths 6001) false) ?_
    rw [abs_signed, hminutes]
    exact lt_abs.mpr (.inl (by norm_num))
  · refine hfound (ofDegreesMinutes (.ofNat 99) (scaled 0 2)) (by cbv)
      (toRat?_ofDegreesMinutes (toRat?_ofNat 99) (toRat?_hundredths 0)) ?_
    rw [hdegrees]
    exact lt_abs.mpr (.inl (by norm_num))
  · refine hfound (Compressed.latitude 68574960) (by cbv) (Compressed.toRat?_latitude 68574960) ?_
    exact lt_abs.mpr (.inr (by norm_num))

end Aprs
