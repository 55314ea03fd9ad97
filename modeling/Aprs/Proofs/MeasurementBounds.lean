import Aprs.Proofs.Coefficients
import Aprs.Proofs.FieldBounds

/-!
Bounds of all that a record measures, whichever report filled it, and the numerals that it passes
on from a telemetry definition.
-/

namespace Aprs

open Quantity Reading

namespace Position

/-- All numbers of a report keep to a bound. -/
structure Within (bound : Nat) (p : Position) : Prop where
  latitude : p.coordinates.1.Within bound
  longitude : p.coordinates.2.Within bound
  readings : p.readings.Within bound
  weather : ∀ found ∈ p.remark.weather?, found.Within bound

theorem within_of_takeFix {body rest : Text} {fix : Fix} (h : takeFix body = .ok (fix, rest)) :
    fix.latitude.Within 65 ∧ fix.longitude.Within 65 ∧ fix.readings.Within 60 := by
  unfold takeFix at h
  split at h
  · cases h
  · next hdecode =>
    cases h
    obtain ⟨_, field, _, hread⟩ := Uncompressed.decode?_eq_some_iff.mp hdecode
    obtain ⟨hlatitude, hlongitude, hreadings⟩ := Uncompressed.within_of_read hread
    rw [hreadings]
    exact ⟨hlatitude.mono (by decide), hlongitude.mono (by decide), Readings.within_none 60⟩
  · exact Compressed.within_of_decode h

end Position

namespace Remark

theorem taken_of_mem_read {symbolCode : Char} {t : Text} {e : Extension}
    (h : e ∈ (read symbolCode t).extension?) : e.Taken := by
  unfold read at h
  split at h <;> exact Extension.taken_of_mem_split h

theorem within_altitude_of_mem_read {symbolCode : Char} {t : Text} {q : Quantity}
    (h : q ∈ (read symbolCode t).altitude?) : q.Within 20 := by
  unfold read at h
  split at h
  · cases h
  · obtain ⟨feet, hfeet, rfl⟩ := Option.map_eq_some_iff.mp h
    exact Altitude.within_of_mem_split hfeet

theorem within_weather_of_mem_read {symbolCode : Char} {t : Text} {found : Weather Quantity}
    (h : found ∈ (read symbolCode t).weather?) : found.Within 25 := by
  unfold read at h
  split at h
  · exact Weather.within_of_mem_split h
  · cases h

end Remark

theorem Position.within_of_decode {now : Int} {kind : PositionKind} {body : Text} {p : Position}
    (h : decode now kind body = .ok p) : p.Within 131 := by
  unfold decode at h
  obtain ⟨⟨object, _⟩, _, h⟩ := bind_eq_ok_iff.mp h
  obtain ⟨⟨timestamp, _⟩, _, h⟩ := bind_eq_ok_iff.mp h
  dsimp only at h
  split at h
  · cases h
  · obtain ⟨⟨fix, rest⟩, hfix, h⟩ := bind_eq_ok_iff.mp h
    cases pure_eq_ok_iff.mp h
    obtain ⟨hlatitude, hlongitude, hreadings⟩ := within_of_takeFix hfix
    obtain ⟨hnorth, heast⟩ := Dao.within_refined _ hlatitude hlongitude
    have htold : (Record.applied fix.readings (Remark.read fix.symbolCode rest).extension?).Within
        131 := by
      -- An extension overrides what the position itself said.
      cases hextension : (Remark.read fix.symbolCode rest).extension? with
      | none => exact hreadings.mono (by decide)
      | some e =>
        exact (hreadings.mono (by decide)).apply (Remark.taken_of_mem_read hextension)
    refine ⟨hnorth.mono (by decide), heast.mono (by decide), { htold with altitude := ?_ }, ?_⟩
    · intro q hq
      rcases Option.or_eq_some_iff.mp hq with hcomment | ⟨-, hfix⟩
      · exact (Remark.within_altitude_of_mem_read hcomment).mono (by decide)
      · exact htold.altitude q hfix
    · intro found hfound o ho q hq
      exact (Remark.within_weather_of_mem_read hfound o ho q hq).mono (by decide)

theorem WeatherReport.within_of_decode? {now : Int} {body : Text} {w : WeatherReport}
    (h : decode? now body = some w) : ∀ found ∈ w.weather, found.Within 25 := by
  obtain ⟨⟨field, rest⟩, _, rfl⟩ := Option.map_eq_some_iff.mp h
  exact fun found hfound => Weather.within_of_mem_split hfound

namespace TelemetryDefs

/-- A number that is the value of a numeral. -/
def IsNumeral (q : Quantity) : Prop := ∃ d, q = .decimal d

theorem isNumeral_of_gives {t : Text} {o : Option Quantity} (h : Gives t o) :
    ∀ q ∈ o, IsNumeral q := by
  cases h with
  | nothing => exact nofun
  | numeral n =>
    rintro _ ⟨⟩
    exact ⟨n.decimal, rfl⟩

theorem isNumeral_of_mem_identity {q : Quantity} (h : q ∈ identity) : IsNumeral q := by
  have hq : q ∈ [0, 1, 0] := Vector.mem_toList_iff.mpr h
  simp only [List.mem_cons, List.not_mem_nil, or_false] at hq
  rcases hq with rfl | rfl | rfl <;> exact ⟨_, rfl⟩

theorem isNumeral_of_equations {values : Text} {rows : Vector (Vector Quantity 3) 5}
    (h : equations values = .ok rows) : ∀ row ∈ rows.toList, ∀ q ∈ row.toList, IsNumeral q := by
  obtain ⟨given, hgiven, rfl⟩ := map_eq_ok_iff.mp h
  have hgives := gives_getD (coefficients_eq_ok_iff.mp hgiven)
  intro row hrow q hq
  rw [Vector.toList_ofFn, List.mem_ofFn] at hrow
  obtain ⟨i, rfl⟩ := hrow
  rw [Vector.toList_ofFn, List.mem_ofFn] at hq
  obtain ⟨j, rfl⟩ := hq
  cases hplace : given.getD (3 * i.val + j.val) none with
  | none => exact isNumeral_of_mem_identity (identity.getElem_mem j.isLt)
  | some q => exact isNumeral_of_gives (hgives _) q hplace

theorem isNumeral_of_decode? {t : Text} {defs : TelemetryDefs Quantity}
    (h : decode? t = .ok (some defs)) : ∀ q ∈ defs.numbers, IsNumeral q := by
  unfold decode? at h
  split at h
  · cases h
  · dsimp only at h
    split at h <;> obtain ⟨found, hfound, heq⟩ := map_eq_ok_iff.mp h <;> cases heq
    · exact nofun
    · exact nofun
    · intro q hq
      obtain ⟨row, hrow, hq⟩ := List.mem_flatMap.mp hq
      exact isNumeral_of_equations hfound row hrow q hq
    · exact nofun

end TelemetryDefs

/-- Only what is read as a definition is one. -/
theorem Message.content_ne_definition (t : Text) (defs : TelemetryDefs Quantity) :
    content t ≠ .definition defs := by
  unfold content
  split
  · next reply hreply =>
    obtain ⟨⟨response, rest⟩, _, hreply⟩ := Option.bind_eq_some_iff.mp hreply
    dsimp only at hreply
    split at hreply
    · cases hreply
      exact nofun
    · split at hreply <;> cases hreply
      exact nofun
  · split <;> exact nofun

theorem Message.isNumeral_of_decode {body addressee : Text} {defs : TelemetryDefs Quantity}
    (h : decode body = .ok (.addressed addressee (.definition defs))) :
    ∀ q ∈ defs.numbers, TelemetryDefs.IsNumeral q := by
  unfold decode at h
  split at h
  · cases h
  split at h
  · cases h
  split at h
  · next field rest _ =>
    split at h
    · obtain ⟨found, hfound, heq⟩ := map_eq_ok_iff.mp h
      cases found with
      | none => exact absurd (Message.addressed.inj heq).2 (content_ne_definition rest defs)
      | some defs =>
        cases heq
        exact TelemetryDefs.isNumeral_of_decode? hfound
    · cases h
  · cases h

namespace Record

section Numbers

variable {N : Type}

/-- The numbers that the readers work out. -/
def measurements (r : Record N) : List N :=
  r.readings.flatMap Option.toList ++ r.phg.elim [] Phg.numbers ++ r.weather.elim [] Weather.numbers

/-- The numbers that a station sends as numerals, to define its telemetry. -/
def coefficients (r : Record N) : List N := r.telemetryDefs.elim [] TelemetryDefs.numbers

theorem mem_numbers_iff {r : Record N} {x : N} :
    x ∈ r.numbers ↔ x ∈ r.measurements ∨ x ∈ r.coefficients := by
  simp only [numbers, measurements, coefficients, List.mem_append]
  tauto

end Numbers

variable {now : Int} {line body : Text} {header : Header} {type : Char} {report : Report}

theorem within_measurements {r : Record Quantity} {bound : Nat}
    (hreadings : ∀ o ∈ r.readings, ∀ q ∈ o, q.Within bound)
    (hphg : ∀ p ∈ r.phg, ∀ q ∈ p.numbers, q.Within bound)
    (hweather : ∀ found ∈ r.weather, found.Within bound) :
    ∀ q ∈ r.measurements, q.Within bound := by
  intro q hq
  rw [measurements, List.mem_append, List.mem_append] at hq
  rcases hq with (hq | hq) | hq
  · obtain ⟨o, ho, hq⟩ := List.mem_flatMap.mp hq
    exact hreadings o ho q (Option.mem_toList.mp hq)
  · cases hp : r.phg with
    | none =>
      rw [hp] at hq
      cases hq
    | some p =>
      rw [hp] at hq
      exact hphg p hp q hq
  · cases hw : r.weather with
    | none =>
      rw [hw] at hq
      cases hq
    | some found =>
      rw [hw] at hq
      obtain ⟨o, ho, hq⟩ := List.mem_flatMap.mp hq
      exact hweather found hw o ho q (Option.mem_toList.mp hq)

/-- What a record measures keeps to a bound, and what it defines is in numerals. -/
structure Within (bound : Nat) (r : Record Quantity) : Prop where
  measurements : ∀ q ∈ r.measurements, q.Within bound
  coefficients : ∀ q ∈ r.coefficients, TelemetryDefs.IsNumeral q

theorem within_of_absent {r : Record Quantity} {bound : Nat} (hmeasurements : r.measurements = [])
    (hcoefficients : r.coefficients = []) : r.Within bound where
  measurements := hmeasurements ▸ List.forall_mem_nil _
  coefficients := hcoefficients ▸ List.forall_mem_nil _

theorem forall_mem_coefficients_of_absent {P : Quantity → Prop} {r : Record Quantity}
    (h : r.telemetryDefs = none) : ∀ q ∈ r.coefficients, P q := by
  rw [coefficients, h]
  exact List.forall_mem_nil P

theorem within_withReport (h : Report.decode now header.destination type body = .ok report) :
    ((Line.blankRecord line header).withReport report).Within 131 := by
  refine Report.decode_induction
    (motive := fun report => ((Line.blankRecord line header).withReport report).Within 131)
    ?position ?micE ?weather ?message ?status ?userDefined ?undecoded h
  case position =>
    intro kind rest p _ hposition
    obtain ⟨hlatitude, hlongitude, hreadings, hweather⟩ := Position.within_of_decode hposition
    rw [withReport, withPosition_blankRecord]
    refine ⟨within_measurements ?_ hreadings.phg hweather, forall_mem_coefficients_of_absent rfl⟩
    simp only [readings, List.forall_mem_cons]
    exact ⟨fun _ hq => Option.some.inj hq ▸ hlatitude, fun _ hq => Option.some.inj hq ▸ hlongitude,
      hreadings.course, hreadings.speed, hreadings.altitude, hreadings.range,
      List.forall_mem_nil _⟩
  case micE =>
    intro m hmicE
    have hm := MicE.within_of_decode hmicE
    obtain ⟨hlatitude, hlongitude⟩ := Dao.within_refined m.dao hm.latitude hm.longitude
    have hspeed : m.speed.Within 131 := hm.speed.mono (by decide)
    have hcourse : m.course.Within 131 := hm.course.mono (by decide)
    have hnorth : (Dao.refined m.dao m.latitude m.longitude).1.Within 131 :=
      hlatitude.mono (by decide)
    have heast : (Dao.refined m.dao m.latitude m.longitude).2.Within 131 :=
      hlongitude.mono (by decide)
    rw [withReport, withMicE_blankRecord]
    refine ⟨within_measurements ?_ (fun p hp => absurd hp (Option.not_mem_none p))
      (fun w hw => absurd hw (Option.not_mem_none w)), forall_mem_coefficients_of_absent rfl⟩
    simp only [readings, List.forall_mem_cons]
    exact ⟨fun _ hq => Option.some.inj hq ▸ hnorth, fun _ hq => Option.some.inj hq ▸ heast,
      fun _ hq => Option.some.inj hq ▸ hcourse, fun _ hq => Option.some.inj hq ▸ hspeed,
      fun q hq => (hm.altitude q hq).mono (by decide),
      fun q hq => absurd hq (Option.not_mem_none q), List.forall_mem_nil _⟩
  case weather =>
    intro w hw
    refine ⟨within_measurements ?_ (fun p hp => absurd hp (Option.not_mem_none p)) ?_,
      forall_mem_coefficients_of_absent rfl⟩
    · simp [readings, withReport, Line.blankRecord]
    · intro found hfound o ho q hq
      exact (WeatherReport.within_of_decode? hw found hfound o ho q hq).mono (by decide)
  case message =>
    intro message hmessage
    cases message with
    | addressed addressee content =>
      cases content with
      | definition defs =>
        exact ⟨List.forall_mem_nil _, Message.isNumeral_of_decode hmessage⟩
      | reply | text => exact within_of_absent rfl rfl
    | bulletin | announcement | unaddressed => exact within_of_absent rfl rfl
  case status =>
    intro timestamp text
    rw [withStatus_blankRecord]
    exact within_of_absent rfl rfl
  case userDefined => exact fun _ _ _ => within_of_absent rfl rfl
  case undecoded => exact within_of_absent rfl rfl

end Record

end Aprs
