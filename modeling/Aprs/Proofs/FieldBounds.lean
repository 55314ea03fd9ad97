import Aprs.Proofs.Base91
import Aprs.Proofs.CommentTags
import Aprs.Proofs.ExactValues
import Aprs.Proofs.PacketDocument
import Aprs.Proofs.QuantityBounds
import Aprs.Proofs.Soundness

/-!
Bounds of what the fields of a report hold. Fields have so few columns, and their columns so few
values, that every number of a position, an extension, an altitude, a Mic-E report or a weather
report is far from the limit of floating-point numbers, the powers in them included.
-/

namespace Aprs

open Quantity Reading

section Fields

theorem Text.toNat_lt (c : Char) : c.toNat < 2 ^ 21 := by
  have hvalid : c.toNat.isValidChar := c.valid
  rcases hvalid with hlow | ⟨-, hhigh⟩ <;> omega

theorem Text.nat?_lt {t : Text} {n : Nat} (h : nat? t = some n) : n < 10 ^ t.length := by
  rw [nat?] at h
  split at h
  · next hdigits =>
    cases h
    exact natOfDigits_lt (List.all_eq_true.mp hdigits.2)
  · cases h

theorem Decimal.digits_lt_of_parseUnsigned? {negative : Bool} {t : Text} {d : Decimal}
    (h : parseUnsigned? negative t = some d) : d.digits < 10 ^ t.length := by
  have hwhole : ∀ c ∈ t.takeWhile Char.isDigit, c.isDigit = true := by
    have hall := List.all_takeWhile (p := Char.isDigit) (l := t)
    exact List.all_eq_true.mp hall
  have hlength :=
    congrArg List.length (List.takeWhile_append_dropWhile (p := Char.isDigit) (l := t))
  rw [List.length_append] at hlength
  unfold parseUnsigned? at h
  dsimp only at h
  split at h
  · split at h
    · cases h
    · cases h
      exact (Text.natOfDigits_lt hwhole).trans_le (Nat.pow_le_pow_right (by decide) (by omega))
  · next fraction hdrop =>
    split at h
    · next hfraction =>
      cases h
      have hdigits : ∀ c ∈ t.takeWhile Char.isDigit ++ fraction, c.isDigit = true :=
        List.forall_mem_append.mpr ⟨hwhole, List.all_eq_true.mp hfraction.2⟩
      rw [hdrop, List.length_cons] at hlength
      refine (Text.natOfDigits_lt hdigits).trans_le (Nat.pow_le_pow_right (by decide) ?_)
      rw [List.length_append]
      omega
    · cases h
  · cases h

theorem Decimal.digits_lt_of_parse? {t : Text} {d : Decimal} (h : parse? t = some d) :
    d.digits < 10 ^ t.length := by
  unfold parse? at h
  split at h
  · exact (digits_lt_of_parseUnsigned? h).trans_le (Nat.pow_le_pow_right (by decide) (by simp))
  · exact digits_lt_of_parseUnsigned? h

/-- The digits after the opening of a field. -/
theorem Layout.natOfDigits_drop_lt (opening : Layout) {n : Nat} {field : Text}
    (h : Fills (opening ++ columns n Char.isDigit) field) :
    Text.natOfDigits (field.drop opening.length) < 10 ^ n := by
  obtain ⟨start, digits, rfl, hstart, hdigits⟩ := fills_append_iff.mp h
  obtain ⟨hlength, hall⟩ := fills_columns_iff.mp hdigits
  rw [List.drop_left' (length_eq_of_fills hstart), ← hlength]
  exact Text.natOfDigits_lt hall

theorem ten_pow_le (n : Nat) : 10 ^ n ≤ 2 ^ (4 * n) := by
  rw [pow_mul]
  exact Nat.pow_le_pow_left (by decide) n

/-- A numeral has at most four bits for each of its characters. -/
theorem Quantity.within_of_parse? {t : Text} {d : Decimal} {n : Nat}
    (h : Decimal.parse? t = some d) (hlength : t.length ≤ n) : (decimal d).Within (4 * n) := by
  have hdigits : d.digits ≤ 2 ^ (4 * n) := by
    calc d.digits ≤ 10 ^ t.length := (Decimal.digits_lt_of_parse? h).le
      _ ≤ 10 ^ n := Nat.pow_le_pow_right (by decide) hlength
      _ ≤ 2 ^ (4 * n) := ten_pow_le n
  exact (signedWithin_decimal (hdigits.trans (Nat.le_mul_of_pos_right _ (by positivity)))).within

theorem Base91.lt_of_decode {t : Text} {n : Nat} (h : decode t = .ok n) : n < 2 ^ 64 := by
  rw [decode_eq_min (isDigit_of_decode h)] at h
  cases h
  exact (Nat.min_le_right _ _).trans_lt (by decide)

end Fields

section Arcs

variable {a b : Quantity} {i j : Nat}

theorem Quantity.Within.div_sixty (ha : a.Within i) : (a / 60).Within i :=
  ha.div_scaled 60 0 (by decide)

theorem Quantity.Within.ofDegreesMinutes (ha : a.Within i) (hb : b.Within j) :
    (ofDegreesMinutes a b).Within (max i j + 1) :=
  ha.add hb.div_sixty

end Arcs

namespace Uncompressed

theorem length_fillBlanks (t : Text) : (fillBlanks t).length = t.length := by
  induction t with
  | nil => rfl
  | cons c t ih =>
    by_cases hc : c = ' '
    · subst hc
      rw [fillBlanks, List.length_cons, List.length_cons, List.length_map]
    · rw [fillBlanks]
      · rw [List.length_cons, List.length_cons, ih]
      · exact hc

theorem length_centre_le {minutes : Text} (hlength : minutes.length ≤ 5) (ambiguity : Nat) :
    (centre minutes ambiguity).length ≤ 5 := by
  rw [centre]
  split
  · decide
  · rwa [length_fillBlanks]

theorem within_coordinate {degrees : Nat} {t : Text} {minutes : Decimal} (hdegrees : degrees ≤ 179)
    (hminutes : Decimal.parse? t = some minutes) (hlength : t.length ≤ 5) (negative : Bool) :
    (coordinate degrees minutes negative).Within 21 := by
  have hwhole : (ofNat degrees).Within 8 := within_ofNat (hdegrees.trans (by decide))
  have hfraction : (decimal minutes).Within 20 := within_of_parse? hminutes hlength
  exact (hwhole.ofDegreesMinutes hfraction).negIf negative

theorem within_of_read {field : Text} {fix : Fix} (h : read field = .ok fix) :
    fix.latitude.Within 21 ∧ fix.longitude.Within 21 ∧ fix.readings = {} := by
  obtain ⟨latitude, longitude, -, hnorth, heast, hlatitude, hlongitude, rfl⟩ := exists_of_read h
  have hslice : ∀ start, (Text.slice start 5 field).length ≤ 5 := fun start =>
    List.length_take_le 5 (field.drop start)
  exact ⟨within_coordinate (by omega) hlatitude (length_centre_le (hslice 2) _) _,
    within_coordinate heast hlongitude (length_centre_le (hslice 12) _) _, rfl⟩

end Uncompressed

/-- All numbers among the readings keep to a bound. -/
structure Readings.Within (bound : Nat) (r : Readings) : Prop where
  course : ∀ q ∈ r.course, q.Within bound
  speed : ∀ q ∈ r.speed, q.Within bound
  altitude : ∀ q ∈ r.altitude, q.Within bound
  range : ∀ q ∈ r.range, q.Within bound
  phg : ∀ p ∈ r.phg, ∀ q ∈ p.numbers, q.Within bound

theorem Readings.within_none (bound : Nat) : Readings.Within bound {} :=
  ⟨nofun, nofun, nofun, nofun, nofun⟩

section Units

variable {a : Quantity} {i : Nat}

theorem Quantity.Within.metresOfFeet (ha : a.Within i) : (metresOfFeet a).Within i :=
  ha.mul_scaled 3048 4 (j := 0) (by decide)

theorem Quantity.Within.ofKnots (ha : a.Within i) : (ofKnots a).Within (i + 1) :=
  ha.mul_scaled 1852 3 (by decide)

theorem Quantity.Within.kilometresOfMiles (ha : a.Within i) :
    (kilometresOfMiles a).Within (i + 1) :=
  ha.mul_scaled 1609344 6 (by decide)

end Units

namespace Compressed

/-- Bounds for the squares of the base of altitudes. -/
def altitudeSquares : List Nat := List.replicate 9 1 ++ [2, 3, 6, 12, 24]

/-- Bounds for the squares of the base of speeds and ranges. -/
def speedSquares : List Nat := [1, 1, 1, 1, 2, 4, 8]

theorem squaresWithin_altitude : squaresWithin altitudeSquares (scaled 1002 3).toFloat = true := by
  decide +kernel

theorem squaresWithin_speed : squaresWithin speedSquares (scaled 108 2).toFloat = true := by
  decide +kernel

theorem within_altitude (exponent : Int) (h : exponent.natAbs < 2 ^ 14) :
    (power (scaled 1002 3) exponent).Within 56 :=
  (signedWithin_power squaresWithin_altitude exponent h).within

theorem within_speed (exponent : Int) (h : exponent.natAbs < 2 ^ 7) :
    (power (scaled 108 2) exponent).Within 18 :=
  (signedWithin_power squaresWithin_speed exponent h).within

theorem offset_bounds {c : Char} (h : isAscii c = true) : -33 ≤ offset c ∧ offset c ≤ 94 := by
  have hlt : c.toNat < 128 := of_decide_eq_true h
  rw [offset]
  omega

theorem within_readings {c s kind : Int} (hc : -33 ≤ c ∧ c ≤ 94) (hs : -33 ≤ s ∧ s ≤ 94) :
    (readings c s kind).Within 60 := by
  unfold readings
  split
  · exact Readings.within_none 60
  split
  · have haltitude := (within_altitude (c * 91 + s) (by omega)).metresOfFeet
    refine { Readings.within_none 60 with altitude := ?_ }
    rintro _ ⟨⟩
    exact haltitude.mono (by decide)
  split
  · next hcourse =>
    have hone : (1 : Quantity).Within 0 := within_ofNat (n := 1) (by decide)
    have hspeed := ((within_speed s (by omega)).sub hone).ofKnots
    refine { Readings.within_none 60 with course := ?_, speed := ?_ }
    · rintro _ ⟨⟩
      split
      · exact within_ofNat (n := 360) (by decide)
      · exact within_ofInt (by omega)
    · rintro _ ⟨⟩
      exact hspeed.mono (by decide)
  split
  · have htwo : (2 : Quantity).Within 1 := within_ofNat (n := 2) (by decide)
    have hrange := (htwo.mul (within_speed s (by omega))).kilometresOfMiles
    refine { Readings.within_none 60 with range := ?_ }
    rintro _ ⟨⟩
    exact hrange.mono (by decide)
  · exact Readings.within_none 60

theorem within_latitude {n : Nat} (h : n < 2 ^ 64) : (latitude n).Within 65 :=
  (within_ofNat (n := 90) (k := 7) (by decide)).sub
    ((within_ofNat h.le).div_scaled 380926 0 (by decide))

theorem within_longitude {n : Nat} (h : n < 2 ^ 64) : (longitude n).Within 65 :=
  (within_ofNat (n := 180) (k := 8) (by decide)).neg.add
    ((within_ofNat h.le).div_scaled 190463 0 (by decide))

theorem within_of_decode {body rest : Text} {fix : Fix} (h : decode body = .ok (fix, rest)) :
    fix.latitude.Within 65 ∧ fix.longitude.Within 65 ∧ fix.readings.Within 60 := by
  unfold decode at h
  split at h
  · cases h
  · next block after hlayout =>
    obtain ⟨north, hnorth, h⟩ := bind_eq_ok_iff.mp h
    obtain ⟨east, heast, h⟩ := bind_eq_ok_iff.mp h
    cases pure_eq_ok_iff.mp h
    have hcolumns := (Layout.fills_columns_iff.mp (Layout.take?_eq_some_iff.mp hlayout).2).2
    have hascii : ∀ i, isAscii (block.getD i ' ') = true := by
      intro i
      rw [List.getD_eq_getElem?_getD]
      cases hc : block[i]? with
      | none => decide
      | some c => exact hcolumns c (List.mem_of_getElem? hc)
    exact ⟨within_latitude (Base91.lt_of_decode (mapError_eq_ok_iff.mp hnorth)),
      within_longitude (Base91.lt_of_decode (mapError_eq_ok_iff.mp heast)),
      within_readings (offset_bounds (hascii 10)) (offset_bounds (hascii 11))⟩

end Compressed

namespace Extension

/-- What an extension holds when it was cut off a text. -/
def Taken : Extension → Prop
  | courseSpeed _ speed _ => speed.length = 3
  | phg digits _ => Text.digitValue (digits.getD 1 '0') < 2 ^ 7
  | range miles => miles < 10 ^ 4

theorem taken_of_takeCourseSpeed? {t rest : Text} {e : Extension}
    (h : takeCourseSpeed? t = some (e, rest)) : e.Taken := by
  obtain ⟨⟨field, after⟩, hfield, heq⟩ := Option.map_eq_some_iff.mp h
  have hlength : field.length = 7 :=
    Layout.length_eq_of_fills (Layout.take?_eq_some_iff.mp hfield).2
  have hspeed : (field.drop 4).length = 3 := by rw [List.length_drop, hlength]
  dsimp only at heq
  split at heq
  · cases heq
    exact hspeed
  · cases heq
    exact hspeed

theorem taken_of_takePhg? {t rest : Text} {e : Extension} (h : takePhg? t = some (e, rest)) :
    e.Taken := by
  obtain ⟨⟨field, after⟩, hfield, heq⟩ := Option.map_eq_some_iff.mp h
  have hfills := (Layout.take?_eq_some_iff.mp hfield).2
  obtain ⟨_, _, rfl, -, hfills⟩ := Layout.fills_cons_iff.mp hfills
  obtain ⟨_, _, rfl, -, hfills⟩ := Layout.fills_cons_iff.mp hfills
  obtain ⟨_, _, rfl, -, hfills⟩ := Layout.fills_cons_iff.mp hfills
  obtain ⟨_, _, rfl, -, hfills⟩ := Layout.fills_cons_iff.mp hfills
  obtain ⟨height, _, rfl, hheight, -⟩ := Layout.fills_cons_iff.mp hfills
  obtain ⟨-, hhigh⟩ := Text.between_iff.mp hheight
  have hdigit : Text.digitValue height < 2 ^ 7 := by
    change height.toNat ≤ 126 at hhigh
    change height.toNat - 48 < 2 ^ 7
    omega
  dsimp only at heq
  split at heq
  · cases heq
    exact hdigit
  · cases heq
    exact hdigit

theorem taken_of_takeRange? {t rest : Text} {e : Extension} (h : takeRange? t = some (e, rest)) :
    e.Taken := by
  obtain ⟨⟨field, after⟩, hfield, heq⟩ := Option.map_eq_some_iff.mp h
  cases heq
  exact Layout.natOfDigits_drop_lt [(· == 'R'), (· == 'N'), (· == 'G')]
    (Layout.take?_eq_some_iff.mp hfield).2

theorem taken_of_mem_split {t : Text} {e : Extension} (h : e ∈ (split t).1) : e.Taken := by
  unfold split at h
  split at h
  · next found rest htake =>
    cases h
    rw [take?, Option.orElse_eq_some, Option.orElse_eq_some] at htake
    rcases htake with hcourse | ⟨-, hphg | ⟨-, hrange⟩⟩
    · exact taken_of_takeCourseSpeed? hcourse
    · exact taken_of_takePhg? hphg
    · exact taken_of_takeRange? hrange
  · cases h

/-- Bounds for the squares of two. -/
def heightSquares : List Nat := [1, 2, 4, 8, 16, 32, 64]

theorem squaresWithin_height : squaresWithin heightSquares (2 : Quantity).toFloat = true := by
  decide +kernel

/-- Both roots are of numbers that are not negative. -/
theorem within_describe {digits : Text} (rate : Option Char)
    (h : Text.digitValue (digits.getD 1 '0') < 2 ^ 7) :
    ∀ q ∈ (describe digits rate).numbers, q.Within 131 := by
  have hdigit : Text.digitValue (digits.getD 0 '0') ≤ 2 ^ 21 :=
    (Nat.sub_le _ _).trans (Text.toNat_lt _).le
  have hpower := signedWithin_ofNat (k := 42) (Nat.mul_le_mul hdigit hdigit |>.trans (by decide))
  have hgrowth :=
    signedWithin_power squaresWithin_height (Text.digitValue (digits.getD 1 '0')) h
  have hten : (10 : Quantity).SignedWithin .positive 4 := signedWithin_ofNat (n := 10) (by decide)
  have hheight := (hten.mul hgrowth).mul (signedWithin_scaled 3048 4 (k := 0) (by decide))
  have hgain := signedWithin_decibels (Fin.ofNat 10 (Text.digitValue (digits.getD 2 '0')))
  have htwo : (2 : Quantity).SignedWithin .positive 1 := signedWithin_ofNat (n := 2) (by decide)
  have hfeet := htwo.mul (hheight.div_scaled 3048 4 (j := 2) (by decide))
  have hradiated := (hpower.div_scaled 10 0 (j := 0) (by decide)).mul
    (hgain.div_scaled 2 0 (j := 0) (by decide))
  have hroot := (hradiated.mono (j := 2 * 23) (by decide)).sqrt (by decide)
  have hreach := ((hfeet.mul hroot).mono (j := 2 * 79) (by decide)).sqrt (by decide)
  have hrange := hreach.within.mul_scaled 160934 5 (j := 1) (by decide)
  simp only [Phg.numbers, List.forall_mem_cons]
  exact ⟨hpower.within.mono (by decide), hheight.within.mono (by decide),
    hgain.within.mono (by decide), hrange.mono (by decide), List.forall_mem_nil _⟩

end Extension

namespace Readings

variable {r : Readings} {course speed : Text}

theorem Within.mono {i j : Nat} (h : r.Within i) (hle : i ≤ j) : r.Within j where
  course q hq := (h.course q hq).mono hle
  speed q hq := (h.speed q hq).mono hle
  altitude q hq := (h.altitude q hq).mono hle
  range q hq := (h.range q hq).mono hle
  phg p hp q hq := (h.phg p hp q hq).mono hle

theorem Within.withCourse (h : r.Within 131) (course : Text) :
    (r.withCourse course).Within 131 := by
  unfold Readings.withCourse
  split
  · split
    · exact h
    split
    · next n _ _ hcircle =>
      refine { h with course := ?_ }
      rintro _ ⟨⟩
      exact within_ofNat (hcircle.2.trans (by decide))
    · exact { h with course := nofun }
  · exact h

theorem Within.withSpeed (h : r.Within 131) (hspeed : speed.length = 3) :
    (r.withSpeed speed).Within 131 := by
  unfold Readings.withSpeed
  split
  · next n hn =>
    split
    · exact h
    · have hlt := Text.nat?_lt hn
      rw [hspeed] at hlt
      have hknots : (ofKnots (.ofNat n)).Within 11 :=
        (within_ofNat (k := 10) (by omega)).ofKnots
      refine { h with speed := ?_ }
      rintro _ ⟨⟩
      exact hknots.mono (by decide)
  · exact h

theorem Within.withFinder (h : r.Within 131) (course : Text) (finder : Option (Text × Text)) :
    (r.withFinder course finder).Within 131 := by
  unfold Readings.withFinder
  split
  · refine { h with course := ?_ }
    dsimp only
    split
    · rintro _ ⟨⟩
      exact within_ofNat (n := 0) (by decide)
    · exact h.course
  · exact h

theorem Within.apply (h : r.Within 131) {e : Extension} (he : e.Taken) :
    (r.apply e).Within 131 := by
  cases e with
  | courseSpeed course speed finder =>
    exact ((h.withCourse course).withSpeed he).withFinder course finder
  | phg digits rate =>
    refine { h with phg := ?_ }
    rintro _ ⟨⟩
    exact Extension.within_describe rate he
  | range miles =>
    have hmiles : miles ≤ 2 ^ 14 := (show miles < 10 ^ 4 from he).le.trans (by decide)
    refine { h with range := ?_ }
    rintro _ ⟨⟩
    exact (within_ofNat hmiles).kilometresOfMiles.mono (by decide)

end Readings

namespace Altitude

theorem natAbs_lt_of_take? {t rest : Text} {feet : Int} (h : take? t = some (feet, rest)) :
    feet.natAbs < 10 ^ 6 := by
  unfold take? at h
  split at h
  · next field after htake =>
    cases h
    have hlt := Layout.natOfDigits_drop_lt (opening ++ Layout.exactly '-')
      (Layout.take?_eq_some_iff.mp htake).2
    rw [Int.natAbs_neg, Int.natAbs_natCast]
    exact hlt.trans (by decide)
  · obtain ⟨⟨field, _⟩, htake, heq⟩ := Option.map_eq_some_iff.mp h
    cases heq
    exact Layout.natOfDigits_drop_lt opening (Layout.take?_eq_some_iff.mp htake).2

theorem within_of_mem_split {t : Text} {feet : Int} (h : feet ∈ (split t).1) :
    (metres feet).Within 20 := by
  unfold split at h
  split at h
  · split at h
    · next before found after hfound =>
      cases h
      obtain ⟨rest, -, htake⟩ := Text.leftmost?_eq_some hfound
      have hlt := natAbs_lt_of_take? htake
      exact (within_ofInt (k := 20) (by omega)).metresOfFeet
    · cases h
  · cases h

end Altitude

namespace Dao

theorem within_ofDecimalDigit (c : Char) : (ofDecimalDigit c).Within 21 := by
  have hdigit : Text.digitValue c ≤ 2 ^ 21 := (Nat.sub_le _ _).trans (Text.toNat_lt c).le
  exact ((within_ofNat hdigit).mul_scaled 1 3 (j := 0) (by decide)).div_sixty

theorem within_ofBase91Digit (c : Char) : (ofBase91Digit c).Within 64 := by
  have hdigit : (Base91.decode [c]).toOption.getD 0 ≤ 2 ^ 64 := by
    cases h : Base91.decode [c] with
    | error => exact Nat.zero_le _
    | ok n => exact (Base91.lt_of_decode h).le
  have hpart := (within_ofNat hdigit).div_scaled 91 0 (by decide)
  exact (hpart.mul_scaled 1 2 (j := 0) (by decide)).div_sixty

theorem within_offsets (dao : Dao) : dao.offsets.1.Within 64 ∧ dao.offsets.2.Within 64 := by
  rw [offsets]
  split
  · exact ⟨(within_ofDecimalDigit _).mono (by decide), (within_ofDecimalDigit _).mono (by decide)⟩
  split
  · exact ⟨within_ofBase91Digit _, within_ofBase91Digit _⟩
  · have hzero : (0 : Quantity).Within 64 := within_ofNat (n := 0) (by decide)
    exact ⟨hzero, hzero⟩

theorem within_refined {latitude longitude : Quantity} (dao : Option Dao)
    (hlatitude : latitude.Within 65) (hlongitude : longitude.Within 65) :
    (refined dao latitude longitude).1.Within 66 ∧
      (refined dao latitude longitude).2.Within 66 := by
  cases dao with
  | none => exact ⟨hlatitude.mono (by decide), hlongitude.mono (by decide)⟩
  | some dao =>
    obtain ⟨hnorth, heast⟩ := dao.within_offsets
    exact ⟨hlatitude.outward hnorth, hlongitude.outward heast⟩

end Dao

namespace MicE

theorem within_of_decodeLatitude {destination : Text} {latitude : Quantity} {ambiguity : Nat}
    (h : decodeLatitude destination = .ok (latitude, ambiguity)) : latitude.Within 21 := by
  unfold decodeLatitude at h
  dsimp only at h
  split at h
  · cases h
  split at h
  · cases h
  split at h
  · next minutes degrees hminutes hdegrees =>
    cases h
    have htwo : ∀ start (t : Text), (Text.slice start 2 t).length ≤ 2 := fun start t =>
      List.length_take_le 2 (t.drop start)
    refine (within_of_parse? hdegrees (htwo 0 _)).ofDegreesMinutes
      (within_of_parse? (n := 5) hminutes ?_)
    rw [List.length_append, List.length_cons]
    exact Nat.add_le_add (htwo 2 _) (Nat.succ_le_succ (htwo 4 _))
  · cases h

theorem count_le (c : Char) : count c ≤ 2 ^ 21 := (Nat.sub_le _ _).trans (Text.toNat_lt c).le

theorem within_centre {minutes hundredths : Nat} (hminutes : minutes ≤ 2 ^ 21)
    (hhundredths : hundredths ≤ 2 ^ 21) (ambiguity : Nat) :
    (centre minutes hundredths ambiguity).Within 30 := by
  have hhalf : (scaled 5 1).Within 0 := (signedWithin_scaled 5 1 (by decide)).within
  have hten : (10 : Quantity).Within 4 := within_ofNat (n := 10) (by decide)
  unfold centre
  split
  · exact within_ofNat (n := 30) (by decide)
  · have htens : (ofNat (minutes / 10)).Within 21 := within_ofNat (by omega)
    exact ((htens.add hhalf).mul hten).mono (by decide)
  · exact ((within_ofNat hminutes).add hhalf).mono (by decide)
  · have htenths : (ofNat (10 * minutes + hundredths / 10)).Within 25 := within_ofNat (by omega)
    exact ((htenths.add hhalf).div_scaled 10 0 (by decide)).mono (by decide)
  · have hpart := (within_ofNat hhundredths).div_scaled 100 0 (by decide)
    exact ((within_ofNat hminutes).add hpart).mono (by decide)

theorem within_decodeLongitude (body : Text) (offset : Bool) (ambiguity : Nat) :
    (decodeLongitude body offset ambiguity).Within 31 := by
  have hdegrees : ∀ c, longitudeDegrees c offset ≤ 2 ^ 22 := by
    intro c
    have hcount := count_le c
    unfold longitudeDegrees
    cases offset <;> dsimp only <;> split_ifs <;> omega
  have hminutes : ∀ c, longitudeMinutes c ≤ 2 ^ 21 := by
    intro c
    have hcount := count_le c
    unfold longitudeMinutes
    split <;> omega
  exact (within_ofNat (hdegrees _)).ofDegreesMinutes
    (within_centre (hminutes _) (count_le _) ambiguity)

theorem wrap_le (bound n : Nat) : wrap bound n ≤ n := by
  unfold wrap
  split <;> omega

theorem within_of_splitAltitude {t rest : Text} {altitude : Option Quantity}
    (h : splitAltitude t = .ok (altitude, rest)) : ∀ q ∈ altitude, q.Within 65 := by
  unfold splitAltitude at h
  split at h
  · split at h
    · cases h
      exact nofun
    · split at h
      · next n hn =>
        cases h
        rintro _ ⟨⟩
        exact (within_ofNat (Base91.lt_of_decode hn).le).sub
          (within_ofNat (n := 10000) (k := 14) (by decide))
      · cases h
  · cases h
    exact nofun

/-- All numbers of a report keep to a bound. -/
structure Within (bound : Nat) (m : MicE) : Prop where
  latitude : m.latitude.Within bound
  longitude : m.longitude.Within bound
  speed : m.speed.Within bound
  course : m.course.Within bound
  altitude : ∀ q ∈ m.altitude, q.Within bound

theorem within_of_decode {destination body : Text} {m : MicE}
    (h : decode destination body = .ok m) :
    m.Within 65 := by
  unfold decode at h
  obtain ⟨_, _, h⟩ := bind_eq_ok_iff.mp h
  obtain ⟨⟨latitude, ambiguity⟩, hlatitude, h⟩ := bind_eq_ok_iff.mp h
  obtain ⟨⟨channels, rest⟩, _, h⟩ := bind_eq_ok_iff.mp h
  obtain ⟨⟨altitude, rest⟩, haltitude, h⟩ := bind_eq_ok_iff.mp h
  cases pure_eq_ok_iff.mp h
  have hknots : knots body ≤ 2 ^ 25 := by
    have hunits := count_le (body.getD 3 ' ')
    have hshared := count_le (body.getD 4 ' ')
    exact (wrap_le 800 _).trans (by omega)
  have hdegrees : degrees body ≤ 2 ^ 22 := by
    have hunits := count_le (body.getD 5 ' ')
    exact (wrap_le 400 _).trans (by omega)
  exact {
    latitude := ((within_of_decodeLatitude (mapError_eq_ok_iff.mp hlatitude)).negIf _).mono
      (by decide)
    longitude := ((within_decodeLongitude body _ ambiguity).negIf _).mono (by decide)
    speed := (within_ofNat hknots).ofKnots.mono (by decide)
    course := (within_ofNat hdegrees).mono (by decide)
    altitude := within_of_splitAltitude haltitude }

end MicE

namespace Weather

theorem Token.length_le_of_isWellFormed {token : Token} (h : token.isWellFormed = true) :
    token.value.length ≤ 5 := by
  have hlength : ∀ {layout : Layout}, layout.fits token.value = true →
      token.value.length = layout.length :=
    fun hfits => Layout.length_eq_of_fills (Layout.fits_iff.mp hfits)
  simp only [isWellFormed, Bool.or_eq_true, Bool.and_eq_true] at h
  rcases h with ((((⟨-, h⟩ | ⟨-, h⟩) | ⟨-, h⟩) | ⟨-, h⟩) | ⟨-, h⟩) | ⟨-, h⟩ <;>
    exact (hlength h).trans_le (by decide)

/-- All numbers of the weather keep to a bound. -/
def Within (bound : Nat) (w : Weather Quantity) : Prop := ∀ o ∈ w.readings, ∀ q ∈ o, q.Within bound

theorem Within.store {w : Weather Quantity} (h : w.Within 25) (key : Char) {value : Decimal}
    (hvalue : (decimal value).Within 20) : (w.store key value).Within 25 := by
  have hn : (decimal value).Within 25 := hvalue.mono (by decide)
  have hspeed : (metresPerSecond (decimal value)).Within 25 :=
    hn.mul_scaled 44704 5 (j := 0) (by decide)
  have hrain : (millimetres (decimal value)).Within 25 := hn.mul_scaled 254 3 (j := 0) (by decide)
  have hfreezing : (32 : Quantity).Within 5 := within_ofNat (n := 32) (by decide)
  have htemperature : (celsius (decimal value)).Within 25 :=
    ((hvalue.sub hfreezing).div_scaled 18 1 (by decide)).mono (by decide)
  have hhumidity : (if value.digits = 0 then 100 else decimal value).Within 25 := by
    split
    · exact within_ofNat (n := 100) (by decide)
    · exact hn
  have hpressure : (decimal value / 10).Within 25 := hn.div_scaled 10 0 (by decide)
  have hthousand : (1000 : Quantity).Within 10 := within_ofNat (n := 1000) (by decide)
  have hluminosity : (decimal value + 1000).Within 25 := (hvalue.add hthousand).mono (by decide)
  have hsnow : (decimal value * .scaled 254 1).Within 25 :=
    hvalue.mul_scaled 254 1 (j := 5) (by decide)
  simp only [Within, readings, List.forall_mem_cons] at h ⊢
  unfold Weather.store
  dsimp only
  split <;> simp_all

theorem Within.apply {w : Weather Quantity} (h : w.Within 25) (token : Token) :
    (w.apply token).Within 25 := by
  unfold Weather.apply
  split
  · next hformed =>
    split
    · next value hvalue =>
      exact h.store token.key (within_of_parse? hvalue (Token.length_le_of_isWellFormed hformed))
    · exact h
  · exact h

theorem within_foldl (tokens : List Token) {w : Weather Quantity} (h : w.Within 25) :
    (tokens.foldl Weather.apply w).Within 25 := by
  induction tokens generalizing w with
  | nil => exact h
  | cons token tokens ih => exact ih (h.apply token)

theorem within_of_mem_split {t : Text} {found : Weather Quantity} (h : found ∈ (split t).1) :
    found.Within 25 := by
  have hblank : Within 25 {} := by simp [Within, readings]
  unfold split at h
  dsimp only at h
  split at h
  · cases h
  · cases h
    exact within_foldl _ hblank

end Weather

end Aprs
