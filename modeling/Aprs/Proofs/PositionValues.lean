import Aprs.Proofs.Base91
import Aprs.Proofs.MicECoordinates

/-!
The coordinates that the three ways to write a position come to, worked out exactly from the text.
Degrees are checked or cannot be too large, but minutes are whatever the digits say.
-/

namespace Aprs

open Quantity Reading

theorem Quantity.arc_eq (degrees hundredths : Nat) :
    arc degrees hundredths = ((6000 * degrees + hundredths : Nat) : Rat) / 6000 := by
  rw [arc]
  push_cast
  ring

theorem Quantity.abs_signed_arc (negative : Bool) (degrees hundredths : Nat) :
    |signed negative (arc degrees hundredths)| = arc degrees hundredths := by
  rw [abs_signed, arc_eq]
  exact abs_of_nonneg (by positivity)

/-- An arc reaches so many degrees with sixty minutes for each of them. -/
theorem Quantity.abs_signed_arc_le_iff {negative : Bool} {degrees hundredths : Nat} (bound : Nat) :
    |signed negative (arc degrees hundredths)| ≤ bound ↔
      6000 * degrees + hundredths ≤ 6000 * bound := by
  rw [abs_signed_arc, arc_eq, div_le_iff₀ (by norm_num), mul_comm (bound : Rat)]
  exact_mod_cast Iff.rfl

theorem Quantity.abs_signed_arc_lt {negative : Bool} {degrees hundredths bound : Nat}
    (h : 6000 * degrees + hundredths < 6000 * bound) :
    |signed negative (arc degrees hundredths)| < bound := by
  rw [abs_signed_arc, arc_eq, div_lt_iff₀ (by norm_num), mul_comm (bound : Rat)]
  exact_mod_cast h

namespace Uncompressed

variable {field : Text} {fix : Fix}

/-- Blanks are replaced by digits, and nothing else is touched. -/
theorem forall₂_fillBlanks (t : Text) :
    List.Forall₂ (fun c filled => c ≠ ' ' ∧ filled = c ∨ c = ' ' ∧ filled.isDigit = true) t
      (fillBlanks t) := by
  induction t with
  | nil => exact .nil
  | cons c t ih =>
    by_cases hc : c = ' '
    · subst hc
      rw [fillBlanks]
      refine .cons (.inr ⟨rfl, by decide⟩) (List.forall₂_map_right_iff.mpr ?_)
      refine List.forall₂_same.mpr fun d _ => ?_
      by_cases hd : d = ' '
      · exact .inr ⟨hd, by rw [if_pos hd]; decide⟩
      · exact .inl ⟨hd, if_neg hd⟩
    · rw [fillBlanks]
      · exact .cons (.inl ⟨hc, rfl⟩) ih
      · exact hc

variable {m₁ m₂ m₃ m₄ : Char}

theorem exists_fillBlanks
    (h : ∀ c ∈ [m₁, m₂, m₃, m₄], Text.isDigitOrSpace c = true) :
    ∃ a b c d, fillBlanks [m₁, m₂, '.', m₃, m₄] = [a, b, '.', c, d] ∧
      ∀ x ∈ [a, b, c, d], x.isDigit = true := by
  have hdigit : ∀ {m x : Char}, Text.isDigitOrSpace m = true →
      (m ≠ ' ' ∧ x = m ∨ m = ' ' ∧ x.isDigit = true) → x.isDigit = true := by
    rintro m x hm (⟨hne, rfl⟩ | ⟨_, hx⟩)
    · rw [Text.isDigitOrSpace, Bool.or_eq_true, beq_iff_eq] at hm
      exact hm.resolve_right hne
    · exact hx
  have hfilled := forall₂_fillBlanks [m₁, m₂, '.', m₃, m₄]
  generalize fillBlanks [m₁, m₂, '.', m₃, m₄] = filled at hfilled ⊢
  obtain _ | ⟨h₁, _ | ⟨h₂, _ | ⟨hpoint, _ | ⟨h₃, _ | ⟨h₄, ⟨⟩⟩⟩⟩⟩⟩ := hfilled
  simp only [List.forall_mem_cons] at h
  obtain ⟨hm₁, hm₂, hm₃, hm₄, _⟩ := h
  obtain ⟨_, rfl⟩ | ⟨hblank, _⟩ := hpoint
  · refine ⟨_, _, _, _, rfl, ?_⟩
    simp only [List.forall_mem_cons]
    exact ⟨hdigit hm₁ h₁, hdigit hm₂ h₂, hdigit hm₃ h₃, hdigit hm₄ h₄, fun _ hx => by cases hx⟩
  · exact absurd hblank (by decide)

/-- Hundredths of a minute, with blanks filled. -/
def hundredths (minutes : Text) : Nat :=
  if 4 ≤ blanks minutes then 3000
  else Text.natOfDigits (Text.slice 0 2 (fillBlanks minutes) ++ Text.slice 3 2 (fillBlanks minutes))

/-- Minutes that can be read, and stay below a hundred. -/
def Readable (minutes : Text) : Prop :=
  hundredths minutes < 10000 ∧
    ∃ d, Decimal.parse? (centre minutes (blanks minutes)) = some d ∧
      (Quantity.decimal d).toRat? = some ((hundredths minutes : Rat) / 100)

theorem readable (h : ∀ c ∈ [m₁, m₂, m₃, m₄], Text.isDigitOrSpace c = true) :
    Readable [m₁, m₂, '.', m₃, m₄] := by
  rw [Readable]
  by_cases hblanks : 4 ≤ blanks [m₁, m₂, '.', m₃, m₄]
  · rw [hundredths, if_pos hblanks, centre, if_pos hblanks]
    have hthirty : (scaled 30 0).toRat? = some (((3000 : Nat) : Rat) / 100) := by
      rw [toRat?_scaled]
      norm_num
    exact ⟨by norm_num, ⟨false, 30, 0⟩, by decide, hthirty⟩
  · obtain ⟨a, b, c, d, hfilled, hdigits⟩ := exists_fillBlanks h
    have hvalue : hundredths [m₁, m₂, '.', m₃, m₄] = Text.natOfDigits [a, b, c, d] := by
      rw [hundredths, if_neg hblanks, hfilled]
      rfl
    rw [hvalue, centre, if_neg hblanks, hfilled]
    have hlt := (Text.natOfDigits_lt hdigits).trans_eq (show 10 ^ 4 = 10000 by norm_num)
    exact ⟨hlt, _, Decimal.parse?_hundredths hdigits, toRat?_hundredths _⟩

/-- Minutes of the layout can always be read. -/
theorem readable_of_fills (h : Layout.Fills layout field) :
    Readable (Text.slice 2 5 field) ∧ Readable (Text.slice 12 5 field) := by
  obtain ⟨a, b, c, d, e, m₁, m₂, m₃, m₄, n₁, n₂, n₃, n₄, north, table, east, code, rfl, -,
    hminutes, -⟩ := exists_columns_of_fills h
  exact ⟨readable fun x hx => hminutes x (List.mem_append_left [n₁, n₂, n₃, n₄] hx),
    readable fun x hx => hminutes x (List.mem_append_right [m₁, m₂, m₃, m₄] hx)⟩

/-- As filled minutes are numbers, only blanks and degrees are complained about. -/
theorem cause_of_read_error {cause : PositionError} (hfills : Layout.Fills layout field)
    (h : read field = .error cause) :
    cause = .ambiguityMismatch ∧ blanks (Text.slice 2 5 field) ≠ blanks (Text.slice 12 5 field) ∨
      cause = .latitudeOutOfRange ∧ 89 < Text.natOfDigits (Text.slice 0 2 field) ∨
      cause = .longitudeOutOfRange ∧ 179 < Text.natOfDigits (Text.slice 9 3 field) := by
  obtain ⟨⟨-, latitude, hlatitude, -⟩, -, longitude, hlongitude, -⟩ := readable_of_fills hfills
  unfold read at h
  dsimp only at h
  split at h
  · next hblanks =>
    cases h
    exact .inl ⟨rfl, hblanks⟩
  next hblanks =>
  rw [ne_eq, Decidable.not_not] at hblanks
  split at h
  · next hdegrees =>
    cases h
    exact .inr (.inl ⟨rfl, hdegrees⟩)
  split at h
  · next hdegrees =>
    cases h
    exact .inr (.inr ⟨rfl, hdegrees⟩)
  -- The blanks of both minutes are as many, so the second are filled as the first are.
  rw [← hblanks] at hlongitude
  rw [hlatitude, hlongitude] at h
  cases h

/-- Both coordinates of a field, from its digits and hemispheres. -/
def latitudeOf (field : Text) : Rat :=
  signed ((field.getD 7 ' ').toUpper == 'S')
    (arc (Text.natOfDigits (Text.slice 0 2 field)) (hundredths (Text.slice 2 5 field)))

def longitudeOf (field : Text) : Rat :=
  signed ((field.getD 17 ' ').toUpper == 'W')
    (arc (Text.natOfDigits (Text.slice 9 3 field)) (hundredths (Text.slice 12 5 field)))

theorem toRat?_coordinate {degrees : Nat} {minutes : Decimal} {hundredths : Nat}
    (h : (Quantity.decimal minutes).toRat? = some ((hundredths : Rat) / 100)) (negative : Bool) :
    (coordinate degrees minutes negative).toRat? =
      some (signed negative (arc degrees hundredths)) :=
  toRat?_negIf negative (toRat?_ofDegreesMinutes (toRat?_ofNat degrees) h)

theorem toRat?_of_read (hfills : Layout.Fills layout field) (h : read field = .ok fix) :
    fix.latitude.toRat? = some (latitudeOf field) ∧
      fix.longitude.toRat? = some (longitudeOf field) ∧
      |latitudeOf field| < 91 ∧ |longitudeOf field| < 181 := by
  obtain ⟨north, east, hblanks, hdegrees, hdegrees', hnorth, heast, rfl⟩ := exists_of_read h
  obtain ⟨⟨hlt, north', hnorth', hnorthValue⟩, hlt', east', heast', heastValue⟩ :=
    readable_of_fills hfills
  rw [hblanks] at heast
  cases hnorth'.symm.trans hnorth
  cases heast'.symm.trans heast
  refine ⟨toRat?_coordinate hnorthValue _, toRat?_coordinate heastValue _, ?_, ?_⟩
  -- The degrees are checked, and minutes below a hundred are less than two degrees.
  · have hlat : 6000 * Text.natOfDigits (Text.slice 0 2 field) +
        hundredths (Text.slice 2 5 field) < 6000 * 91 := by omega
    exact_mod_cast abs_signed_arc_lt hlat
  · have hlon : 6000 * Text.natOfDigits (Text.slice 9 3 field) +
        hundredths (Text.slice 12 5 field) < 6000 * 181 := by omega
    exact_mod_cast abs_signed_arc_lt hlon

end Uncompressed

namespace Compressed

def latitudeOf (block : Text) : Rat := 90 - (Base91.value (Text.slice 1 4 block) : Rat) / 380926

def longitudeOf (block : Text) : Rat := -180 + (Base91.value (Text.slice 5 4 block) : Rat) / 190463

theorem toRat?_latitude (n : Nat) : (latitude n).toRat? = some (90 - (n : Rat) / 380926) :=
  toRat?_sub (toRat?_ofNat 90) (toRat?_div (toRat?_ofNat n) (toRat?_ofNat 380926))

theorem toRat?_longitude (n : Nat) : (longitude n).toRat? = some (-180 + (n : Rat) / 190463) :=
  toRat?_add (toRat?_neg (toRat?_ofNat 180))
    (toRat?_div (toRat?_ofNat n) (toRat?_ofNat 190463))

/-- Four digits stay far below the limit. -/
theorem value_of_number {t : Text} {n : Nat} (h : number t = .ok n) (hlength : t.length = 4) :
    n = Base91.value t ∧ Base91.value t < 68574961 := by
  have hdecode := mapError_eq_ok_iff.mp h
  have hdigits := Base91.isDigit_of_decode hdecode
  have hlt := Base91.value_lt hdigits
  rw [hlength] at hlt
  have hlimit : Base91.value t ≤ Base91.limit := hlt.le.trans (by decide)
  rw [Base91.decode_eq_value hdigits hlimit] at hdecode
  cases hdecode
  exact ⟨rfl, hlt⟩

/-- The scale of the latitude goes a little past the south pole. -/
theorem abs_latitudeOf_le_iff {block : Text} :
    |latitudeOf block| ≤ 90 ↔ Base91.value (Text.slice 1 4 block) ≤ 68566680 := by
  have hnonneg : (0 : Rat) ≤ (Base91.value (Text.slice 1 4 block) : Rat) / 380926 := by positivity
  have hscale : (Base91.value (Text.slice 1 4 block) : Rat) / 380926 ≤ 180 ↔
      Base91.value (Text.slice 1 4 block) ≤ 68566680 := by
    rw [div_le_iff₀ (by norm_num)]
    norm_num
  rw [← hscale, latitudeOf, abs_le]
  constructor
  · rintro ⟨hsouth, _⟩
    linarith
  · intro hle
    exact ⟨by linarith, by linarith⟩

theorem abs_longitudeOf_le_iff {block : Text} :
    |longitudeOf block| ≤ 180 ↔ Base91.value (Text.slice 5 4 block) ≤ 68566680 := by
  have hnonneg : (0 : Rat) ≤ (Base91.value (Text.slice 5 4 block) : Rat) / 190463 := by positivity
  have hscale : (Base91.value (Text.slice 5 4 block) : Rat) / 190463 ≤ 360 ↔
      Base91.value (Text.slice 5 4 block) ≤ 68566680 := by
    rw [div_le_iff₀ (by norm_num)]
    norm_num
  rw [← hscale, longitudeOf, abs_le]
  constructor
  · rintro ⟨_, heast⟩
    linarith
  · intro hle
    exact ⟨by linarith, by linarith⟩

theorem toRat?_of_decode {body rest : Text} {fix : Fix} (h : decode body = .ok (fix, rest)) :
    ∃ block, body = block ++ rest ∧ Layout.Fills layout block ∧
      fix.latitude.toRat? = some (latitudeOf block) ∧
      fix.longitude.toRat? = some (longitudeOf block) ∧
      |latitudeOf block| < 91 ∧ |longitudeOf block| < 181 := by
  unfold decode at h
  split at h
  · cases h
  · next block after hlayout =>
    obtain ⟨north, hnorth, h⟩ := bind_eq_ok_iff.mp h
    obtain ⟨east, heast, h⟩ := bind_eq_ok_iff.mp h
    cases pure_eq_ok_iff.mp h
    obtain ⟨rfl, hfills⟩ := Layout.take?_eq_some_iff.mp hlayout
    have hlength : block.length = 13 := Layout.length_eq_of_fills hfills
    obtain ⟨rfl, hnorthLt⟩ := value_of_number hnorth (by simp [Text.slice, hlength])
    obtain ⟨rfl, heastLt⟩ := value_of_number heast (by simp [Text.slice, hlength])
    refine ⟨block, rfl, hfills, toRat?_latitude _, toRat?_longitude _, ?_, ?_⟩
    · have hcast : (Base91.value (Text.slice 1 4 block) : Rat) / 380926 < 181 := by
        rw [div_lt_iff₀ (by norm_num)]
        exact lt_trans (Nat.cast_lt.mpr hnorthLt) (by norm_num)
      rw [latitudeOf, abs_lt]
      have hnonneg : (0 : Rat) ≤ (Base91.value (Text.slice 1 4 block) : Rat) / 380926 := by
        positivity
      exact ⟨by linarith, by linarith⟩
    · have hcast : (Base91.value (Text.slice 5 4 block) : Rat) / 190463 < 361 := by
        rw [div_lt_iff₀ (by norm_num)]
        exact lt_trans (Nat.cast_lt.mpr heastLt) (by norm_num)
      rw [longitudeOf, abs_lt]
      have hnonneg : (0 : Rat) ≤ (Base91.value (Text.slice 5 4 block) : Rat) / 190463 := by
        positivity
      exact ⟨by linarith, by linarith⟩

end Compressed

namespace MicE

def ambiguityOf (destination : Text) : Nat :=
  (ambiguity? (destination.map latitudeDigit)).getD 0

/-- The digits of the latitude, with blanks filled. -/
def filledDigits (destination : Text) : Text :=
  fillBlanks (destination.map latitudeDigit) (ambiguityOf destination)

def latitudeOf (destination : Text) : Rat :=
  signed (!isFlagged destination 3)
    (arc (Text.natOfDigits (Text.slice 0 2 (filledDigits destination)))
      (Text.natOfDigits (Text.slice 2 4 (filledDigits destination))))

def longitudeOf (destination body : Text) : Rat :=
  signed (isFlagged destination 5)
    (arc (longitudeDegrees (body.getD 0 ' ') (isFlagged destination 4))
      (boxCentre (ambiguityOf destination)
        (100 * longitudeMinutes (body.getD 1 ' ') + count (body.getD 2 ' '))))

theorem toRat?_of_decodeLatitude {destination : Text} {latitude : Quantity} {ambiguity : Nat}
    (hlength : destination.length = 6)
    (h : decodeLatitude destination = .ok (latitude, ambiguity)) :
    ambiguity = ambiguityOf destination ∧
      (negIf (!isFlagged destination 3) latitude).toRat? = some (latitudeOf destination) ∧
      |latitudeOf destination| < 101 := by
  obtain ⟨degrees, minutes, hshown, hdegrees, hminutes, htwo, hfour⟩ :=
    exists_digits_of_decodeLatitude hlength h
  cases h.symm.trans (decodeLatitude_of_digits hshown hdegrees hminutes htwo hfour)
  obtain ⟨hblanks, hfill⟩ := ambiguity?_map_and_fillBlanks_map hshown hdegrees hminutes htwo hfour
  have hambiguity : ambiguityOf destination = ambiguity := by
    rw [ambiguityOf, hblanks, Option.getD_some]
  have hfilled : filledDigits destination = degrees ++ (minutes ++ middleDigits ambiguity) := by
    rw [filledDigits, hambiguity, hfill]
  have hmiddle : (minutes ++ middleDigits ambiguity).length = 4 := by
    rw [List.length_append, length_middleDigits (by omega), hfour]
  have hvalue : latitudeOf destination = signed (!isFlagged destination 3)
      (arc (Text.natOfDigits degrees) (Text.natOfDigits (minutes ++ middleDigits ambiguity))) := by
    rw [latitudeOf, hfilled, Text.slice, Text.slice, List.drop_zero, List.take_left' htwo,
      List.drop_left' htwo, List.take_of_length_le hmiddle.le]
  rw [hvalue]
  refine ⟨hambiguity.symm,
    toRat?_negIf _ (toRat?_ofDegreesMinutes (toRat?_ofNat _) (toRat?_hundredths _)), ?_⟩
  have hfilledDigits : ∀ c ∈ minutes ++ middleDigits ambiguity, c.isDigit = true :=
    List.forall_mem_append.mpr ⟨hminutes, fun _ hc => isDigit_of_mem_middleDigits hc⟩
  have hhigh := Text.natOfDigits_lt hdegrees
  have hlow := Text.natOfDigits_lt hfilledDigits
  rw [htwo] at hhigh
  rw [hmiddle] at hlow
  have hlat : 6000 * Text.natOfDigits degrees +
      Text.natOfDigits (minutes ++ middleDigits ambiguity) < 6000 * 101 := by omega
  exact_mod_cast abs_signed_arc_lt hlat

theorem between_of_take?_bodyLayout {body : Text} (h : (bodyLayout.take? body).isSome = true) :
    Text.between '&' '\x7f' (body.getD 0 ' ') = true ∧
      Text.between '&' 'a' (body.getD 1 ' ') = true ∧
      Text.between '\x1c' '\x7f' (body.getD 2 ' ') = true := by
  obtain ⟨⟨field, rest⟩, htake⟩ := Option.isSome_iff_exists.mp h
  obtain ⟨rfl, hfills⟩ := Layout.take?_eq_some_iff.mp htake
  obtain ⟨a, _, rfl, ha, hfills⟩ := Layout.fills_cons_iff.mp hfills
  obtain ⟨b, _, rfl, hb, hfills⟩ := Layout.fills_cons_iff.mp hfills
  obtain ⟨c, _, rfl, hc, _⟩ := Layout.fills_cons_iff.mp hfills
  exact ⟨ha, hb, hc⟩

/-- Longitudes wrap, so all of them are on the globe. -/
theorem toRat?_of_decodeLongitude {destination body : Text}
    (hbody : (bodyLayout.take? body).isSome = true) (hambiguity : ambiguityOf destination ≤ 4) :
    (negIf (isFlagged destination 5)
        (decodeLongitude body (isFlagged destination 4) (ambiguityOf destination))).toRat? =
      some (longitudeOf destination body) ∧
      |longitudeOf destination body| < 180 := by
  obtain ⟨ha, hb, hc⟩ := between_of_take?_bodyLayout hbody
  have hdegrees := longitudeDegrees_lt ha (isFlagged destination 4)
  have hminutes := longitudeMinutes_lt hb
  have hhundredths := count_lt hc
  refine ⟨toRat?_negIf _ (toRat?_decodeLongitude hminutes hhundredths hambiguity _), ?_⟩
  have hfraction : 100 * longitudeMinutes (body.getD 1 ' ') + count (body.getD 2 ' ') < 6000 := by
    omega
  have hcentre := boxCentre_lt hfraction (ambiguityOf destination)
  have hlon : 6000 * longitudeDegrees (body.getD 0 ' ') (isFlagged destination 4) +
      boxCentre (ambiguityOf destination)
        (100 * longitudeMinutes (body.getD 1 ' ') + count (body.getD 2 ' ')) < 6000 * 180 := by
    omega
  exact_mod_cast abs_signed_arc_lt hlon

theorem toRat?_of_decode {destination body : Text} {m : MicE}
    (h : decode destination body = .ok m) :
    Layout.Fills destinationLayout (Text.upTo '-' destination) ∧
      (bodyLayout.take? body).isSome = true ∧
      m.latitude.toRat? = some (latitudeOf (Text.upTo '-' destination)) ∧
      m.longitude.toRat? = some (longitudeOf (Text.upTo '-' destination) body) ∧
      |latitudeOf (Text.upTo '-' destination)| < 101 ∧
      |longitudeOf (Text.upTo '-' destination) body| < 180 := by
  unfold decode at h
  obtain ⟨_, hcheck, h⟩ := bind_eq_ok_iff.mp h
  obtain ⟨⟨latitude, ambiguity⟩, hlatitude, h⟩ := bind_eq_ok_iff.mp h
  obtain ⟨_, _, h⟩ := bind_eq_ok_iff.mp h
  obtain ⟨_, _, h⟩ := bind_eq_ok_iff.mp h
  cases pure_eq_ok_iff.mp h
  obtain ⟨_, _, hdestination, hbody⟩ := check_eq_ok_iff.mp (mapError_eq_ok_iff.mp hcheck)
  have hdecode := mapError_eq_ok_iff.mp hlatitude
  have hambiguity := ambiguity_le_of_decodeLatitude hdecode
  obtain ⟨rfl, hnorth, hnorthLt⟩ :=
    toRat?_of_decodeLatitude (Layout.length_eq_of_fills hdestination) hdecode
  obtain ⟨heast, heastLt⟩ := toRat?_of_decodeLongitude hbody hambiguity
  exact ⟨hdestination, hbody, hnorth, heast, hnorthLt, heastLt⟩

end MicE

end Aprs
