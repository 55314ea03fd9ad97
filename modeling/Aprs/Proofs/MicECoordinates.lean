import Aprs.Proofs.ExactValues
import Aprs.Proofs.Soundness

/-!
The coordinates of Mic-E reports, worked out exactly. The latitude is read as a text in which blank
digits are replaced, and the longitude in whole numbers that are cut off. Both end in the middle of
the box that the blanks leave open, and the two middles are the same function of the minutes.
-/

namespace Aprs.MicE

open Quantity

/-- How many hundredths of a minute lie in a box, which is a degree without any digit of them. -/
def boxWidth : Nat → Nat
  | 0 => 1
  | 1 => 10
  | 2 => 100
  | 3 => 1000
  | _ => 6000

/-- The middle of the box of an ambiguity in which a number of hundredths lies. -/
def boxCentre (ambiguity hundredths : Nat) : Nat :=
  hundredths / boxWidth ambiguity * boxWidth ambiguity + boxWidth ambiguity / 2

theorem boxCentre_lt {hundredths : Nat} (h : hundredths < 6000) (ambiguity : Nat) :
    boxCentre ambiguity hundredths < 6000 := by
  match ambiguity with
  | 0 | 1 | 2 | 3 | _ + 4 =>
    simp only [boxCentre, boxWidth]
    omega

/-- What the middle of a box has in place of blank digits. -/
def middleDigits : Nat → Text
  | 0 => []
  | 1 => ['5']
  | 2 => ['5', '0']
  | 3 => ['5', '0', '0']
  | _ => ['3', '0', '0', '0']

theorem length_middleDigits {ambiguity : Nat} (h : ambiguity ≤ 4) :
    (middleDigits ambiguity).length = ambiguity := by
  match ambiguity, h with
  | 0, _ | 1, _ | 2, _ | 3, _ | 4, _ => rfl

theorem isDigit_of_mem_middleDigits {ambiguity : Nat} {c : Char} (h : c ∈ middleDigits ambiguity) :
    c.isDigit = true := by
  match ambiguity with
  | 0 | 1 | 2 | 3 => exact List.all_eq_true.mp (by decide) c h
  | _ + 4 =>
    have hall : ['3', '0', '0', '0'].all Char.isDigit = true := by decide
    exact List.all_eq_true.mp hall c h

theorem natOfDigits_middleDigits (ambiguity : Nat) :
    Text.natOfDigits (middleDigits ambiguity) = boxWidth ambiguity / 2 := by
  match ambiguity with
  | 0 | 1 | 2 | 3 => decide
  | _ + 4 => exact show Text.natOfDigits ['3', '0', '0', '0'] = 6000 / 2 by decide

/-- The digits that are left with those of the middle give the middle of the box. -/
theorem natOfDigits_append_middleDigits {minutes hidden : Text} {ambiguity : Nat}
    (hlength : minutes.length + ambiguity = 4) (hhidden : hidden.length = ambiguity)
    (hdigits : ∀ c ∈ hidden, c.isDigit = true)
    (hbound : Text.natOfDigits (minutes ++ hidden) < 6000) :
    Text.natOfDigits (minutes ++ middleDigits ambiguity) =
      boxCentre ambiguity (Text.natOfDigits (minutes ++ hidden)) := by
  have hlt := Text.natOfDigits_lt hdigits
  rw [Text.natOfDigits_append] at hbound ⊢
  rw [Text.natOfDigits_append, natOfDigits_middleDigits, length_middleDigits (by omega), boxCentre]
  rw [hhidden] at hlt hbound ⊢
  match ambiguity, hlength with
  | 0, _ | 1, _ | 2, _ | 3, _ =>
    simp only [boxWidth]
    omega
  | 4, hlength =>
    have hnil : minutes = [] := List.eq_nil_of_length_eq_zero (by omega)
    have hzero : Text.natOfDigits minutes = 0 := by
      rw [hnil]
      rfl
    rw [hzero, Nat.zero_mul, Nat.zero_add] at hbound ⊢
    simp only [boxWidth, Nat.div_eq_of_lt hbound, Nat.zero_mul, Nat.zero_add]

section Latitude

variable {destination digits degrees minutes : Text} {ambiguity : Nat}

theorem ambiguity?_append (hne : digits ≠ []) (hdigits : ∀ c ∈ digits, c.isDigit = true)
    (ambiguity : Nat) :
    ambiguity? (digits ++ List.replicate ambiguity ' ') = some ambiguity := by
  have hblank : ∀ c ∈ (List.replicate ambiguity ' ').head?, c.isDigit = false := by
    intro c hc
    rw [List.eq_of_mem_replicate (List.mem_of_mem_head? hc)]
    decide
  obtain ⟨htake, hdrop⟩ := Text.span_append _ hdigits hblank
  rw [ambiguity?, hdrop, htake]
  have hspaces : (List.replicate ambiguity ' ').all Text.isSpace = true := by
    rw [List.all_eq_true]
    intro c hc
    rw [List.eq_of_mem_replicate hc]
    decide
  rw [if_pos ⟨hne, hspaces⟩, List.length_replicate]

/-- Only digits with blanks after them have an ambiguity. -/
theorem exists_eq_append_of_ambiguity? (h : ambiguity? digits = some ambiguity) :
    ∃ known, digits = known ++ List.replicate ambiguity ' ' ∧
      ∀ c ∈ known, c.isDigit = true := by
  rw [ambiguity?] at h
  split at h
  · next hcases =>
    cases h
    have hreplicate : digits.dropWhile Char.isDigit =
        List.replicate (digits.dropWhile Char.isDigit).length ' ' := by
      refine List.eq_replicate_iff.mpr ⟨rfl, fun c hc => ?_⟩
      exact eq_of_beq (List.all_eq_true.mp hcases.2 c hc)
    refine ⟨digits.takeWhile Char.isDigit, ?_, fun c hc => List.mem_takeWhile_imp hc⟩
    rw [← hreplicate, List.takeWhile_append_dropWhile]
  · cases h

theorem fillBlanks_append (hdigits : ∀ c ∈ digits, c.isDigit = true)
    (hlength : digits.length + ambiguity = 6) (hambiguity : ambiguity ≤ 4) :
    fillBlanks (digits ++ List.replicate ambiguity ' ') ambiguity =
      digits ++ middleDigits ambiguity := by
  have hmap : digits.map (fun c => if c = ' ' then '0' else c) = digits := by
    refine (List.map_congr_left fun c hc => ?_).trans (List.map_id digits)
    have hblank : c ≠ ' ' := by
      rintro rfl
      exact absurd (hdigits ' ' hc) (by decide)
    rw [if_neg hblank, id]
  have hset : ∀ c, (digits ++ List.replicate ambiguity ' ').set digits.length c =
      digits ++ (List.replicate ambiguity ' ').set 0 c := by
    intro c
    rw [List.set_append, if_neg (by omega), Nat.sub_self]
  unfold fillBlanks
  dsimp only
  match ambiguity, hlength, hambiguity with
  | 0, hlength, _ =>
    rw [if_neg (by decide), if_neg (by decide), List.map_append, hmap]
    rfl
  | 1, hlength, _ | 2, hlength, _ | 3, hlength, _ =>
    rw [if_neg (by decide), if_pos (by decide), ← Nat.eq_sub_of_add_eq hlength, hset,
      List.map_append, hmap]
    rfl
  | 4, hlength, _ =>
    have htwo : digits.length = 2 := by omega
    rw [htwo] at hset
    rw [if_pos (by decide), hset, List.map_append, hmap]
    rfl

/-- With two digits of degrees and some of the minutes, what is blank is the rest of the minutes. -/
theorem ambiguity?_map_and_fillBlanks_map
    (hshown : destination.map latitudeDigit =
      degrees ++ minutes ++ List.replicate ambiguity ' ')
    (hdegrees : ∀ c ∈ degrees, c.isDigit = true) (hminutes : ∀ c ∈ minutes, c.isDigit = true)
    (htwo : degrees.length = 2) (hfour : minutes.length + ambiguity = 4) :
    ambiguity? (destination.map latitudeDigit) = some ambiguity ∧
      fillBlanks (destination.map latitudeDigit) ambiguity =
        degrees ++ (minutes ++ middleDigits ambiguity) := by
  have hdigits : ∀ c ∈ degrees ++ minutes, c.isDigit = true :=
    List.forall_mem_append.mpr ⟨hdegrees, hminutes⟩
  have hne : degrees ++ minutes ≠ [] := by
    apply List.append_ne_nil_of_left_ne_nil
    rintro rfl
    cases htwo
  have hlength : (degrees ++ minutes).length + ambiguity = 6 := by
    rw [List.length_append]
    omega
  rw [hshown]
  refine ⟨ambiguity?_append hne hdigits ambiguity, ?_⟩
  rw [fillBlanks_append hdigits hlength (by omega), List.append_assoc]

theorem decodeLatitude_of_digits
    (hshown : destination.map latitudeDigit =
      degrees ++ minutes ++ List.replicate ambiguity ' ')
    (hdegrees : ∀ c ∈ degrees, c.isDigit = true) (hminutes : ∀ c ∈ minutes, c.isDigit = true)
    (htwo : degrees.length = 2) (hfour : minutes.length + ambiguity = 4) :
    decodeLatitude destination =
      .ok (ofDegreesMinutes (.ofNat (Text.natOfDigits degrees))
        (scaled (Text.natOfDigits (minutes ++ middleDigits ambiguity)) 2), ambiguity) := by
  obtain ⟨hambiguity, hfilled⟩ :=
    ambiguity?_map_and_fillBlanks_map hshown hdegrees hminutes htwo hfour
  have hmiddle : (minutes ++ middleDigits ambiguity).length = 4 := by
    rw [List.length_append, length_middleDigits (by omega), hfour]
  have hdigits : ∀ c ∈ minutes ++ middleDigits ambiguity, c.isDigit = true :=
    List.forall_mem_append.mpr ⟨hminutes, fun _ hc => isDigit_of_mem_middleDigits hc⟩
  obtain ⟨x, y, rfl⟩ := List.length_eq_two.mp htwo
  obtain ⟨a, b, c, d, hfraction⟩ := List.length_eq_four.mp hmiddle
  rw [hfraction] at hfilled hdigits
  unfold decodeLatitude
  dsimp only
  rw [hambiguity]
  dsimp only
  rw [if_neg (by omega), hfilled, hfraction]
  have hpoint : Decimal.parse? (Text.slice 2 2 ([x, y] ++ [a, b, c, d]) ++
      '.' :: Text.slice 4 2 ([x, y] ++ [a, b, c, d])) =
        some ⟨false, Text.natOfDigits [a, b, c, d], 2⟩ :=
    Decimal.parse?_hundredths hdigits
  have hwhole : Decimal.parse? (Text.slice 0 2 ([x, y] ++ [a, b, c, d])) =
      some ⟨false, Text.natOfDigits [x, y], 0⟩ :=
    Decimal.parse?_digits (List.cons_ne_nil _ _) hdegrees
  rw [hpoint, hwhole]
  rfl

theorem exists_digits_of_ambiguity? (hlength : destination.length = 6) (hambiguity : ambiguity ≤ 4)
    (h : ambiguity? (destination.map latitudeDigit) = some ambiguity) :
    ∃ degrees minutes,
      destination.map latitudeDigit = degrees ++ minutes ++ List.replicate ambiguity ' ' ∧
      (∀ c ∈ degrees, c.isDigit = true) ∧ (∀ c ∈ minutes, c.isDigit = true) ∧
      degrees.length = 2 ∧ minutes.length + ambiguity = 4 := by
  obtain ⟨known, heq, hknown⟩ := exists_eq_append_of_ambiguity? h
  have hsix : known.length + ambiguity = 6 := by
    have hcount := congrArg List.length heq
    rw [List.length_map, hlength, List.length_append, List.length_replicate] at hcount
    exact hcount.symm
  refine ⟨known.take 2, known.drop 2, ?_, ?_, ?_, ?_, ?_⟩
  · rw [List.take_append_drop, heq]
  · exact fun c hc => hknown c (List.mem_of_mem_take hc)
  · exact fun c hc => hknown c (List.mem_of_mem_drop hc)
  · rw [List.length_take]
    omega
  · rw [List.length_drop]
    omega

theorem exists_digits_of_decodeLatitude {latitude : Quantity} (hlength : destination.length = 6)
    (h : decodeLatitude destination = .ok (latitude, ambiguity)) :
    ∃ degrees minutes,
      destination.map latitudeDigit = degrees ++ minutes ++ List.replicate ambiguity ' ' ∧
      (∀ c ∈ degrees, c.isDigit = true) ∧ (∀ c ∈ minutes, c.isDigit = true) ∧
      degrees.length = 2 ∧ minutes.length + ambiguity = 4 := by
  have hblanks : ambiguity? (destination.map latitudeDigit) = some ambiguity := by
    unfold decodeLatitude at h
    dsimp only at h
    split at h
    · cases h
    · next found hfound =>
      split at h
      · cases h
      · split at h
        · cases h
          exact hfound
        · cases h
  exact exists_digits_of_ambiguity? hlength (ambiguity_le_of_decodeLatitude h) hblanks

end Latitude

section Longitude

/-- Whole minutes and hundredths give the middle of the box as well. -/
theorem toRat?_centre {minutes hundredths ambiguity : Nat} (hminutes : minutes < 60)
    (hhundredths : hundredths < 100) (hambiguity : ambiguity ≤ 4) :
    (centre minutes hundredths ambiguity).toRat? =
      some ((boxCentre ambiguity (100 * minutes + hundredths) : Rat) / 100) := by
  have hhalf := toRat?_scaled 5 1
  match ambiguity, hambiguity with
  | 0, _ =>
    have hbox : boxCentre 0 (100 * minutes + hundredths) = 100 * minutes + hundredths := by
      simp only [boxCentre, boxWidth]
      omega
    rw [hbox]
    refine (toRat?_add (toRat?_ofNat _) (toRat?_div (toRat?_ofNat _) (toRat?_ofNat 100))).trans ?_
    congr 1
    push_cast
    ring
  | 1, _ =>
    have hbox : boxCentre 1 (100 * minutes + hundredths) =
        10 * (10 * minutes + hundredths / 10) + 5 := by
      simp only [boxCentre, boxWidth]
      omega
    rw [hbox]
    refine (toRat?_div (toRat?_add (toRat?_ofNat _) hhalf) (toRat?_ofNat 10)).trans ?_
    congr 1
    push_cast
    ring
  | 2, _ =>
    have hbox : boxCentre 2 (100 * minutes + hundredths) = 100 * minutes + 50 := by
      simp only [boxCentre, boxWidth]
      omega
    rw [hbox]
    refine (toRat?_add (toRat?_ofNat _) hhalf).trans ?_
    congr 1
    push_cast
    ring
  | 3, _ =>
    have hbox : boxCentre 3 (100 * minutes + hundredths) = 1000 * (minutes / 10) + 500 := by
      simp only [boxCentre, boxWidth]
      omega
    rw [hbox]
    refine (toRat?_mul (toRat?_add (toRat?_ofNat _) hhalf) (toRat?_ofNat 10)).trans ?_
    congr 1
    push_cast
    ring
  | 4, _ =>
    have hbox : boxCentre 4 (100 * minutes + hundredths) = 3000 := by
      simp only [boxCentre, boxWidth]
      omega
    rw [hbox]
    refine (toRat?_ofNat 30).trans ?_
    congr 1
    norm_num

theorem toRat?_decodeLongitude {body : Text} {ambiguity : Nat}
    (hminutes : longitudeMinutes (body.getD 1 ' ') < 60)
    (hhundredths : count (body.getD 2 ' ') < 100) (hambiguity : ambiguity ≤ 4) (offset : Bool) :
    (decodeLongitude body offset ambiguity).toRat? =
      some (arc (longitudeDegrees (body.getD 0 ' ') offset)
        (boxCentre ambiguity
          (100 * longitudeMinutes (body.getD 1 ' ') + count (body.getD 2 ' ')))) :=
  toRat?_ofDegreesMinutes (toRat?_ofNat _) (toRat?_centre hminutes hhundredths hambiguity)

theorem longitudeDegrees_lt {c : Char} (h : Text.between '&' '\x7f' c = true) (offset : Bool) :
    longitudeDegrees c offset < 180 := by
  obtain ⟨hlow, hhigh⟩ := Text.between_iff.mp h
  change 38 ≤ c.toNat at hlow
  change c.toNat ≤ 127 at hhigh
  unfold longitudeDegrees count
  cases offset <;> simp only [Bool.false_eq_true, if_false, if_true] <;> split_ifs <;> omega

theorem longitudeMinutes_lt {c : Char} (h : Text.between '&' 'a' c = true) :
    longitudeMinutes c < 60 := by
  obtain ⟨_, hhigh⟩ := Text.between_iff.mp h
  change c.toNat ≤ 97 at hhigh
  unfold longitudeMinutes count
  split_ifs <;> omega

theorem count_lt {c : Char} (h : Text.between '\x1c' '\x7f' c = true) : count c < 100 := by
  obtain ⟨_, hhigh⟩ := Text.between_iff.mp h
  change c.toNat ≤ 127 at hhigh
  unfold count
  omega

end Longitude

theorem check_eq_ok_iff {destination body : Text} :
    check destination body = .ok () ↔
      destination.byteLength = 6 ∧ 8 ≤ body.byteLength ∧
        Layout.Fills destinationLayout destination ∧ (bodyLayout.take? body).isSome = true := by
  rw [← Layout.fits_iff, Option.isSome_iff_ne_none, check]
  split_ifs <;> simp_all

end Aprs.MicE
