import Aprs.Proofs.PositionValues
import Aprs.Proofs.Rejection
import Aprs.Proofs.SlicedMicE

/-!
What the Mic-E decoder accepts. A destination is looked at for its length, for the layout, for
digits with blanks behind them, and for how many blanks there are. Together this asks for one
grammar, in which the letters from `M` to `O` are missing, although the layout lets them pass. In
the body it is the layout alone that decides, and no longitude is out of range.
-/

namespace Aprs

/-- A layout with fewer characters in all of its columns. -/
theorem Layout.fills_map_iff {layout : Layout} {p : Char → Bool} {t : Text} :
    Fills (layout.map fun holds c => holds c && p c) t ↔
      Fills layout t ∧ ∀ c ∈ t, p c = true := by
  induction layout generalizing t with
  | nil =>
    rw [List.map_nil, fills_nil_iff]
    constructor
    · rintro rfl
      exact ⟨rfl, List.forall_mem_nil _⟩
    · exact fun h => h.1
  | cons holds columns ih =>
    rw [List.map_cons]
    cases t with
    | nil => exact ⟨fun h => h.elim, fun h => h.1.elim⟩
    | cons c t =>
      rw [Fills, Fills, ih, Bool.and_eq_true, List.forall_mem_cons]
      exact and_and_and_comm

theorem Layout.isSome_take?_iff {layout : Layout} {t : Text} :
    (layout.take? t).isSome = true ↔ Fills layout (t.take layout.length) := by
  constructor
  · intro h
    obtain ⟨⟨field, rest⟩, htake⟩ := Option.isSome_iff_exists.mp h
    obtain ⟨rfl, hfills⟩ := take?_eq_some_iff.mp htake
    rwa [← length_eq_of_fills hfills, List.take_left]
  · intro h
    rw [← List.take_append_drop layout.length t, take?_append h, Option.isSome_some]

namespace MicE

open Quantity Reading

/-- Letters that hide a digit. -/
def isBlank (c : Char) : Bool := c == 'K' || c == 'L' || c == 'Z'

/-- Digits, and the letters that stand for one. -/
def isShown (c : Char) : Bool := c.isDigit || Text.between 'A' 'J' c || Text.between 'P' 'Y' c

def addressLayout : Layout :=
  Layout.columns 3 (fun c => c.isDigit || Text.between 'A' 'L' c || Text.between 'P' 'Z' c) ++
    Layout.columns 3 (fun c => c.isDigit || c == 'L' || Text.between 'P' 'Z' c)

/-- Blank letters at the end, and nowhere else. -/
def EndsHidden (n : Nat) (destination : Text) : Prop :=
  ∃ shown hidden, destination = shown ++ hidden ∧ (∀ c ∈ shown, isBlank c = false) ∧
    (∀ c ∈ hidden, isBlank c = true) ∧ hidden.length = n

/-- The six characters that a latitude can be read from. -/
structure IsAddress (destination : Text) : Prop where
  fills : Layout.Fills addressLayout destination
  hidden : ∃ n ≤ 4, EndsHidden n destination

/-- All digits are hidden but the first. -/
def ShowsOne (destination : Text) : Prop :=
  ∃ c hidden, destination = c :: hidden ∧ isShown c = true ∧ ∀ d ∈ hidden, isBlank d = true

section Letters

variable {c : Char} {destination : Text}

/-- The layout takes no other characters than digits and capital letters. -/
def IsPlain (c : Char) : Prop := (c.isDigit || c.isUpper) = true

theorem isPlain_of_fills (h : Layout.Fills destinationLayout destination) :
    ∀ c ∈ destination, IsPlain c := by
  obtain ⟨first, second, rfl, hfirst, hsecond⟩ := Layout.fills_append_iff.mp h
  refine List.forall_mem_append.mpr ⟨(Layout.fills_columns_iff.mp hfirst).2, fun c hc => ?_⟩
  have hletter := (Layout.fills_columns_iff.mp hsecond).2 c hc
  rw [Bool.or_eq_true] at hletter
  rw [IsPlain, Bool.or_eq_true]
  refine hletter.imp_right fun hbetween => ?_
  obtain ⟨hlow, hhigh⟩ := Text.between_iff.mp hbetween
  exact isUpper_iff_toNat.mpr ⟨Nat.le_trans (by decide) hlow, hhigh⟩

theorem IsPlain.isAscii (h : IsPlain c) : c.toNat < 128 := by
  rcases (Bool.or_eq_true _ _).mp h with hdigit | hupper
  · exact Sliced.isAscii_of_isDigit hdigit
  · exact Nat.lt_of_le_of_lt (isUpper_iff_toNat.mp hupper).2 (by decide)

theorem isDigit_latitudeDigit (h : IsPlain c) : (latitudeDigit c).isDigit = isShown c := by
  have hplain : (c.isDigit || c.isUpper) = true → (latitudeDigit c).isDigit = isShown c :=
    Text.ascii_cases h.isAscii (by decide)
  exact hplain h

theorem latitudeDigit_eq_blank_iff (h : IsPlain c) :
    latitudeDigit c = ' ' ↔ isBlank c = true := by
  have hplain : (c.isDigit || c.isUpper) = true → (latitudeDigit c = ' ' ↔ isBlank c = true) :=
    Text.ascii_cases h.isAscii (by decide)
  exact hplain h

theorem isBlank_eq_false_of_isShown (h : isShown c = true) : isBlank c = false := by
  cases hblank : isBlank c with
  | false => rfl
  | true =>
    simp only [isBlank, Bool.or_eq_true, beq_iff_eq] at hblank
    rcases hblank with (rfl | rfl) | rfl <;> exact absurd h (by decide)

/-- What the layout lets pass, and the grammar does not, stands neither for a digit nor for a
blank. -/
theorem addressLayout_eq :
    addressLayout = destinationLayout.map fun holds c => holds c && (isShown c || isBlank c) := by
  have hfirst : (fun c : Char => c.isDigit || Text.between 'A' 'L' c || Text.between 'P' 'Z' c) =
      fun c => (c.isDigit || c.isUpper) && (isShown c || isBlank c) := by
    funext c
    rw [Bool.eq_iff_iff]
    simp only [isShown, isBlank, Bool.and_eq_true, Bool.or_eq_true, beq_iff_eq,
      Text.between_iff, isUpper_iff_toNat, Char.isDigit_iff_toNat, ← Char.toNat_inj,
      Char.reduceToNat]
    omega
  have hsecond : (fun c : Char => c.isDigit || c == 'L' || Text.between 'P' 'Z' c) =
      fun c => (c.isDigit || Text.between 'L' 'Z' c) && (isShown c || isBlank c) := by
    funext c
    rw [Bool.eq_iff_iff]
    simp only [isShown, isBlank, Bool.and_eq_true, Bool.or_eq_true, beq_iff_eq,
      Text.between_iff, Char.isDigit_iff_toNat, ← Char.toNat_inj, Char.reduceToNat]
    omega
  rw [addressLayout, destinationLayout, hfirst, hsecond]
  rfl

theorem fills_addressLayout_iff :
    Layout.Fills addressLayout destination ↔
      Layout.Fills destinationLayout destination ∧
        ∀ c ∈ destination, (isShown c || isBlank c) = true := by
  rw [addressLayout_eq, Layout.fills_map_iff]

end Letters

section Blanks

variable {digits destination : Text} {n : Nat}

theorem ambiguity?_eq_some_iff :
    ambiguity? digits = some n ↔
      ∃ known, known ≠ [] ∧ digits = known ++ List.replicate n ' ' ∧
        ∀ c ∈ known, c.isDigit = true := by
  constructor
  · intro h
    obtain ⟨known, rfl, hknown⟩ := exists_eq_append_of_ambiguity? h
    refine ⟨known, ?_, rfl, hknown⟩
    rintro rfl
    cases n <;> simp [ambiguity?, List.replicate_succ] at h
  · rintro ⟨known, hne, rfl, hknown⟩
    exact ambiguity?_append hne hknown n

/-- The letters of a destination that has an ambiguity. -/
theorem ambiguity?_map_eq_some_iff (h : ∀ c ∈ destination, IsPlain c) :
    ambiguity? (destination.map latitudeDigit) = some n ↔
      ∃ shown hidden, shown ≠ [] ∧ destination = shown ++ hidden ∧
        (∀ c ∈ shown, isShown c = true) ∧ (∀ c ∈ hidden, isBlank c = true) ∧
        hidden.length = n := by
  rw [ambiguity?_eq_some_iff]
  constructor
  · rintro ⟨known, hne, heq, hknown⟩
    obtain ⟨shown, hidden, rfl, rfl, hhidden⟩ := List.map_eq_append_iff.mp heq
    obtain ⟨hshownPlain, hhiddenPlain⟩ := List.forall_mem_append.mp h
    obtain ⟨hlength, hblank⟩ := List.eq_replicate_iff.mp hhidden
    rw [List.length_map] at hlength
    refine ⟨shown, hidden, fun hnil => hne (by rw [hnil]; rfl), rfl, fun c hc => ?_, fun c hc => ?_,
      hlength⟩
    · rw [← isDigit_latitudeDigit (hshownPlain c hc)]
      exact hknown _ (List.mem_map_of_mem hc)
    · rw [← latitudeDigit_eq_blank_iff (hhiddenPlain c hc)]
      exact hblank _ (List.mem_map_of_mem hc)
  · rintro ⟨shown, hidden, hne, rfl, hshown, hhidden, rfl⟩
    obtain ⟨hshownPlain, hhiddenPlain⟩ := List.forall_mem_append.mp h
    refine ⟨shown.map latitudeDigit, fun hnil => hne (List.map_eq_nil_iff.mp hnil), ?_, ?_⟩
    · have hblank : hidden.map latitudeDigit = List.replicate hidden.length ' ' := by
        refine List.eq_replicate_iff.mpr ⟨List.length_map _, List.forall_mem_map.mpr fun c hc => ?_⟩
        exact (latitudeDigit_eq_blank_iff (hhiddenPlain c hc)).mpr (hhidden c hc)
      rw [List.map_append, hblank]
    · refine List.forall_mem_map.mpr fun c hc => ?_
      rw [isDigit_latitudeDigit (hshownPlain c hc)]
      exact hshown c hc

theorem isAddress_iff :
    IsAddress destination ↔
      Layout.Fills destinationLayout destination ∧
        ∃ n ≤ 4, ambiguity? (destination.map latitudeDigit) = some n := by
  constructor
  · rintro ⟨hfills, n, hle, shown, hidden, rfl, hshown, hhidden, hlength⟩
    obtain ⟨hlayout, hletters⟩ := fills_addressLayout_iff.mp hfills
    have hsix : (shown ++ hidden).length = 6 := Layout.length_eq_of_fills hlayout
    refine ⟨hlayout, n, hle, (ambiguity?_map_eq_some_iff (isPlain_of_fills hlayout)).mpr
      ⟨shown, hidden, ?_, rfl, fun c hc => ?_, hhidden, hlength⟩⟩
    · rintro rfl
      rw [List.nil_append] at hsix
      omega
    · have hletter := hletters c (List.mem_append_left hidden hc)
      rwa [hshown c hc, Bool.or_false] at hletter
  · rintro ⟨hlayout, n, hle, h⟩
    obtain ⟨shown, hidden, -, rfl, hshown, hhidden, hlength⟩ :=
      (ambiguity?_map_eq_some_iff (isPlain_of_fills hlayout)).mp h
    refine ⟨fills_addressLayout_iff.mpr ⟨hlayout, List.forall_mem_append.mpr ?_⟩, n, hle, shown,
      hidden, rfl, fun c hc => isBlank_eq_false_of_isShown (hshown c hc), hhidden, hlength⟩
    exact ⟨fun c hc => by rw [hshown c hc, Bool.true_or],
      fun c hc => by rw [hhidden c hc, Bool.or_true]⟩

theorem showsOne_iff (h : Layout.Fills destinationLayout destination) :
    ShowsOne destination ↔ ambiguity? (destination.map latitudeDigit) = some 5 := by
  have hsix : destination.length = 6 := Layout.length_eq_of_fills h
  rw [ambiguity?_map_eq_some_iff (isPlain_of_fills h)]
  constructor
  · rintro ⟨c, hidden, rfl, hc, hhidden⟩
    rw [List.length_cons] at hsix
    exact ⟨[c], hidden, List.cons_ne_nil c [], rfl, fun d hd => by rwa [List.mem_singleton.mp hd],
      hhidden, by omega⟩
  · rintro ⟨shown, hidden, -, rfl, hshown, hhidden, hlength⟩
    rw [List.length_append] at hsix
    obtain ⟨c, rfl⟩ := List.length_eq_one_iff.mp (show shown.length = 1 by omega)
    exact ⟨c, hidden, rfl, hshown c (List.mem_singleton_self c), hhidden⟩

end Blanks

section Decoding

variable {destination body : Text} {n : Nat}

/-- The layouts leave only characters of one byte, so the lengths in bytes are right as well. -/
theorem check_eq_ok_iff_fills :
    check destination body = .ok () ↔
      Layout.Fills destinationLayout destination ∧ Layout.Fills bodyLayout (body.take 8) := by
  have hbody : (bodyLayout.take? body).isSome = true ↔ Layout.Fills bodyLayout (body.take 8) :=
    Layout.isSome_take?_iff
  rw [check_eq_ok_iff, hbody]
  constructor
  · rintro ⟨-, -, h⟩
    exact h
  · rintro ⟨hdestination, hfield⟩
    have hsix := (hdestination.isAscii Sliced.isAscii_destinationLayout).byteLength
    have height := (hfield.isAscii Sliced.isAscii_bodyLayout).byteLength
    rw [Layout.length_eq_of_fills hdestination] at hsix
    rw [Layout.length_eq_of_fills hfield] at height
    have happend := Text.byteLength_append (body.take 8) (body.drop 8)
    rw [List.take_append_drop, height] at happend
    exact ⟨hsix, by rw [happend]; exact Nat.le_add_right 8 _, hdestination, hfield⟩

/-- What the destination is read as, by its digits and blanks. -/
theorem decodeLatitude_of_ambiguity?_eq_none
    (h : ambiguity? (destination.map latitudeDigit) = none) :
    decodeLatitude destination = .error .invalidAmbiguity := by
  rw [decodeLatitude]
  dsimp only
  rw [h]

theorem decodeLatitude_of_lt (h : ambiguity? (destination.map latitudeDigit) = some n)
    (hlt : 4 < n) : decodeLatitude destination = .error (.unsupportedAmbiguity n) := by
  rw [decodeLatitude]
  dsimp only
  rw [h]
  exact if_pos hlt

theorem exists_decodeLatitude_eq_ok_iff (hsix : destination.length = 6) :
    (∃ latitude, decodeLatitude destination = .ok (latitude, n)) ↔
      n ≤ 4 ∧ ambiguity? (destination.map latitudeDigit) = some n := by
  constructor
  · rintro ⟨latitude, h⟩
    obtain ⟨degrees, minutes, hshown, hdegrees, hminutes, htwo, hfour⟩ :=
      exists_digits_of_decodeLatitude hsix h
    exact ⟨by omega,
      (ambiguity?_map_and_fillBlanks_map hshown hdegrees hminutes htwo hfour).1⟩
  · rintro ⟨hle, h⟩
    obtain ⟨degrees, minutes, hshown, hdegrees, hminutes, htwo, hfour⟩ :=
      exists_digits_of_ambiguity? hsix hle h
    exact ⟨_, decodeLatitude_of_digits hshown hdegrees hminutes htwo hfour⟩

/-- The steps of a report that is accepted. -/
theorem exists_steps_of_decode {m : MicE} (h : decode destination body = .ok m) :
    ∃ latitude ambiguity channels altitude rest rest',
      check (Text.upTo '-' destination) body = .ok () ∧
      decodeLatitude (Text.upTo '-' destination) = .ok (latitude, ambiguity) ∧
      splitChannels (body.drop 8) = .ok (channels, rest) ∧
      splitAltitude rest = .ok (altitude, rest') ∧
      m.longitude = .negIf (isFlagged (Text.upTo '-' destination) 5)
        (decodeLongitude body (isFlagged (Text.upTo '-' destination) 4) ambiguity) ∧
      m.comment = Text.trimSpaces (Dao.split (Telemetry.split rest').2).2 := by
  rw [decode] at h
  obtain ⟨⟨⟩, hcheck, h⟩ := bind_eq_ok_iff.mp h
  obtain ⟨⟨latitude, ambiguity⟩, hlatitude, h⟩ := bind_eq_ok_iff.mp h
  obtain ⟨⟨channels, rest⟩, hchannels, h⟩ := bind_eq_ok_iff.mp h
  obtain ⟨⟨altitude, rest'⟩, haltitude, h⟩ := bind_eq_ok_iff.mp h
  cases pure_eq_ok_iff.mp h
  exact ⟨latitude, ambiguity, channels, altitude, rest, rest', mapError_eq_ok_iff.mp hcheck,
    mapError_eq_ok_iff.mp hlatitude, mapError_eq_ok_iff.mp hchannels, haltitude, rfl, rfl⟩

/-- The first eight characters and the destination decide. -/
theorem exists_decode_eq_ok_iff :
    (∃ m, decode destination body = .ok m) ↔
      IsAddress (Text.upTo '-' destination) ∧ Layout.Fills bodyLayout (body.take 8) := by
  rw [isAddress_iff, and_right_comm, ← check_eq_ok_iff_fills]
  constructor
  · rintro ⟨m, h⟩
    obtain ⟨latitude, ambiguity, -, -, -, -, hcheck, hlatitude, -⟩ := exists_steps_of_decode h
    have hsix := Layout.length_eq_of_fills (check_eq_ok_iff_fills.mp hcheck).1
    exact ⟨hcheck, ambiguity,
      (exists_decodeLatitude_eq_ok_iff hsix).mp ⟨latitude, hlatitude⟩⟩
  · rintro ⟨hcheck, n, h⟩
    have hsix := Layout.length_eq_of_fills (check_eq_ok_iff_fills.mp hcheck).1
    obtain ⟨latitude, hlatitude⟩ := (exists_decodeLatitude_eq_ok_iff hsix).mpr h
    cases hdecode : decode destination body with
    | ok m => exact ⟨m, rfl⟩
    | error e =>
      obtain ⟨cause, -, hcause | ⟨-, hcause⟩⟩ := decode_eq_error_iff.mp hdecode
      · cases hcheck.symm.trans hcause
      · cases hlatitude.symm.trans hcause

/-- A destination of the layout that is no address has either no digit to begin with, or something
behind a blank, or five blanks. -/
theorem decode_of_not_isAddress
    (hdestination : Layout.Fills destinationLayout (Text.upTo '-' destination))
    (hbody : Layout.Fills bodyLayout (body.take 8))
    (h : ¬IsAddress (Text.upTo '-' destination)) :
    (ShowsOne (Text.upTo '-' destination) →
        decode destination body = .error (.invalidMicE (.unsupportedAmbiguity 5))) ∧
      (¬ShowsOne (Text.upTo '-' destination) →
        decode destination body = .error (.invalidMicE .invalidAmbiguity)) := by
  have hcheck := check_eq_ok_iff_fills.mpr ⟨hdestination, hbody⟩
  have herror : ∀ {cause}, decodeLatitude (Text.upTo '-' destination) = .error cause →
      decode destination body = .error (.invalidMicE cause) :=
    fun hlatitude => decode_eq_error_iff.mpr ⟨_, rfl, .inr ⟨hcheck, hlatitude⟩⟩
  rw [showsOne_iff hdestination]
  refine ⟨fun hfive => herror (decodeLatitude_of_lt hfive (by decide)), fun hfive => herror ?_⟩
  cases hblanks : ambiguity? ((Text.upTo '-' destination).map latitudeDigit) with
  | none => exact decodeLatitude_of_ambiguity?_eq_none hblanks
  | some n =>
    have hmany : 4 < n := by
      by_contra hfew
      exact h (isAddress_iff.mpr ⟨hdestination, n, Nat.not_lt.mp hfew, hblanks⟩)
    obtain ⟨shown, hidden, hne, heq, -, -, hlength⟩ :=
      (ambiguity?_map_eq_some_iff (isPlain_of_fills hdestination)).mp hblanks
    have hsix := Layout.length_eq_of_fills hdestination
    have hpos := List.length_pos_of_ne_nil hne
    rw [heq, List.length_append] at hsix
    change _ = 6 at hsix
    exact absurd (show n = 5 by omega) fun hn => hfive (by rw [hblanks, hn])

/-- Degrees and minutes wrap, so that all longitudes are in range. -/
theorem exists_longitude_of_decode {m : MicE} (h : decode destination body = .ok m) :
    ∃ (longitude : Quantity) (degrees : Nat) (minutes : Rat),
      m.longitude = .negIf (isFlagged (Text.upTo '-' destination) 5) longitude ∧
      longitude.toRat? = some (degrees + minutes / 60) ∧ degrees ≤ 179 ∧
      0 ≤ minutes ∧ minutes < 60 := by
  obtain ⟨latitude, ambiguity, -, -, -, -, hcheck, hlatitude, -, -, hlongitude, -⟩ :=
    exists_steps_of_decode h
  obtain ⟨hdegrees, hminutes, hhundredths⟩ :=
    between_of_take?_bodyLayout (check_eq_ok_iff.mp hcheck).2.2.2
  replace hminutes := longitudeMinutes_lt hminutes
  replace hhundredths := count_lt hhundredths
  have hcentre : boxCentre ambiguity
      (100 * longitudeMinutes (body.getD 1 ' ') + count (body.getD 2 ' ')) < 6000 :=
    boxCentre_lt (by omega) ambiguity
  refine ⟨_, longitudeDegrees (body.getD 0 ' ') (isFlagged (Text.upTo '-' destination) 4),
    (boxCentre ambiguity
      (100 * longitudeMinutes (body.getD 1 ' ') + count (body.getD 2 ' ')) : Rat) / 100,
    hlongitude, ?_, Nat.le_of_lt_succ (longitudeDegrees_lt hdegrees _), by positivity, ?_⟩
  · rw [toRat?_decodeLongitude hminutes hhundredths (ambiguity_le_of_decodeLatitude hlatitude), arc,
      div_div]
    norm_num
  · rw [div_lt_iff₀ (by norm_num)]
    exact lt_of_lt_of_eq (Nat.cast_lt.mpr hcentre) (by norm_num)

end Decoding

/-- Reports are accepted for an address and eight characters of the layout, whatever follows them.
Other destinations of the layout are refused for the blanks in them. -/
theorem decode_address (destination body : Text) :
    ((∃ m, decode destination body = .ok m) ↔
        IsAddress (Text.upTo '-' destination) ∧ Layout.Fills bodyLayout (body.take 8)) ∧
      (Layout.Fills destinationLayout (Text.upTo '-' destination) →
        Layout.Fills bodyLayout (body.take 8) → ¬IsAddress (Text.upTo '-' destination) →
          (ShowsOne (Text.upTo '-' destination) →
            decode destination body = .error (.invalidMicE (.unsupportedAmbiguity 5))) ∧
          (¬ShowsOne (Text.upTo '-' destination) →
            decode destination body = .error (.invalidMicE .invalidAmbiguity))) ∧
      ∀ m, decode destination body = .ok m →
        ∃ (longitude : Quantity) (degrees : Nat) (minutes : Rat),
          m.longitude = .negIf (isFlagged (Text.upTo '-' destination) 5) longitude ∧
          longitude.toRat? = some (degrees + minutes / 60) ∧ degrees ≤ 179 ∧
          0 ≤ minutes ∧ minutes < 60 :=
  ⟨exists_decode_eq_ok_iff, decode_of_not_isAddress, fun _ h => exists_longitude_of_decode h⟩

/-- Four blanks are accepted, five are too many, and a digit behind a blank is out of place. -/
theorem decode_address_blanks :
    (∃ m longitude degrees, ∃ minutes : Rat,
      decode "S3KLLZ-7".toList "vCD\"&P>/Test".toList = .ok m ∧
        m.longitude = .negIf true longitude ∧
        longitude.toRat? = some ((degrees : Nat) + minutes / 60) ∧ degrees ≤ 179 ∧
        0 ≤ minutes ∧ minutes < 60) ∧
      decode "SKLLLZ".toList "vCD\"&P>/".toList = .error (.invalidMicE (.unsupportedAmbiguity 5)) ∧
      decode "S3K3LZ".toList "vCD\"&P>/".toList = .error (.invalidMicE .invalidAmbiguity) := by
  have hbody : Layout.Fills bodyLayout "vCD\"&P>/".toList := Layout.fits_iff.mp (by decide)
  refine ⟨?_, ?_, ?_⟩
  · have haddress : IsAddress "S3KLLZ".toList :=
      ⟨Layout.fits_iff.mp (by decide), 4, le_rfl, "S3".toList, "KLLZ".toList, rfl,
        by simp [isBlank], by simp [isBlank], rfl⟩
    obtain ⟨haccepted, -, hlongitude⟩ :=
      decode_address "S3KLLZ-7".toList "vCD\"&P>/Test".toList
    obtain ⟨m, hm⟩ := haccepted.mpr ⟨haddress, hbody⟩
    obtain ⟨longitude, degrees, minutes, hm'⟩ := hlongitude m hm
    exact ⟨m, longitude, degrees, minutes, hm, hm'⟩
  · have hlayout : Layout.Fills destinationLayout "SKLLLZ".toList := Layout.fits_iff.mp (by decide)
    have hblanks : ambiguity? ("SKLLLZ".toList.map latitudeDigit) = some 5 := by decide
    obtain ⟨-, hrefused, -⟩ := decode_address "SKLLLZ".toList "vCD\"&P>/".toList
    refine (hrefused hlayout hbody fun h => ?_).1 ((showsOne_iff hlayout).mpr hblanks)
    obtain ⟨-, n, hle, hn⟩ := isAddress_iff.mp h
    cases hblanks.symm.trans hn
    exact absurd hle (by decide)
  · have hlayout : Layout.Fills destinationLayout "S3K3LZ".toList := Layout.fits_iff.mp (by decide)
    have hblanks : ambiguity? ("S3K3LZ".toList.map latitudeDigit) = none := by decide
    obtain ⟨-, hrefused, -⟩ := decode_address "S3K3LZ".toList "vCD\"&P>/".toList
    refine (hrefused hlayout hbody fun h => ?_).2 fun h => ?_
    · obtain ⟨-, n, -, hn⟩ := isAddress_iff.mp h
      cases hblanks.symm.trans hn
    · cases hblanks.symm.trans ((showsOne_iff hlayout).mp h)

end MicE

end Aprs
