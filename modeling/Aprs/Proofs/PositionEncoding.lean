import Aprs.Proofs.AmbiguityBox
import Aprs.Proofs.CommentTelemetry
import Aprs.Proofs.MicEEncoding

/-!
How stations write positions in degrees and minutes, and that reading is the inverse of it. Blank
digits come back as the middle of the box that they leave open. What follows a position is read as
weather or as a comment, and neither touches the position unless a precision tag tells more of its
digits.
-/

namespace Aprs

section Remarks

variable {t rest : Text} {e : Extension}

namespace Extension

/-- The fields that an extension can be made of. -/
def layouts : List Layout :=
  [courseSpeedLayout, courseSpeedLayout ++ finderLayout, phgLayout, phgLayout ++ rateLayout,
    rangeLayout]

theorem exists_layout_of_takeCourseSpeed? (h : takeCourseSpeed? t = some (e, rest)) :
    ∃ layout ∈ layouts, ∃ taken, t = taken ++ rest ∧ Layout.Fills layout taken := by
  obtain ⟨⟨field, after⟩, hfield, heq⟩ := Option.map_eq_some_iff.mp h
  obtain ⟨rfl, hfills⟩ := Layout.take?_eq_some_iff.mp hfield
  dsimp only at heq
  split at heq
  · next finder _ htake =>
    cases heq
    obtain ⟨rfl, hfinder⟩ := Layout.take?_eq_some_iff.mp htake
    exact ⟨_, by simp [layouts], field ++ finder, by simp, hfills.append hfinder⟩
  · cases heq
    exact ⟨_, by simp [layouts], field, rfl, hfills⟩

theorem exists_layout_of_takePhg? (h : takePhg? t = some (e, rest)) :
    ∃ layout ∈ layouts, ∃ taken, t = taken ++ rest ∧ Layout.Fills layout taken := by
  obtain ⟨⟨field, after⟩, hfield, heq⟩ := Option.map_eq_some_iff.mp h
  obtain ⟨rfl, hfills⟩ := Layout.take?_eq_some_iff.mp hfield
  dsimp only at heq
  split at heq
  · next rate _ htake =>
    cases heq
    obtain ⟨rfl, hrate⟩ := Layout.take?_eq_some_iff.mp htake
    exact ⟨_, by simp [layouts], field ++ rate, by simp, hfills.append hrate⟩
  · cases heq
    exact ⟨_, by simp [layouts], field, rfl, hfills⟩

theorem exists_layout_of_takeRange? (h : takeRange? t = some (e, rest)) :
    ∃ layout ∈ layouts, ∃ taken, t = taken ++ rest ∧ Layout.Fills layout taken := by
  obtain ⟨⟨field, after⟩, hfield, heq⟩ := Option.map_eq_some_iff.mp h
  cases heq
  obtain ⟨rfl, hfills⟩ := Layout.take?_eq_some_iff.mp hfield
  exact ⟨_, by simp [layouts], field, rfl, hfills⟩

/-- An extension is cut off whole, or nothing is. -/
theorem split_eq_or (t : Text) :
    split t = (none, t) ∨
      ∃ layout ∈ layouts, ∃ taken, t = taken ++ (split t).2 ∧ Layout.Fills layout taken := by
  unfold split
  split
  · next found rest htake =>
    right
    rw [take?, Option.orElse_eq_some, Option.orElse_eq_some] at htake
    rcases htake with hcourse | ⟨-, hphg | ⟨-, hrange⟩⟩
    · exact exists_layout_of_takeCourseSpeed? hcourse
    · exact exists_layout_of_takePhg? hphg
    · exact exists_layout_of_takeRange? hrange
  · left
    rfl

theorem suffix_split (t : Text) : (split t).2 <:+ t := by
  rcases split_eq_or t with hnone | ⟨_, -, taken, heq, -⟩
  · rw [hnone]
  · exact ⟨taken, heq.symm⟩

end Extension

theorem Altitude.sublist_split (t : Text) : (split t).2.Sublist t := by
  unfold split
  split
  · split
    · next before feet after hfound =>
      obtain ⟨rest, rfl, htake⟩ := Text.leftmost?_eq_some hfound
      obtain ⟨tag, rfl, -⟩ := take?_eq_some htake
      exact (List.Sublist.refl before).append (List.sublist_append_right tag after)
    · exact List.Sublist.refl t
  · exact List.Sublist.refl t

/-- No reader of a comment puts characters together that were not there. -/
theorem Comment.dao_read_eq_none (h : '!' ∉ t) : (read t).dao = none := by
  have hextension := (Extension.suffix_split t).sublist
  have haltitude := Altitude.sublist_split (Extension.split t).2
  have htelemetry := Telemetry.sublist_split (Altitude.split (Extension.split t).2).2
  have hsublist := (htelemetry.trans haltitude).trans hextension
  change (Dao.split (Telemetry.split (Altitude.split (Extension.split t).2).2).2).1 = none
  rw [Dao.split_eq_none fun hmem => h (hsublist.subset hmem)]

theorem Remark.dao?_read_eq_none (h : '!' ∉ t) (symbolCode : Char) :
    (read symbolCode t).dao? = none := by
  rw [read]
  by_cases hweather : symbolCode = weatherSymbol
  · rw [if_pos hweather]
    rfl
  · rw [if_neg hweather]
    exact Comment.dao_read_eq_none h

end Remarks

namespace Uncompressed

open Quantity MicE

/-- What a position in degrees and minutes tells. -/
structure Sent where
  latitude : Angle 90
  south : Bool
  longitude : Angle 180
  west : Bool
  /-- How many digits are blank in each of the two minutes. -/
  ambiguity : Fin 5
  symbolTable : {c : Char // Text.isSymbolTable c = true}
  symbolCode : {c : Char // Text.between '!' '~' c = true}
  deriving DecidableEq, Repr

section Encoding

/-- Four digits of the minutes, the last of them blank. -/
def shownDigits {bound : Nat} (angle : Angle bound) (ambiguity : Nat) : Text :=
  angle.known ambiguity ++ List.replicate ambiguity ' '

def withPoint (digits : Text) : Text := digits.take 2 ++ ['.'] ++ digits.drop 2

namespace Sent

variable (sent : Sent)

def latitudeMinutes : Text := withPoint (shownDigits sent.latitude sent.ambiguity)

def longitudeMinutes : Text := withPoint (shownDigits sent.longitude sent.ambiguity)

/-- Longitudes have a digit for the hundreds of their degrees. -/
def longitudeDegrees : Text :=
  decimal (lastDigit (sent.longitude.degrees / 100) :: sent.longitude.digits.take 2)

def text : Text :=
  decimal (sent.latitude.digits.take 2) ++ sent.latitudeMinutes ++ [if sent.south then 'S' else 'N']
    ++ [sent.symbolTable.val] ++ sent.longitudeDegrees ++ sent.longitudeMinutes ++
    [if sent.west then 'W' else 'E'] ++ [sent.symbolCode.val]

end Sent

end Encoding

section Minutes

variable {known : Text} {bound ambiguity : Nat} (angle : Angle bound)

theorem length_shownDigits (h : ambiguity ≤ 4) : (shownDigits angle ambiguity).length = 4 := by
  rw [shownDigits, List.length_append, List.length_replicate, angle.length_known h]

theorem isDigitOrSpace_of_mem_shownDigits {c : Char} (h : c ∈ shownDigits angle ambiguity) :
    Text.isDigitOrSpace c = true := by
  rcases List.mem_append.mp h with hknown | hblank
  · exact isDigitOrSpace_of_isDigit (isDigit_of_mem_decimal hknown)
  · rw [List.eq_of_mem_replicate hblank]
    decide

theorem fills_withPoint {digits : Text} (hlength : digits.length = 4)
    (h : ∀ c ∈ digits, Text.isDigitOrSpace c = true) :
    Layout.Fills minutesLayout (withPoint digits) := by
  have hfirst : Layout.Fills (Layout.columns 2 Text.isDigitOrSpace) (digits.take 2) :=
    Layout.fills_columns_iff.mpr
      ⟨by rw [List.length_take, hlength]; rfl, fun c hc => h c (List.mem_of_mem_take hc)⟩
  have hlast : Layout.Fills (Layout.columns 2 Text.isDigitOrSpace) (digits.drop 2) :=
    Layout.fills_columns_iff.mpr
      ⟨by rw [List.length_drop, hlength], fun c hc => h c (List.mem_of_mem_drop hc)⟩
  exact (hfirst.append (Layout.fills_exactly_iff.mpr rfl)).append hlast

theorem blanks_withPoint (h : ambiguity ≤ 4) :
    blanks (withPoint (shownDigits angle ambiguity)) = ambiguity := by
  have hknown : ' ' ∉ angle.known ambiguity :=
    blank_not_mem fun _ hc => isDigit_of_mem_decimal hc
  have hcount : (shownDigits angle ambiguity).count ' ' = ambiguity := by
    rw [shownDigits, List.count_append, List.count_eq_zero_of_not_mem hknown,
      List.count_replicate_self, Nat.zero_add]
  obtain ⟨m₁, m₂, m₃, m₄, hdigits⟩ := List.length_eq_four.mp (length_shownDigits angle h)
  rw [hdigits] at hcount ⊢
  exact blanks_eq_count.trans hcount

/-- Blanks at the end are filled with the digits of the middle. -/
theorem fillBlanks_append_replicate (h : ' ' ∉ known) (hfew : ambiguity < 4) :
    fillBlanks (known ++ List.replicate ambiguity ' ') = known ++ middleDigits ambiguity := by
  rw [fillBlanks_append h]
  match ambiguity, hfew with
  | 0, _ | 1, _ | 2, _ | 3, _ => rfl

theorem hundredths_withPoint (h : ambiguity ≤ 4) :
    hundredths (withPoint (shownDigits angle ambiguity)) =
      boxCentre ambiguity angle.fraction := by
  have hknown : ' ' ∉ angle.known ambiguity :=
    blank_not_mem fun _ hc => isDigit_of_mem_decimal hc
  have hblanks := blanks_withPoint angle h
  obtain ⟨m₁, m₂, m₃, m₄, hdigits⟩ := List.length_eq_four.mp (length_shownDigits angle h)
  have hpoint : withPoint (shownDigits angle ambiguity) = [m₁, m₂, '.', m₃, m₄] := by
    rw [hdigits]
    rfl
  rw [← angle.natOfDigits_known_append h, hundredths, hblanks]
  by_cases hfew : ambiguity < 4
  · rw [if_neg (by omega), hpoint, ← digitsOf, digitsOf_fillBlanks, ← hdigits, shownDigits,
      fillBlanks_append_replicate hknown hfew]
  · obtain rfl : ambiguity = 4 := by omega
    rfl

end Minutes

/-- A field in which nothing is wrong is read. -/
theorem exists_read_eq_ok {field : Text} (hfills : Layout.Fills layout field)
    (hblanks : blanks (Text.slice 2 5 field) = blanks (Text.slice 12 5 field))
    (hlatitude : Text.natOfDigits (Text.slice 0 2 field) ≤ 89)
    (hlongitude : Text.natOfDigits (Text.slice 9 3 field) ≤ 179) :
    ∃ fix, read field = .ok fix := by
  cases hread : read field with
  | ok fix => exact ⟨fix, rfl⟩
  | error cause =>
    obtain ⟨-, hne⟩ | ⟨-, hlt⟩ | ⟨-, hlt⟩ := cause_of_read_error hfills hread
    · exact absurd hblanks hne
    · exact absurd hlatitude (Nat.not_le_of_lt hlt)
    · exact absurd hlongitude (Nat.not_le_of_lt hlt)

namespace Sent

variable (sent : Sent)

theorem fills_text : Layout.Fills layout sent.text := by
  have hfew : sent.ambiguity.val ≤ 4 := by omega
  have hlatitude : Layout.Fills minutesLayout sent.latitudeMinutes :=
    fills_withPoint (length_shownDigits _ hfew) fun _ hc => isDigitOrSpace_of_mem_shownDigits _ hc
  have hlongitude : Layout.Fills minutesLayout sent.longitudeMinutes :=
    fills_withPoint (length_shownDigits _ hfew) fun _ hc => isDigitOrSpace_of_mem_shownDigits _ hc
  have hnorth : Layout.Fills [hemisphere 'N' 'S'] [if sent.south then 'S' else 'N'] := by
    cases sent.south <;> exact ⟨by decide, trivial⟩
  have heast : Layout.Fills [hemisphere 'E' 'W'] [if sent.west then 'W' else 'E'] := by
    cases sent.west <;> exact ⟨by decide, trivial⟩
  have htwo : Layout.Fills (Layout.columns 2 Char.isDigit)
      (decimal (sent.latitude.digits.take 2)) :=
    Layout.fills_columns_iff.mpr ⟨rfl, fun _ hc => isDigit_of_mem_decimal hc⟩
  have hthree : Layout.Fills (Layout.columns 3 Char.isDigit) sent.longitudeDegrees :=
    Layout.fills_columns_iff.mpr ⟨rfl, fun _ hc => isDigit_of_mem_decimal hc⟩
  have htable : Layout.Fills [Text.isSymbolTable] [sent.symbolTable.val] :=
    ⟨sent.symbolTable.property, trivial⟩
  have hcode : Layout.Fills [Text.between '!' '~'] [sent.symbolCode.val] :=
    ⟨sent.symbolCode.property, trivial⟩
  have hfirst := ((htwo.append hlatitude).append hnorth).append htable
  exact (((hfirst.append hthree).append hlongitude).append heast).append hcode

/-- The parts of a position are where they are looked for. -/
theorem slices_text :
    Text.slice 0 2 sent.text = decimal (sent.latitude.digits.take 2) ∧
      Text.slice 2 5 sent.text = sent.latitudeMinutes ∧
      Text.slice 9 3 sent.text = sent.longitudeDegrees ∧
      Text.slice 12 5 sent.text = sent.longitudeMinutes ∧
      sent.text.getD 7 ' ' = (if sent.south then 'S' else 'N') ∧
      sent.text.getD 17 ' ' = (if sent.west then 'W' else 'E') ∧
      sent.text.getD 8 ' ' = sent.symbolTable.val ∧
      sent.text.getD 18 ' ' = sent.symbolCode.val := by
  have hfew : sent.ambiguity.val ≤ 4 := by omega
  obtain ⟨m₁, m₂, m₃, m₄, hlatitude⟩ :=
    List.length_eq_four.mp (length_shownDigits sent.latitude hfew)
  obtain ⟨n₁, n₂, n₃, n₄, hlongitude⟩ :=
    List.length_eq_four.mp (length_shownDigits sent.longitude hfew)
  rw [text, latitudeMinutes, longitudeMinutes, hlatitude, hlongitude]
  exact ⟨rfl, rfl, rfl, rfl, rfl, rfl, rfl, rfl⟩

theorem natOfDigits_longitudeDegrees :
    Text.natOfDigits sent.longitudeDegrees = sent.longitude.degrees := by
  rw [longitudeDegrees, natOfDigits_decimal]
  simp only [Angle.digits, lastDigit, List.take, List.foldl]
  omega

theorem natOfDigits_latitudeDegrees :
    Text.natOfDigits (decimal (sent.latitude.digits.take 2)) = sent.latitude.degrees := by
  rw [Angle.natOfDigits_degrees]
  omega

theorem hasCapitals_text : hasCapitals sent.text = true := by
  obtain ⟨-, -, -, -, hnorth, heast, -⟩ := sent.slices_text
  rw [hasCapitals, hnorth, heast]
  cases sent.south <;> cases sent.west <;> decide

theorem latitudeOf_text :
    latitudeOf sent.text = signed sent.south (sent.latitude.centre sent.ambiguity) := by
  have hfew : sent.ambiguity.val ≤ 4 := by omega
  obtain ⟨hdegrees, hminutes, -, -, hnorth, -⟩ := sent.slices_text
  have hsouth : ((if sent.south then 'S' else 'N').toUpper == 'S') = sent.south := by
    cases sent.south <;> decide
  rw [latitudeOf, hdegrees, hminutes, hnorth, hsouth, latitudeMinutes,
    natOfDigits_latitudeDegrees, hundredths_withPoint _ hfew]
  rfl

theorem longitudeOf_text :
    longitudeOf sent.text = signed sent.west (sent.longitude.centre sent.ambiguity) := by
  have hfew : sent.ambiguity.val ≤ 4 := by omega
  obtain ⟨-, -, hdegrees, hminutes, -, heast, -⟩ := sent.slices_text
  have hwest : ((if sent.west then 'W' else 'E').toUpper == 'W') = sent.west := by
    cases sent.west <;> decide
  rw [longitudeOf, hdegrees, hminutes, heast, hwest, longitudeMinutes,
    natOfDigits_longitudeDegrees, hundredths_withPoint _ hfew]
  rfl

/-- What a position has to say after it has been read as it was sent. -/
structure IsReadAs (fix : Fix) : Prop where
  form : fix.form = .uncompressed sent.ambiguity
  latitude : fix.latitude.toRat? = some (signed sent.south (sent.latitude.centre sent.ambiguity))
  longitude : fix.longitude.toRat? = some (signed sent.west (sent.longitude.centre sent.ambiguity))
  symbolTable : fix.symbolTable = sent.symbolTable
  symbolCode : fix.symbolCode = sent.symbolCode

theorem decode?_text (rest : Text) :
    ∃ fix, decode? (sent.text ++ rest) = .ok (some (fix, rest)) ∧ sent.IsReadAs fix := by
  have hfew : sent.ambiguity.val ≤ 4 := by omega
  have hfills := sent.fills_text
  obtain ⟨hdegrees, hminutes, hdegrees', hminutes', -, -, htable, hcode⟩ := sent.slices_text
  have hblanks : blanks (Text.slice 2 5 sent.text) = sent.ambiguity := by
    rw [hminutes, latitudeMinutes, blanks_withPoint _ hfew]
  have hblanks' : blanks (Text.slice 12 5 sent.text) = sent.ambiguity := by
    rw [hminutes', longitudeMinutes, blanks_withPoint _ hfew]
  have hnorth : Text.natOfDigits (Text.slice 0 2 sent.text) ≤ 89 := by
    rw [hdegrees, natOfDigits_latitudeDegrees]
    omega
  have heast : Text.natOfDigits (Text.slice 9 3 sent.text) ≤ 179 := by
    rw [hdegrees', natOfDigits_longitudeDegrees]
    omega
  obtain ⟨fix, hread⟩ := exists_read_eq_ok hfills (hblanks.trans hblanks'.symm) hnorth heast
  obtain ⟨hlatitude, hlongitude, -, -⟩ := toRat?_of_read hfills hread
  rw [latitudeOf_text] at hlatitude
  rw [longitudeOf_text] at hlongitude
  obtain ⟨_, _, -, -, -, -, -, hfix⟩ := exists_of_read hread
  refine ⟨fix, ?_, ?_, hlatitude, hlongitude, ?_, ?_⟩
  · rw [decode?_eq (Layout.take?_append hfills rest), if_pos sent.hasCapitals_text, hread]
    rfl
  · rw [hfix, hblanks]
  · rw [hfix, htable]
  · rw [hfix, hcode]

end Sent

end Uncompressed

/-- Without an object and a precision tag, a position is stored as it was read. -/
theorem Record.withPosition_of_dao?_eq_none (r : Record Quantity) {p : Position}
    (hobject : p.object = none) (hdao : p.remark.dao? = none) :
    (r.withPosition p).format = some p.fix.form.format ∧
      (r.withPosition p).ambiguity = p.fix.form.ambiguity?.map Nat.toUInt8 ∧
      (r.withPosition p).symbolTable = some p.fix.symbolTable ∧
      (r.withPosition p).symbolCode = some p.fix.symbolCode ∧
      (r.withPosition p).latitude = some p.fix.latitude ∧
      (r.withPosition p).longitude = some p.fix.longitude := by
  obtain ⟨messageCapable, object, timestamp, fix, remark⟩ := p
  cases hobject
  cases remark with
  | comment comment =>
    obtain ⟨extension, altitude, telemetry, dao, text⟩ := comment
    cases hdao
    cases timestamp <;> exact ⟨rfl, rfl, rfl, rfl, rfl, rfl⟩
  | weather extension weather text =>
    cases timestamp <;> exact ⟨rfl, rfl, rfl, rfl, rfl, rfl⟩

/-- A position is read as it was sent, whatever follows it, as long as no precision tag moves it. -/
theorem Position.decode_sent (now : Int) (r : Record Quantity) (sent : Uncompressed.Sent)
    {text : Text} (h : '!' ∉ text) :
    ∃ kind p latitude longitude, PositionKind.ofChar? '!' = some kind ∧
      decode now kind (sent.text ++ text) = .ok p ∧
      (r.withPosition p).format = some .uncompressed ∧
      (r.withPosition p).ambiguity = some sent.ambiguity.val.toUInt8 ∧
      (r.withPosition p).symbolTable = some sent.symbolTable.val ∧
      (r.withPosition p).symbolCode = some sent.symbolCode.val ∧
      (r.withPosition p).latitude = some latitude ∧
      latitude.toRat? =
        some (Quantity.signed sent.south (sent.latitude.centre sent.ambiguity)) ∧
      (r.withPosition p).longitude = some longitude ∧
      longitude.toRat? =
        some (Quantity.signed sent.west (sent.longitude.centre sent.ambiguity)) := by
  obtain ⟨fix, hdecode, hread⟩ := sent.decode?_text text
  let p : Position := ⟨false, none, none, fix, Remark.read fix.symbolCode text⟩
  obtain ⟨hformat, hambiguity, htable, hcode, hlatitude, hlongitude⟩ :=
    r.withPosition_of_dao?_eq_none (p := p) rfl (Remark.dao?_read_eq_none h fix.symbolCode)
  refine ⟨.station false false, p, fix.latitude, fix.longitude, rfl, decode_of_decode? now hdecode,
    hformat.trans ?_, hambiguity.trans ?_, htable.trans ?_, hcode.trans ?_, hlatitude,
    hread.latitude, hlongitude, hread.longitude⟩
  · rw [hread.form]
    rfl
  · rw [hread.form]
    rfl
  · rw [hread.symbolTable]
  · rw [hread.symbolCode]

/-- Two digits are blank on the southern half of the globe, and speed and altitude follow. -/
theorem Position.decode_sent_blank_digits :
    '!' ∉ "088/036/A=001234 Test".toList ∧
      ∃ p latitude longitude,
        decode 0 (.station false false) "4903.  S\\00742.  W>088/036/A=001234 Test".toList = .ok p ∧
        let r := (Line.blankRecord [] ⟨"N0CALL".toList, "APRS".toList, []⟩).withPosition p
        r.format = some .uncompressed ∧ r.ambiguity = some 2 ∧ r.symbolTable = some '\\' ∧
          r.symbolCode = some '>' ∧ r.latitude = some latitude ∧
          latitude.toRat? = some (-(49 + 350 / 6000)) ∧ r.longitude = some longitude ∧
          longitude.toRat? = some (-(7 + 4250 / 6000)) := by
  let sent : Uncompressed.Sent :=
    { latitude := ⟨49, 3, 51⟩
      south := true
      longitude := ⟨7, 42, 30⟩
      west := true
      ambiguity := 2
      symbolTable := ⟨'\\', by decide⟩
      symbolCode := ⟨'>', by decide⟩ }
  have htext : '!' ∉ "088/036/A=001234 Test".toList := by decide
  have hsent : sent.text ++ "088/036/A=001234 Test".toList =
      "4903.  S\\00742.  W>088/036/A=001234 Test".toList := by cbv
  obtain ⟨kind, p, latitude, longitude, hkind, hdecode, hformat, hambiguity, htable, hcode,
    hlatitude, hsouth, hlongitude, hwest⟩ :=
      decode_sent 0 (Line.blankRecord [] ⟨"N0CALL".toList, "APRS".toList, []⟩) sent htext
  cases hkind
  rw [hsent] at hdecode
  refine ⟨htext, p, latitude, longitude, hdecode, hformat, hambiguity, htable, hcode, hlatitude, ?_,
    hlongitude, ?_⟩
  · rw [hsouth]
    norm_num [sent, Quantity.signed, Quantity.arc, MicE.Angle.centre, MicE.Angle.fraction,
      MicE.boxCentre, MicE.boxWidth]
  · rw [hwest]
    norm_num [sent, Quantity.signed, Quantity.arc, MicE.Angle.centre, MicE.Angle.fraction,
      MicE.boxCentre, MicE.boxWidth]

end Aprs
