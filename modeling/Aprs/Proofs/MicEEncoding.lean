import Aprs.Proofs.CommentTags
import Aprs.Proofs.Filling
import Aprs.Proofs.Line
import Aprs.Proofs.MicECoordinates

/-!
How stations write Mic-E reports, and that reading is the inverse of it. A character of the
destination carries a digit of the latitude and a bit that has nothing to do with it, and the
numbers of the body wrap where a printable character would run out. Blank digits come back as the
middle of the box that they leave open.
-/

namespace Aprs

namespace MicE

open Quantity Reading

def lastDigit (n : Nat) : Fin 10 := ⟨n % 10, Nat.mod_lt n (by decide)⟩

/-- An angle of fewer degrees than a bound, in hundredths of a minute. -/
structure Angle (bound : Nat) where
  degrees : Fin bound
  minutes : Fin 60
  hundredths : Fin 100
  deriving DecidableEq, Repr

namespace Angle

variable {bound : Nat} (angle : Angle bound)

/-- The minutes in hundredths. -/
def fraction : Nat := 100 * angle.minutes + angle.hundredths

theorem fraction_lt : angle.fraction < 6000 := by
  rw [fraction]
  omega

/-- Two digits of each part. -/
def digits : List (Fin 10) :=
  [lastDigit (angle.degrees.val / 10), lastDigit angle.degrees.val,
    lastDigit (angle.minutes.val / 10), lastDigit angle.minutes.val,
    lastDigit (angle.hundredths.val / 10), lastDigit angle.hundredths.val]

/-- The value of the middle of the box that an ambiguity leaves open. -/
def centre (ambiguity : Nat) : Rat := arc angle.degrees (boxCentre ambiguity angle.fraction)

end Angle

/-- What a station tells in a Mic-E report, and the freedom that it has in how to tell it. -/
structure Sent where
  latitude : Angle 90
  south : Bool
  /-- How many digits of the latitude are blank. -/
  ambiguity : Fin 5
  bits : MessageBits
  longitude : Angle 180
  west : Bool
  knots : Fin 800
  course : Fin 361
  symbolTable : {c : Char // Text.isSymbolTable c = true}
  symbolCode : {c : Char // Text.between '!' '~' c = true}
  /-- The tens of a low speed can be raised by eighty, which makes them printable. -/
  raisesSpeed : Bool
  /-- The hundreds of a course can be raised by four for the same reason. -/
  raisesCourse : Bool
  knots_lt : raisesSpeed = true → knots.val < 200
  deriving DecidableEq, Repr

section Encoding

/-- A digit, or a blank, written in the way that tells a message bit. -/
def column (bit : MessageBit) (digit : Option (Fin 10)) : Char :=
  match bit, digit with
  | .zero, some d => Char.ofNat ('0'.toNat + d)
  | .standard, some d => Char.ofNat ('P'.toNat + d)
  | .custom, some d => Char.ofNat ('A'.toNat + d)
  | .zero, none => 'L'
  | .standard, none => 'Z'
  | .custom, none => 'K'

/-- A digit, or a blank, written in the way that tells yes or no. -/
def flagColumn (flag : Bool) (digit : Option (Fin 10)) : Char :=
  column (if flag then .standard else .zero) digit

/-- Degrees are sent with a hundred taken off when they are below 10 or from 100 on; in both ranges
some of them are moved to where they are printable. -/
def degreesCode (degrees : Nat) : Nat :=
  if degrees < 10 then degrees + 118
  else if degrees < 100 then degrees + 28
  else if degrees < 110 then degrees + 8
  else degrees - 72

def minutesCode (minutes : Nat) : Nat := if minutes < 10 then minutes + 88 else minutes + 28

namespace Sent

variable (sent : Sent)

/-- A digit of the latitude, if it is not blank. -/
def shown (place : Nat) : Option (Fin 10) :=
  if place + sent.ambiguity < 6 then sent.latitude.digits[place]? else none

/-- Whether a hundred is taken off the degrees of the longitude. -/
def isOffset : Bool := decide (sent.longitude.degrees.val < 10 ∨ 100 ≤ sent.longitude.degrees.val)

def destination : Text :=
  [column sent.bits.first (sent.shown 0), column sent.bits.second (sent.shown 1),
    column sent.bits.third (sent.shown 2), flagColumn (!sent.south) (sent.shown 3),
    flagColumn sent.isOffset (sent.shown 4), flagColumn sent.west (sent.shown 5)]

def tensOfKnots : Nat := sent.knots / 10 + if sent.raisesSpeed then 80 else 0

/-- The units of the speed and the hundreds of the course share a character. -/
def unitsAndHundreds : Nat :=
  10 * (sent.knots % 10) + sent.course / 100 + if sent.raisesCourse then 4 else 0

def body : Text :=
  [Char.ofNat (degreesCode sent.longitude.degrees), Char.ofNat (minutesCode sent.longitude.minutes),
    Char.ofNat (sent.longitude.hundredths + 28), Char.ofNat (sent.tensOfKnots + 28),
    Char.ofNat (sent.unitsAndHundreds + 28), Char.ofNat (sent.course % 100 + 28),
    sent.symbolCode.val, sent.symbolTable.val]

end Sent

end Encoding

/-- Decimal digits as characters. -/
def decimalDigit (d : Fin 10) : Char := Char.ofNat ('0'.toNat + d)

def decimal (digits : List (Fin 10)) : Text := digits.map decimalDigit

section Columns

theorem latitudeDigit_column (bit : MessageBit) (digit : Option (Fin 10)) :
    latitudeDigit (column bit digit) = digit.elim ' ' decimalDigit := by
  revert digit
  cases bit <;> decide

theorem ofChar_column (bit : MessageBit) (digit : Option (Fin 10)) :
    MessageBit.ofChar (column bit digit) = bit := by
  revert digit
  cases bit <;> decide

theorem decide_le_flagColumn (flag : Bool) (digit : Option (Fin 10)) :
    decide ('P' ≤ flagColumn flag digit) = flag := by
  revert flag digit
  decide

theorem isDigit_or_isUpper_column (bit : MessageBit) (digit : Option (Fin 10)) :
    ((column bit digit).isDigit || (column bit digit).isUpper) = true := by
  revert digit
  cases bit <;> decide

theorem isDigit_or_between_flagColumn (flag : Bool) (digit : Option (Fin 10)) :
    ((flagColumn flag digit).isDigit || Text.between 'L' 'Z' (flagColumn flag digit)) = true := by
  revert flag digit
  decide

theorem utf8Size_column (bit : MessageBit) (digit : Option (Fin 10)) :
    (column bit digit).utf8Size = 1 := by
  revert digit
  cases bit <;> decide

end Columns

section Codes

theorem degreesCode_bounds {degrees : Nat} (h : degrees < 180) :
    38 ≤ degreesCode degrees ∧ degreesCode degrees ≤ 127 := by
  unfold degreesCode
  split_ifs <;> omega

theorem minutesCode_bounds {minutes : Nat} (h : minutes < 60) :
    38 ≤ minutesCode minutes ∧ minutesCode minutes ≤ 97 := by
  unfold minutesCode
  split_ifs <;> omega

theorem longitudeDegrees_degreesCode {degrees : Nat} (h : degrees < 180) :
    longitudeDegrees (Char.ofNat (degreesCode degrees)) (decide (degrees < 10 ∨ 100 ≤ degrees)) =
      degrees := by
  have hbounds := degreesCode_bounds h
  unfold longitudeDegrees count
  rw [Text.toNat_ofNat (by omega)]
  unfold degreesCode
  by_cases hoffset : degrees < 10 ∨ 100 ≤ degrees
  · simp only [hoffset, decide_true, if_true]
    split_ifs <;> omega
  · simp only [hoffset, decide_false, Bool.false_eq_true, if_false]
    split_ifs <;> omega

theorem longitudeMinutes_minutesCode {minutes : Nat} (h : minutes < 60) :
    longitudeMinutes (Char.ofNat (minutesCode minutes)) = minutes := by
  have hbounds := minutesCode_bounds h
  unfold longitudeMinutes count
  rw [Text.toNat_ofNat (by omega)]
  unfold minutesCode
  split_ifs <;> omega

theorem count_ofNat {n : Nat} (h : n < 100) : count (Char.ofNat (n + 28)) = n := by
  rw [count, Text.toNat_ofNat (by omega), Nat.add_sub_cancel]

end Codes

namespace Sent

variable (sent : Sent)

theorem tensOfKnots_lt : sent.tensOfKnots < 100 := by
  have hknots := sent.knots_lt
  unfold tensOfKnots
  split_ifs with hraises
  · have := hknots hraises
    omega
  · omega

theorem unitsAndHundreds_le : sent.unitsAndHundreds ≤ 97 := by
  unfold unitsAndHundreds
  split_ifs <;> omega

theorem knots_body (trailing : Text) : MicE.knots (sent.body ++ trailing) = sent.knots := by
  have htens := sent.tensOfKnots_lt
  have hunits := sent.unitsAndHundreds_le
  change wrap 800 (count (Char.ofNat (sent.tensOfKnots + 28)) * 10 +
    count (Char.ofNat (sent.unitsAndHundreds + 28)) / 10) = sent.knots
  rw [count_ofNat htens, count_ofNat (by omega)]
  unfold wrap tensOfKnots unitsAndHundreds
  split_ifs <;> omega

theorem degrees_body (trailing : Text) : MicE.degrees (sent.body ++ trailing) = sent.course := by
  have hunits := sent.unitsAndHundreds_le
  change wrap 400 (count (Char.ofNat (sent.unitsAndHundreds + 28)) % 10 * 100 +
    count (Char.ofNat (sent.course % 100 + 28))) = sent.course
  rw [count_ofNat (by omega), count_ofNat (by omega)]
  unfold wrap unitsAndHundreds
  split_ifs <;> omega

theorem fills_destination : Layout.Fills destinationLayout sent.destination :=
  ⟨isDigit_or_isUpper_column .., isDigit_or_isUpper_column .., isDigit_or_isUpper_column ..,
    isDigit_or_between_flagColumn .., isDigit_or_between_flagColumn ..,
    isDigit_or_between_flagColumn .., trivial⟩

theorem fills_body : Layout.Fills bodyLayout sent.body := by
  have hdegrees := degreesCode_bounds sent.longitude.degrees.isLt
  have hminutes := minutesCode_bounds sent.longitude.minutes.isLt
  have htens := sent.tensOfKnots_lt
  have hunits := sent.unitsAndHundreds_le
  have hcolumn : ∀ {lo hi : Char} {n : Nat}, lo.toNat ≤ n ∧ n ≤ hi.toNat ∧ n < 128 →
      Text.between lo hi (Char.ofNat n) = true := by
    intro lo hi n hn
    rw [Text.between_iff, Text.toNat_ofNat hn.2.2]
    exact ⟨hn.1, hn.2.1⟩
  refine ⟨hcolumn ?_, hcolumn ?_, hcolumn ?_, hcolumn ?_, hcolumn ?_, hcolumn ?_,
    sent.symbolCode.property, sent.symbolTable.property, trivial⟩ <;>
    simp only [Char.reduceToNat] <;> omega

end Sent

section Latitude

theorem isDigit_of_mem_decimal {digits : List (Fin 10)} {c : Char} (h : c ∈ decimal digits) :
    c.isDigit = true := by
  have hdigit : ∀ d, (decimalDigit d).isDigit = true := by decide
  obtain ⟨d, _, rfl⟩ := List.mem_map.mp h
  exact hdigit d

theorem natOfDigits_decimal (digits : List (Fin 10)) :
    Text.natOfDigits (decimal digits) = digits.foldl (fun n d => 10 * n + d.val) 0 := by
  have hvalue : ∀ d, Text.digitValue (decimalDigit d) = d.val := by decide
  rw [Text.natOfDigits, decimal, List.foldl_map]
  simp only [hvalue]

namespace Angle

variable {bound ambiguity : Nat} (angle : Angle bound)

/-- The digits of the minutes that an ambiguity leaves. -/
def known (ambiguity : Nat) : Text := decimal ((angle.digits.drop 2).take (4 - ambiguity))

theorem length_known (h : ambiguity ≤ 4) : (angle.known ambiguity).length + ambiguity = 4 := by
  have hfour : (angle.digits.drop 2).length = 4 := rfl
  rw [known, decimal, List.length_map, List.length_take, hfour]
  omega

theorem natOfDigits_degrees :
    Text.natOfDigits (decimal (angle.digits.take 2)) = angle.degrees % 100 := by
  rw [natOfDigits_decimal]
  simp only [digits, lastDigit, List.take, List.foldl]
  omega

theorem natOfDigits_fraction :
    Text.natOfDigits (decimal (angle.digits.drop 2)) = angle.fraction := by
  rw [natOfDigits_decimal]
  simp only [digits, fraction, lastDigit, List.drop, List.foldl]
  omega

/-- With the digits of the middle for those that are not left, minutes are the middle of their
box. -/
theorem natOfDigits_known_append (h : ambiguity ≤ 4) :
    Text.natOfDigits (angle.known ambiguity ++ middleDigits ambiguity) =
      boxCentre ambiguity angle.fraction := by
  have hsplit : decimal (angle.digits.drop 2) =
      angle.known ambiguity ++ decimal ((angle.digits.drop 2).drop (4 - ambiguity)) := by
    rw [known, decimal, decimal, decimal, ← List.map_append, List.take_append_drop]
  have hhidden : (decimal ((angle.digits.drop 2).drop (4 - ambiguity))).length = ambiguity := by
    have hfour : (angle.digits.drop 2).length = 4 := rfl
    rw [decimal, List.length_map, List.length_drop, hfour]
    omega
  have hbound := angle.fraction_lt
  rw [← natOfDigits_fraction, hsplit] at hbound ⊢
  exact natOfDigits_append_middleDigits (angle.length_known h) hhidden
    (fun _ hc => isDigit_of_mem_decimal hc) hbound

end Angle

namespace Sent

variable (sent : Sent)

theorem map_latitudeDigit_destination :
    sent.destination.map latitudeDigit =
      decimal (sent.latitude.digits.take 2) ++ sent.latitude.known sent.ambiguity ++
        List.replicate sent.ambiguity ' ' := by
  have hshown : sent.destination.map latitudeDigit =
      (List.range 6).map fun place => (sent.shown place).elim ' ' decimalDigit := by
    simp only [destination, flagColumn, List.map_cons, List.map_nil, latitudeDigit_column]
    rfl
  rw [hshown]
  obtain ⟨latitude, south, ⟨ambiguity, hambiguity⟩, bits, longitude, west, knots, course, table,
    code, raisesSpeed, raisesCourse, hknots⟩ := sent
  match ambiguity, hambiguity with
  | 0, _ | 1, _ | 2, _ | 3, _ | 4, _ => rfl

theorem decodeLatitude_destination :
    ∃ latitude, decodeLatitude sent.destination = .ok (latitude, sent.ambiguity.val) ∧
      latitude.toRat? = some (sent.latitude.centre sent.ambiguity) := by
  have hambiguity : sent.ambiguity.val ≤ 4 := by omega
  have hdegrees :
      Text.natOfDigits (decimal (sent.latitude.digits.take 2)) = sent.latitude.degrees := by
    rw [Angle.natOfDigits_degrees]
    omega
  refine ⟨_, decodeLatitude_of_digits sent.map_latitudeDigit_destination
    (fun _ hc => isDigit_of_mem_decimal hc) (fun _ hc => isDigit_of_mem_decimal hc) rfl
    (sent.latitude.length_known hambiguity), ?_⟩
  rw [hdegrees, sent.latitude.natOfDigits_known_append hambiguity]
  exact toRat?_ofDegreesMinutes (toRat?_ofNat _) (toRat?_hundredths _)

end Sent

end Latitude

section Reading

namespace Sent

variable (sent : Sent)

/-- What a report has to say after it has been read as it was sent. -/
structure IsReadAs (m : MicE) : Prop where
  latitude : m.latitude.toRat? = some (signed sent.south (sent.latitude.centre sent.ambiguity))
  longitude : m.longitude.toRat? = some (signed sent.west (sent.longitude.centre sent.ambiguity))
  ambiguity : m.ambiguity = sent.ambiguity
  symbolTable : m.symbolTable = sent.symbolTable
  symbolCode : m.symbolCode = sent.symbolCode
  bits : m.bits = sent.bits
  speed : m.speed = .ofNat sent.knots * .scaled 1852 3
  exactSpeed : m.speed.toRat? = some ((sent.knots : Rat) * (1852 / 1000))
  course : m.course = .ofNat sent.course
  dao : m.dao = none

theorem check_destination (trailing : Text) :
    check sent.destination (sent.body ++ trailing) = .ok () := by
  have hsize : sent.destination.byteLength = 6 := by
    simp [Text.byteLength, destination, flagColumn, utf8Size_column]
  have hbody : 8 ≤ (sent.body ++ trailing).byteLength := by
    refine Nat.le_trans ?_ (Text.length_le_byteLength _)
    rw [List.length_append]
    exact Nat.le_add_right 8 _
  have htake := Layout.take?_append sent.fills_body trailing
  exact check_eq_ok_iff.mpr ⟨hsize, hbody, sent.fills_destination, by rw [htake]; rfl⟩

theorem toRat?_decodeLongitude_body (trailing : Text) :
    (decodeLongitude (sent.body ++ trailing) sent.isOffset sent.ambiguity).toRat? =
      some (sent.longitude.centre sent.ambiguity) := by
  have hdegrees := longitudeDegrees_degreesCode sent.longitude.degrees.isLt
  have hminutes := longitudeMinutes_minutesCode sent.longitude.minutes.isLt
  have hhundredths := count_ofNat sent.longitude.hundredths.isLt
  refine (toRat?_decodeLongitude ?_ ?_ (by omega) sent.isOffset).trans ?_
  · change longitudeMinutes (Char.ofNat (minutesCode sent.longitude.minutes)) < 60
    rw [hminutes]
    exact sent.longitude.minutes.isLt
  · change count (Char.ofNat (sent.longitude.hundredths + 28)) < 100
    rw [hhundredths]
    exact sent.longitude.hundredths.isLt
  · change some (arc (longitudeDegrees (Char.ofNat (degreesCode sent.longitude.degrees)) _)
      (boxCentre sent.ambiguity
        (100 * longitudeMinutes (Char.ofNat (minutesCode sent.longitude.minutes)) +
          count (Char.ofNat (sent.longitude.hundredths + 28))))) = _
    rw [isOffset, hdegrees, hminutes, hhundredths]
    rfl

theorem decode_body {destination trailing : Text}
    (hdestination : Text.upTo '-' destination = sent.destination) (htrailing : '!' ∉ trailing) :
    ∃ m, decode destination (sent.body ++ trailing) = .ok m ∧ sent.IsReadAs m := by
  obtain ⟨latitude, hlatitude, hvalue⟩ := sent.decodeLatitude_destination
  obtain ⟨channels, afterChannels, hchannels, hfirst⟩ := exists_splitChannels_eq_ok trailing
  obtain ⟨altitude, afterAltitude, haltitude, hsecond⟩ := exists_splitAltitude_eq_ok afterChannels
  have hsublist := ((Telemetry.sublist_split afterAltitude).trans hsecond).trans hfirst
  have hdao : (Dao.split (Telemetry.split afterAltitude).2).1 = none := by
    rw [Dao.split_eq_none fun hmem => htrailing (hsublist.subset hmem)]
  have hnorth : isFlagged sent.destination 3 = !sent.south := decide_le_flagColumn ..
  have hoffset : isFlagged sent.destination 4 = sent.isOffset := decide_le_flagColumn ..
  have hwest : isFlagged sent.destination 5 = sent.west := decide_le_flagColumn ..
  have hbits : bitsOf sent.destination = sent.bits := by
    simp [bitsOf, Sent.destination, ofChar_column]
  have hspeed := sent.knots_body trailing
  have hcourse := sent.degrees_body trailing
  have hlongitude := sent.toRat?_decodeLongitude_body trailing
  unfold decode
  rw [hdestination]
  refine ⟨_, bind_eq_ok_iff.mpr ⟨(), mapError_eq_ok_iff.mpr (sent.check_destination trailing),
    bind_eq_ok_iff.mpr ⟨_, mapError_eq_ok_iff.mpr hlatitude,
      bind_eq_ok_iff.mpr ⟨_, mapError_eq_ok_iff.mpr hchannels,
        bind_eq_ok_iff.mpr ⟨_, haltitude, rfl⟩⟩⟩⟩, ?_⟩
  refine ⟨?_, ?_, rfl, rfl, rfl, hbits, ?_, ?_, ?_, hdao⟩
  · dsimp only
    rw [hnorth, Bool.not_not]
    exact toRat?_negIf sent.south hvalue
  · dsimp only
    rw [hoffset, hwest]
    exact toRat?_negIf sent.west hlongitude
  · dsimp only
    rw [hspeed]
    rfl
  · dsimp only
    rw [hspeed]
    exact toRat?_mul (toRat?_ofNat _) (toRat?_scaled 1852 3)
  · dsimp only
    rw [hcourse]

end Sent

end Reading

/-- The ways in which the body of a line says that it is a Mic-E report. -/
def marks : List Text :=
  [['\u0060'], ['\''], [Report.typographicQuote], Line.garbledQuote]

end MicE

theorem Line.exists_splitType?_of_mark {mark : Text} (h : mark ∈ MicE.marks) (content : Text) :
    ∃ type, splitType? (mark ++ content) = some (type, content) ∧ Report.isMicE type = true ∧
      Report.unsupported.lookup type = none := by
  simp only [MicE.marks, List.mem_cons, List.not_mem_nil, or_false] at h
  rcases h with rfl | rfl | rfl | rfl
  · exact ⟨'\u0060', rfl, rfl, rfl⟩
  · exact ⟨'\'', rfl, rfl, rfl⟩
  · exact ⟨Report.typographicQuote, rfl, rfl, rfl⟩
  · exact ⟨Report.typographicQuote, rfl, rfl, rfl⟩

theorem Report.decode_of_isMicE {type : Char} (h : isMicE type = true) (now : Int)
    (destination body : Text) :
    decode now destination type body = (MicE.decode destination body).map .micE := by
  simp only [isMicE, Bool.or_eq_true, beq_iff_eq] at h
  rcases h with (rfl | rfl) | rfl <;> rfl

/-- A Mic-E report is read as it was sent, whatever else the line says, as long as no precision tag
moves the position. -/
theorem decode_micE (options : Options) (now : Int) (sent : MicE.Sent) {head mark trailing : Text}
    {header : Header} (hheader : Header.decode options head = .ok header) (hcolon : ':' ∉ head)
    (hdestination : Text.upTo '-' header.destination = sent.destination)
    (hmark : mark ∈ MicE.marks) (htrailing : '!' ∉ trailing) :
    ∃ r : Record Quantity, ∃ latitude longitude speed : Quantity,
      decode options now (head ++ ':' :: (mark ++ sent.body ++ trailing)) = .ok (.plain r) ∧
      r.format = some .micE ∧
      r.latitude = some latitude ∧
      latitude.toRat? =
        some (Quantity.signed sent.south (sent.latitude.centre sent.ambiguity)) ∧
      r.longitude = some longitude ∧
      longitude.toRat? =
        some (Quantity.signed sent.west (sent.longitude.centre sent.ambiguity)) ∧
      r.ambiguity = some sent.ambiguity.val.toUInt8 ∧
      r.micEBits = some sent.bits.text ∧
      r.micEMessage = sent.bits.message?.map String.toList ∧
      r.speed = some speed ∧ speed = .ofNat sent.knots * .scaled 1852 3 ∧
      speed.toRat? = some ((sent.knots : Rat) * (1852 / 1000)) ∧
      r.course = some (.ofNat sent.course) ∧
      r.symbolTable = some sent.symbolTable.val ∧
      r.symbolCode = some sent.symbolCode.val ∧
      r.daoDatum = none := by
  obtain ⟨type, htype, hmicE, hsupported⟩ := Line.exists_splitType?_of_mark hmark
    (sent.body ++ Text.trimEnd Line.isLineEnd trailing)
  have hcheck :
      Line.checkType type (sent.body ++ Text.trimEnd Line.isLineEnd trailing) = .ok () := by
    rw [Line.checkType, hsupported]
    rfl
  have hend : ∀ c ∈ (mark ++ sent.body).getLast?, Line.isLineEnd c = false := by
    intro c hc
    rw [List.getLast?_append] at hc
    cases hc
    exact Line.isLineEnd_eq_false_of_class (by decide) (by decide) sent.symbolTable.property
  have hsplit := Line.split_append_trimEnd trailing hheader hcolon hend
    (by rwa [List.append_assoc]) hcheck
  have hforwarding : type ≠ '\x7d' := by
    rintro rfl
    exact absurd hmicE (by decide)
  obtain ⟨m, hm, hread⟩ := sent.decode_body hdestination fun hmem =>
    htrailing ((Text.prefix_trimEnd Line.isLineEnd trailing).subset hmem)
  let line := head ++ ':' :: (mark ++ sent.body ++ trailing)
  refine ⟨(Line.blankRecord line header).withMicE m, m.latitude, m.longitude, m.speed, ?_, ?_⟩
  · rw [decode, Line.decodeWithin_of_report hsplit hforwarding, Report.decode_of_isMicE hmicE, hm]
    rfl
  · rw [Record.withMicE_blankRecord, hread.dao, hread.ambiguity, hread.bits, hread.course,
      hread.symbolTable, hread.symbolCode]
    exact ⟨rfl, rfl, hread.latitude, rfl, hread.longitude, rfl, rfl, rfl, rfl, hread.speed,
      hread.exactSpeed, rfl, rfl, rfl, rfl⟩

/-- Two digits are blank, the degrees of the longitude are moved, speed and course are raised. -/
theorem decode_micE_blank_digits :
    let sent : MicE.Sent :=
      { latitude := ⟨49, 3, 51⟩
        south := false
        ambiguity := 2
        bits := ⟨.standard, .zero, .custom⟩
        longitude := ⟨7, 42, 30⟩
        west := true
        knots := 36
        course := 88
        symbolTable := ⟨'/', by decide⟩
        symbolCode := ⟨'>', by decide⟩
        raisesSpeed := true
        raisesCourse := true
        knots_lt := fun _ => by decide }
    Header.decode {} "N0CALL>T9ASZZ-3".toList = .ok ⟨"N0CALL".toList, "T9ASZZ-3".toList, []⟩ ∧
      ':' ∉ "N0CALL>T9ASZZ-3".toList ∧ Text.upTo '-' "T9ASZZ-3".toList = sent.destination ∧
      ['\''] ∈ MicE.marks ∧ '!' ∉ "Test\r\n".toList ∧
      ∃ r : Record Quantity, ∃ latitude longitude speed : Quantity,
        decode {} 0 "N0CALL>T9ASZZ-3:'\x7dF:o\\t>/Test\r\n".toList = .ok (.plain r) ∧
        r.latitude = some latitude ∧ latitude.toRat? = some (49 + 350 / 6000) ∧
        r.longitude = some longitude ∧ longitude.toRat? = some (-(7 + 4250 / 6000)) ∧
        r.ambiguity = some 2 ∧ r.micEBits = some "102".toList ∧
        r.micEMessage = some "C2: Custom-2".toList ∧ r.speed = some speed ∧
        speed.toRat? = some (66672 / 1000) ∧ r.course = some (.ofNat 88) := by
  intro sent
  have hheader : Header.decode {} "N0CALL>T9ASZZ-3".toList =
      .ok ⟨"N0CALL".toList, "T9ASZZ-3".toList, []⟩ := by cbv
  have hcolon : ':' ∉ "N0CALL>T9ASZZ-3".toList := by decide
  have hdestination : Text.upTo '-' "T9ASZZ-3".toList = sent.destination := by cbv
  have hmark : ['\''] ∈ MicE.marks := by decide
  have htrailing : '!' ∉ "Test\r\n".toList := by decide
  have hline : "N0CALL>T9ASZZ-3".toList ++ ':' :: (['\''] ++ sent.body ++ "Test\r\n".toList) =
      "N0CALL>T9ASZZ-3:'\x7dF:o\\t>/Test\r\n".toList := by cbv
  obtain ⟨r, latitude, longitude, speed, hdecode, _, hlatitude, hnorth, hlongitude, hwest,
    hambiguity, hbits, hmessage, hspeed, _, hknots, hcourse, _⟩ :=
      decode_micE {} 0 sent hheader hcolon hdestination hmark htrailing
  rw [hline] at hdecode
  refine ⟨hheader, hcolon, hdestination, hmark, htrailing, r, latitude, longitude, speed, hdecode,
    hlatitude, ?_, hlongitude, ?_, hambiguity, hbits, hmessage, hspeed, ?_, hcourse⟩
  · rw [hnorth]
    norm_num [sent, Quantity.signed, Quantity.arc, MicE.Angle.centre, MicE.Angle.fraction,
      MicE.boxCentre, MicE.boxWidth]
  · rw [hwest]
    norm_num [sent, Quantity.signed, Quantity.arc, MicE.Angle.centre, MicE.Angle.fraction,
      MicE.boxCentre, MicE.boxWidth]
  · rw [hknots]
    norm_num [sent]

end Aprs
