import Aprs.Proofs.Filling
import Aprs.Proofs.SlicedFields
import Aprs.Proofs.WeatherText

/-!
What follows a position, cut at byte offsets: data extensions, the tags of a comment, and weather.
The offsets are those of fields that a layout was found in, and the layouts hold no character of
more than one byte.
-/

namespace Aprs.Sliced

open Byte Text

section Extensions

def direction (b : UInt8) : Option Directivity :=
  if b = 48 then some .omni
  else if b = 57 then some .invalid
  else do return .degrees (45 * (← sub? b 48).toUInt16)

/-- A gain in decibels is read off one digit. -/
def decibels? (n : Nat) : Option Quantity :=
  if h : n < 10 then some (.decibels ⟨n, h⟩) else none

/-- Differences wrap around for the digits that are read first, but not for the direction. -/
def describe (digits : Text) (rate : Option Char) : Option (Phg Quantity) := do
  let digit (i : Nat) : Option Nat := do return ((← at? digits.bytes i) - 48).toNat
  let root ← digit 0
  let power := Quantity.ofNat (root * root)
  let height := Quantity.metresOfFeet (10 * .power 2 (← digit 1))
  let gain ← decibels? (← digit 2)
  let directivity ← direction (← at? digits.bytes 3)
  let reach := .sqrt (2 * (height / .scaled 3048 4) * .sqrt (power / 10 * (gain / 2)))
  return {
    raw := digits ++ rate.toList
    power
    height
    gain
    directivity
    range := reach * .scaled 160934 5
    rate := rate.bind Extension.rateOf }

def courseSpeed (r : Readings) (field body : Text) : Option (Readings × Text) := do
  let course := field.take 3
  let r := (r.withCourse course).withSpeed (field.drop 4)
  let rest ← body.dropBytes? 7
  match Extension.finderLayout.take? rest with
  | some (finder, _) =>
    let r := r.withFinder course (some (slice 1 3 finder, finder.drop 5))
    return (r, ← rest.dropBytes? 8)
  | none => return (r, rest)

def powerHeightGain (r : Readings) (field after body : Text) : Option (Readings × Text) := do
  let rate := ((Extension.rateLayout.take? after).map Prod.fst).getD []
  let phg ← describe (field.drop 3) rate.head?
  return ({ r with phg := some phg }, ← body.dropBytes? (field ++ rate).byteLength)

def dataExtension (r : Readings) (body : Text) : Option (Readings × Text) :=
  match Extension.courseSpeedLayout.take? body with
  | some (field, _) => courseSpeed r field body
  | none =>
    match Extension.phgLayout.take? body with
    | some (field, after) => powerHeightGain r field after body
    | none =>
      match Extension.rangeLayout.take? body with
      | some (field, _) => do
        return (r.apply (.range (natOfDigits (field.drop 3))), ← body.dropBytes? 7)
      | none => some (r, body)

/-- The offsets that two characters give to latitude and longitude. -/
def offsets (datum : Char) (dao : Text) : Option (Quantity × Quantity) :=
  if datum = 'W' ∧ dao.bytes.all isDigitByte then do
    let latitude ← digitAt dao.bytes 0
    let longitude ← digitAt dao.bytes 1
    return (.ofNat latitude * .scaled 1 3 / 60, .ofNat longitude * .scaled 1 3 / 60)
  else if datum = 'w' ∧ ' ' ∉ dao then do
    let latitude ← (base91 (← dao.takeBytes? 1)).run
    let longitude ← (base91 (← dao.dropBytes? 1)).run
    let digit (answer : Except Char Nat) : Quantity :=
      .ofNat (answer.toOption.getD 0) / 91 * .scaled 1 2 / 60
    return (digit latitude, digit longitude)
  else some (0, 0)

/-- The datum of a tag, the coordinates that it refines and what it leaves of the text. -/
def dao (latitude longitude : Quantity) (t : Text) :
    Option (Option Char × Quantity × Quantity × Text) :=
  if isSingleLine t then
    match rightmost? Dao.take? t with
    | some (before, tag, after) => do
      let (north, east) ← offsets tag.datum [tag.latitude, tag.longitude]
      return (some tag.datum.toUpper, .outward latitude north, .outward longitude east,
        before ++ after)
    | none => some (none, latitude, longitude, t)
  else some (none, latitude, longitude, t)

/-- Numbers of a block of telemetry. -/
def numbers : Text → Option (List Nat)
  | a :: b :: rest => do
    let n ← (base91 [a, b]).run
    return n.toOption.getD 0 :: (← numbers rest)
  | _ => some []

/-- Takes the first block out of a text of one line. -/
def telemetry (t : Text) : Option (Option Telemetry × Text) :=
  if isSingleLine t then
    match leftmost? Telemetry.takeBlock? t with
    | some (before, digits, after) =>
      if digits.length % 2 = 0 then do
        return (some (.ofNumbers (← numbers digits)), before ++ after)
      else some (none, t)
    | none => some (none, t)
  else some (none, t)

theorem isAscii_of_isDigitOrFiller {c : Char} (h : isDigitOrFiller c = true) : c.toNat < 128 :=
  Weather.isAscii_of_isColumn (by rw [Weather.Token.isColumn, h]; rfl)

theorem direction_of_isDigit {c : Char} (h : c.isDigit = true) :
    direction c.toUInt8 = some (Extension.directivityOf c) := by
  have hdigits : ∀ n < 10, direction (Char.ofNat (48 + n)).toUInt8 =
      some (Extension.directivityOf (Char.ofNat (48 + n))) := by decide
  have hrange : 48 ≤ c.toNat ∧ c.toNat ≤ 57 := Char.isDigit_iff_toNat.mp h
  have hc := hdigits (c.toNat - 48) (by omega)
  rwa [Nat.add_sub_cancel' hrange.1, Char.ofNat_toNat] at hc

theorem describe_eq_some {a b c d : Char} (ha : a.isDigit = true) (hb : between '0' '~' b = true)
    (hc : c.isDigit = true) (hd : d.isDigit = true) (rate : Option Char) :
    describe [a, b, c, d] rate = some (Extension.describe [a, b, c, d] rate) := by
  obtain ⟨hlow, hhigh⟩ := between_iff.mp hb
  have hascii : b.toNat < 128 := Nat.lt_of_le_of_lt hhigh (by decide)
  have hbytes : Text.bytes [a, b, c, d] = [a.toUInt8, b.toUInt8, c.toUInt8, d.toUInt8] := by
    have hall : IsAscii [a, b, c, d] := by
      simp [isAscii_of_isDigit ha, hascii, isAscii_of_isDigit hc, isAscii_of_isDigit hd]
    exact hall.bytes
  obtain ⟨_, hroot⟩ := toNat_sub_zero (Char.isDigit_iff_toNat.mp ha).1 (isAscii_of_isDigit ha)
  obtain ⟨_, hheight⟩ := toNat_sub_zero hlow hascii
  obtain ⟨_, hgain⟩ := toNat_sub_zero (Char.isDigit_iff_toNat.mp hc).1 (isAscii_of_isDigit hc)
  have hdecibels : decibels? (digitValue c) =
      some (.decibels (Fin.ofNat 10 (digitValue c))) := by
    have hlt := digitValue_lt hc
    have hmod : (⟨digitValue c, hlt⟩ : Fin 10) = Fin.ofNat 10 (digitValue c) :=
      Fin.ext (Nat.mod_eq_of_lt hlt).symm
    rw [decibels?, dif_pos hlt, hmod]
  have hdirection := direction_of_isDigit hd
  simp only [describe, hbytes, at?, List.getElem?_cons_zero, List.getElem?_cons_succ,
    Option.bind_eq_bind, Option.bind_some, Option.pure_def, hroot, hheight, hgain, hdecibels,
    hdirection]
  rfl

theorem exists_of_fills_phgLayout {field : Text} (h : Layout.Fills Extension.phgLayout field) :
    ∃ a b c d, field.drop 3 = [a, b, c, d] ∧ a.isDigit = true ∧ between '0' '~' b = true ∧
      c.isDigit = true ∧ d.isDigit = true := by
  simp only [Extension.phgLayout, Layout.fills_cons_iff, Layout.fills_nil_iff] at h
  obtain ⟨_, _, rfl, _, _, _, rfl, _, _, _, rfl, _, a, _, rfl, ha, b, _, rfl, hb, c, _, rfl, hc,
    d, _, rfl, hd, rfl⟩ := h
  exact ⟨a, b, c, d, rfl, ha, hb, hc, hd⟩

theorem isAscii_courseSpeedLayout : Extension.courseSpeedLayout.IsAscii := by
  have hcolumns := Layout.isAscii_columns (fun c => isAscii_of_isDigitOrFiller) 3
  simp only [Extension.courseSpeedLayout, Layout.isAscii_append]
  exact ⟨⟨hcolumns, Layout.isAscii_exactly (by decide)⟩, hcolumns⟩

theorem isAscii_rangeLayout : Extension.rangeLayout.IsAscii :=
  Layout.isAscii_append.mpr ⟨by simp [Layout.isAscii_cons, Layout.isAscii_nil],
    Layout.isAscii_columns (fun c => isAscii_of_isDigit) 4⟩

theorem courseSpeed_eq_some {field body rest : Text} (r : Readings)
    (htake : Extension.courseSpeedLayout.take? body = some (field, rest)) :
    ∃ extension after, Extension.takeCourseSpeed? body = some (extension, after) ∧
      courseSpeed r field body = some (r.apply extension, after) := by
  have hfinder : Extension.finderLayout.IsAscii :=
    Layout.isAscii_append.mpr ⟨Layout.isAscii_exactly (by decide), isAscii_courseSpeedLayout⟩
  have hrest : body.dropBytes? 7 = some rest :=
    Layout.dropBytes?_of_take? isAscii_courseSpeedLayout htake
  rw [Extension.takeCourseSpeed?, htake, courseSpeed, hrest]
  simp only [Option.map_some, Option.bind_eq_bind, Option.bind_some]
  cases htake : Extension.finderLayout.take? rest with
  | some result =>
    obtain ⟨finder, after⟩ := result
    have hafter : rest.dropBytes? 8 = some after := Layout.dropBytes?_of_take? hfinder htake
    dsimp only
    rw [hafter]
    exact ⟨_, _, rfl, rfl⟩
  | none => exact ⟨_, _, rfl, rfl⟩

theorem powerHeightGain_eq_some {field body rest : Text} (r : Readings)
    (htake : Extension.phgLayout.take? body = some (field, rest)) :
    ∃ extension after, Extension.takePhg? body = some (extension, after) ∧
      powerHeightGain r field rest body = some (r.apply extension, after) := by
  obtain ⟨rfl, hfills⟩ := Layout.take?_eq_some_iff.mp htake
  obtain ⟨a, b, c, d, hdigits, ha, hb, hc, hd⟩ := exists_of_fills_phgLayout hfills
  rw [Extension.takePhg?, htake, powerHeightGain, Option.map_some]
  cases hrate : Extension.rateLayout.take? rest with
  | some result =>
    obtain ⟨rate, after⟩ := result
    obtain ⟨rfl, _⟩ := Layout.take?_eq_some_iff.mp hrate
    have hafter : dropBytes? (field ++ rate).byteLength (field ++ (rate ++ after)) =
        some after := by
      rw [← List.append_assoc]
      exact dropBytes?_append rfl after
    dsimp only
    rw [Option.map_some, Option.getD_some, hdigits, describe_eq_some ha hb hc hd, hafter]
    rw [hrate]
    exact ⟨_, _, rfl, rfl⟩
  | none =>
    have hafter : dropBytes? (field ++ []).byteLength (field ++ rest) = some rest := by
      rw [List.append_nil]
      exact dropBytes?_append rfl rest
    dsimp only
    rw [Option.map_none, Option.getD_none, hdigits, describe_eq_some ha hb hc hd, hafter]
    rw [hrate]
    exact ⟨_, _, rfl, rfl⟩

theorem dataExtension_eq_some (r : Readings) (body : Text) :
    dataExtension r body =
      some (Record.applied r (Extension.split body).1, (Extension.split body).2) := by
  rw [dataExtension, Extension.split, Extension.take?]
  cases hcourse : Extension.courseSpeedLayout.take? body with
  | some result =>
    obtain ⟨extension, after, htaken, hsliced⟩ := courseSpeed_eq_some r hcourse
    rw [htaken]
    exact hsliced
  | none =>
    rw [Extension.takeCourseSpeed?, hcourse]
    cases hphg : Extension.phgLayout.take? body with
    | some result =>
      obtain ⟨extension, after, htaken, hsliced⟩ := powerHeightGain_eq_some r hphg
      rw [htaken]
      exact hsliced
    | none =>
      rw [Extension.takePhg?, hphg, Extension.takeRange?]
      cases hrange : Extension.rangeLayout.take? body with
      | some result =>
        obtain ⟨field, rest⟩ := result
        have hrest : body.dropBytes? 7 = some rest :=
          Layout.dropBytes?_of_take? isAscii_rangeLayout hrange
        dsimp only
        rw [hrest]
        rfl
      | none => rfl

theorem offsets_eq_some {tag : Dao} (hlatitude : between ' ' '\x7b' tag.latitude = true)
    (hlongitude : between ' ' '\x7b' tag.longitude = true) :
    offsets tag.datum [tag.latitude, tag.longitude] = some tag.offsets := by
  have hdigits : IsAscii [tag.latitude, tag.longitude] :=
    isAscii_cons.mpr ⟨isAscii_of_between (by decide) hlatitude,
      isAscii_cons.mpr ⟨isAscii_of_between (by decide) hlongitude, isAscii_nil⟩⟩
  have hall : (Text.bytes [tag.latitude, tag.longitude]).all isDigitByte =
      (tag.latitude.isDigit && tag.longitude.isDigit) := by
    rw [hdigits.bytes, all_isDigitByte hdigits, List.all_cons, List.all_cons, List.all_nil,
      Bool.and_true]
  rw [offsets, Dao.offsets, hall]
  by_cases hdecimal : tag.datum = 'W' ∧ tag.latitude.isDigit ∧ tag.longitude.isDigit
  · obtain ⟨hdatum, hfirst, hsecond⟩ := hdecimal
    have hlat : digitAt (Text.bytes [tag.latitude, tag.longitude]) 0 =
        some (digitValue tag.latitude) := by
      rw [hdigits.bytes]
      exact digitAt_of_isDigit hfirst rfl
    have hlon : digitAt (Text.bytes [tag.latitude, tag.longitude]) 1 =
        some (digitValue tag.longitude) := by
      rw [hdigits.bytes]
      exact digitAt_of_isDigit hsecond rfl
    simp [hdatum, hfirst, hsecond, hlat, hlon, Dao.ofDecimalDigit]
  · have htake : takeBytes? 1 [tag.latitude, tag.longitude] = some [tag.latitude] :=
      hdigits.takeBytes?_eq_some (by simp)
    have hdrop : dropBytes? 1 [tag.latitude, tag.longitude] = some [tag.longitude] :=
      hdigits.dropBytes?_eq_some (by simp)
    have hrun : ∀ t, (base91 t).run = some (Base91.decode t) := comesTo_base91
    have hblank : ' ' ∉ [tag.latitude, tag.longitude] ↔
        tag.latitude ≠ ' ' ∧ tag.longitude ≠ ' ' := by
      simp [eq_comm]
    rw [if_neg hdecimal, if_neg (by simpa using hdecimal)]
    by_cases hbase91 : tag.datum = 'w' ∧ tag.latitude ≠ ' ' ∧ tag.longitude ≠ ' '
    · rw [if_pos hbase91, if_pos ⟨hbase91.1, hblank.mpr hbase91.2⟩]
      simp [htake, hdrop, hrun, Dao.ofBase91Digit]
    · rw [if_neg hbase91, if_neg fun h => hbase91 ⟨h.1, hblank.mp h.2⟩]

theorem dao_eq_some (latitude longitude : Quantity) (t : Text) :
    dao latitude longitude t =
      some ((Dao.split t).1.map fun tag => tag.datum.toUpper,
        (Dao.refined (Dao.split t).1 latitude longitude).1,
        (Dao.refined (Dao.split t).1 latitude longitude).2, (Dao.split t).2) := by
  rw [dao, Dao.split]
  split
  · cases htag : rightmost? Dao.take? t with
    | none => rfl
    | some found =>
      obtain ⟨before, tag, after⟩ := found
      obtain ⟨rest, rfl, htake⟩ := rightmost?_eq_some htag
      obtain ⟨_, hlatitude, hlongitude⟩ := Dao.take?_eq_some htake
      dsimp only
      rw [offsets_eq_some hlatitude hlongitude]
      rfl
  · rfl

theorem numbers_eq_some (t : Text) : numbers t = some (Telemetry.numbers t) := by
  induction t using numbers.induct with
  | case1 a b rest ih =>
    have hrun : (base91 [a, b]).run = some (Base91.decode [a, b]) := comesTo_base91 _
    rw [numbers, Telemetry.numbers, hrun, ih]
    rfl
  | case2 t hshort =>
    rw [numbers, Telemetry.numbers]
    · exact hshort
    · exact hshort

theorem telemetry_eq_some (t : Text) : telemetry t = some (Telemetry.split t) := by
  rw [telemetry, Telemetry.split]
  split
  · cases leftmost? Telemetry.takeBlock? t with
    | none => rfl
    | some found =>
      obtain ⟨before, digits, after⟩ := found
      dsimp only
      rw [numbers_eq_some]
      split <;> rfl
  · rfl

end Extensions

section Weather

open Weather

def spellOutWind (body : Text) : Option Text :=
  match windLayout.take? body with
  | some (field, _) => do
    return 'c' :: field.take 3 ++ 'S' :: field.drop 4 ++ (← body.dropBytes? 7)
  | none =>
    if body.head? = some 'c' ∧ body.sliceBytes? 4 5 = some ['s'] then do
      return (← body.takeBytes? 4) ++ 'S' :: (← body.dropBytes? 5)
    else some body

def store (w : Weather Quantity) (key value : Text) : Weather Quantity :=
  match Decimal.parse? value, key with
  | some number, [c] => w.store c number
  | _, _ => w

/-- Takes tokens while there are any. -/
def tokensUpTo : Nat → Weather Quantity → Text → Option (Weather Quantity × Text)
  | 0, w, t => some (w, t)
  | fuel + 1, w, t =>
    match Token.take? t with
    | some (token, _) => do
      let rest ← t.dropBytes? token.text.byteLength
      if !token.isWellFormed then tokensUpTo fuel w rest
      else
        let (key, value) ← token.text.splitAtByte? 1
        tokensUpTo fuel (store w key value) rest
    | none => some (w, t)

def weather (body : Text) : Option (Option (Weather Quantity) × Text) := do
  let body ← spellOutWind body
  let (w, rest) ← tokensUpTo body.length {} body
  return (if w.isEmpty then none else some w, rest)

def weatherReport (now : Int) (body : Text) : Run DecodeError WeatherReport :=
  match WeatherReport.required.take? body with
  | none => throw .invalidWeather
  | some (field, _) => do
    let digits := field.take 8
    let epoch ← monthDay now digits
    let (found, rest) ← weather (← body.dropBytes? 8)
    return ⟨digits, epoch, found, trimSpaces rest⟩

theorem spellOutWind_eq_some (body : Text) :
    spellOutWind body = some (Weather.spellOutWind body) := by
  have hdigits := Layout.isAscii_columns (fun c => isAscii_of_isDigit) 3
  have hwind : windLayout.IsAscii := by
    simp only [windLayout, Layout.isAscii_append]
    exact ⟨⟨hdigits, Layout.isAscii_exactly (by decide)⟩, hdigits⟩
  rw [spellOutWind, Weather.spellOutWind]
  cases htake : windLayout.take? body with
  | some result =>
    obtain ⟨field, rest⟩ := result
    have hrest : body.dropBytes? 7 = some rest := Layout.dropBytes?_of_take? hwind htake
    dsimp only
    rw [hrest]
    rfl
  | none =>
    dsimp only
    split
    · next hspeed =>
      obtain ⟨hhead, hslice⟩ := hspeed
      obtain ⟨before, after, rfl, hbefore⟩ := (sliceBytes?_eq_some_iff (by decide)).mp hslice
      have hfive : byteLength (before ++ ['s']) = 5 := by
        rw [byteLength_append, hbefore]
        rfl
      have hdrop : dropBytes? 5 (before ++ 's' :: after) = some after := by
        rw [List.append_cons]
        exact dropBytes?_append hfive after
      rw [hhead, splitAtByte?_eq_some_iff.mpr ⟨rfl, hbefore⟩, takeBytes?_append hbefore, hdrop]
      rfl
    · next hspeed =>
      split
      · next before after hhead hsplit =>
        obtain ⟨rfl, hbefore⟩ := splitAtByte?_eq_some_iff.mp hsplit
        exact absurd ⟨hhead, (sliceBytes?_eq_some_iff (by decide)).mpr
          ⟨before, after, rfl, hbefore⟩⟩ hspeed
      · rfl

theorem isAscii_key {token : Token} (h : Token.IsToken token.text) : token.key.toNat < 128 := by
  obtain ⟨layout, hlayout, hfills⟩ := h
  simp only [Token.layouts, List.mem_cons, List.not_mem_nil, or_false] at hlayout
  rcases hlayout with rfl | rfl | rfl
  · have hkey : Token.isKey token.key = true := hfills.1
    simp only [Token.isKey, Bool.or_eq_true, beq_iff_eq, or_assoc] at hkey
    rcases hkey with h | h | h | h | h | h | h | h | h | h | h <;> rw [h] <;> decide
  · rw [show token.key = 'h' from eq_of_beq hfills.1]
    decide
  · rw [show token.key = 'b' from eq_of_beq hfills.1]
    decide

theorem tokensUpTo_eq_some (fuel : Nat) (w : Weather Quantity) (t : Text) :
    tokensUpTo fuel w t =
      some ((Weather.tokensUpTo fuel t).1.foldl Weather.apply w,
        (Weather.tokensUpTo fuel t).2) := by
  induction fuel generalizing w t with
  | zero => rfl
  | succ fuel ih =>
    rw [tokensUpTo, Weather.tokensUpTo]
    cases htake : Token.take? t with
    | none => rfl
    | some result =>
      obtain ⟨token, rest⟩ := result
      obtain ⟨rfl, htoken⟩ := Token.take?_eq_some_iff.mp htake
      have hkey : byteLength [token.key] = 1 :=
        IsAscii.byteLength (isAscii_cons.mpr ⟨isAscii_key htoken, isAscii_nil⟩)
      have hsplit : token.text.splitAtByte? 1 = some ([token.key], token.value) :=
        splitAtByte?_eq_some_iff.mpr ⟨rfl, hkey⟩
      have hstore : store w [token.key] token.value =
          (Decimal.parse? token.value).elim w (w.store token.key) := by
        unfold store
        cases Decimal.parse? token.value <;> rfl
      dsimp only
      rw [dropBytes?_append rfl rest, hsplit]
      simp only [Option.bind_eq_bind, Option.bind_some, List.foldl_cons, hstore, ih]
      rw [Weather.apply]
      cases token.isWellFormed with
      | false => rfl
      | true => cases Decimal.parse? token.value <;> rfl

theorem weather_eq_some (body : Text) : weather body = some (Weather.split body) := by
  rw [weather, spellOutWind_eq_some, Option.bind_eq_bind, Option.bind_some, tokensUpTo_eq_some]
  rfl

theorem isAscii_required : WeatherReport.required.IsAscii := by
  have hdigits := Layout.isAscii_columns (fun c => isAscii_of_isDigit) 8
  have hcolumns := Layout.isAscii_columns (fun c => isAscii_of_isDigitOrFiller) 3
  have hletter : ∀ c ∈ ['c', 's', 'g', 't'], (Layout.exactly c).IsAscii := by
    simp [Layout.isAscii_exactly]
  simp only [WeatherReport.required, Layout.isAscii_append]
  exact ⟨⟨⟨⟨⟨⟨⟨⟨hdigits, hletter _ (by simp)⟩, hcolumns⟩, hletter _ (by simp)⟩, hcolumns⟩,
    hletter _ (by simp)⟩, hcolumns⟩, hletter _ (by simp)⟩, hcolumns⟩

theorem comesTo_weatherReport (now : Int) (body : Text) :
    (weatherReport now body).ComesTo
      ((WeatherReport.decode? now body).elim (.error .invalidWeather) .ok) := by
  rw [weatherReport, WeatherReport.decode?]
  cases htake : WeatherReport.required.take? body with
  | none => exact Run.comesTo_throw _
  | some result =>
    obtain ⟨field, rest⟩ := result
    obtain ⟨rfl, hfills⟩ := Layout.take?_eq_some_iff.mp htake
    have hascii : IsAscii field := hfills.isAscii isAscii_required
    have hlength : field.length = 24 := Layout.length_eq_of_fills hfills
    refine Run.ComesTo.lift_bind (monthDay_eq_some now _) ?_
    refine Run.ComesTo.lift_bind (hascii.dropBytes?_append (by omega) rest) ?_
    refine Run.ComesTo.lift_bind (weather_eq_some _) ?_
    exact Run.comesTo_pure _

end Weather

end Aprs.Sliced
