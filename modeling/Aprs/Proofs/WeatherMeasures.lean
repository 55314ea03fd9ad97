import Aprs.Proofs.ExactValues
import Aprs.Proofs.WeatherText

/-!
What the tokens of a weather report come to. Each token tells one measure, or none if its columns
are fillers, and the last token that tells a measure is the one that counts.
-/

namespace Aprs.Weather

open Token

variable {t before after rest direction speed : Text} {token : Token} {found : List Token}

/-- What a station can measure. -/
inductive Measure where
  | windDirection
  | windSpeed
  | windGust
  | temperature
  | rain1h
  | rain24h
  | rainSinceMidnight
  | humidity
  | pressure
  | luminosity
  | snow
  | rainRaw
  deriving DecidableEq, Repr

def measured {N : Type} (w : Weather N) : Measure → Option N
  | .windDirection => w.windDirection
  | .windSpeed => w.windSpeed
  | .windGust => w.windGust
  | .temperature => w.temperature
  | .rain1h => w.rain1h
  | .rain24h => w.rain24h
  | .rainSinceMidnight => w.rainSinceMidnight
  | .humidity => w.humidity
  | .pressure => w.pressure
  | .luminosity => w.luminosity
  | .snow => w.snow
  | .rainRaw => w.rainRaw

namespace Measure

/-- Every measure has a key of its own, but the luminosity has two. -/
def ofKey? : Char → Option Measure
  | 'c' => some windDirection
  | 'S' => some windSpeed
  | 'g' => some windGust
  | 't' => some temperature
  | 'r' => some rain1h
  | 'p' => some rain24h
  | 'P' => some rainSinceMidnight
  | 'h' => some humidity
  | 'b' => some pressure
  | 'l' => some luminosity
  | 'L' => some luminosity
  | 's' => some snow
  | '#' => some rainRaw
  | _ => none

end Measure

/-- The number behind a key in the unit of its measure. -/
def converted (key : Char) (value : Decimal) : Quantity :=
  let n := Quantity.decimal value
  match key with
  | 'S' | 'g' => n * .scaled 44704 5
  | 't' => (n - 32) / .scaled 18 1
  | 'r' | 'p' | 'P' => n * .scaled 254 3
  | 'h' => if value.digits = 0 then 100 else n
  | 'b' => n / 10
  | 'l' => n + 1000
  | 's' => n * .scaled 254 1
  | _ => n

theorem measured_store (w : Weather Quantity) (key : Char) (value : Decimal) (m : Measure) :
    (w.store key value).measured m =
      if Measure.ofKey? key = some m then some (converted key value) else w.measured m := by
  unfold store
  split <;> cases m <;>
    simp_all [Measure.ofKey?, converted, measured, metresPerSecond, celsius, millimetres]

theorem isEmpty_iff (w : Weather Quantity) : w.isEmpty = true ↔ ∀ m, w.measured m = none := by
  constructor
  · intro h m
    simp only [isEmpty, Bool.and_eq_true, Option.isNone_iff_eq_none] at h
    cases m <;> simp [measured, h]
  · intro h
    simp only [isEmpty, Bool.and_eq_true, Option.isNone_iff_eq_none]
    exact ⟨⟨⟨⟨⟨⟨⟨⟨⟨⟨⟨h .windDirection, h .windSpeed⟩, h .windGust⟩, h .temperature⟩, h .rain1h⟩,
      h .rain24h⟩, h .rainSinceMidnight⟩, h .humidity⟩, h .pressure⟩, h .luminosity⟩, h .snow⟩,
      h .rainRaw⟩

namespace Token

/-- A token with a value in place of its columns. -/
def Tells (token : Token) (m : Measure) : Prop :=
  token.isWellFormed = true ∧ Measure.ofKey? token.key = some m

theorem exists_parse?_of_digits {n : Nat} {t : Text} (hn : n ≠ 0)
    (h : Layout.Fills (digits n) t) : ∃ value, Decimal.parse? t = some value := by
  obtain ⟨hlength, hdigits⟩ := Layout.fills_columns_iff.mp h
  refine ⟨_, Decimal.parse?_digits ?_ hdigits⟩
  rintro rfl
  exact hn hlength.symm

theorem exists_parse?_of_point {m n : Nat} {whole fraction : Text} (hn : n ≠ 0)
    (hwhole : Layout.Fills (digits m) whole) (hfraction : Layout.Fills (digits n) fraction) :
    ∃ value, Decimal.parse? (whole ++ '.' :: fraction) = some value := by
  obtain ⟨-, hwhole⟩ := Layout.fills_columns_iff.mp hwhole
  obtain ⟨hlength, hfraction⟩ := Layout.fills_columns_iff.mp hfraction
  refine ⟨_, Decimal.parse?_point ?_ hwhole hfraction⟩
  rintro rfl
  exact hn hlength.symm

/-- All that a value may look like is a numeral. -/
theorem exists_parse?_of_isWellFormed (h : token.isWellFormed = true) :
    ∃ value, Decimal.parse? token.value = some value := by
  simp only [isWellFormed, Bool.or_eq_true, Bool.and_eq_true, Layout.fits_iff] at h
  obtain ((((⟨-, h⟩ | ⟨-, h⟩) | ⟨-, h⟩) | ⟨-, h⟩) | ⟨-, h⟩) | ⟨-, h⟩ := h
  · exact exists_parse?_of_digits (by decide) h
  · obtain ⟨minus, t, hvalue, hminus, ht⟩ := Layout.fills_append_iff.mp h
    obtain ⟨hlength, hdigits⟩ := Layout.fills_columns_iff.mp ht
    have hne : t ≠ [] := by
      rintro rfl
      cases hlength
    rw [hvalue, Layout.fills_exactly_iff.mp hminus]
    exact ⟨_, Decimal.parseUnsigned?_digits true hne hdigits⟩
  · exact exists_parse?_of_digits (by decide) h
  · exact exists_parse?_of_digits (by decide) h
  · obtain ⟨point, fraction, hvalue, hpoint, hfraction⟩ := Layout.fills_append_iff.mp h
    rw [hvalue, Layout.fills_exactly_iff.mp hpoint]
    exact exists_parse?_of_point (by decide) (show Layout.Fills (digits 0) [] from trivial)
      hfraction
  · obtain ⟨head, fraction, hvalue, hhead, hfraction⟩ := Layout.fills_append_iff.mp h
    obtain ⟨whole, point, rfl, hwhole, hpoint⟩ := Layout.fills_append_iff.mp hhead
    rw [hvalue, Layout.fills_exactly_iff.mp hpoint, List.append_assoc]
    exact exists_parse?_of_point (by decide) hwhole hfraction

end Token

/-- What a token does to the measure that it tells. -/
theorem measured_apply {m : Measure} (w : Weather Quantity) (h : token.Tells m) :
    ∃ value, Decimal.parse? token.value = some value ∧
      (w.apply token).measured m = some (converted token.key value) := by
  obtain ⟨hformed, hkey⟩ := h
  obtain ⟨value, hvalue⟩ := exists_parse?_of_isWellFormed hformed
  refine ⟨value, hvalue, ?_⟩
  rw [apply, if_pos hformed, hvalue]
  dsimp only
  rw [measured_store, if_pos hkey]

/-- All other measures stay as they are. -/
theorem measured_apply_of_not_tells {m : Measure} (w : Weather Quantity) (h : ¬token.Tells m) :
    (w.apply token).measured m = w.measured m := by
  unfold apply
  by_cases hformed : token.isWellFormed = true
  · rw [if_pos hformed]
    cases hvalue : Decimal.parse? token.value with
    | none => rfl
    | some value =>
      dsimp only
      rw [measured_store, if_neg fun hkey => h ⟨hformed, hkey⟩]
  · rw [if_neg hformed]

/-- The reading of a measure is the value of the last token that tells it. -/
inductive Reads (m : Measure) : List Token → Option Quantity → Prop
  | absent {found : List Token} : (∀ token ∈ found, ¬token.Tells m) → Reads m found none
  | last {before after : List Token} {token : Token} {value : Decimal} :
      token.Tells m → (∀ later ∈ after, ¬later.Tells m) →
      Decimal.parse? token.value = some value →
      Reads m (before ++ token :: after) (some (converted token.key value))

theorem Reads.append_of_not_tells {m : Measure} {reading : Option Quantity}
    (h : Reads m found reading) (hnot : ¬token.Tells m) : Reads m (found ++ [token]) reading := by
  cases h with
  | absent hnone =>
    exact .absent (List.forall_mem_append.mpr ⟨hnone, List.forall_mem_singleton.mpr hnot⟩)
  | last htells hlater hvalue =>
    rw [List.append_assoc, List.cons_append]
    exact .last htells (List.forall_mem_append.mpr ⟨hlater, List.forall_mem_singleton.mpr hnot⟩)
      hvalue

/-- Tokens are taken in as they come, so the induction adds them at the end. -/
theorem reads_foldl (m : Measure) (found : List Token) :
    Reads m found ((found.foldl apply {}).measured m) := by
  induction found using List.reverseRecOn with
  | nil =>
    cases m <;> exact .absent (List.forall_mem_nil _)
  | append_singleton found token ih =>
    rw [List.foldl_append, List.foldl_cons, List.foldl_nil]
    by_cases htells : token.Tells m
    · obtain ⟨value, hvalue, hmeasured⟩ := measured_apply (found.foldl apply {}) htells
      rw [hmeasured]
      exact .last htells (List.forall_mem_nil _) hvalue
    · rw [measured_apply_of_not_tells _ htells]
      exact ih.append_of_not_tells htells

/-- A text read as tokens with a rest behind them. A report without any reading is none. -/
structure Reported (t : Text) (found : List Token) (rest : Text) : Prop where
  rest_eq : (split t).2 = rest
  reads : ∀ m, Reads m found ((split t).1.bind fun w => w.measured m)
  present : ∀ w, (split t).1 = some w → ∃ m, (w.measured m).isSome = true

theorem reported_of_run {u : Text} (hspell : spellOutWind t = u) (hrun : Run u found rest) :
    Reported t found rest := by
  have hsplit : split t =
      (if (found.foldl apply {}).isEmpty then none else some (found.foldl apply {}), rest) := by
    rw [split, hspell, tokens_eq hrun]
  by_cases hempty : (found.foldl apply {}).isEmpty = true
  · rw [if_pos hempty] at hsplit
    rw [isEmpty_iff] at hempty
    refine ⟨congrArg Prod.snd hsplit, fun m => ?_, fun w hw => ?_⟩
    · rw [hsplit]
      have hreads := reads_foldl m found
      rwa [hempty m] at hreads
    · rw [hsplit] at hw
      cases hw
  · rw [if_neg hempty] at hsplit
    refine ⟨congrArg Prod.snd hsplit, fun m => ?_, fun w hw => ?_⟩
    · rw [hsplit]
      exact reads_foldl m found
    · rw [hsplit] at hw
      cases hw
      rw [isEmpty_iff, not_forall] at hempty
      obtain ⟨m, hm⟩ := hempty
      exact ⟨m, Option.isSome_iff_ne_none.mpr hm⟩

section Wind

theorem spellOutWind_of_speeds (h : Speeds t before after) :
    spellOutWind t = before ++ 'S' :: after := by
  obtain ⟨_, _, _, -, -, -, hnone, -⟩ | ⟨before', after', h', hspell⟩ | ⟨hnone, -⟩ :=
    spellOutWind_cases t
  · exact absurd h (hnone _ _)
  · obtain ⟨rfl, rfl⟩ := h.unique h'
    exact hspell
  · exact absurd h (hnone _ _)

theorem spellOutWind_eq_self (hwind : windLayout.take? t = none)
    (hspeeds : ∀ before after, ¬Speeds t before after) : spellOutWind t = t := by
  obtain ⟨_, _, rest, rfl, hdirection, hspeed, -⟩ | ⟨before, after, h, -⟩ | ⟨-, hspell⟩ :=
    spellOutWind_cases t
  · rw [take?_windLayout hdirection hspeed] at hwind
    cases hwind
  · exact absurd h (hspeeds before after)
  · exact hspell

theorem byteLength_of_isToken (h : IsToken ('c' :: direction)) :
    Text.byteLength ('c' :: direction) = 4 := by
  obtain ⟨hlength, hcolumns⟩ := Layout.fills_columns_iff.mp ((isToken_cons_iff rfl).mp h)
  rw [Text.byteLength_eq_length, List.length_cons, hlength]
  exact List.forall_mem_cons.mpr ⟨by decide, fun c hc => isAscii_of_isColumn (hcolumns c hc)⟩

/-- A wind that is spelled out already stays as it is. -/
theorem spellOutWind_capital (h : IsToken ('c' :: direction)) (speed t : Text) :
    spellOutWind ('c' :: direction ++ 'S' :: speed ++ t) =
      'c' :: direction ++ 'S' :: speed ++ t := by
  apply spellOutWind_eq_self
  · rfl
  · intro before after hspeeds
    have hsplit := Text.splitAtByte?_eq_some_iff.mpr ⟨hspeeds.text_eq, hspeeds.byteLength⟩
    rw [← byteLength_of_isToken h, List.append_assoc, Text.splitAtByte?_append] at hsplit
    cases hsplit

theorem spellOutWind_small (h : IsToken ('c' :: direction)) (speed t : Text) :
    spellOutWind ('c' :: direction ++ 's' :: speed ++ t) =
      'c' :: direction ++ 'S' :: speed ++ t := by
  have hspeeds : Speeds ('c' :: direction ++ 's' :: speed ++ t) ('c' :: direction)
      (speed ++ t) := ⟨by simp, rfl, byteLength_of_isToken h⟩
  rw [spellOutWind_of_speeds hspeeds, List.append_assoc]
  rfl

/-- Two texts with the same spelling are split alike. -/
theorem split_eq_of_spellOutWind {u : Text} (hspell : spellOutWind t = u)
    (hself : spellOutWind u = u) : split t = split u := by
  rw [split, split, hspell, hself]

end Wind

/-- Tokens are taken off a text up to the first place where none begins, whatever they say. A
direction and a speed in front of them are two tokens more, in either spelling. -/
theorem split_tokens {told : List Token} (htokens : ∀ token ∈ told, IsToken token.text)
    (hrest : take? rest = none) :
    let t := (told.map text).flatten ++ rest
    (windLayout.take? t = none → (∀ before after, ¬Speeds t before after) →
        Reported t told rest) ∧
      (∀ direction speed, Layout.Fills (Layout.columns 3 Char.isDigit) direction →
        Layout.Fills (Layout.columns 3 Char.isDigit) speed →
        split (direction ++ '/' :: speed ++ t) = split ('c' :: direction ++ 'S' :: speed ++ t) ∧
        Reported (direction ++ '/' :: speed ++ t) (⟨'c', direction⟩ :: ⟨'S', speed⟩ :: told)
          rest) ∧
      ∀ direction speed, IsToken ('c' :: direction) → IsToken ('s' :: speed) →
        split ('c' :: direction ++ 's' :: speed ++ t) =
          split ('c' :: direction ++ 'S' :: speed ++ t) ∧
        Reported ('c' :: direction ++ 's' :: speed ++ t)
          (⟨'c', direction⟩ :: ⟨'S', speed⟩ :: told) rest := by
  intro t
  have hrun : Run t told rest := ⟨rfl, htokens, hrest⟩
  refine ⟨fun hwind hspeeds => reported_of_run (spellOutWind_eq_self hwind hspeeds) hrun,
    fun direction speed hdirection hspeed => ?_, fun direction speed hdirection hspeed => ?_⟩
  · have hspell := spellOutWind_append hdirection hspeed t
    have hdirection := isToken_cons_of_isDigit (show isKey 'c' = true from rfl) hdirection
    have hspeed := isToken_cons_of_isDigit (show isKey 'S' = true from rfl) hspeed
    exact ⟨split_eq_of_spellOutWind hspell (spellOutWind_capital hdirection speed t),
      reported_of_run hspell (hrun.wind hdirection hspeed)⟩
  · have hspell := spellOutWind_small hdirection speed t
    have hcapital : IsToken ('S' :: speed) :=
      (isToken_cons_iff rfl).mpr ((isToken_cons_iff rfl).mp hspeed)
    exact ⟨split_eq_of_spellOutWind hspell (spellOutWind_capital hdirection speed t),
      reported_of_run hspell (hrun.wind hdirection hcapital)⟩

/-- Fillers, a temperature told twice, both keys of the luminosity, and a wind in front. -/
theorem split_tokens_told_twice :
    let told : List Token := [⟨'t', "050".toList⟩, ⟨'g', "...".toList⟩, ⟨'L', "123".toList⟩,
      ⟨'l', "050".toList⟩, ⟨'t', "-05".toList⟩, ⟨'h', "00".toList⟩]
    let t := "t050g...L123l050t-05h00 station".toList
    (∀ token ∈ told, IsToken token.text) ∧ take? " station".toList = none ∧
      windLayout.take? t = none ∧ (∀ before after, ¬Speeds t before after) ∧
      Reported t told " station".toList ∧
      Reported ("090/010".toList ++ t) (⟨'c', "090".toList⟩ :: ⟨'S', "010".toList⟩ :: told)
        " station".toList ∧
      Reported ("c...s010".toList ++ t) (⟨'c', "...".toList⟩ :: ⟨'S', "010".toList⟩ :: told)
        " station".toList := by
  intro told t
  have htokens : ∀ token ∈ told, IsToken token.text := by
    have hall : ∀ token ∈ told, ∃ layout ∈ layouts, layout.fits token.text = true := by decide
    intro token htoken
    obtain ⟨layout, hlayout, hfits⟩ := hall token htoken
    exact ⟨layout, hlayout, Layout.fits_iff.mp hfits⟩
  have hrest : take? " station".toList = none := by decide
  have hspeeds : ∀ before after, ¬Speeds t before after := by
    intro before after h
    have hhead : t.head? = some 'c' := by
      rw [h.text_eq, List.head?_append, h.head?]
      rfl
    exact absurd hhead (by decide)
  obtain ⟨hplain, hdigits, hletters⟩ := split_tokens htokens hrest
  exact ⟨htokens, hrest, rfl, hspeeds, hplain rfl hspeeds,
    (hdigits "090".toList "010".toList (Layout.fits_iff.mp rfl) (Layout.fits_iff.mp rfl)).2,
    (hletters "...".toList "010".toList ((isToken_cons_iff rfl).mpr (Layout.fits_iff.mp rfl))
      ((isToken_cons_iff rfl).mpr (Layout.fits_iff.mp rfl))).2⟩

end Aprs.Weather
