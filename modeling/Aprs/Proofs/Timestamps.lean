import Aprs.Proofs.CivilCalendar
import Aprs.Proofs.ExactValues
import Aprs.Proofs.SlicedFields

/-!
What timestamps tell. Six digits are three pairs, and with a form that is known they name a time of
today or a day and an hour of this month, as calendar and clock have them; eight digits are month,
day, hour and minute of this year, and later instants have later digits. What names no instant tells
zero.
-/

namespace Aprs

namespace Timestamp

open Calendar Sliced

variable {now first : Int} {today : Date} {a b c : Nat} {form : Char}
  {body digits digits' rest : Text} {t : Timestamp}

section Pairs

/-- A number below a hundred in two digits. -/
def twoDigits (n : Nat) : Text := [Nat.digitChar (n / 10), Nat.digitChar (n % 10)]

theorem natOfDigits_pair (tens units : Char) :
    Text.natOfDigits [tens, units] = 10 * Text.digitValue tens + Text.digitValue units := by
  simp [Text.natOfDigits]

theorem twoDigits_spec {n : Nat} (h : n < 100) :
    (∀ c ∈ twoDigits n, c.isDigit = true) ∧ Text.natOfDigits (twoDigits n) = n := by
  have hdigit : ∀ d < 10, (Nat.digitChar d).isDigit = true ∧
      Text.digitValue (Nat.digitChar d) = d := by decide
  obtain ⟨htens, htensValue⟩ := hdigit (n / 10) (by omega)
  obtain ⟨hunits, hunitsValue⟩ := hdigit (n % 10) (by omega)
  constructor
  · rw [twoDigits, List.forall_mem_cons, List.forall_mem_singleton]
    exact ⟨htens, hunits⟩
  · rw [twoDigits, natOfDigits_pair, htensValue, hunitsValue]
    omega

theorem exists_twoDigits {tens units : Char} (htens : tens.isDigit = true)
    (hunits : units.isDigit = true) : ∃ n < 100, [tens, units] = twoDigits n := by
  have hchar : ∀ {c : Char}, c.isDigit = true → c = Nat.digitChar (Text.digitValue c) := by
    intro c hc
    have hdigit : c.isDigit = true → c = Nat.digitChar (Text.digitValue c) :=
      Text.ascii_cases (isAscii_of_isDigit hc) (by decide)
    exact hdigit hc
  have hunit := Text.digitValue_lt hunits
  have hten := Text.digitValue_lt htens
  refine ⟨10 * Text.digitValue tens + Text.digitValue units, by omega, ?_⟩
  have hdiv : (10 * Text.digitValue tens + Text.digitValue units) / 10 = Text.digitValue tens := by
    omega
  have hmod : (10 * Text.digitValue tens + Text.digitValue units) % 10 = Text.digitValue units := by
    omega
  rw [twoDigits, hdiv, hmod, ← hchar htens, ← hchar hunits]

/-- Numbers below a hundred, each in two digits. -/
def inPairs (numbers : List Nat) : Text := numbers.flatMap twoDigits

theorem length_inPairs (numbers : List Nat) : (inPairs numbers).length = 2 * numbers.length := by
  induction numbers with
  | nil => rfl
  | cons n numbers ih =>
    rw [inPairs, List.flatMap_cons, List.length_append, ← inPairs, ih, List.length_cons]
    change 2 + _ = _
    omega

theorem isDigit_of_mem_inPairs {numbers : List Nat} (h : ∀ n ∈ numbers, n < 100) :
    ∀ c ∈ inPairs numbers, c.isDigit = true := by
  intro c hc
  obtain ⟨n, hn, hmem⟩ := List.mem_flatMap.mp hc
  exact (twoDigits_spec (h n hn)).1 c hmem

/-- An even number of digits is as many pairs. -/
theorem exists_inPairs (count : Nat) (hlength : digits.length = 2 * count)
    (h : ∀ c ∈ digits, c.isDigit = true) :
    ∃ numbers : List Nat, numbers.length = count ∧ (∀ n ∈ numbers, n < 100) ∧
      digits = inPairs numbers := by
  induction count generalizing digits with
  | zero => exact ⟨[], rfl, List.forall_mem_nil _, List.length_eq_zero_iff.mp hlength⟩
  | succ count ih =>
    obtain ⟨tens, digits, rfl⟩ :=
      List.exists_cons_of_length_eq_add_one (hlength.trans (Nat.mul_succ ..))
    obtain ⟨units, digits, rfl⟩ := List.exists_cons_of_length_eq_add_one (Nat.succ.inj hlength)
    rw [List.forall_mem_cons, List.forall_mem_cons] at h
    obtain ⟨numbers, hcount, hsmall, rfl⟩ :=
      ih (Nat.succ.inj (Nat.succ.inj hlength)) h.2.2
    obtain ⟨n, hn, hpair⟩ := exists_twoDigits h.1 h.2.1
    refine ⟨n :: numbers, by rw [List.length_cons, hcount],
      List.forall_mem_cons.mpr ⟨hn, hsmall⟩, ?_⟩
    change [tens, units] ++ inPairs numbers = twoDigits n ++ inPairs numbers
    rw [hpair]

theorem natOfDigits_inPairs_cons {n : Nat} (h : n < 100) (numbers : List Nat) :
    Text.natOfDigits (inPairs (n :: numbers)) =
      n * 100 ^ numbers.length + Text.natOfDigits (inPairs numbers) := by
  change Text.natOfDigits (twoDigits n ++ inPairs numbers) = _
  have hsquare : 10 ^ 2 = 100 := rfl
  rw [Text.natOfDigits_append, (twoDigits_spec h).2, length_inPairs, pow_mul, hsquare]

theorem pair_inPairs {numbers : List Nat} (h : ∀ n ∈ numbers, n < 100) {i : Nat}
    (hi : i < numbers.length) : pair (inPairs numbers) i = numbers[i] := by
  induction numbers generalizing i with
  | nil => exact absurd hi (Nat.not_lt_zero i)
  | cons n numbers ih =>
    rw [List.forall_mem_cons] at h
    cases i with
    | zero => exact (twoDigits_spec h.1).2
    | succ i => exact ih h.2 (Nat.lt_of_succ_lt_succ hi)

end Pairs

section Received

/-- What three pairs name by their form: a time of the day that began at `midnight`, or a day and an
hour of the month of so many days that began at `start`; zero if there is no such time or day. -/
def named (midnight start : Int) (days : Nat) (form : Char) (a b c : Nat) : Int :=
  if form = 'h' then
    if a < 24 ∧ b < 60 ∧ c < 60 then midnight + 3600 * a + 60 * b + c else 0
  else if form = 'z' ∨ form = '/' then
    if 1 ≤ a ∧ a ≤ days ∧ b < 24 then start + 86400 * ((a : Int) - 1) + 3600 * b else 0
  else 0

theorem getD_epoch? (date : Date) (hour minute second : Nat) :
    (epoch? date hour minute second).getD 0 =
      if date.isValid = true ∧ hour < 24 ∧ minute < 60 ∧ second < 60 then
        86400 * date.epochDay + 3600 * hour + 60 * minute + second
      else 0 := by
  rw [epoch?]
  split
  · rw [Option.getD_some, secondsPerDay]
    omega
  · rfl

theorem epochOf_inPairs (htoday : Falls (now / 86400) today)
    (hfirst : Falls first { today with day := 1 }) (ha : a < 100) (hb : b < 100) (hc : c < 100) :
    (epochOf now (inPairs [a, b, c]) form).getD 0 =
      named (86400 * (now / 86400)) (86400 * first) (monthLength today.year today.month)
        form a b c := by
  have hpair : ∀ i (hi : i < [a, b, c].length), pair (inPairs [a, b, c]) i = [a, b, c][i] :=
    fun i hi => pair_inPairs (by simp [ha, hb, hc]) hi
  have hdate : dateAt now = today := (falls_iff_eq_dateAt.mp htoday).symm
  obtain ⟨hvalid, hday⟩ := falls_iff.mp htoday
  obtain ⟨-, hfirstDay⟩ := falls_iff.mp hfirst
  have hdays : (epoch? { today with day := a } b 0 0).getD 0 =
      if 1 ≤ a ∧ a ≤ monthLength today.year today.month ∧ b < 24 then
        86400 * first + 86400 * ((a : Int) - 1) + 3600 * b else 0 := by
    rw [getD_epoch?, ← hfirstDay, Date.epochDay, Date.epochDay]
    refine if_congr ?_ ?_ rfl
    · rw [Date.isValid_iff]
      dsimp only
      omega
    · dsimp only
      omega
  unfold epochOf named
  rw [hdate, hpair 0 (by simp), hpair 1 (by simp), hpair 2 (by simp)]
  dsimp only [List.getElem_cons_zero, List.getElem_cons_succ]
  split
  · rw [if_pos rfl, getD_epoch?, hvalid, hday]
    simp only [true_and]
  · rw [if_neg (by decide), if_pos (.inl rfl), hdays]
  · rw [if_neg (by decide), if_pos (.inr rfl), hdays]
  · next hh hz hslash =>
    rw [if_neg hh, if_neg (not_or.mpr ⟨hz, hslash⟩)]
    rfl

/-- A timestamp is there if six bytes of digits are, and behind them a character that does not end
the line. -/
theorem isSome_take?_iff :
    (take? now body).isSome = true ↔
      7 ≤ body.bytes.length ∧ (∀ b ∈ body.bytes.take 6, 48 ≤ b ∧ b ≤ 57) ∧
        ∀ c ∈ body[6]?, c ≠ '\n' := by
  have hbyte : (∀ b ∈ body.bytes.take 6, 48 ≤ b ∧ b ≤ 57) ↔
      (body.bytes.take 6).all isDigitByte = true := by
    simp [isDigitByte]
  rw [take?, Option.isSome_map, Option.isSome_iff_exists, hbyte]
  constructor
  · rintro ⟨⟨raw, rest⟩, htake⟩
    obtain ⟨digits, form, rfl, rfl, hlength, hdigits, hform⟩ :=
      Layout.take?_columns_append_singleton_iff.mp htake
    have hascii : Text.IsAscii digits := fun c hc => isAscii_of_isDigit (hdigits c hc)
    refine ⟨?_, ?_, ?_⟩
    · have hle := Text.length_le_byteLength (digits ++ form :: rest)
      rw [Text.length_bytes]
      rw [List.length_append, List.length_cons] at hle
      omega
    · rw [Text.bytes_append, hascii.bytes,
        List.take_left' (by rw [List.length_map, hlength]), all_isDigitByte hascii,
        List.all_eq_true]
      exact hdigits
    · rw [List.getElem?_append_right hlength.le, hlength]
      rintro c hc
      cases hc
      exact bne_iff_ne.mp hform
  · rintro ⟨hlength, hdigits, hform⟩
    obtain ⟨digits, v, rfl, hsix, hall⟩ := exists_digits_of_bytes (by omega) hdigits
    have hascii : Text.IsAscii digits := fun c hc => isAscii_of_isDigit (hall c hc)
    cases v with
    | nil =>
      rw [List.append_nil, hascii.bytes, List.length_map, hsix] at hlength
      exact absurd hlength (by decide)
    | cons form rest =>
      have hsixth : form ∈ (digits ++ form :: rest)[6]? := by
        rw [List.getElem?_append_right hsix.le, hsix]
        rfl
      exact ⟨(digits ++ [form], rest), Layout.take?_columns_append_singleton_iff.mpr
        ⟨digits, form, rfl, rfl, hsix, hall, bne_iff_ne.mpr (hform form hsixth)⟩⟩

/-- The layout takes three pairs and the form, and nothing is lost. -/
theorem take?_layout_iff {raw : Text} :
    layout.take? body = some (raw, rest) ↔
      ∃ a < 100, ∃ b < 100, ∃ c < 100, ∃ form, form ≠ '\n' ∧ raw = inPairs [a, b, c] ++ [form] ∧
        body = raw ++ rest := by
  constructor
  · intro h
    obtain ⟨digits, form, rfl, rfl, hlength, hdigits, hform⟩ :=
      Layout.take?_columns_append_singleton_iff.mp h
    obtain ⟨numbers, hcount, hsmall, rfl⟩ := exists_inPairs 3 hlength hdigits
    obtain ⟨a, b, c, rfl⟩ := List.length_eq_three.mp hcount
    simp only [List.forall_mem_cons] at hsmall
    exact ⟨a, hsmall.1, b, hsmall.2.1, c, hsmall.2.2.1, form, bne_iff_ne.mp hform, rfl, by simp⟩
  · rintro ⟨a, ha, b, hb, c, hc, form, hform, rfl, rfl⟩
    exact Layout.take?_columns_append_singleton_iff.mpr ⟨inPairs [a, b, c], form, rfl, by simp, rfl,
      isDigit_of_mem_inPairs (by simp [ha, hb, hc]), bne_iff_ne.mpr hform⟩

theorem take?_eq_some_iff (htoday : Falls (now / 86400) today)
    (hfirst : Falls first { today with day := 1 }) :
    take? now body = some (t, rest) ↔
      ∃ a < 100, ∃ b < 100, ∃ c < 100, ∃ form, form ≠ '\n' ∧
        t.raw = twoDigits a ++ twoDigits b ++ twoDigits c ++ [form] ∧ body = t.raw ++ rest ∧
        t.epoch = named (86400 * (now / 86400)) (86400 * first)
          (monthLength today.year today.month) form a b c := by
  obtain ⟨raw, epoch⟩ := t
  rw [take?, Option.map_eq_some_iff]
  constructor
  · rintro ⟨⟨raw, rest⟩, htake, heq⟩
    obtain ⟨a, ha, b, hb, c, hc, form, hform, rfl, hbody⟩ := take?_layout_iff.mp htake
    cases heq
    exact ⟨a, ha, b, hb, c, hc, form, hform, rfl, hbody,
      epochOf_inPairs htoday hfirst ha hb hc⟩
  · rintro ⟨a, ha, b, hb, c, hc, form, hform, rfl, hbody, rfl⟩
    refine ⟨(inPairs [a, b, c] ++ [form], rest),
      take?_layout_iff.mpr ⟨a, ha, b, hb, c, hc, form, hform, rfl, hbody⟩, ?_⟩
    rw [← epochOf_inPairs htoday hfirst ha hb hc]
    rfl

/-- A timestamp is read off six digits and the character behind them, which is its form, and tells
the instant that they name: a time of today, or a day and an hour of this month. -/
theorem take?_named (now : Int) :
    ∃ today first, Falls (now / 86400) today ∧ Falls first { today with day := 1 } ∧
      ∀ body,
        ((take? now body).isSome = true ↔
          7 ≤ body.bytes.length ∧ (∀ b ∈ body.bytes.take 6, 48 ≤ b ∧ b ≤ 57) ∧
            ∀ c ∈ body[6]?, c ≠ '\n') ∧
        ∀ t rest, take? now body = some (t, rest) ↔
          ∃ a < 100, ∃ b < 100, ∃ c < 100, ∃ form, form ≠ '\n' ∧
            t.raw = twoDigits a ++ twoDigits b ++ twoDigits c ++ [form] ∧ body = t.raw ++ rest ∧
            t.epoch = named (86400 * (now / 86400)) (86400 * first)
              (monthLength today.year today.month) form a b c := by
  have htoday := falls_ofEpochDay (now / 86400)
  have hfirst := falls_epochDay (Date.isValid_first (falls_iff.mp htoday).1)
  exact ⟨_, _, htoday, hfirst, fun body => ⟨isSome_take?_iff, fun t rest =>
    take?_eq_some_iff htoday hfirst⟩⟩

/-- A leap day before 1970. -/
example :
    take? (-11670955200) "290559z!".toList = some (⟨"290559z".toList, -11670980400⟩, ['!']) := by
  decide

end Received

section MonthDay

/-- Eight digits that tell a month, a day that it has in the year, an hour and a minute. -/
structure IsMonthDay (year : Int) (digits : Text) (month day hour minute : Nat) : Prop where
  digits_eq : digits = twoDigits month ++ twoDigits day ++ twoDigits hour ++ twoDigits minute
  month_pos : 1 ≤ month
  month_le : month ≤ 12
  day_pos : 1 ≤ day
  day_le : day ≤ monthLength year month
  hour_lt : hour < 24
  minute_lt : minute < 60

variable {year : Int} {month day hour minute month' day' hour' minute' : Nat}

theorem IsMonthDay.digits_eq_inPairs (h : IsMonthDay year digits month day hour minute) :
    digits = inPairs [month, day, hour, minute] := by
  rw [h.digits_eq]
  simp [inPairs]

theorem IsMonthDay.lt_hundred (h : IsMonthDay year digits month day hour minute) :
    ∀ n ∈ [month, day, hour, minute], n < 100 := by
  have hmonth := h.month_le
  have hday := h.day_le.trans (monthLength_le year month)
  have hhour := h.hour_lt
  have hminute := h.minute_lt
  simp only [List.forall_mem_cons]
  exact ⟨by omega, by omega, by omega, by omega, List.forall_mem_nil _⟩

theorem monthDay_inPairs (htoday : Falls (now / 86400) today)
    (h : ∀ n ∈ [month, day, hour, minute], n < 100) :
    monthDay now (inPairs [month, day, hour, minute]) =
      (epoch? ⟨today.year, month, day⟩ hour minute 0).getD 0 := by
  have hfits : Layout.fits (Layout.columns 8 Char.isDigit)
      (inPairs [month, day, hour, minute]) = true :=
    Layout.fits_iff.mpr (Layout.fills_columns_iff.mpr ⟨rfl, isDigit_of_mem_inPairs h⟩)
  have hdate : dateAt now = today := (falls_iff_eq_dateAt.mp htoday).symm
  rw [monthDay, if_pos hfits, hdate, pair_inPairs h (i := 0) (by simp),
    pair_inPairs h (i := 1) (by simp), pair_inPairs h (i := 2) (by simp),
    pair_inPairs h (i := 3) (by simp)]
  rfl

theorem IsMonthDay.shows_iff (htoday : Falls (now / 86400) today)
    (h : IsMonthDay today.year digits month day hour minute) (instant : Int) :
    Shows instant ⟨today.year, month, day⟩ hour minute 0 ↔ instant = monthDay now digits := by
  have hvalid : (⟨today.year, month, day⟩ : Date).isValid = true :=
    Date.isValid_iff.mpr ⟨h.day_pos, h.day_le⟩
  obtain ⟨found, hfound⟩ : ∃ found, epoch? ⟨today.year, month, day⟩ hour minute 0 = some found :=
    ⟨_, if_pos ⟨hvalid, h.hour_lt, h.minute_lt, by decide⟩⟩
  rw [← epoch?_eq_some_iff, h.digits_eq_inPairs, monthDay_inPairs htoday h.lt_hundred, hfound,
    Option.some_inj, Option.getD_some]
  exact eq_comm

theorem monthDay_eq_zero (htoday : Falls (now / 86400) today)
    (h : ∀ month day hour minute, ¬IsMonthDay today.year digits month day hour minute) :
    monthDay now digits = 0 := by
  by_cases hfits : Layout.fits (Layout.columns 8 Char.isDigit) digits = true
  · obtain ⟨hlength, hdigits⟩ := Layout.fills_columns_iff.mp (Layout.fits_iff.mp hfits)
    obtain ⟨numbers, hcount, hsmall, rfl⟩ := exists_inPairs 4 hlength hdigits
    obtain ⟨month, day, hour, minute, rfl⟩ := List.length_eq_four.mp hcount
    rw [monthDay_inPairs htoday hsmall, getD_epoch?, if_neg]
    rintro ⟨hvalid, hhour, hminute, -⟩
    obtain ⟨hpos, hle⟩ := Date.month_of_isValid hvalid
    obtain ⟨hday, hdayLe⟩ := Date.isValid_iff.mp hvalid
    exact h month day hour minute ⟨by simp [inPairs], hpos, hle, hday, hdayLe, hhour, hminute⟩
  · rw [monthDay, if_neg hfits]

/-- In the order of their digits, months come before days, days before hours and hours before
minutes. -/
theorem monthDay_lt (htoday : Falls (now / 86400) today)
    (h : IsMonthDay today.year digits month day hour minute)
    (h' : IsMonthDay today.year digits' month' day' hour' minute') (hlt : digits < digits') :
    monthDay now digits < monthDay now digits' := by
  have hvalue : ∀ {month day hour minute : Nat}, (∀ n ∈ [month, day, hour, minute], n < 100) →
      Text.natOfDigits (inPairs [month, day, hour, minute]) =
        1000000 * month + 10000 * day + 100 * hour + minute := by
    intro month day hour minute hsmall
    simp only [List.forall_mem_cons] at hsmall
    obtain ⟨hmonth, hday, hhour, hminute, -⟩ := hsmall
    rw [natOfDigits_inPairs_cons hmonth, natOfDigits_inPairs_cons hday,
      natOfDigits_inPairs_cons hhour, natOfDigits_inPairs_cons hminute]
    change month * 100 ^ 3 + (day * 100 ^ 2 + (hour * 100 ^ 1 + (minute * 100 ^ 0 + 0))) = _
    omega
  have hnumber : Text.natOfDigits digits < Text.natOfDigits digits' := by
    rw [h.digits_eq_inPairs, h'.digits_eq_inPairs] at hlt ⊢
    exact Text.natOfDigits_lt_of_lt (by rw [length_inPairs, length_inPairs]; rfl)
      (isDigit_of_mem_inPairs h.lt_hundred) (isDigit_of_mem_inPairs h'.lt_hundred) hlt
  rw [h.digits_eq_inPairs, h'.digits_eq_inPairs, hvalue h.lt_hundred,
    hvalue h'.lt_hundred] at hnumber
  refine ((h.shows_iff htoday _).mpr rfl).lt ((h'.shows_iff htoday _).mpr rfl) ?_
  have hsmall := h.lt_hundred
  have hsmall' := h'.lt_hundred
  simp only [List.forall_mem_cons] at hsmall hsmall'
  have hminute := h.minute_lt
  have hminute' := h'.minute_lt
  rw [Date.IsBefore, Date.mk.injEq]
  dsimp only
  omega

/-- Month, day, hour and minute are read as the one instant of this year at which calendar and clock
show them, and later instants have later digits; digits that show at no instant are read as zero. -/
theorem monthDay_shown (now : Int) :
    ∃ today, Falls (now / 86400) today ∧
      (∀ digits month day hour minute, IsMonthDay today.year digits month day hour minute →
        ∀ instant, Shows instant ⟨today.year, month, day⟩ hour minute 0 ↔
          instant = monthDay now digits) ∧
      (∀ digits, (∀ month day hour minute,
        ¬IsMonthDay today.year digits month day hour minute) → monthDay now digits = 0) ∧
      ∀ digits digits', (∃ month day hour minute,
          IsMonthDay today.year digits month day hour minute) →
        (∃ month day hour minute, IsMonthDay today.year digits' month day hour minute) →
        digits < digits' → monthDay now digits < monthDay now digits' := by
  have htoday := falls_ofEpochDay (now / 86400)
  refine ⟨_, htoday, fun digits month day hour minute h => h.shows_iff htoday,
    fun digits => monthDay_eq_zero htoday, ?_⟩
  rintro digits digits' ⟨month, day, hour, minute, h⟩ ⟨month', day', hour', minute', h'⟩ hlt
  exact monthDay_lt htoday h h' hlt

end MonthDay

end Timestamp

end Aprs
