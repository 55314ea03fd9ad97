import Aprs.Calendar
import Aprs.Proofs.Reading

/-!
The calendar as a count of days. Dates in their order have numbers in their order, every number is
that of one date, and going on by a day is adding one; so the date of an instant is the one that is
found by turning the pages of the calendar from the first day of 1970, on either side of it.
-/

namespace Aprs

namespace Calendar

variable {year later : Int} {month next : Nat}

def yearLength (year : Int) : Nat := if isLeap year then 366 else 365

theorem isLeap_iff (year : Int) :
    isLeap year = true ↔ year % 4 = 0 ∧ (year % 100 ≠ 0 ∨ year % 400 = 0) := by
  simp [isLeap]

theorem daysBeforeYear_succ (year : Int) :
    daysBeforeYear (year + 1) = daysBeforeYear year + yearLength year := by
  have hleap := isLeap_iff year
  unfold daysBeforeYear yearLength
  split
  · next h =>
    rw [hleap] at h
    dsimp only
    omega
  · next h =>
    rw [hleap] at h
    dsimp only
    omega

/-- The years that are over are cycles of four hundred, centuries, spans of four and single ones. -/
theorem daysBeforeYear_of_spans (cycle : Int) {century span single : Nat} (hcentury : century ≤ 3)
    (hspan : span ≤ 24) (hsingle : single ≤ 3) :
    daysBeforeYear (400 * cycle + (100 * century + 4 * span + single + 1 : Nat)) =
      146097 * cycle + 36524 * century + 1461 * span + 365 * single := by
  obtain ⟨years, hyears⟩ :
      ∃ years : Int, years = 400 * cycle + 100 * century + 4 * span + single := ⟨_, rfl⟩
  have hfour : years / 4 = 100 * cycle + 25 * century + span := by omega
  have hhundred : years / 100 = 4 * cycle + century := by omega
  have hfourHundred : years / 400 = cycle := by omega
  have hyear : (400 * cycle + (100 * century + 4 * span + single + 1 : Nat) : Int) - 1 = years := by
    omega
  rw [daysBeforeYear, hyear]
  omega

/-- A span has a day more than four years of 365, and its last year is a leap year unless it is the
last one of a century that does not end a cycle. -/
theorem lt_yearLength_of_spans (cycle : Int) {century span day : Nat} (hspan : span ≤ 24)
    (hday : day ≤ 1460) (hlast : day = 1460 → span = 24 → century = 3) :
    day - 365 * min (day / 365) 3 <
      yearLength (400 * cycle + (100 * century + 4 * span + min (day / 365) 3 + 1 : Nat)) := by
  unfold yearLength
  split
  · omega
  · next hleap =>
    rw [isLeap_iff] at hleap
    by_cases hend : day = 1460
    · have hcycle := hlast hend
      subst hend
      omega
    · omega

theorem daysBeforeYear_strictMono : StrictMono daysBeforeYear := by
  refine strictMono_int_of_lt_succ fun year => ?_
  rw [daysBeforeYear_succ, yearLength]
  split <;> omega

/-- A year is over before a later one begins. -/
theorem daysBeforeYear_add_le (h : year < later) :
    daysBeforeYear year + yearLength year ≤ daysBeforeYear later := by
  rw [← daysBeforeYear_succ]
  exact daysBeforeYear_strictMono.monotone h

theorem length_monthLengths (year : Int) : (monthLengths year).length = 12 := rfl

theorem sum_monthLengths (year : Int) : (monthLengths year).sum = yearLength year := by
  unfold monthLengths yearLength
  split <;> rfl

theorem monthLength_eq_getElem (hpos : 1 ≤ month) (hle : month - 1 < (monthLengths year).length) :
    monthLength year month = (monthLengths year)[month - 1] := by
  rw [monthLength, if_neg (by omega), List.getD_eq_getElem _ _ hle]

theorem monthLength_eq_zero (h : month = 0 ∨ 12 < month) : monthLength year month = 0 := by
  rw [monthLength]
  split
  · rfl
  · rw [List.getD_eq_default]
    rw [length_monthLengths]
    omega

theorem monthLength_le (year : Int) (month : Nat) : monthLength year month ≤ 31 := by
  have hle : ∀ n ∈ monthLengths year, n ≤ 31 := by
    unfold monthLengths
    split <;> decide
  rw [monthLength]
  split
  · decide
  · rw [List.getD_eq_getElem?_getD]
    cases hn : (monthLengths year)[month - 1]? with
    | none => decide
    | some n => exact hle n (List.mem_of_getElem? hn)

theorem monthLength_pos (hpos : 1 ≤ month) (hle : month ≤ 12) : 1 ≤ monthLength year month := by
  have hall : ∀ n ∈ monthLengths year, 1 ≤ n := by
    unfold monthLengths
    split <;> decide
  rw [monthLength_eq_getElem hpos (by rw [length_monthLengths]; omega)]
  exact hall _ (List.getElem_mem _)

theorem daysBeforeMonth_succ (hpos : 1 ≤ month) (hle : month ≤ 12) :
    daysBeforeMonth year (month + 1) = daysBeforeMonth year month + monthLength year month := by
  have hlength : month - 1 < (monthLengths year).length := by
    rw [length_monthLengths]
    omega
  have hsum := List.sum_take_succ (monthLengths year) (month - 1) hlength
  rw [Nat.sub_add_cancel hpos] at hsum
  rw [monthLength_eq_getElem hpos hlength]
  exact hsum

/-- A month is over before a later one begins; behind the twelfth there is the end of the year. -/
theorem daysBeforeMonth_add_le (hpos : 1 ≤ month) (h : month < next) (hle : next ≤ 13) :
    daysBeforeMonth year month + monthLength year month ≤ daysBeforeMonth year next := by
  induction next, h using Nat.le_induction with
  | base => rw [daysBeforeMonth_succ hpos (by omega)]
  | succ next hlt ih =>
    rw [daysBeforeMonth_succ (by omega) (by omega)]
    have hbefore := ih (by omega)
    omega

theorem daysBeforeMonth_thirteen (year : Int) : daysBeforeMonth year 13 = yearLength year := by
  rw [← sum_monthLengths]
  rfl

/-- The month of a day is found by taking off the months before it. -/
theorem monthOf_eq (lengths : List Nat) (first day : Nat) (h : day < lengths.sum) :
    ∃ (i : Nat) (hi : i < lengths.length),
      monthOf lengths first day = (first + i, day - (lengths.take i).sum) ∧
        (lengths.take i).sum ≤ day ∧ day < (lengths.take i).sum + lengths[i] := by
  induction lengths generalizing first day with
  | nil => exact absurd h (Nat.not_lt_zero day)
  | cons length lengths ih =>
    rw [List.sum_cons] at h
    rw [monthOf]
    split
    · next hday =>
      exact ⟨0, Nat.zero_lt_succ _, rfl, Nat.zero_le _, by simpa using hday⟩
    · next hday =>
      obtain ⟨i, hi, hmonth, hle, hlt⟩ := ih (first + 1) (day - length) (by omega)
      refine ⟨i + 1, Nat.succ_lt_succ hi, ?_, ?_, ?_⟩
      · rw [hmonth, List.take_succ_cons, List.sum_cons, Nat.sub_sub, Nat.add_assoc,
          Nat.add_comm 1 i]
      · rw [List.take_succ_cons, List.sum_cons]
        omega
      · rw [List.take_succ_cons, List.sum_cons, List.getElem_cons_succ]
        omega

end Calendar

namespace Date

open Calendar

variable {d e : Date}

theorem isValid_iff : d.isValid = true ↔ 1 ≤ d.day ∧ d.day ≤ monthLength d.year d.month := by
  simp [isValid]

theorem month_of_isValid (h : d.isValid = true) : 1 ≤ d.month ∧ d.month ≤ 12 := by
  rw [isValid_iff] at h
  by_contra hmonth
  have hzero : monthLength d.year d.month = 0 := monthLength_eq_zero (by omega)
  omega

/-- The month of a date has a first day. -/
theorem isValid_first (h : d.isValid = true) : ({ d with day := 1 } : Date).isValid = true := by
  rw [isValid_iff] at h ⊢
  dsimp only
  omega

/-- A date is over when its year is. -/
theorem daysBeforeMonth_add_day_le (h : d.isValid = true) :
    daysBeforeMonth d.year d.month + d.day ≤ yearLength d.year := by
  obtain ⟨hpos, hle⟩ := month_of_isValid h
  have hend : daysBeforeMonth d.year d.month + monthLength d.year d.month ≤
      daysBeforeMonth d.year 13 := daysBeforeMonth_add_le hpos (by omega) (by decide)
  rw [daysBeforeMonth_thirteen] at hend
  rw [isValid_iff] at h
  omega

/-- The order of dates: by year, month and day. -/
def IsBefore (d e : Date) : Prop :=
  d.year < e.year ∨ d.year = e.year ∧ (d.month < e.month ∨ d.month = e.month ∧ d.day < e.day)

theorem epochDay_lt (hd : d.isValid = true) (he : e.isValid = true) (h : d.IsBefore e) :
    d.epochDay < e.epochDay := by
  obtain ⟨hdayD, hleD⟩ := isValid_iff.mp hd
  obtain ⟨hdayE, hleE⟩ := isValid_iff.mp he
  rw [epochDay, epochDay]
  rcases h with hyear | ⟨hyear, hmonth | ⟨hmonth, hday⟩⟩
  · have hlast := daysBeforeMonth_add_day_le hd
    have hover := daysBeforeYear_add_le hyear
    omega
  · have hover : daysBeforeMonth d.year d.month + monthLength d.year d.month ≤
        daysBeforeMonth d.year e.month :=
      daysBeforeMonth_add_le (month_of_isValid hd).1 hmonth
        ((month_of_isValid he).2.trans (by decide))
    rw [← hyear]
    omega
  · rw [← hyear, ← hmonth]
    omega

theorem isBefore_or_isBefore (h : d ≠ e) : d.IsBefore e ∨ e.IsBefore d := by
  obtain ⟨year, month, day⟩ := d
  obtain ⟨year', month', day'⟩ := e
  rw [ne_eq, mk.injEq] at h
  rw [IsBefore, IsBefore]
  dsimp only
  omega

theorem epochDay_inj (hd : d.isValid = true) (he : e.isValid = true)
    (h : d.epochDay = e.epochDay) : d = e := by
  by_contra hne
  rcases isBefore_or_isBefore hne with hbefore | hbefore
  · exact absurd h (epochDay_lt hd he hbefore).ne
  · exact absurd h (epochDay_lt he hd hbefore).ne'

/-- Spans of years leave a day of a year, which the months leave as a day of one of them. -/
theorem ofEpochDay_eq (n : Int) :
    ∃ (year : Int) (day : Nat), n + epochOffset = daysBeforeYear year + day ∧
      day < yearLength year ∧
      ofEpochDay n = ⟨year, (monthOf (monthLengths year) 0 day).1 + 1,
        (monthOf (monthLengths year) 0 day).2 + 1⟩ := by
  refine ⟨_, _, ?_, ?_, rfl⟩
  · rw [daysBeforeYear_of_spans _ (by omega) (by omega) (by omega)]
    omega
  · exact lt_yearLength_of_spans _ (by omega) (by omega) (by omega)

/-- Every number of a day is that of a date. -/
theorem ofEpochDay_spec (n : Int) :
    (ofEpochDay n).isValid = true ∧ (ofEpochDay n).epochDay = n := by
  obtain ⟨year, day, hday, hlt, heq⟩ := ofEpochDay_eq n
  rw [← sum_monthLengths] at hlt
  obtain ⟨i, hi, hmonth, hle, hend⟩ := monthOf_eq (monthLengths year) 0 day hlt
  have hlength : monthLength year (i + 1) = (monthLengths year)[i] :=
    monthLength_eq_getElem (by omega) hi
  have hbefore : daysBeforeMonth year (i + 1) = ((monthLengths year).take i).sum := rfl
  rw [heq, hmonth, Nat.zero_add]
  constructor
  · rw [isValid_iff, hlength]
    dsimp only
    omega
  · rw [epochDay]
    dsimp only
    rw [hbefore]
    omega

theorem ofEpochDay_epochDay (h : d.isValid = true) : ofEpochDay d.epochDay = d := by
  obtain ⟨hvalid, hday⟩ := ofEpochDay_spec d.epochDay
  exact epochDay_inj hvalid h hday

/-- The date on the next page: the next day of the month, or the first of the next month or year. -/
def next (d : Date) : Date :=
  if d.day < monthLength d.year d.month then { d with day := d.day + 1 }
  else if d.month < 12 then ⟨d.year, d.month + 1, 1⟩
  else ⟨d.year + 1, 1, 1⟩

theorem next_spec (h : d.isValid = true) :
    d.next.isValid = true ∧ d.next.epochDay = d.epochDay + 1 := by
  obtain ⟨hpos, hle⟩ := month_of_isValid h
  rw [isValid_iff] at h
  rw [next]
  split
  · next hday =>
    refine ⟨isValid_iff.mpr ⟨by simp, hday⟩, ?_⟩
    rw [epochDay, epochDay]
    dsimp only
    omega
  · next hday =>
    split
    · next hmonth =>
      refine ⟨isValid_iff.mpr ⟨le_rfl, monthLength_pos (by simp) hmonth⟩, ?_⟩
      rw [epochDay, epochDay]
      dsimp only
      rw [daysBeforeMonth_succ hpos hle]
      omega
    · next hmonth =>
      refine ⟨isValid_iff.mpr ⟨le_rfl, monthLength_pos le_rfl (by simp)⟩, ?_⟩
      have hend : daysBeforeMonth d.year 13 =
          daysBeforeMonth d.year 12 + monthLength d.year 12 :=
        daysBeforeMonth_succ (by decide) le_rfl
      have hmonth : d.month = 12 := by omega
      have hfirst : daysBeforeMonth (d.year + 1) 1 = 0 := rfl
      rw [hmonth] at h hday
      rw [daysBeforeMonth_thirteen] at hend
      rw [epochDay, epochDay]
      dsimp only
      rw [daysBeforeYear_succ, hfirst, hmonth]
      omega

end Date

namespace Calendar

variable {now instant : Int} {n first : Int} {date other : Date} {hour minute second : Nat}

/-- The day with a number falls on a date: zero is the first day of 1970, and from there the pages
are turned one by one, forwards and backwards. -/
inductive Falls : Int → Date → Prop
  | start : Falls 0 ⟨1970, 1, 1⟩
  | forwards {n : Int} {date : Date} (h : Falls n date) : Falls (n + 1) date.next
  | backwards {n : Int} {date : Date} (hvalid : date.isValid = true)
      (h : Falls (n + 1) date.next) : Falls n date

theorem falls_ofEpochDay (n : Int) : Falls n (Date.ofEpochDay n) := by
  have hnext : ∀ n, Date.ofEpochDay (n + 1) = (Date.ofEpochDay n).next := by
    intro n
    obtain ⟨hvalid, hday⟩ := Date.ofEpochDay_spec n
    obtain ⟨hvalid', hday'⟩ := Date.next_spec hvalid
    rw [← Date.ofEpochDay_epochDay hvalid', hday', hday]
  induction n using Int.induction_on with
  | zero => exact .start
  | succ n ih =>
    rw [hnext]
    exact ih.forwards
  | pred n ih =>
    refine .backwards (Date.ofEpochDay_spec _).1 ?_
    rwa [← hnext, Int.sub_add_cancel]

/-- Turning pages and counting days agree. -/
theorem falls_iff : Falls n date ↔ date.isValid = true ∧ date.epochDay = n := by
  constructor
  · intro h
    induction h with
    | start => exact ⟨by decide, by decide⟩
    | forwards _ ih =>
      obtain ⟨hvalid, hday⟩ := Date.next_spec ih.1
      exact ⟨hvalid, by rw [hday, ih.2]⟩
    | backwards hvalid _ ih =>
      refine ⟨hvalid, ?_⟩
      have hday := (Date.next_spec hvalid).2
      rw [ih.2] at hday
      omega
  · rintro ⟨hvalid, rfl⟩
    have hfalls := falls_ofEpochDay date.epochDay
    rwa [Date.ofEpochDay_epochDay hvalid] at hfalls

theorem falls_epochDay (h : date.isValid = true) : Falls date.epochDay date :=
  falls_iff.mpr ⟨h, rfl⟩

theorem Falls.unique (h : Falls n date) (h' : Falls n other) : date = other := by
  rw [falls_iff] at h h'
  exact Date.epochDay_inj h.1 h'.1 (h.2.trans h'.2.symm)

theorem falls_iff_eq_dateAt : Falls (now / secondsPerDay) date ↔ date = dateAt now := by
  constructor
  · exact fun h => h.unique (falls_ofEpochDay _)
  · rintro rfl
    exact falls_ofEpochDay _

/-- What calendar and clock show at an instant: the date of the midnight before it, and the time
that has passed since. -/
structure Shows (instant : Int) (date : Date) (hour minute second : Nat) : Prop where
  falls : Falls (instant / 86400) date
  hour_lt : hour < 24
  minute_lt : minute < 60
  second_lt : second < 60
  passed : instant % 86400 = 3600 * hour + 60 * minute + second

theorem epoch?_eq_some_iff :
    epoch? date hour minute second = some instant ↔ Shows instant date hour minute second := by
  rw [epoch?]
  constructor
  · intro h
    split at h
    · next hvalid =>
      obtain ⟨hdate, hhour, hminute, hsecond⟩ := hvalid
      have heq := Option.some.inj h
      rw [secondsPerDay] at heq
      have hday : date.epochDay = instant / 86400 := by omega
      exact ⟨falls_iff.mpr ⟨hdate, hday⟩, hhour, hminute, hsecond, by omega⟩
    · cases h
  · rintro ⟨hfalls, hhour, hminute, hsecond, hpassed⟩
    obtain ⟨hdate, hday⟩ := falls_iff.mp hfalls
    rw [if_pos ⟨hdate, hhour, hminute, hsecond⟩, hday, Option.some_inj, secondsPerDay]
    omega

variable {instant' : Int} {date' : Date} {hour' minute' second' : Nat}

/-- Later readings are those of later instants. -/
theorem Shows.lt (h : Shows instant date hour minute second)
    (h' : Shows instant' date' hour' minute' second')
    (hbefore : date.IsBefore date' ∨ date = date' ∧
      3600 * hour + 60 * minute + second < 3600 * hour' + 60 * minute' + second') :
    instant < instant' := by
  obtain ⟨hvalid, hday⟩ := falls_iff.mp h.falls
  obtain ⟨hvalid', hday'⟩ := falls_iff.mp h'.falls
  have hpassed := h.passed
  have hpassed' := h'.passed
  rcases hbefore with hdate | ⟨rfl, htime⟩
  · have hlt := Date.epochDay_lt hvalid hvalid' hdate
    omega
  · omega

end Calendar

end Aprs
