import Aprs.Proofs.PositionValues

/-!
Minutes with blanks. What is read for them is as far from the minutes with zeros as five units of
the first blank. If the blanks are the last digits, this is the middle of the minutes that they
leave open, and Mic-E reports take no others. Positions in degrees and minutes take blanks anywhere,
and count them only.
-/

namespace Aprs.Uncompressed

open Quantity Reading

variable {before after digits degrees : Text} {ambiguity : Nat} {m₁ m₂ m₃ m₄ : Char}

/-- Minutes without the point. -/
def digitsOf (minutes : Text) : Text := Text.slice 0 2 minutes ++ Text.slice 3 2 minutes

def zeroBlanks (t : Text) : Text := t.map fun c => if c = ' ' then '0' else c

/-- So many blanks after digits, and nothing else. -/
def EndsBlank (ambiguity : Nat) (digits : Text) : Prop :=
  ∃ known, digits = known ++ List.replicate ambiguity ' ' ∧ ∀ c ∈ known, c.isDigit = true

/-- Hundredths of a minute in the middle of a box, which is half a power of ten above the minutes
with zeros, or the middle of a whole degree. -/
def boxMiddle (ambiguity : Nat) (digits : Text) : Nat :=
  if 4 ≤ ambiguity then 3000
  else Text.natOfDigits (zeroBlanks digits) + 10 ^ ambiguity / 2

/-- Hundredths of a minute as they are read: five units of the first blank above the minutes with
zeros, wherever the other blanks are. -/
def minutesRead (digits : Text) : Nat :=
  if 4 ≤ digits.count ' ' then 3000
  else Text.natOfDigits (zeroBlanks digits) +
    if ' ' ∈ digits then 5 * 10 ^ (digits.length - 1 - digits.idxOf ' ') else 0

section Filling

theorem zeroBlanks_eq_self (h : ' ' ∉ digits) : zeroBlanks digits = digits := by
  refine (List.map_congr_left fun c hc => ?_).trans (List.map_id digits)
  rw [if_neg, id]
  rintro rfl
  exact h hc

theorem fillBlanks_cons {c : Char} (h : c ≠ ' ') (t : Text) :
    fillBlanks (c :: t) = c :: fillBlanks t := by
  rw [fillBlanks]
  exact h

theorem fillBlanks_append (h : ' ' ∉ before) (t : Text) :
    fillBlanks (before ++ t) = before ++ fillBlanks t := by
  induction before with
  | nil => rfl
  | cons c before ih =>
    rw [List.mem_cons, not_or] at h
    rw [List.cons_append, fillBlanks_cons (Ne.symm h.1), ih h.2, List.cons_append]

theorem fillBlanks_append_cons (h : ' ' ∉ before) (after : Text) :
    fillBlanks (before ++ ' ' :: after) = before ++ '5' :: zeroBlanks after := by
  rw [fillBlanks_append h]
  rfl

/-- The point is in nobody's way. -/
theorem digitsOf_fillBlanks :
    digitsOf (fillBlanks [m₁, m₂, '.', m₃, m₄]) = fillBlanks [m₁, m₂, m₃, m₄] := by
  by_cases h₁ : m₁ = ' '
  · subst h₁
    rfl
  rw [fillBlanks_cons h₁, fillBlanks_cons h₁]
  by_cases h₂ : m₂ = ' '
  · subst h₂
    rfl
  rw [fillBlanks_cons h₂, fillBlanks_cons h₂, fillBlanks_cons (by decide)]
  have hlength : (fillBlanks [m₃, m₄]).length = 2 := (forall₂_fillBlanks [m₃, m₄]).length_eq.symm
  obtain ⟨a, b, hfilled⟩ := List.length_eq_two.mp hlength
  rw [hfilled]
  rfl

/-- The five stands in the place of the first blank. -/
theorem natOfDigits_fillBlanks (h : ' ' ∈ digits) :
    Text.natOfDigits (fillBlanks digits) =
      Text.natOfDigits (zeroBlanks digits) +
        5 * 10 ^ (digits.length - 1 - digits.idxOf ' ') := by
  obtain ⟨before, after, rfl, hbefore⟩ := List.eq_append_cons_of_mem h
  have hzero : zeroBlanks (before ++ ' ' :: after) = before ++ '0' :: zeroBlanks after := by
    rw [zeroBlanks, List.map_append, ← zeroBlanks, zeroBlanks_eq_self hbefore]
    rfl
  have hplace : (before ++ ' ' :: after).length - 1 - (before ++ ' ' :: after).idxOf ' ' =
      after.length := by
    rw [List.idxOf_append_of_notMem hbefore, List.idxOf_cons_self, List.length_append,
      List.length_cons]
    omega
  have hfive : Text.digitValue '5' = 5 := by decide
  have hnought : Text.digitValue '0' = 0 := by decide
  have hlength : (zeroBlanks after).length = after.length := List.length_map _
  rw [fillBlanks_append_cons hbefore, hzero, hplace, Text.natOfDigits_append,
    Text.natOfDigits_append, Text.natOfDigits_cons, Text.natOfDigits_cons, List.length_cons,
    List.length_cons, hlength, hfive, hnought]
  omega

theorem blanks_eq_count : blanks [m₁, m₂, '.', m₃, m₄] = [m₁, m₂, m₃, m₄].count ' ' := by
  simp [blanks, List.count_cons]

theorem hundredths_eq_minutesRead :
    hundredths [m₁, m₂, '.', m₃, m₄] = minutesRead [m₁, m₂, m₃, m₄] := by
  unfold hundredths minutesRead
  rw [← digitsOf, digitsOf_fillBlanks, blanks_eq_count]
  by_cases hmem : ' ' ∈ [m₁, m₂, m₃, m₄]
  · rw [if_pos hmem, natOfDigits_fillBlanks hmem]
  · have hnone : fillBlanks [m₁, m₂, m₃, m₄] = [m₁, m₂, m₃, m₄] := by
      have happend := fillBlanks_append hmem []
      rwa [List.append_nil] at happend
    rw [if_neg hmem, hnone, zeroBlanks_eq_self hmem, Nat.add_zero]

end Filling

section Places

theorem isDigit_of_not_blank {c : Char} (h : Text.isDigitOrSpace c = true) (hblank : c ≠ ' ') :
    c.isDigit = true := by
  rw [Text.isDigitOrSpace, Bool.or_eq_true, beq_iff_eq] at h
  exact h.resolve_right hblank

theorem blank_not_mem (h : ∀ c ∈ digits, c.isDigit = true) : ' ' ∉ digits := by
  intro hmem
  exact absurd (h ' ' hmem) (by decide)

/-- Blanks are at the end just where there is nothing but blanks from the first of them on. -/
theorem endsBlank_iff (h : ∀ c ∈ digits, Text.isDigitOrSpace c = true) :
    EndsBlank (digits.count ' ') digits ↔
      digits.idxOf ' ' + digits.count ' ' = digits.length := by
  constructor
  · rintro ⟨known, heq, hknown⟩
    have hplace : digits.idxOf ' ' = known.length := by
      rw [heq, List.idxOf_append_of_notMem (blank_not_mem hknown)]
      cases digits.count ' ' with
      | zero => simp
      | succ n => rw [List.replicate_succ, List.idxOf_cons_self, Nat.add_zero]
    have hlength := congrArg List.length heq
    rw [List.length_append, List.length_replicate] at hlength
    rw [hplace, hlength]
  · intro hplaces
    by_cases hmem : ' ' ∈ digits
    · obtain ⟨before, after, rfl, hbefore⟩ := List.eq_append_cons_of_mem hmem
      rw [List.idxOf_append_of_notMem hbefore, List.idxOf_cons_self, List.length_append] at hplaces
      have hcount : (' ' :: after).count ' ' = (' ' :: after).length := by
        rw [List.count_append, List.count_eq_zero_of_not_mem hbefore] at hplaces
        omega
      have hblank : ' ' :: after = List.replicate (' ' :: after).length ' ' :=
        List.eq_replicate_iff.mpr ⟨rfl, fun c hc => (List.count_eq_length.mp hcount c hc).symm⟩
      refine ⟨before, ?_, fun c hc => ?_⟩
      · rw [List.count_append, List.count_eq_zero_of_not_mem hbefore, Nat.zero_add, hcount,
          ← hblank]
      · refine isDigit_of_not_blank (h c (List.mem_append_left _ hc)) ?_
        rintro rfl
        exact hbefore hc
    · rw [List.count_eq_zero_of_not_mem hmem]
      refine ⟨digits, (List.append_nil digits).symm, fun c hc => ?_⟩
      refine isDigit_of_not_blank (h c hc) ?_
      rintro rfl
      exact hmem hc

theorem idxOf_add_count_le (digits : Text) :
    digits.idxOf ' ' + digits.count ' ' ≤ digits.length := by
  by_cases hmem : ' ' ∈ digits
  · obtain ⟨before, after, rfl, hbefore⟩ := List.eq_append_cons_of_mem hmem
    rw [List.idxOf_append_of_notMem hbefore, List.idxOf_cons_self, List.count_append,
      List.count_eq_zero_of_not_mem hbefore, List.length_append]
    have hcount : (' ' :: after).count ' ' ≤ (' ' :: after).length := List.count_le_length
    omega
  · rw [List.count_eq_zero_of_not_mem hmem, List.idxOf_of_notMem hmem, Nat.add_zero]

/-- What is read is the middle of the box just where blanks are at the end. -/
theorem minutesRead_eq_boxMiddle_iff (hlength : digits.length = 4)
    (h : ∀ c ∈ digits, Text.isDigitOrSpace c = true) :
    minutesRead digits = boxMiddle (digits.count ' ') digits ↔
      EndsBlank (digits.count ' ') digits := by
  have hle := idxOf_add_count_le digits
  rw [endsBlank_iff h, minutesRead, boxMiddle]
  rw [hlength] at hle ⊢
  by_cases hfour : 4 ≤ digits.count ' '
  · rw [if_pos hfour, if_pos hfour]
    exact iff_of_true rfl (by omega)
  rw [if_neg hfour, if_neg hfour, Nat.add_left_cancel_iff]
  by_cases hmem : ' ' ∈ digits
  · -- Both sides add five units of a place: that of the first blank, and that of the first of so
    -- many places at the end.
    obtain ⟨n, hn⟩ := Nat.exists_eq_add_one.mpr (List.count_pos_iff.mpr hmem)
    have hhalf : 10 ^ (n + 1) / 2 = 5 * 10 ^ n := by
      rw [pow_succ]
      omega
    rw [if_pos hmem, hn, hhalf, Nat.mul_left_cancel_iff (by decide),
      Nat.pow_right_inj (by decide)]
    rw [hn] at hle
    omega
  · have hplace : digits.idxOf ' ' = 4 := by rw [List.idxOf_of_notMem hmem, hlength]
    rw [if_neg hmem, List.count_eq_zero_of_not_mem hmem, hplace]
    exact iff_of_true rfl rfl

/-- Mic-E reports have to end with their blanks. -/
theorem ambiguity?_append_iff (hne : degrees ≠ []) (hdegrees : ∀ c ∈ degrees, c.isDigit = true) :
    MicE.ambiguity? (degrees ++ digits) = some ambiguity ↔ EndsBlank ambiguity digits := by
  constructor
  · intro h
    obtain ⟨known, heq, hknown⟩ := MicE.exists_eq_append_of_ambiguity? h
    obtain ⟨more, rfl, hmore⟩ | ⟨blank, rfl, hmore⟩ := List.append_eq_append_iff.mp heq
    · exact ⟨more, hmore, fun c hc => hknown c (List.mem_append_right _ hc)⟩
    · have hnil : blank = [] := by
        apply List.eq_nil_iff_forall_not_mem.mpr
        intro c hc
        have hblank : c = ' ' := by
          apply List.eq_of_mem_replicate
          rw [hmore]
          exact List.mem_append_left _ hc
        have hdigit := hdegrees c (List.mem_append_right _ hc)
        rw [hblank] at hdigit
        exact absurd hdigit (by decide)
      rw [hnil, List.nil_append] at hmore
      exact ⟨[], hmore.symm, List.forall_mem_nil _⟩
  · rintro ⟨known, rfl, hknown⟩
    rw [← List.append_assoc]
    exact MicE.ambiguity?_append (List.append_ne_nil_of_left_ne_nil hne _)
      (List.forall_mem_append.mpr ⟨hdegrees, hknown⟩) ambiguity

end Places

/-- A coordinate with so many blanks in its minutes: what is read for them, and when this is the
middle of their box. -/
structure ReadsAs (coordinate : Quantity) (negative : Bool) (degrees minutes : Text)
    (ambiguity : Nat) : Prop where
  blanks_eq : blanks minutes = ambiguity
  toRat?_eq : coordinate.toRat? =
    some (signed negative (arc (Text.natOfDigits degrees) (minutesRead (digitsOf minutes))))
  middle_iff : minutesRead (digitsOf minutes) = boxMiddle ambiguity (digitsOf minutes) ↔
    EndsBlank ambiguity (digitsOf minutes)
  micE_iff : MicE.ambiguity? (degrees ++ digitsOf minutes) = some ambiguity ↔
    EndsBlank ambiguity (digitsOf minutes)

theorem readsAs {coordinate : Quantity} {negative : Bool}
    (h : ∀ c ∈ [m₁, m₂, m₃, m₄], Text.isDigitOrSpace c = true) (hne : degrees ≠ [])
    (hdegrees : ∀ c ∈ degrees, c.isDigit = true)
    (hvalue : coordinate.toRat? =
      some (signed negative (arc (Text.natOfDigits degrees) (hundredths [m₁, m₂, '.', m₃, m₄])))) :
    ReadsAs coordinate negative degrees [m₁, m₂, '.', m₃, m₄] (blanks [m₁, m₂, '.', m₃, m₄]) := by
  rw [hundredths_eq_minutesRead] at hvalue
  have hmiddle := minutesRead_eq_boxMiddle_iff rfl h
  rw [← blanks_eq_count] at hmiddle
  exact ⟨rfl, hvalue, hmiddle, ambiguity?_append_iff hne hdegrees⟩

/-- Both minutes of a position have the same number of blanks, at any of their digits. They are read
as the middle of what the blanks leave open where these are the last digits, as they have to be in a
Mic-E report, and as something else wherever they are not. -/
theorem minutes_of_decode? {body rest : Text} {fix : Fix}
    (h : decode? body = .ok (some (fix, rest))) :
    ∃ field ambiguity, body = field ++ rest ∧ Layout.Fills layout field ∧
      fix.form = .uncompressed ambiguity ∧ ambiguity ≤ 4 ∧
      ReadsAs fix.latitude ((field.getD 7 ' ').toUpper == 'S') (Text.slice 0 2 field)
        (Text.slice 2 5 field) ambiguity ∧
      ReadsAs fix.longitude ((field.getD 17 ' ').toUpper == 'W') (Text.slice 9 3 field)
        (Text.slice 12 5 field) ambiguity := by
  obtain ⟨-, field, hlayout, hread⟩ := decode?_eq_some_iff.mp h
  obtain ⟨hbody, hfills⟩ := Layout.take?_eq_some_iff.mp hlayout
  obtain ⟨hlatitude, hlongitude, -⟩ := toRat?_of_read hfills hread
  obtain ⟨_, _, hblanks, -, -, -, -, hfix⟩ := exists_of_read hread
  have hform : fix.form = .uncompressed (blanks (Text.slice 2 5 field)) := by rw [hfix]
  refine ⟨field, _, hbody, hfills, hform, blanks_le hfills, ?_⟩
  obtain ⟨a, b, c, d, e, m₁, m₂, m₃, m₄, n₁, n₂, n₃, n₄, _, _, _, _, rfl, hdegrees, hminutes, -⟩ :=
    exists_columns_of_fills hfills
  constructor
  · exact readsAs (fun x hx => hminutes x (List.mem_append_left [n₁, n₂, n₃, n₄] hx))
      (List.cons_ne_nil a [b]) (fun x hx => hdegrees x (List.mem_append_left [c, d, e] hx))
      hlatitude
  · rw [hblanks]
    exact readsAs (fun x hx => hminutes x (List.mem_append_right [m₁, m₂, m₃, m₄] hx))
      (List.cons_ne_nil c [d, e]) (fun x hx => hdegrees x (List.mem_append_right [a, b] hx))
      hlongitude

/-- Two blanks at the end of the latitude, and two in the longitude with a digit between them. -/
theorem minutes_of_decode?_between :
    ∃ fix, decode? "4903.  N/0720 .7 W-Test".toList = .ok (some (fix, "Test".toList)) ∧
      fix.form = .uncompressed 2 ∧
      ReadsAs fix.latitude false "49".toList "03.  ".toList 2 ∧
      ReadsAs fix.longitude true "072".toList "0 .7 ".toList 2 := by
  have hdecode : ∃ fix, decode? "4903.  N/0720 .7 W-Test".toList =
      .ok (some (fix, "Test".toList)) ∧ fix.form = .uncompressed 2 := ⟨_, rfl, rfl⟩
  obtain ⟨fix, h, htwo⟩ := hdecode
  obtain ⟨field, ambiguity, hbody, -, hform, -, hlatitude, hlongitude⟩ := minutes_of_decode? h
  have hcut : "4903.  N/0720 .7 W-".toList ++ "Test".toList = field ++ "Test".toList := by
    rw [← hbody]
    decide
  have hfield := (List.append_cancel_right hcut).symm
  cases htwo.symm.trans hform
  subst hfield
  exact ⟨fix, h, htwo, hlatitude, hlongitude⟩

/-- A blank in front of the other digits is read as fifty minutes, not as five hundredths. -/
theorem minutes_of_leading_blank :
    ∃ fix, decode? "49 3.50N/072 1.75W-".toList = .ok (some (fix, [])) ∧
      fix.form = .uncompressed 1 ∧ ¬EndsBlank 1 (digitsOf " 3.50".toList) ∧
      fix.latitude.toRat? = some (arc 49 5350) ∧ boxMiddle 1 (digitsOf " 3.50".toList) = 355 := by
  refine ⟨_, rfl, rfl, ?_, toRat?_coordinate (toRat?_hundredths 5350) false, by decide⟩
  intro hends
  have hmicE := (ambiguity?_append_iff (List.cons_ne_nil '4' ['9']) (by simp)).mpr hends
  exact absurd hmicE (by decide)

end Aprs.Uncompressed
