import Aprs.Proofs.PositionEncoding
import Aprs.Proofs.SlicedComments
import Aprs.Proofs.StepwiseFilling

/-!
Data extensions on top of what a compressed block has told already. A speed that is blank or zero
tells nothing and leaves the speed of the block, and a blank course leaves the course. Three zeros
leave it as well, unless a direction finder follows: then they tell that it stands still.
-/

namespace Aprs

namespace Extension

variable {t course speed more : Text} {finder : Option (Text × Text)}

section Fields

/-- Three columns, of which some may be blank. -/
def IsField (t : Text) : Prop := t.length = 3 ∧ ∀ c ∈ t, Text.isDigitOrFiller c = true

/-- A text that begins with a course and a speed. -/
structure Motion (t course speed more : Text) : Prop where
  text : t = course ++ '/' :: (speed ++ more)
  course : IsField course
  speed : IsField speed

/-- A bearing and a quality behind the speed. -/
def FinderFollows (more : Text) : Prop :=
  ∃ bearing nrq after rest, more = '/' :: after ∧ Motion after bearing nrq rest

theorem fills_courseSpeedLayout_iff {field : Text} :
    Layout.Fills courseSpeedLayout field ↔
      ∃ course speed, field = course ++ '/' :: speed ∧ IsField course ∧ IsField speed := by
  simp only [courseSpeedLayout, Layout.fills_append_iff, Layout.fills_columns_iff,
    Layout.fills_exactly_iff]
  constructor
  · rintro ⟨_, speed, rfl, ⟨course, _, rfl, hcourse, rfl⟩, hspeed⟩
    exact ⟨course, speed, by simp, hcourse, hspeed⟩
  · rintro ⟨course, speed, rfl, hcourse, hspeed⟩
    exact ⟨course ++ ['/'], speed, by simp, ⟨course, _, rfl, hcourse, rfl⟩, hspeed⟩

theorem Motion.take? (h : Motion t course speed more) :
    courseSpeedLayout.take? t = some (course ++ '/' :: speed, more) := by
  have hfills := fills_courseSpeedLayout_iff.mpr ⟨course, speed, rfl, h.course, h.speed⟩
  have htext : t = course ++ '/' :: speed ++ more := by
    rw [h.text]
    simp
  rw [htext, Layout.take?_append hfills]

theorem exists_motion_of_take? {field : Text} (h : courseSpeedLayout.take? t = some (field, more)) :
    ∃ course speed, field = course ++ '/' :: speed ∧ Motion t course speed more := by
  obtain ⟨rfl, hfills⟩ := Layout.take?_eq_some_iff.mp h
  obtain ⟨course, speed, rfl, hcourse, hspeed⟩ := fills_courseSpeedLayout_iff.mp hfills
  exact ⟨course, speed, rfl, by simp, hcourse, hspeed⟩

theorem finderFollows_iff : FinderFollows more ↔ finderLayout.take? more ≠ none := by
  constructor
  · rintro ⟨bearing, nrq, after, rest, rfl, hmotion⟩
    change (courseSpeedLayout.take? after).map _ ≠ _
    rw [hmotion.take?]
    exact Option.some_ne_none _
  · intro h
    obtain ⟨⟨finder, rest⟩, htake⟩ := Option.ne_none_iff_exists'.mp h
    obtain ⟨rfl, hfills⟩ := Layout.take?_eq_some_iff.mp htake
    obtain ⟨c, field, rfl, hc, hfield⟩ := Layout.fills_cons_iff.mp hfills
    obtain ⟨bearing, nrq, -, hmotion⟩ :=
      exists_motion_of_take? (Layout.take?_append hfield rest)
    exact ⟨bearing, nrq, field ++ rest, rest, by rw [eq_of_beq hc]; rfl, hmotion⟩

theorem Motion.split_fst (h : Motion t course speed more) :
    ∃ finder, (split t).1 = some (.courseSpeed course speed finder) ∧
      (FinderFollows more ↔ finder ≠ none) := by
  have hcourse : (course ++ '/' :: speed).take 3 = course := List.take_left' h.course.1
  have hspeed : (course ++ '/' :: speed).drop 4 = speed := by
    rw [← List.singleton_append, ← List.append_assoc]
    exact List.drop_left' (by simp [h.course.1])
  rw [finderFollows_iff, split, Extension.take?, takeCourseSpeed?, h.take?, Option.map_some]
  dsimp only
  rw [hcourse, hspeed]
  cases finderLayout.take? more with
  | none => exact ⟨none, rfl, by simp⟩
  | some parts => exact ⟨some _, rfl, by simp⟩

/-- Courses and speeds are only told by texts that begin with them. -/
theorem exists_motion_of_split (h : (split t).1 = some (.courseSpeed course speed finder)) :
    ∃ more, Motion t course speed more := by
  have htaken : ∃ rest, takeCourseSpeed? t = some (.courseSpeed course speed finder, rest) := by
    unfold split at h
    split at h
    · next found rest htake =>
      cases h
      rw [Extension.take?, Option.orElse_eq_some, Option.orElse_eq_some] at htake
      rcases htake with hcourse | ⟨-, hphg | ⟨-, hrange⟩⟩
      · exact ⟨rest, hcourse⟩
      · obtain ⟨_, -, heq⟩ := Option.map_eq_some_iff.mp hphg
        dsimp only at heq
        split at heq <;> cases heq
      · obtain ⟨_, -, heq⟩ := Option.map_eq_some_iff.mp hrange
        cases heq
    · cases h
  obtain ⟨rest, htake⟩ := htaken
  obtain ⟨⟨field, more⟩, hfield, -⟩ := Option.map_eq_some_iff.mp htake
  obtain ⟨_, _, -, hmotion⟩ := exists_motion_of_take? hfield
  obtain ⟨_, hsplit, -⟩ := hmotion.split_fst
  cases h.symm.trans hsplit
  exact ⟨more, hmotion⟩

theorem isAscii_of_mem_layouts {layout : Layout} (h : layout ∈ layouts) :
    layout.IsAscii ∧ layout.length ∈ [7, 9, 15] := by
  have hmotion := Sliced.isAscii_courseSpeedLayout
  have hfinder : finderLayout.IsAscii :=
    Layout.isAscii_append.mpr ⟨Layout.isAscii_exactly (by decide), hmotion⟩
  have hdigit : ∀ c : Char, c.isDigit = true → c.toNat < 128 := fun _ => Sliced.isAscii_of_isDigit
  have hphg : phgLayout.IsAscii := by
    simp only [phgLayout, Layout.isAscii_cons, Layout.isAscii_nil, and_true]
    refine ⟨by simp, by simp, by simp, hdigit, ?_, hdigit, hdigit⟩
    exact fun _ => Sliced.isAscii_of_between (by decide)
  have hrate : rateLayout.IsAscii := by
    simp only [rateLayout, Layout.isAscii_cons, Layout.isAscii_nil, and_true]
    refine ⟨?_, by simp⟩
    intro c hc
    rcases Bool.or_eq_true_iff.mp hc with hc | hc
    · exact hdigit c hc
    · exact Nat.lt_of_le_of_lt (isUpper_iff_toNat.mp hc).2 (by decide)
  simp only [layouts, List.mem_cons, List.not_mem_nil, or_false] at h
  rcases h with rfl | rfl | rfl | rfl | rfl
  · exact ⟨hmotion, by decide⟩
  · exact ⟨Layout.isAscii_append.mpr ⟨hmotion, hfinder⟩, by decide⟩
  · exact ⟨hphg, by decide⟩
  · exact ⟨Layout.isAscii_append.mpr ⟨hphg, hrate⟩, by decide⟩
  · exact ⟨Sliced.isAscii_rangeLayout, by decide⟩

theorem exists_taken (t : Text) :
    ∃ taken, t = taken ++ (split t).2 ∧ taken.byteLength ∈ [0, 7, 9, 15] := by
  rcases split_eq_or t with hnone | ⟨layout, hlayout, taken, heq, hfills⟩
  · exact ⟨[], by rw [hnone]; rfl, by decide⟩
  · obtain ⟨hascii, hlength⟩ := isAscii_of_mem_layouts hlayout
    refine ⟨taken, heq, List.mem_cons_of_mem 0 ?_⟩
    rwa [hfills.byteLength hascii]

end Fields

section Values

variable (r : Readings)

/-- Not a number, or one that stands for none. -/
def IsUnknown (field : Text) : Prop := (∃ c ∈ field, c.isDigit = false) ∨ field = "000".toList

theorem nat?_eq_none {field : Text} (h : ∃ c ∈ field, c.isDigit = false) :
    Text.nat? field = none := by
  obtain ⟨c, hc, hdigit⟩ := h
  rw [Text.nat?, if_neg]
  rintro ⟨-, hall⟩
  rw [List.all_eq_true.mp hall c hc] at hdigit
  cases hdigit

theorem withSpeed_of_isUnknown (h : IsUnknown speed) : r.withSpeed speed = r := by
  rcases h with hblank | rfl
  · rw [Readings.withSpeed, nat?_eq_none hblank]
  · rfl

theorem withCourse_of_blank (h : ∃ c ∈ course, c.isDigit = false) : r.withCourse course = r := by
  rw [Readings.withCourse, nat?_eq_none h]

theorem isSome_withSpeed (speed : Text) (h : r.speed.isSome) :
    (r.withSpeed speed).speed.isSome := by
  unfold Readings.withSpeed
  split
  · split_ifs
    · exact h
    · rfl
  · exact h

/-- Three digits that come to zero are the three zeros. -/
theorem eq_zeros_of_nat? (h : IsField course) (hzero : Text.nat? course = some 0) :
    course = "000".toList := by
  obtain ⟨a, b, c, rfl⟩ := List.length_eq_three.mp h.1
  rw [Text.nat?] at hzero
  split_ifs at hzero with hdigits
  have hall := List.all_eq_true.mp hdigits.2
  have hvalue : 100 * Text.digitValue a + 10 * Text.digitValue b + Text.digitValue c = 0 := by
    have hfold := Option.some.inj hzero
    simp only [Text.natOfDigits, List.foldl_cons, List.foldl_nil] at hfold
    omega
  have hchar : ∀ d ∈ [a, b, c], Text.digitValue d = 0 → d = '0' := by
    intro d hd hd0
    have hlow : 48 ≤ d.toNat := (Char.isDigit_iff_toNat.mp (hall d hd)).1
    have hhigh : d.toNat - 48 = 0 := hd0
    exact Char.toNat_inj.mp (show d.toNat = 48 by omega)
  rw [hchar a (by simp) (by omega), hchar b (by simp) (by omega), hchar c (by simp) (by omega)]
  rfl

theorem isSome_withCourse (hfield : IsField course) (hcircle : ∀ n ∈ Text.nat? course, n ≤ 360)
    (h : r.course.isSome) : (r.withCourse course).course.isSome := by
  unfold Readings.withCourse
  split
  · next n hn =>
    split_ifs with hzeros hbounds
    · exact h
    · rfl
    · have hle : n ≤ 360 := hcircle n hn
      have hzero : n = 0 := by omega
      rw [hzero] at hn
      exact absurd (eq_zeros_of_nat? hfield hn) hzeros
  · exact h

theorem withCourse_eq (course : Text) :
    r.withCourse course = { r with course := (r.withCourse course).course } := by
  unfold Readings.withCourse
  split
  · split_ifs <;> rfl
  · rfl

theorem withSpeed_eq (speed : Text) :
    r.withSpeed speed = { r with speed := (r.withSpeed speed).speed } := by
  unfold Readings.withSpeed
  split
  · split_ifs <;> rfl
  · rfl

theorem speed_apply (course speed : Text) (finder : Option (Text × Text)) :
    (r.apply (.courseSpeed course speed finder)).speed = (r.withSpeed speed).speed := by
  have hfinder : ∀ r : Readings, (r.withFinder course finder).speed = r.speed := by
    intro r
    cases finder <;> rfl
  rw [Readings.apply, hfinder, withCourse_eq]
  unfold Readings.withSpeed
  split
  · split_ifs <;> rfl
  · rfl

theorem altitude_apply (e : Extension) : (r.apply e).altitude = r.altitude := by
  cases e with
  | courseSpeed course speed finder =>
    rw [Readings.apply, withCourse_eq, withSpeed_eq]
    cases finder <;> rfl
  | phg digits rate => rfl
  | range miles => rfl

theorem isSome_range_apply (e : Extension) (h : r.range.isSome) : (r.apply e).range.isSome := by
  cases e with
  | courseSpeed course speed finder =>
    rw [Readings.apply, withCourse_eq, withSpeed_eq]
    cases finder <;> exact h
  | phg digits rate => exact h
  | range miles => rfl

theorem isSome_speed_apply (e : Extension) (h : r.speed.isSome) : (r.apply e).speed.isSome := by
  cases e with
  | courseSpeed course speed finder =>
    rw [speed_apply]
    exact isSome_withSpeed r speed h
  | phg digits rate => exact h
  | range miles => exact h

/-- A direction finder only counts where it stands still. -/
theorem course_apply (course speed : Text) (finder : Option (Text × Text)) :
    (r.apply (.courseSpeed course speed finder)).course =
      if finder ≠ none ∧ course = "000".toList then some 0 else (r.withCourse course).course := by
  rw [Readings.apply, withSpeed_eq]
  cases finder with
  | none => rfl
  | some found =>
    by_cases hzeros : course = "000".toList
    · rw [if_pos ⟨Option.some_ne_none found, hzeros⟩]
      exact if_pos hzeros
    · rw [if_neg fun h => hzeros h.2]
      exact if_neg hzeros

end Values

/-- A course beyond the circle. -/
def BeyondCircle (t : Text) : Prop :=
  ∃ course speed more n, Motion t course speed more ∧ Text.nat? course = some n ∧ 360 < n

/-- What is left of the readings so far when an extension has been read. -/
structure Keeps (t : Text) (old new : Readings) : Prop where
  altitude : new.altitude = old.altitude
  range : old.range.isSome → new.range.isSome
  speed : old.speed.isSome → new.speed.isSome
  course : ¬BeyondCircle t → old.course.isSome → new.course.isSome
  unknownSpeed : ∀ course speed more, Motion t course speed more → IsUnknown speed →
    new.speed = old.speed
  blankCourse : ∀ course speed more, Motion t course speed more →
    (∃ c ∈ course, c.isDigit = false) → new.course = old.course
  zeroCourse : ∀ speed more, Motion t "000".toList speed more → ¬FinderFollows more →
    new.course = old.course
  finder : ∀ speed more, Motion t "000".toList speed more → FinderFollows more →
    new.course = some 0
  otherwise : (∀ course speed more, ¬Motion t course speed more) →
    new.course = old.course ∧ new.speed = old.speed

theorem keeps_applied (t : Text) (r : Readings) : Keeps t r (Record.applied r (split t).1) where
  altitude := by
    cases (split t).1 with
    | none => rfl
    | some e => exact altitude_apply r e
  range h := by
    cases (split t).1 with
    | none => exact h
    | some e => exact isSome_range_apply r e h
  speed h := by
    cases (split t).1 with
    | none => exact h
    | some e => exact isSome_speed_apply r e h
  course hcircle h := by
    cases hsplit : (split t).1 with
    | none => exact h
    | some e =>
      cases e with
      | courseSpeed course speed finder =>
        obtain ⟨more, hmotion⟩ := exists_motion_of_split hsplit
        rw [Record.applied, Option.elim_some, course_apply]
        split_ifs
        · rfl
        · refine isSome_withCourse r hmotion.course ?_ h
          intro n hn
          exact Nat.le_of_not_lt fun hlt => hcircle ⟨course, speed, more, n, hmotion, hn, hlt⟩
      | phg digits rate => exact h
      | range miles => exact h
  unknownSpeed course speed more hmotion hunknown := by
    obtain ⟨finder, hsplit, -⟩ := hmotion.split_fst
    rw [hsplit, Record.applied, Option.elim_some, speed_apply, withSpeed_of_isUnknown r hunknown]
  blankCourse course speed more hmotion hblank := by
    obtain ⟨finder, hsplit, -⟩ := hmotion.split_fst
    have hzeros : course ≠ "000".toList := by
      rintro rfl
      obtain ⟨c, hc, hdigit⟩ := hblank
      exact absurd (List.all_eq_true.mp rfl c hc) (Bool.eq_false_iff.mp hdigit)
    rw [hsplit, Record.applied, Option.elim_some, course_apply, if_neg fun h => hzeros h.2,
      withCourse_of_blank r hblank]
  zeroCourse speed more hmotion hfinder := by
    obtain ⟨finder, hsplit, hiff⟩ := hmotion.split_fst
    rw [hsplit, Record.applied, Option.elim_some, course_apply,
      if_neg fun h => hfinder (hiff.mpr h.1)]
    rfl
  finder speed more hmotion hfinder := by
    obtain ⟨finder, hsplit, hiff⟩ := hmotion.split_fst
    rw [hsplit, Record.applied, Option.elim_some, course_apply, if_pos ⟨hiff.mp hfinder, rfl⟩]
  otherwise h := by
    cases hsplit : (split t).1 with
    | none => exact ⟨rfl, rfl⟩
    | some e =>
      cases e with
      | courseSpeed course speed finder =>
        obtain ⟨more, hmotion⟩ := exists_motion_of_split hsplit
        exact absurd hmotion (h course speed more)
      | phg digits rate => exact ⟨rfl, rfl⟩
      | range miles => exact ⟨rfl, rfl⟩

/-- An extension is taken off in front, and writes over what is known without clearing it. -/
theorem fill_over (t : Text) (r : Record Quantity) :
    ∃ taken rest new, t = taken ++ rest ∧ taken.byteLength ∈ [0, 7, 9, 15] ∧
      (fill t).run r = .ok rest (r.withReadings new) ∧ Keeps t r.known new := by
  obtain ⟨taken, heq, hbytes⟩ := exists_taken t
  exact ⟨taken, (split t).2, _, heq, hbytes, run_fill rfl r, keeps_applied t r.known⟩

/-- A block that tells a course and a speed, whatever comes after it. -/
theorem exists_run_fill_block :
    ∃ r, (∀ t, (Compressed.fill ("/5L!!<*e7>7P[".toList ++ t)).run { raw := [] } = .ok t r) ∧
      r.course = some (.ofInt 88) ∧ r.speed.isSome :=
  ⟨_, fun _ => rfl, rfl, rfl⟩

theorem fill_over_blank :
    ∃ r new, (∀ t, (Compressed.fill ("/5L!!<*e7>7P[".toList ++ t)).run { raw := [] } = .ok t r) ∧
      Motion "   /... rest".toList "   ".toList "...".toList " rest".toList ∧
      (fill "   /... rest".toList).run r = .ok " rest".toList (r.withReadings new) ∧
      new.course = some (.ofInt 88) ∧ new.speed = r.speed ∧ r.speed.isSome := by
  obtain ⟨r, hblock, hcourse, hspeed⟩ := exists_run_fill_block
  have hmotion : Motion "   /... rest".toList "   ".toList "...".toList " rest".toList :=
    ⟨rfl, ⟨rfl, List.all_eq_true.mp rfl⟩, ⟨rfl, List.all_eq_true.mp rfl⟩⟩
  obtain ⟨taken, rest, new, -, -, hrun, hkeeps⟩ := fill_over "   /... rest".toList r
  have hrest : rest = " rest".toList :=
    (EStateM.Result.ok.inj (hrun.symm.trans (run_fill rfl r))).1
  have hblank := hkeeps.blankCourse _ _ _ hmotion ⟨' ', by decide, by decide⟩
  have hunknown := hkeeps.unknownSpeed _ _ _ hmotion (.inl ⟨'.', by decide, by decide⟩)
  exact ⟨r, new, hblock, hmotion, hrest ▸ hrun, hblank.trans hcourse, hunknown, hspeed⟩

/-- A direction finder that stands still changes the course, and a course beyond the circle clears
it. -/
theorem fill_over_course :
    ∃ r, (∀ t, (Compressed.fill ("/5L!!<*e7>7P[".toList ++ t)).run { raw := [] } = .ok t r) ∧
      r.course = some (.ofInt 88) ∧
      (∃ r', (fill "000/000/270/729".toList).run r = .ok [] r' ∧ r'.course = some 0) ∧
      ∃ r', (fill "999/...".toList).run r = .ok [] r' ∧ r'.course = none := by
  obtain ⟨r, hblock, hcourse, -⟩ := exists_run_fill_block
  exact ⟨r, hblock, hcourse, ⟨_, rfl, rfl⟩, _, rfl, rfl⟩

end Extension

end Aprs
