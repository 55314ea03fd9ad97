import Aprs.Proofs.Base91
import Aprs.Proofs.CommentTags
import Aprs.Proofs.ExactValues
import Aprs.Proofs.NearestFloat
import Aprs.Proofs.StepwiseFilling

/-!
Altitudes of Mic-E reports. Three digits to the base 91 and a brace tell an altitude, and where
there are several of them the last one counts. All altitudes that three digits have room for come
back, to the metre and in floating-point numbers without rounding.
-/

namespace Aprs

theorem Text.length_le_of_not_mem {mark : Char} {t u v w : Text} (hu : mark ∉ u)
    (h : t ++ mark :: u = v ++ mark :: w) : v.length ≤ t.length := by
  rcases List.append_eq_append_iff.mp h with ⟨middle, rfl, heq⟩ | ⟨middle, rfl, -⟩
  · cases middle with
    | nil => rw [List.append_nil]
    | cons c middle =>
      -- A mark of the second cut would stand behind the first.
      obtain ⟨-, rfl⟩ := List.cons.inj heq
      exact absurd (List.mem_append_right middle List.mem_cons_self) hu
  · rw [List.length_append]
    exact Nat.le_add_right v.length middle.length

namespace MicE

section Places

variable {before digits after t : Text}

theorem fills_altitudeLayout_iff {field : Text} :
    Layout.Fills altitudeLayout field ↔
      ∃ digits, field = digits ++ ['\x7d'] ∧ digits.length = 3 ∧
        ∀ c ∈ digits, Base91.isDigit c = true := by
  simp only [altitudeLayout, Layout.fills_append_iff, Layout.fills_columns_iff,
    Layout.fills_exactly_iff]
  constructor
  · rintro ⟨digits, _, rfl, hdigits, rfl⟩
    exact ⟨digits, rfl, hdigits⟩
  · rintro ⟨digits, rfl, hdigits⟩
    exact ⟨digits, _, rfl, hdigits, rfl⟩

/-- Braces further ahead do not count. -/
theorem rightmost?_altitudeLayout (hlength : digits.length = 3)
    (h : ∀ c ∈ digits, Base91.isDigit c = true) (hafter : '\x7d' ∉ after) :
    Text.rightmost? altitudeLayout.take? (before ++ (digits ++ '\x7d' :: after)) =
      some (before, digits ++ ['\x7d'], after) := by
  have hfills : Layout.Fills altitudeLayout (digits ++ ['\x7d']) :=
    fills_altitudeLayout_iff.mpr ⟨digits, rfl, hlength, h⟩
  have hfield : digits ++ '\x7d' :: after = digits ++ ['\x7d'] ++ after := by simp
  apply Text.rightmost?_append
  · intro u v heq hu
    cases htake : altitudeLayout.take? v with
    | none => rfl
    | some found =>
      obtain ⟨rfl, hfound⟩ := Layout.take?_eq_some_iff.mp htake
      obtain ⟨later, hlater, hthree, -⟩ := fills_altitudeLayout_iff.mp hfound
      have hcut : digits ++ '\x7d' :: after = u ++ later ++ '\x7d' :: found.2 := by
        rw [heq, hlater]
        simp
      have hle := Text.length_le_of_not_mem hafter hcut
      rw [List.length_append, hlength, hthree] at hle
      exact absurd (List.length_eq_zero_iff.mp (by omega)) hu
  · rw [hfield, Layout.take?_append hfills]

theorem splitAltitude_append {n : Nat} (hlength : digits.length = 3)
    (h : ∀ c ∈ digits, Base91.isDigit c = true) (hn : Base91.decode digits = .ok n)
    (hbefore : '\n' ∉ before) (hline : '\n' ∉ after) (hafter : '\x7d' ∉ after) :
    splitAltitude (before ++ (digits ++ '\x7d' :: after)) =
      .ok (some (.ofNat n - 10000), before ++ after) := by
  have hsingle : Text.isSingleLine (before ++ (digits ++ '\x7d' :: after)) = true := by
    have hdigits : '\n' ∉ digits := fun hmem => absurd (h '\n' hmem) (by decide)
    rw [Text.isSingleLine_iff]
    simp [hbefore, hdigits, hline]
  rw [splitAltitude, if_pos hsingle, rightmost?_altitudeLayout hlength h hafter]
  dsimp only
  rw [List.take_left' hlength, hn]

/-- A text without three digits in front of a brace keeps all its characters. -/
theorem splitAltitude_of_not_mem (h : ∀ before digits after,
    t = before ++ (digits ++ '\x7d' :: after) → digits.length = 3 →
      ¬∀ c ∈ digits, Base91.isDigit c = true) : splitAltitude t = .ok (none, t) := by
  have hnone : Text.rightmost? altitudeLayout.take? t = none := by
    rw [(Text.takes_layout altitudeLayout).rightmost?_eq_none_iff]
    rintro _ field ⟨rfl, hfills⟩ ⟨before, after, rfl⟩
    obtain ⟨digits, rfl, hlength, hdigits⟩ := fills_altitudeLayout_iff.mp hfills
    exact h before digits after (by simp) hlength hdigits
  rw [splitAltitude, hnone]
  split <;> rfl

end Places

section Values

/-- Metres from ten thousand below the sea on. -/
theorem toRat?_altitude (n : Nat) : (Quantity.ofNat n - 10000).toRat? = some ((n : Rat) - 10000) :=
  Quantity.toRat?_sub (Quantity.toRat?_ofNat n) (Quantity.toRat?_ofNat 10000)

theorem isExactly_altitude {n : Nat} (h : n < 2 ^ 53) :
    IsExactly (Quantity.ofNat n - 10000).toFloat (n - 10000) :=
  (Decimal.hasValue_ofNat h).isExactly_sub (Decimal.hasValue_ofNat (n := 10000) (by norm_num)) h
    (by norm_num)

end Values

/-- Every altitude of three digits comes back exactly, whatever look-alikes stand in front of it.
Where nothing looks like an altitude, neither the text nor the record changes. -/
theorem fillAltitude_encode (r : Record Quantity) :
    (∀ (a : Int) (before after : Text), -10000 ≤ a → a ≤ 743570 → '\n' ∉ before → '\n' ∉ after →
      '\x7d' ∉ after →
      ∃ altitude : Quantity,
        (fillAltitude (before ++ (Base91.encode (a + 10000).toNat 3 ++ '\x7d' :: after))).run r =
          .ok (before ++ after) { r with altitude := some altitude } ∧
        altitude.toRat? = some (a : Rat) ∧ IsExactly altitude.toFloat a) ∧
      ∀ t : Text, '\n' ∉ t →
        (∀ before digits after, t = before ++ (digits ++ '\x7d' :: after) → digits.length = 3 →
          ¬∀ c ∈ digits, Base91.isDigit c = true) →
        (fillAltitude t).run r = .ok t r := by
  constructor
  · intro a before after hlow hhigh hbefore hline hafter
    obtain ⟨n, hn⟩ : ∃ n : Nat, a + 10000 = n := Int.eq_ofNat_of_zero_le (by omega)
    have hwidth : n < Base91.radix ^ 3 := by
      change n < 753571
      omega
    have hsplit := splitAltitude_append (Base91.length_encode (by decide) hwidth)
      (fun _ => Base91.isDigit_of_mem_encode) (Base91.decode_encode (hwidth.le.trans (by decide)) 3)
      hbefore hline hafter
    have hvalue : (n : Rat) - 10000 = a := by
      have hcast : ((a + 10000 : Int) : Rat) = n := by exact_mod_cast hn
      rw [← hcast]
      push_cast
      ring
    rw [hn, Int.toNat_natCast, run_fillAltitude hsplit]
    refine ⟨_, rfl, ?_, ?_⟩
    · rw [toRat?_altitude, hvalue]
    · rw [← hvalue]
      exact isExactly_altitude (hwidth.trans (by decide))
  · intro t _ h
    rw [run_fillAltitude (splitAltitude_of_not_mem h)]
    rfl

/-- A brace ahead of the altitude may have three digits too, and one with two is no altitude. -/
theorem fillAltitude_encode_look_alike :
    '\n' ∉ "\"4T\x7d".toList ∧ '\n' ∉ "'".toList ∧ '\x7d' ∉ "'".toList ∧
      (∃ altitude : Quantity,
        (fillAltitude "\"4T\x7d\">q\x7d'".toList).run { raw := [] } =
          .ok "\"4T\x7d'".toList { raw := [], altitude := some altitude } ∧
        altitude.toRat? = some ((1000 : Int) : Rat) ∧ IsExactly altitude.toFloat (1000 : Int)) ∧
      '\n' ∉ "4T\x7d".toList ∧
      (fillAltitude "4T\x7d".toList).run { raw := [] } = .ok "4T\x7d".toList { raw := [] } := by
  have hbefore : '\n' ∉ "\"4T\x7d".toList := by decide
  have hline : '\n' ∉ "'".toList := by decide
  have hafter : '\x7d' ∉ "'".toList := by decide
  have hshort : '\n' ∉ "4T\x7d".toList := by decide
  have hsent : "\"4T\x7d\">q\x7d'".toList = "\"4T\x7d".toList ++
      (Base91.encode ((1000 : Int) + 10000).toNat 3 ++ '\x7d' :: "'".toList) := by cbv
  refine ⟨hbefore, hline, hafter, ?_, hshort, ?_⟩
  · rw [hsent]
    exact (fillAltitude_encode { raw := [] }).1 1000 _ _ (by decide) (by decide) hbefore hline
      hafter
  · apply (fillAltitude_encode { raw := [] }).2 _ hshort
    intro before digits after heq hlength
    have htotal := congrArg List.length heq
    simp only [List.length_append, List.length_cons, hlength] at htotal
    have hthree : "4T\x7d".toList.length = 3 := rfl
    omega

end MicE

end Aprs
