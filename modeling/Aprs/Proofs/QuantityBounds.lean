import Aprs.Proofs.NearestFloat
import Aprs.Units

/-!
Bounds of formulas. Whoever knows powers of two above the parts of a formula knows one above its
value, since rounding does not pass them, and with it that there is a value.
-/

namespace Aprs

open Float.Model Float.Model.UnpackedFloat Rounding

section Powers

variable {x : Float} {sign : Sign} {value : Rat} {k : Nat}

theorem IsNearest.exists_le (h : IsNearest x sign value) (hle : value ≤ 2 ^ k) (hk : k ≤ 1023) :
    ∃ result, Rounded value result ∧ HasValue x sign result ∧ result ≤ 2 ^ k := by
  obtain ⟨result, hrounded, hresult⟩ := h.exists_hasValue (hle.trans_lt (two_pow_lt_limit hk))
  rw [← zpow_natCast] at hle ⊢
  exact ⟨result, hrounded, hresult, hrounded.le_two_zpow (by omega) hle⟩

theorem Rounding.Rounded.one_le {result : Rat} (h : Rounded value result) (hone : 1 ≤ value) :
    1 ≤ result := by
  rw [← zpow_zero 2] at hone ⊢
  exact h.two_zpow_le (by decide) hone

end Powers

namespace Quantity

/-- The formula gives a number of that sign, which a power of two bounds. Nothing is said where the
power is beyond the format. -/
def SignedWithin (sign : Sign) (bound : Nat) (q : Quantity) : Prop :=
  bound ≤ 1023 → ∃ value, HasValue q.toFloat sign value ∧ value ≤ 2 ^ bound

def Within (bound : Nat) (q : Quantity) : Prop :=
  bound ≤ 1023 → ∃ sign value, HasValue q.toFloat sign value ∧ value ≤ 2 ^ bound

variable {a b : Quantity} {s t : Sign} {i j k n : Nat}

theorem SignedWithin.within (h : a.SignedWithin s i) : a.Within i := fun hi => ⟨s, h hi⟩

theorem Within.exists_signedWithin (h : a.Within i) (hi : i ≤ 1023) : ∃ s, a.SignedWithin s i := by
  obtain ⟨sign, hvalue⟩ := h hi
  exact ⟨sign, fun _ => hvalue⟩

theorem SignedWithin.mono (h : a.SignedWithin s i) (hle : i ≤ j) : a.SignedWithin s j := by
  intro hj
  obtain ⟨value, hvalue, hbound⟩ := h (hle.trans hj)
  exact ⟨value, hvalue, hbound.trans (pow_le_pow_right₀ one_le_two hle)⟩

theorem Within.mono (h : a.Within i) (hle : i ≤ j) : a.Within j := by
  intro hj
  obtain ⟨sign, h⟩ := h.exists_signedWithin (hle.trans hj)
  exact (h.mono hle).within hj

theorem Within.isFinite (h : a.Within i) (hi : i ≤ 1023) : Aprs.isFinite a.toFloat = true := by
  obtain ⟨sign, value, hvalue, -⟩ := h hi
  exact hvalue.isFinite

section Numerals

theorem signedWithin_decimal {d : Decimal} (h : d.digits ≤ 2 ^ k * 10 ^ d.places) :
    (decimal d).SignedWithin d.sign k := by
  intro hk
  have hvalue : (d.digits : Rat) / 10 ^ d.places ≤ 2 ^ k := by
    rw [div_le_iff₀ (by positivity)]
    exact_mod_cast h
  obtain ⟨result, hrounded, hresult⟩ :=
    d.isNearest_toFloat.exists_hasValue (hvalue.trans_lt (two_pow_lt_limit hk))
  rw [← zpow_natCast] at hvalue
  refine ⟨result, hresult, ?_⟩
  rw [← zpow_natCast]
  exact hrounded.le_two_zpow (by omega) hvalue

theorem signedWithin_scaled (digits places : Nat) (h : digits ≤ 2 ^ k * 10 ^ places) :
    (scaled digits places).SignedWithin .positive k :=
  signedWithin_decimal (d := ⟨false, digits, places⟩) h

theorem signedWithin_ofNat (h : n ≤ 2 ^ k) : (ofNat n).SignedWithin .positive k :=
  signedWithin_scaled n 0 (by rwa [pow_zero, Nat.mul_one])

theorem within_ofNat (h : n ≤ 2 ^ k) : (ofNat n).Within k := (signedWithin_ofNat h).within

theorem within_ofInt {i : Int} (h : i.natAbs ≤ 2 ^ k) : (ofInt i).Within k :=
  (signedWithin_decimal (d := .ofInt i) (by rwa [Decimal.ofInt, pow_zero, Nat.mul_one])).within

end Numerals

section Operations

theorem SignedWithin.neg (ha : a.SignedWithin s i) : (-a).SignedWithin (-s) i := by
  intro hi
  obtain ⟨value, hvalue, hbound⟩ := ha hi
  exact ⟨value, hvalue.neg, hbound⟩

theorem Within.neg (ha : a.Within i) : (-a).Within i := by
  intro hi
  obtain ⟨sign, ha⟩ := ha.exists_signedWithin hi
  exact ha.neg.within hi

theorem Within.negIf (negative : Bool) (ha : a.Within i) : (negIf negative a).Within i := by
  cases negative with
  | false => exact ha
  | true => exact ha.neg

theorem SignedWithin.mul (ha : a.SignedWithin s i) (hb : b.SignedWithin t j) :
    (a * b).SignedWithin (s * t) (i + j) := by
  intro hij
  obtain ⟨value, hvalue, hbound⟩ := ha (by omega)
  obtain ⟨value', hvalue', hbound'⟩ := hb (by omega)
  have hproduct : value * value' ≤ 2 ^ (i + j) := by
    rw [pow_add]
    exact mul_le_mul hbound hbound' hvalue'.nonneg (by positivity)
  obtain ⟨result, -, hresult, hle⟩ := (hvalue.mul hvalue').exists_le hproduct hij
  exact ⟨result, hresult, hle⟩

theorem Within.mul (ha : a.Within i) (hb : b.Within j) : (a * b).Within (i + j) := by
  intro hij
  obtain ⟨s, ha⟩ := ha.exists_signedWithin (by omega)
  obtain ⟨t, hb⟩ := hb.exists_signedWithin (by omega)
  exact (ha.mul hb).within hij

theorem Within.mul_scaled (ha : a.Within i) (digits places : Nat)
    (h : digits ≤ 2 ^ j * 10 ^ places) : (a * scaled digits places).Within (i + j) :=
  ha.mul (signedWithin_scaled digits places h).within

/-- Constants that divide have to be well above zero. -/
theorem SignedWithin.div_scaled (ha : a.SignedWithin s i) (digits places : Nat)
    (h : 10 ^ places ≤ digits * 2 ^ j ∧ digits ≤ 2 ^ 64 * 10 ^ places) :
    (a / scaled digits places).SignedWithin (s / .positive) (i + j) := by
  intro hij
  obtain ⟨value, hvalue, hbound⟩ := ha (by omega)
  have hdivisor : (digits / 10 ^ places : Rat) ≤ 2 ^ 64 := by
    rw [div_le_iff₀ (by positivity)]
    exact_mod_cast h.2
  obtain ⟨result, hrounded, hresult⟩ :=
    (isNearest_ofScientific digits places).exists_hasValue
      (hdivisor.trans_lt (two_pow_lt_limit (by decide)))
  have hsmall : (2 : Rat) ^ (-(j : Int)) ≤ digits / 10 ^ places := by
    rw [zpow_neg, zpow_natCast, inv_le_iff_one_le_mul₀ (by positivity), div_mul_eq_mul_div,
      le_div_iff₀ (by positivity), one_mul]
    exact_mod_cast h.1
  have hresultLow := hrounded.two_zpow_le (by omega) hsmall
  have hpos : 0 < result := (two_zpow_pos _).trans_le hresultLow
  have hquotient : value / result ≤ 2 ^ (i + j) := by
    rw [div_le_iff₀ hpos]
    calc value ≤ 2 ^ i := hbound
      _ = 2 ^ (i + j) * 2 ^ (-(j : Int)) := by
        rw [pow_add, zpow_neg, zpow_natCast, mul_inv_cancel_right₀ (by positivity)]
      _ ≤ 2 ^ (i + j) * result := mul_le_mul_of_nonneg_left hresultLow (by positivity)
  obtain ⟨quotient, -, hquotient, hle⟩ :=
    (hvalue.div hresult hpos.ne').exists_le hquotient hij
  exact ⟨quotient, hquotient, hle⟩

/-- Division by a constant that is not below one. -/
theorem Within.div_scaled (ha : a.Within i) (digits places : Nat)
    (h : 10 ^ places ≤ digits ∧ digits ≤ 2 ^ 64 * 10 ^ places) :
    (a / scaled digits places).Within i := by
  intro hi
  obtain ⟨sign, ha⟩ := ha.exists_signedWithin hi
  have hlow : 10 ^ places ≤ digits * 2 ^ 0 := by rw [pow_zero, Nat.mul_one]; exact h.1
  exact (ha.div_scaled digits places ⟨hlow, h.2⟩).within hi

/-- Sums and differences are no more than the sum of both bounds. -/
theorem exists_le_of_sum {x : Float} {value value' : Rat}
    (h : ∃ sign c, c ≤ value + value' ∧ IsNearest x sign c) (hvalue : value ≤ 2 ^ i)
    (hvalue' : value' ≤ 2 ^ j) (hij : max i j + 1 ≤ 1023) :
    ∃ sign result, HasValue x sign result ∧ result ≤ 2 ^ (max i j + 1) := by
  obtain ⟨sign, c, hc, hnearest⟩ := h
  have hsum : c ≤ 2 ^ (max i j + 1) := by
    calc c ≤ value + value' := hc
      _ ≤ 2 ^ max i j + 2 ^ max i j := add_le_add
        (hvalue.trans (pow_le_pow_right₀ one_le_two (le_max_left i j)))
        (hvalue'.trans (pow_le_pow_right₀ one_le_two (le_max_right i j)))
      _ = 2 ^ (max i j + 1) := by ring
  obtain ⟨result, -, hresult, hle⟩ := hnearest.exists_le hsum hij
  exact ⟨sign, result, hresult, hle⟩

theorem Within.add (ha : a.Within i) (hb : b.Within j) : (a + b).Within (max i j + 1) := by
  intro hij
  obtain ⟨s, value, hvalue, hbound⟩ := ha (by omega)
  obtain ⟨t, value', hvalue', hbound'⟩ := hb (by omega)
  exact exists_le_of_sum (hvalue.add hvalue') hbound hbound' hij

theorem Within.sub (ha : a.Within i) (hb : b.Within j) : (a - b).Within (max i j + 1) := by
  intro hij
  obtain ⟨s, value, hvalue, hbound⟩ := ha (by omega)
  obtain ⟨t, value', hvalue', hbound'⟩ := hb (by omega)
  exact exists_le_of_sum (hvalue.sub hvalue') hbound hbound' hij

theorem Within.outward (ha : a.Within i) (hb : b.Within j) :
    (outward a b).Within (max i j + 1) := by
  intro hij
  obtain ⟨s, value, hvalue, hbound⟩ := ha (by omega)
  obtain ⟨t, value', hvalue', hbound'⟩ := hb (by omega)
  rw [toFloat]
  split
  · exact exists_le_of_sum (hvalue.add hvalue'.neg) hbound hbound' hij
  · exact exists_le_of_sum (hvalue.add hvalue') hbound hbound' hij

theorem SignedWithin.sqrt (ha : a.SignedWithin .positive (2 * k)) (hk : 2 * k ≤ 1023) :
    (sqrt a).SignedWithin .positive k := by
  intro hk'
  obtain ⟨value, hvalue, hbound⟩ := ha hk
  have hsquare : value ≤ 2 ^ (2 * (k : Int)) := by
    rw [← zpow_natCast] at hbound
    exact_mod_cast hbound
  obtain ⟨c, hc, hnearest⟩ := hvalue.sqrt hsquare
  rw [zpow_natCast] at hc
  obtain ⟨result, -, hresult, hle⟩ := hnearest.exists_le hc hk'
  exact ⟨result, hresult, hle⟩

theorem isBetween_decibels :
    ∀ count, (Binary.ofFloat (decibels count).toFloat).isBetween 1 8 = true := by
  decide +kernel

theorem signedWithin_decibels (count : Fin 10) : (decibels count).SignedWithin .positive 3 := by
  intro _
  obtain ⟨value, hvalue, -, hle⟩ := exists_hasValue_of_isBetween (isBetween_decibels count)
  exact ⟨value, hvalue, hle.trans_eq (by norm_num)⟩

end Operations

section Power

/-- Bounds for a number from one on and for the squares that follow it. -/
def squaresWithin : List Nat → Float → Bool
  | [], _ => true
  | k :: ks, x => (Binary.ofFloat x).isBetween 1 (2 ^ k) && squaresWithin ks (x * x)

/-- Every bit of the exponent lets the product grow by a square at most. -/
theorem exists_hasValue_floatPower {ks : List Nat} {product square : Float} {value : Rat}
    (hproduct : HasValue product .positive value) (hone : 1 ≤ value) (hvalue : value ≤ 2 ^ i)
    (hsquares : squaresWithin ks square = true) (hn : n < 2 ^ ks.length)
    (hsum : i + ks.sum ≤ 1023) :
    ∃ result, HasValue (floatPower product square n) .positive result ∧ 1 ≤ result ∧
      result ≤ 2 ^ (i + ks.sum) := by
  -- The bounds are used up one for each bit of the exponent; that the product stays above one
  -- is what the reciprocal of a power needs.
  induction ks generalizing product square value i n with
  | nil =>
    obtain rfl : n = 0 := by simpa using hn
    rw [floatPower]
    exact ⟨value, hproduct, hone, hvalue⟩
  | cons k ks ih =>
    rw [squaresWithin, Bool.and_eq_true] at hsquares
    rw [List.sum_cons] at hsum ⊢
    obtain ⟨factor, hfactor, hfactorOne, hfactorLe⟩ := exists_hasValue_of_isBetween hsquares.1
    have hnext : ∃ value', HasValue (if n % 2 = 1 then product * square else product) .positive
        value' ∧ 1 ≤ value' ∧ value' ≤ 2 ^ (i + k) := by
      split
      · have hgrown : 1 ≤ value * factor := one_le_mul_of_one_le_of_one_le hone
          (by exact_mod_cast hfactorOne)
        have hbound : value * factor ≤ 2 ^ (i + k) := by
          rw [pow_add]
          exact mul_le_mul hvalue (by exact_mod_cast hfactorLe) hfactor.nonneg (by positivity)
        obtain ⟨result, hrounded, hresult, hle⟩ :=
          (hproduct.mul hfactor).exists_le hbound (by omega)
        exact ⟨result, hresult, hrounded.one_le hgrown, hle⟩
      · exact ⟨value, hproduct, hone, hvalue.trans (pow_le_pow_right₀ one_le_two (by omega))⟩
    obtain ⟨value', hvalue', hone', hle'⟩ := hnext
    rw [floatPower]
    split
    · exact ⟨value', hvalue', hone', hle'.trans (pow_le_pow_right₀ one_le_two (by omega))⟩
    · rw [← Nat.add_assoc] at hsum ⊢
      refine ih hvalue' hone' hle' hsquares.2 ?_ hsum
      rw [List.length_cons, pow_succ] at hn
      omega

theorem hasValue_one : HasValue 1.0 .positive 1 := by
  have hbetween : (Binary.ofFloat 1.0).isBetween 1 1 = true := by decide +kernel
  obtain ⟨value, hvalue, hlow, hhigh⟩ := exists_hasValue_of_isBetween hbetween
  rw [Nat.cast_one] at hlow hhigh
  rwa [le_antisymm hhigh hlow] at hvalue

theorem signedWithin_power {ks : List Nat} {base : Quantity}
    (hsquares : squaresWithin ks base.toFloat = true) (exponent : Int)
    (hexponent : exponent.natAbs < 2 ^ ks.length) :
    (power base exponent).SignedWithin .positive ks.sum := by
  intro hsum
  obtain ⟨value, hvalue, hone, hle⟩ := exists_hasValue_floatPower (i := 0) hasValue_one le_rfl
    (pow_zero 2).ge hsquares hexponent (by rwa [Nat.zero_add])
  rw [Nat.zero_add] at hle
  rw [toFloat]
  split
  · have hpos : 0 < value := one_pos.trans_le hone
    have hinverse : 1 / value ≤ 2 ^ ks.sum :=
      (div_le_one_of_le₀ hone hpos.le).trans (one_le_pow₀ one_le_two)
    obtain ⟨result, -, hresult, hbound⟩ :=
      (hasValue_one.div hvalue hpos.ne').exists_le hinverse hsum
    exact ⟨result, hresult, hbound⟩
  · exact ⟨value, hvalue, hle⟩

end Power

end Quantity

end Aprs
