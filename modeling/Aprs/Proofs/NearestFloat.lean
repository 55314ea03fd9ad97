import Aprs.Decimal
import Aprs.Proofs.FloatArithmetic

/-!
Floating-point operations and numerals as the numbers nearest to their exact values. A value has a
nearest number as long as it is below the limit.
-/

namespace Aprs

open Float.Model Float.Model.UnpackedFloat Rounding

/-- What a value of that sign is rounded to, which is infinite where the value is too large. -/
def IsNearest (x : Float) (sign : Sign) (value : Rat) : Prop :=
  ∃ u result, x = .ofModel (.pack u) ∧ Rounded value result ∧ Represents sign result u

section Operations

variable {x y : Float} {sign other : Sign} {value a b : Rat}

theorem IsNearest.exists_hasValue (h : IsNearest x sign value) (hlt : value < limit) :
    ∃ result, Rounded value result ∧ HasValue x sign result := by
  obtain ⟨u, result, rfl, hrounded, hresult⟩ := h
  exact ⟨result, hrounded, hresult.hasValue_pack (hrounded.lt_iff.mpr hlt)⟩

theorem IsNearest.isFinite_iff (h : IsNearest x sign value) :
    isFinite x = true ↔ value < limit := by
  refine ⟨fun hfinite => ?_, fun hlt => ?_⟩
  · obtain ⟨u, result, rfl, hrounded, hresult⟩ := h
    rw [← hrounded.lt_iff, ← not_le]
    intro hle
    rw [hresult.pack_eq hle, isFinite_pack_infinity] at hfinite
    cases hfinite
  · obtain ⟨result, -, hresult⟩ := h.exists_hasValue hlt
    exact hresult.isFinite

/-- An infinity has a negative as well. -/
theorem IsNearest.neg (h : IsNearest x sign value) : IsNearest (-x) (-sign) value := by
  obtain ⟨u, result, rfl, hrounded, hresult⟩ := h
  by_cases hlt : result < 2 ^ 1024
  · have hrepresents := (hresult.hasValue_pack hlt).represents.1
    exact ⟨_, result, rfl, hrounded, hrepresents.neg⟩
  · have hle := not_lt.mp hlt
    have hneg : -Float.ofModel (.pack (.infinity sign)) = .ofModel (.pack (UnpackedFloat.unpack
      Format.binary64 (UnpackedFloat.pack Format.binary64 (.infinity sign))).neg) := rfl
    refine ⟨u.neg, result, ?_, hrounded, hresult.neg⟩
    rw [hresult.pack_eq hle, hresult.neg.pack_eq hle, hneg, unpack_pack_infinity]
    rfl

theorem HasValue.mul (hx : HasValue x sign a) (hy : HasValue y other b) :
    IsNearest (x * y) (sign * other) (a * b) := by
  obtain ⟨result, hrounded, hresult⟩ := exists_represents_mul hx.represents.1 hy.represents.1
  exact ⟨_, result, rfl, hrounded, hresult⟩

theorem HasValue.div (hx : HasValue x sign a) (hy : HasValue y other b) (hb : b ≠ 0) :
    IsNearest (x / y) (sign / other) (a / b) := by
  obtain ⟨result, hrounded, hresult⟩ := exists_represents_div hx.represents.1 hy.represents.1 hb
  exact ⟨_, result, rfl, hrounded, hresult⟩

theorem HasValue.neg (hx : HasValue x sign a) : HasValue (-x) (-sign) a := by
  obtain ⟨hrepresents, hlt⟩ := hx.represents
  exact hrepresents.neg.hasValue_pack hlt

theorem HasValue.exists_isNearest_add (hx : HasValue x sign a) (hy : HasValue y other b) :
    ∃ s c, 0 ≤ c ∧ signed s c = signed sign a + signed other b ∧ IsNearest (x + y) s c := by
  obtain ⟨s, c, result, hnonneg, hsum, hrounded, hresult⟩ :=
    exists_represents_add hx.represents.1 hy.represents.1
  exact ⟨s, c, hnonneg, hsum, _, result, rfl, hrounded, hresult⟩

theorem HasValue.exists_isNearest_sub (hx : HasValue x sign a) (hy : HasValue y other b) :
    ∃ s c, 0 ≤ c ∧ signed s c = signed sign a + signed (-other) b ∧ IsNearest (x - y) s c := by
  obtain ⟨s, c, result, hnonneg, hsum, hrounded, hresult⟩ :=
    exists_represents_add hx.represents.1 hy.represents.1.neg
  rw [← sub_eq_add_neg_of_represents hx.represents.1 hy.represents.1] at hresult
  exact ⟨s, c, hnonneg, hsum, _, result, rfl, hrounded, hresult⟩

/-- The sum of magnitudes bounds that of the sum. -/
theorem le_add_of_signed_eq {s : Sign} {c : Rat} (ha : 0 ≤ a) (hb : 0 ≤ b) (hc : 0 ≤ c)
    (h : signed s c = signed sign a + signed other b) : c ≤ a + b := by
  calc c = |signed sign a + signed other b| := by rw [← h, abs_signed, abs_of_nonneg hc]
    _ ≤ |signed sign a| + |signed other b| := abs_add_le _ _
    _ = a + b := by rw [abs_signed, abs_signed, abs_of_nonneg ha, abs_of_nonneg hb]

theorem HasValue.add (hx : HasValue x sign a) (hy : HasValue y other b) :
    ∃ s c, c ≤ a + b ∧ IsNearest (x + y) s c := by
  obtain ⟨s, c, hc, hsum, hnearest⟩ := hx.exists_isNearest_add hy
  exact ⟨s, c, le_add_of_signed_eq hx.nonneg hy.nonneg hc hsum, hnearest⟩

theorem HasValue.sub (hx : HasValue x sign a) (hy : HasValue y other b) :
    ∃ s c, c ≤ a + b ∧ IsNearest (x - y) s c := by
  obtain ⟨s, c, hc, hsum, hnearest⟩ := hx.exists_isNearest_sub hy
  exact ⟨s, c, le_add_of_signed_eq hx.nonneg hy.nonneg hc hsum, hnearest⟩

theorem HasValue.sqrt {k : Int} (hx : HasValue x .positive a) (ha : a ≤ 2 ^ (2 * k)) :
    ∃ c, c ≤ 2 ^ k ∧ IsNearest x.sqrt .positive c := by
  obtain ⟨c, result, hle, hrounded, hresult⟩ := exists_represents_sqrt hx.represents.1 ha
  exact ⟨c, hle, _, result, rfl, hrounded, hresult⟩

end Operations

section Numerals

variable {n places : Nat}

/-- Whole numbers of 53 bits are numbers of the format. -/
theorem Rounding.Rounded.eq_natCast {result : Rat} (h : Rounded n result) (hn : n < 2 ^ 53) :
    result = n := by
  obtain ⟨m, exponent, hcanonical, hdescribes, rfl⟩ := h
  have hexponent : exponent ≤ 0 := by
    by_contra hpos
    have hfull : 2 ^ 52 ≤ m.mantissa := hcanonical.full.resolve_right (by omega)
    have hle : (2 : Rat) ^ (53 : Int) ≤ n :=
      (zpow_le_zpow_right₀ one_le_two (by omega)).trans
        ((two_zpow_add_le hfull).trans hdescribes.mantissa_le)
    have hlt : (n : Rat) < 2 ^ (53 : Int) := by exact_mod_cast hn
    exact absurd hle (not_le.mpr hlt)
  obtain ⟨k, hk⟩ := exists_nat_mul_two_zpow hexponent
  have hvalue : (n : Rat) = (n * k : Nat) * 2 ^ exponent := by
    rw [Nat.cast_mul, mul_assoc, ← hk, zpow_zero, mul_one]
  have hrounded : m.roundedMantissa = n * k :=
    le_antisymm (hdescribes.roundedMantissa_le hvalue.le) (hdescribes.le_roundedMantissa hvalue.ge)
  rw [hrounded, ← hvalue]

theorem hasValue_toFloat (hn : n < 2 ^ 53) : HasValue n.toUInt64.toFloat .positive n := by
  have hnat : n.toUInt64.toNat = n := by
    rw [UInt64.toNat_ofNat']
    exact Nat.mod_eq_of_lt (hn.trans (by decide))
  have hfloat : n.toUInt64.toFloat =
      .ofModel (.pack (UnpackedFloat.normalize Format.binary64 n 0 .positive)) := by
    change Float.ofModel (.pack (UnpackedFloat.normalize Format.binary64 n.toUInt64.toNat 0
      .positive)) = _
    rw [hnat]
  have hlt : (n : Rat) < 2 ^ 1024 := by
    calc (n : Rat) < 2 ^ 53 := by exact_mod_cast hn
      _ ≤ 2 ^ 1024 := pow_le_pow_right₀ one_le_two (by norm_num)
  rw [hfloat]
  rcases Nat.eq_zero_or_pos n with rfl | hpos
  · exact Represents.hasValue_pack (u := .zero .positive) ⟨rfl, Nat.cast_zero⟩ hlt
  · obtain ⟨result, hrounded, hresult⟩ := exists_represents_round .positive hpos 0
    rw [zpow_zero, mul_one] at hrounded
    rw [hrounded.eq_natCast hn] at hresult
    have hround : UnpackedFloat.normalize Format.binary64 n 0 .positive =
        UnpackedFloat.round Format.binary64 .positive n 0 := by
      rw [UnpackedFloat.normalize, Int.compare_eq_gt.mpr (by omega)]
      rfl
    rw [hround]
    exact hresult.hasValue_pack hlt

/-- A power of two is a quotient of two whole ones. -/
theorem two_zpow_eq_div (exponent : Int) :
    (2 : Rat) ^ exponent = 2 ^ exponent.toNat / 2 ^ (-exponent).toNat := by
  rw [← zpow_natCast, ← zpow_natCast, ← zpow_sub₀ two_ne_zero]
  congr 1
  omega

/-- A positive number between two whole ones, compared in units of its last place. -/
def Binary.isBetween (low high : Nat) : Binary → Bool
  | finite false mantissa exponent =>
    decide (low * 2 ^ (-exponent).toNat ≤ mantissa * 2 ^ exponent.toNat) &&
      decide (mantissa * 2 ^ exponent.toNat ≤ high * 2 ^ (-exponent).toNat)
  | _ => false

theorem exists_hasValue_of_isBetween {x : Float} {low high : Nat}
    (h : (Binary.ofFloat x).isBetween low high = true) :
    ∃ value, HasValue x .positive value ∧ low ≤ value ∧ value ≤ high := by
  unfold Binary.isBetween at h
  split at h
  · next mantissa exponent hx =>
    rw [Bool.and_eq_true, decide_eq_true_eq, decide_eq_true_eq] at h
    refine ⟨mantissa * 2 ^ exponent, ⟨mantissa, exponent, hx, rfl⟩, ?_, ?_⟩
    · rw [two_zpow_eq_div, ← mul_div_assoc, le_div_iff₀ (by positivity)]
      exact_mod_cast h.1
    · rw [two_zpow_eq_div, ← mul_div_assoc, div_le_iff₀ (by positivity)]
      exact_mod_cast h.2
  · cases h

theorem isBetween_powersOfTen (places : Fin 23) :
    (Binary.ofFloat Float.exactlyRepresentablePowersOfTen[places]).isBetween (10 ^ places.val)
      (10 ^ places.val) = true := by
  revert places
  decide +kernel

theorem hasValue_powersOfTen (h : places < 23) :
    HasValue Float.exactlyRepresentablePowersOfTen[places] .positive (10 ^ places : Nat) := by
  obtain ⟨value, hvalue, hlow, hhigh⟩ :=
    exists_hasValue_of_isBetween (isBetween_powersOfTen ⟨places, h⟩)
  rwa [le_antisymm hhigh hlow] at hvalue

/-- Far below the least number there is only zero. -/
theorem rounded_zero_of_lt {value : Rat} (hnonneg : 0 ≤ value) (hlt : value < 2 ^ (-1075 : Int)) :
    Rounded value 0 := by
  have hcanonical : Canonical 0 (-1074) := ⟨by decide, le_rfl, .inr rfl⟩
  have hunit := two_zpow_pos (-1074)
  have hpower : (2 : Rat) ^ (-1075 : Int) = 1 / 2 * 2 ^ (-1074 : Int) := by
    rw [show (-1074 : Int) = -1075 + 1 by norm_num, zpow_add_one₀ two_ne_zero]
    ring
  rw [hpower, ← div_lt_iff₀ hunit] at hlt
  have hvalue : value = value / 2 ^ (-1074 : Int) * 2 ^ (-1074 : Int) :=
    (div_mul_cancel₀ value hunit.ne').symm
  have hpart : 0 ≤ value / 2 ^ (-1074 : Int) := div_nonneg hnonneg hunit.le
  generalize value / 2 ^ (-1074 : Int) = part at *
  by_cases hzero : part = 0
  · refine ⟨⟨0, false, false⟩, -1074, hcanonical, ⟨part, hpart, by linarith, ?_, ?_, ?_⟩, ?_⟩
    · exact iff_of_false nofun (by linarith)
    · exact iff_of_false nofun fun hne => hne.1 hzero
    · rw [hvalue, Nat.cast_zero, zero_add]
    · exact (zero_mul _).symm
  · refine ⟨⟨0, false, true⟩, -1074, hcanonical, ⟨part, hpart, by linarith, ?_, ?_, ?_⟩, ?_⟩
    · exact iff_of_false nofun (by linarith)
    · exact iff_of_true rfl ⟨hzero, by linarith⟩
    · rw [hvalue, Nat.cast_zero, zero_add]
    · exact (zero_mul _).symm

/-- Numerals with that many places are below the least number. -/
theorem div_ten_pow_lt (hplaces : 2048 + n.log2 < places) :
    (n : Rat) / 10 ^ places < 2 ^ (-1075 : Int) := by
  have hn : (n : Rat) < 2 ^ (n.log2 + 1) := by exact_mod_cast Nat.lt_log2_self
  have hten : (2 : Rat) ^ (n.log2 + 1 + 1075) ≤ 10 ^ places := by
    calc (2 : Rat) ^ (n.log2 + 1 + 1075) ≤ 2 ^ places :=
          pow_le_pow_right₀ one_le_two (by omega)
      _ ≤ 10 ^ places := pow_le_pow_left₀ two_pos.le (by norm_num) places
  rw [zpow_neg, div_lt_iff₀ (by positivity), ← div_eq_inv_mul, lt_div_iff₀ (by positivity)]
  calc (n : Rat) * 2 ^ (1075 : Int) < 2 ^ (n.log2 + 1) * 2 ^ (1075 : Int) :=
        mul_lt_mul_of_pos_right hn (by positivity)
    _ = 2 ^ (n.log2 + 1 + 1075) := by rw [pow_add _ (n.log2 + 1)]; rfl
    _ ≤ 10 ^ places := hten

theorem exists_represents_ofScientific (n places : Nat) :
    ∃ result, Rounded (n / 10 ^ places) result ∧ Represents .positive result
      (UnpackedFloat.ofScientific Format.binary64 n (Int.negOfNat places)) := by
  rw [UnpackedFloat.ofScientific]
  rcases Nat.eq_zero_or_pos n with rfl | hpos
  · rw [dif_pos rfl, Nat.cast_zero, zero_div]
    exact ⟨0, rounded_zero, rfl, rfl⟩
  have hnegative : Int.negOfNat places = -(places : Int) := Int.negOfNat_eq
  have hbits : ((2 : Int) ^ Format.binary64.exponentBits) = 2048 := rfl
  rw [dif_neg hpos.ne', if_neg (by rw [hnegative, hbits]; omega), hnegative, hbits]
  split
  · next hfar => exact ⟨0, rounded_zero_of_lt (by positivity) (div_ten_pow_lt (by omega)), rfl, rfl⟩
  split
  · next hnonneg =>
    have hplaces : places = 0 := by omega
    have hvalue : (n / 10 ^ places : Rat) = (n <<< Format.binary64.mantissaBits : Nat) *
        2 ^ (-(Format.binary64.mantissaBits : Int)) *
          ((10 ^ (-(places : Int)).toNat : Nat) * 2 ^ (0 : Int)) := by
      rw [Nat.shiftLeft_eq, Nat.cast_mul, Nat.cast_pow, Nat.cast_ofNat, zpow_neg, zpow_natCast,
        mul_inv_cancel_right₀ (by positivity), hplaces]
      simp
    rw [hvalue]
    refine exists_represents_mul_finite .positive .positive _ _ ?_
    have hbits : (Format.binary64.mantissaBits : Int) = 53 := rfl
    have hone : 10 ^ (-(places : Int)).toNat = 1 := by rw [hplaces]; rfl
    rw [hone, Nat.mul_one, targetExponent_eq, log2_shiftLeft hpos]
    omega
  · have hpower : (n / 10 ^ places : Rat) =
        n * 2 ^ (0 : Int) / ((10 ^ (- -(places : Int)).toNat : Nat) * 2 ^ (0 : Int)) := by
      rw [neg_neg, Int.toNat_natCast, zpow_zero, mul_one, mul_one, Nat.cast_pow, Nat.cast_ofNat]
    rw [hpower]
    exact exists_represents_div_finite hpos (by positivity)

/-- A numeral is read as the nearest number. -/
theorem isNearest_ofScientific (n places : Nat) :
    IsNearest (Float.ofScientific n true places) .positive (n / 10 ^ places) := by
  rw [Float.ofScientific]
  split
  · next hsmall =>
    have hpower := hasValue_powersOfTen (Nat.lt_succ_of_le hsmall.2)
    have hten : (10 ^ places : Rat) ≠ 0 := by positivity
    rw [Nat.cast_pow, Nat.cast_ofNat] at hpower
    exact (hasValue_toFloat hsmall.1).div hpower hten
  · obtain ⟨result, hrounded, hresult⟩ := exists_represents_ofScientific n places
    exact ⟨_, result, rfl, hrounded, hresult⟩

/-- The sign that a numeral has, also where it is zero. -/
def Decimal.sign (d : Decimal) : Sign := if d.negative then .negative else .positive

theorem Decimal.isNearest_toFloat (d : Decimal) :
    IsNearest d.toFloat d.sign (d.digits / 10 ^ d.places) := by
  have hnearest := isNearest_ofScientific d.digits d.places
  rw [Decimal.toFloat, Decimal.sign]
  cases d.negative with
  | false => exact hnearest
  | true => exact hnearest.neg

/-- Numerals have nearest numbers just where their exact values are below the limit. -/
theorem Decimal.isFinite_toFloat_iff (d : Decimal) :
    isFinite d.toFloat = true ↔ (d.digits : Rat) / 10 ^ d.places < limit :=
  d.isNearest_toFloat.isFinite_iff

/-- Whole numbers of 53 bits are not rounded. -/
theorem IsNearest.hasValue_natCast {x : Float} {sign : Sign} (h : IsNearest x sign n)
    (hn : n < 2 ^ 53) : HasValue x sign n := by
  have hlt : (n : Rat) < limit := by
    calc (n : Rat) < 2 ^ 53 := by exact_mod_cast hn
      _ < limit := two_pow_lt_limit (by decide)
  obtain ⟨result, hrounded, hresult⟩ := h.exists_hasValue hlt
  rwa [hrounded.eq_natCast hn] at hresult

theorem Decimal.hasValue_ofNat (hn : n < 2 ^ 53) : HasValue (ofNat n).toFloat .positive n := by
  have hnearest := isNearest_ofScientific n 0
  rw [pow_zero, div_one] at hnearest
  exact hnearest.hasValue_natCast hn

/-- A floating-point number that was not rounded at all. -/
def IsExactly (x : Float) (value : Rat) : Prop :=
  ∃ sign magnitude, HasValue x sign magnitude ∧ signed sign magnitude = value

/-- Their differences are not rounded either. -/
theorem HasValue.isExactly_sub {x y : Float} {m : Nat} (hx : HasValue x .positive m)
    (hy : HasValue y .positive n) (hm : m < 2 ^ 53) (hn : n < 2 ^ 53) :
    IsExactly (x - y) (m - n) := by
  obtain ⟨s, c, hc, hsum, hnearest⟩ := hx.exists_isNearest_sub hy
  have hdifference : signed s c = (m : Rat) - n := by
    rw [hsum, sub_eq_add_neg]
    rfl
  have hwhole : c = (((m : Int) - n).natAbs : Nat) := by
    rw [Nat.cast_natAbs, ← abs_of_nonneg hc, ← abs_signed s, hdifference]
    push_cast
    rfl
  rw [hwhole] at hnearest
  refine ⟨s, _, hnearest.hasValue_natCast (by omega), ?_⟩
  rw [← hwhole, hdifference]

end Numerals

end Aprs
