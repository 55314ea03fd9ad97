import Aprs.Binary
import Aprs.Proofs.Reading

/-!
Rounding of floating-point arithmetic. A mantissa with two residual bits describes the value that it
was cut off from, shifting it keeps what it describes, and the mantissa that rounding makes of it is
the multiple of the last place nearest to that value.
-/

namespace Aprs.Rounding

open Float.Model Float.Model.UnpackedFloat

/-- The value is a part of the last place above the mantissa. One bit tells whether that is a half
or more, the other whether it is neither nothing nor a half. -/
def Describes (m : ExtendedMantissa) (exponent : Int) (value : Rat) : Prop :=
  ∃ part : Rat, 0 ≤ part ∧ part < 1 ∧ (m.roundBit = true ↔ 1 / 2 ≤ part) ∧
    (m.stickyBit = true ↔ part ≠ 0 ∧ part ≠ 1 / 2) ∧ value = (m.mantissa + part) * 2 ^ exponent

section Shifting

variable {m : ExtendedMantissa} {exponent : Int} {value : Rat}

theorem Describes.shiftRightOne (h : Describes m exponent value) :
    Describes m.shiftRightOne (exponent + 1) value := by
  obtain ⟨part, hnonneg, hlt, hround, hsticky, rfl⟩ := h
  have hmantissa : (m.mantissa : Rat) = 2 * (m.mantissa / 2 : Nat) + (m.mantissa % 2 : Nat) := by
    exact_mod_cast (Nat.div_add_mod m.mantissa 2).symm
  have hbits : (m.roundBit || m.stickyBit) = true ↔ part ≠ 0 := by
    rw [Bool.or_eq_true, hround, hsticky]
    constructor
    · rintro (hhalf | ⟨hzero, -⟩)
      · linarith
      · exact hzero
    · intro hzero
      by_cases hhalf : part = 1 / 2
      · exact .inl hhalf.ge
      · exact .inr ⟨hzero, hhalf⟩
  obtain hmod | hmod := Nat.mod_two_eq_zero_or_one m.mantissa
  · rw [hmod, Nat.cast_zero, add_zero] at hmantissa
    refine ⟨part / 2, by linarith, by linarith, ?_, ?_, ?_⟩
    · simp only [ExtendedMantissa.shiftRightOne, hmod]
      exact iff_of_false (by decide) (by linarith)
    · rw [ExtendedMantissa.shiftRightOne, hbits]
      constructor
      · exact fun hne => ⟨fun heq => hne (by linarith), fun heq => by linarith⟩
      · exact fun hne heq => hne.1 (by linarith)
    · rw [hmantissa, zpow_add_one₀ two_ne_zero]
      simp only [ExtendedMantissa.shiftRightOne]
      ring
  · rw [hmod, Nat.cast_one] at hmantissa
    refine ⟨(1 + part) / 2, by linarith, by linarith, ?_, ?_, ?_⟩
    · simp only [ExtendedMantissa.shiftRightOne, hmod]
      exact iff_of_true (by decide) (by linarith)
    · rw [ExtendedMantissa.shiftRightOne, hbits]
      constructor
      · exact fun hne => ⟨fun heq => by linarith, fun heq => hne (by linarith)⟩
      · exact fun hne heq => hne.2 (by linarith)
    · rw [hmantissa, zpow_add_one₀ two_ne_zero]
      simp only [ExtendedMantissa.shiftRightOne]
      ring

theorem shiftRight_succ (m : ExtendedMantissa) (n : Nat) :
    m >>> (n + 1) = (m >>> n).shiftRightOne := rfl

theorem Describes.shiftRight (h : Describes m exponent value) (n : Nat) :
    Describes (m >>> n) (exponent + n) value := by
  induction n with
  | zero =>
    rw [Nat.cast_zero, add_zero]
    exact h
  | succ n ih =>
    rw [shiftRight_succ, Nat.cast_succ, ← add_assoc]
    exact ih.shiftRightOne

theorem mantissa_shiftRight (m : ExtendedMantissa) (n : Nat) :
    (m >>> n).mantissa = m.mantissa / 2 ^ n := by
  induction n with
  | zero => exact (Nat.div_one _).symm
  | succ n ih =>
    rw [shiftRight_succ, pow_succ, ← Nat.div_div_eq_div_mul, ← ih]
    rfl

end Shifting

section Nearest

variable {m : ExtendedMantissa} {exponent : Int} {value : Rat} {k : Nat}

theorem two_zpow_pos (exponent : Int) : (0 : Rat) < 2 ^ exponent := zpow_pos two_pos exponent

theorem le_roundedMantissa (m : ExtendedMantissa) :
    m.mantissa ≤ m.roundedMantissa ∧ m.roundedMantissa ≤ m.mantissa + 1 := by
  obtain ⟨mantissa, round, sticky⟩ := m
  cases round <;> cases sticky <;>
    simp only [ExtendedMantissa.roundedMantissa, ExtendedMantissa.accuracy,
      Accuracy.roundToNearestEven] <;>
    omega

/-- A whole number of last places is not passed in rounding. -/
theorem Describes.roundedMantissa_le (h : Describes m exponent value)
    (hvalue : value ≤ k * 2 ^ exponent) : m.roundedMantissa ≤ k := by
  obtain ⟨part, hnonneg, -, hround, hsticky, rfl⟩ := h
  have hle := le_of_mul_le_mul_right hvalue (two_zpow_pos exponent)
  rcases hnonneg.eq_or_lt with rfl | hpos
  · obtain ⟨mantissa, round, sticky⟩ := m
    obtain rfl : round = false := by
      rw [← Bool.not_eq_true, hround]
      norm_num
    obtain rfl : sticky = false := by
      rw [← Bool.not_eq_true, hsticky]
      exact fun hne => hne.1 rfl
    rw [add_zero] at hle
    exact_mod_cast hle
  · have hlt : (m.mantissa : Rat) < k := by linarith
    have hmantissa : m.mantissa < k := by exact_mod_cast hlt
    exact (le_roundedMantissa m).2.trans hmantissa

theorem Describes.le_roundedMantissa (h : Describes m exponent value)
    (hvalue : k * 2 ^ exponent ≤ value) : k ≤ m.roundedMantissa := by
  obtain ⟨part, -, hlt, -, -, rfl⟩ := h
  have hle := le_of_mul_le_mul_right hvalue (two_zpow_pos exponent)
  have hk : (k : Rat) < (m.mantissa + 1 : Nat) := by
    push_cast
    linarith
  have hmantissa : k < m.mantissa + 1 := by exact_mod_cast hk
  exact (Nat.lt_succ_iff.mp hmantissa).trans (Rounding.le_roundedMantissa m).1

/-- Between an odd number and the next one, half way is up. -/
theorem Describes.lt_roundedMantissa_iff (h : Describes m exponent value) (hodd : k % 2 = 1) :
    k < m.roundedMantissa ↔ (k + 1 / 2) * 2 ^ exponent ≤ value := by
  obtain ⟨part, hnonneg, hlt, hround, hsticky, rfl⟩ := h
  rw [mul_le_mul_iff_left₀ (two_zpow_pos exponent)]
  have hmantissa := Rounding.le_roundedMantissa m
  rcases lt_trichotomy k m.mantissa with hk | rfl | hk
  · have hcast : (k : Rat) + 1 ≤ m.mantissa := by exact_mod_cast hk
    exact iff_of_true (hk.trans_le hmantissa.1) (by linarith)
  · obtain ⟨mantissa, round, sticky⟩ := m
    dsimp only at hodd hround
    rw [add_le_add_iff_left, ← hround]
    cases round <;> cases sticky <;>
      simp [ExtendedMantissa.roundedMantissa, ExtendedMantissa.accuracy,
        Accuracy.roundToNearestEven, hodd]
  · have hcast : (m.mantissa : Rat) + 1 ≤ k := by exact_mod_cast hk
    exact iff_of_false (by omega) (by linarith)

end Nearest

section Grid

/-- A mantissa has all 53 bits, or fewer at the least exponent. -/
structure Canonical (mantissa : Nat) (exponent : Int) : Prop where
  lt : mantissa < 2 ^ 53
  exponent_ge : -1074 ≤ exponent
  full : 2 ^ 52 ≤ mantissa ∨ exponent = -1074

/-- The result is the value rounded to the last place that there is for it. -/
def Rounded (value result : Rat) : Prop :=
  ∃ (m : ExtendedMantissa) (exponent : Int), Canonical m.mantissa exponent ∧
    Describes m exponent value ∧ result = m.roundedMantissa * 2 ^ exponent

variable {value result : Rat} {m : ExtendedMantissa} {mantissa : Nat} {exponent k : Int}

theorem Describes.mantissa_le (h : Describes m exponent value) :
    m.mantissa * 2 ^ exponent ≤ value := by
  obtain ⟨part, hnonneg, -, -, -, rfl⟩ := h
  exact mul_le_mul_of_nonneg_right (by linarith) (two_zpow_pos exponent).le

theorem Describes.lt_mantissa_succ (h : Describes m exponent value) :
    value < (m.mantissa + 1) * 2 ^ exponent := by
  obtain ⟨part, -, hlt, -, -, rfl⟩ := h
  exact mul_lt_mul_of_pos_right (by linarith) (two_zpow_pos exponent)

/-- Above the least exponent, a value is well above the power of two of its last place. -/
theorem two_zpow_add_le (hfull : 2 ^ 52 ≤ mantissa) :
    (2 : Rat) ^ (52 + exponent) ≤ mantissa * 2 ^ exponent := by
  rw [zpow_add₀ two_ne_zero]
  refine mul_le_mul_of_nonneg_right ?_ (two_zpow_pos exponent).le
  exact_mod_cast hfull

theorem exists_nat_mul_two_zpow (h : exponent ≤ k) :
    ∃ n : Nat, (2 : Rat) ^ k = n * 2 ^ exponent := by
  refine ⟨2 ^ (k - exponent).toNat, ?_⟩
  rw [Nat.cast_pow, Nat.cast_ofNat, ← zpow_natCast, ← zpow_add₀ two_ne_zero]
  congr 1
  omega

/-- Rounding does not pass a power of two. -/
theorem Rounded.le_two_zpow (h : Rounded value result) (hk : -1074 ≤ k) (hvalue : value ≤ 2 ^ k) :
    result ≤ 2 ^ k := by
  obtain ⟨m, exponent, hcanonical, hdescribes, rfl⟩ := h
  have hexponent : exponent ≤ k := by
    rcases hcanonical.full with hfull | rfl
    · have hle : (2 : Rat) ^ (52 + exponent) ≤ 2 ^ k :=
        (two_zpow_add_le hfull).trans (hdescribes.mantissa_le.trans hvalue)
      have := (zpow_le_zpow_iff_right₀ one_lt_two).mp hle
      omega
    · exact hk
  obtain ⟨n, hn⟩ := exists_nat_mul_two_zpow hexponent
  rw [hn] at hvalue ⊢
  refine mul_le_mul_of_nonneg_right ?_ (two_zpow_pos exponent).le
  exact_mod_cast hdescribes.roundedMantissa_le hvalue

theorem Rounded.two_zpow_le (h : Rounded value result) (hk : -1074 ≤ k) (hvalue : 2 ^ k ≤ value) :
    2 ^ k ≤ result := by
  obtain ⟨m, exponent, hcanonical, hdescribes, rfl⟩ := h
  by_cases hexponent : exponent ≤ k
  · obtain ⟨n, hn⟩ := exists_nat_mul_two_zpow hexponent
    rw [hn] at hvalue ⊢
    refine mul_le_mul_of_nonneg_right ?_ (two_zpow_pos exponent).le
    exact_mod_cast hdescribes.le_roundedMantissa hvalue
  · have hfull : 2 ^ 52 ≤ m.mantissa := hcanonical.full.resolve_right (by omega)
    refine le_trans ?_ (two_zpow_add_le (hfull.trans (le_roundedMantissa m).1))
    exact zpow_le_zpow_right₀ one_le_two (by omega)

/-- Values from here on are nearer to the power of two past the largest number than to that
number. -/
def limit : Rat := 2 ^ 1024 - 2 ^ 970

theorem two_pow_1024 : (2 : Rat) ^ 1024 = 2 ^ 54 * 2 ^ 970 := by rw [← pow_add]

theorem two_zpow_970 : (2 : Rat) ^ (970 : Int) = 2 ^ 970 := zpow_ofNat 2 970

theorem two_zpow_971 : (2 : Rat) ^ (971 : Int) = 2 * 2 ^ 970 := by
  rw [← pow_succ']
  exact zpow_ofNat 2 971

theorem limit_lt : limit < 2 ^ 1024 := sub_lt_self _ (pow_pos two_pos 970)

/-- It lies half way between the largest number and the power. -/
theorem limit_eq : limit = ((2 ^ 53 - 1 : Nat) + 1 / 2) * 2 ^ (971 : Int) := by
  rw [limit, two_pow_1024, two_zpow_971]
  generalize (2 : Rat) ^ 970 = unit
  norm_num
  ring

theorem two_pow_lt_limit {k : Nat} (hk : k ≤ 1023) : (2 : Rat) ^ k < limit := by
  have hpos : (0 : Rat) < 2 ^ 970 := pow_pos two_pos 970
  calc (2 : Rat) ^ k ≤ 2 ^ 1023 := pow_le_pow_right₀ one_le_two hk
    _ = 2 ^ 53 * 2 ^ 970 := by rw [← pow_add]
    _ < limit := by
      rw [limit, two_pow_1024]
      generalize (2 : Rat) ^ 970 = unit at hpos ⊢
      linarith

/-- Magnitudes below the power of two past the format leave its exponents. -/
theorem Canonical.lt_iff (h : Canonical mantissa exponent) :
    (mantissa : Rat) * 2 ^ exponent < 2 ^ 1024 ↔ exponent ≤ 971 := by
  have hunit := two_zpow_pos exponent
  by_cases hexponent : exponent ≤ 971
  · refine iff_of_true ?_ hexponent
    have hmantissa : (mantissa : Rat) < 2 ^ 53 := by exact_mod_cast h.lt
    calc (mantissa : Rat) * 2 ^ exponent < 2 ^ 53 * 2 ^ exponent :=
          mul_lt_mul_of_pos_right hmantissa hunit
      _ ≤ 2 ^ 53 * 2 ^ (971 : Int) :=
          mul_le_mul_of_nonneg_left (zpow_le_zpow_right₀ one_le_two hexponent) (by positivity)
      _ = 2 ^ 1024 := by
          rw [two_pow_1024, two_zpow_971]
          generalize (2 : Rat) ^ 970 = unit
          ring
  · refine iff_of_false ?_ hexponent
    have hfull : 2 ^ 52 ≤ mantissa := h.full.resolve_right (by omega)
    rw [not_lt]
    calc (2 : Rat) ^ 1024 = 2 ^ (1024 : Int) := (zpow_ofNat 2 1024).symm
      _ ≤ 2 ^ (52 + exponent) := zpow_le_zpow_right₀ one_le_two (by omega)
      _ ≤ mantissa * 2 ^ exponent := two_zpow_add_le hfull

/-- What rounding leaves below the power of two that has no place in the format. -/
theorem Rounded.lt_iff (h : Rounded value result) : result < 2 ^ 1024 ↔ value < limit := by
  obtain ⟨m, exponent, hcanonical, hdescribes, rfl⟩ := h
  have hlimit := limit_lt
  have hmantissa : (m.mantissa : Rat) + 1 ≤ 2 ^ 53 := by exact_mod_cast hcanonical.lt
  have hrounded : (m.roundedMantissa : Rat) ≤ m.mantissa + 1 := by
    exact_mod_cast (le_roundedMantissa m).2
  have hunit := two_zpow_pos exponent
  rcases lt_trichotomy exponent 971 with hexponent | rfl | hexponent
  · have hsmall : (2 : Rat) ^ 53 * 2 ^ exponent < limit := by
      calc (2 : Rat) ^ 53 * 2 ^ exponent ≤ 2 ^ 53 * 2 ^ (970 : Int) :=
            mul_le_mul_of_nonneg_left (zpow_le_zpow_right₀ one_le_two (by omega)) (by positivity)
        _ < limit := by
            rw [limit, two_pow_1024, two_zpow_970]
            have hpos : (0 : Rat) < 2 ^ 970 := pow_pos two_pos 970
            generalize (2 : Rat) ^ 970 = unit at hpos ⊢
            linarith
    refine iff_of_true ?_ ?_
    · calc (m.roundedMantissa : Rat) * 2 ^ exponent ≤ 2 ^ 53 * 2 ^ exponent :=
            mul_le_mul_of_nonneg_right (hrounded.trans hmantissa) hunit.le
        _ < 2 ^ 1024 := hsmall.trans hlimit
    · calc value < (m.mantissa + 1) * 2 ^ exponent := hdescribes.lt_mantissa_succ
        _ ≤ 2 ^ 53 * 2 ^ exponent := mul_le_mul_of_nonneg_right hmantissa hunit.le
        _ < limit := hsmall
  · have hpower : (2 : Rat) ^ 1024 = (2 ^ 53 : Nat) * 2 ^ (971 : Int) := by
      rw [two_pow_1024, two_zpow_971]
      generalize (2 : Rat) ^ 970 = unit
      norm_num
      ring
    rw [hpower, mul_lt_mul_iff_left₀ hunit, Nat.cast_lt, limit_eq, ← not_le (b := value),
      ← hdescribes.lt_roundedMantissa_iff (k := 2 ^ 53 - 1) (by norm_num)]
    omega
  · have hfull : 2 ^ 52 ≤ m.mantissa := hcanonical.full.resolve_right (by omega)
    have hlarge : (2 : Rat) ^ 1024 ≤ m.mantissa * 2 ^ exponent := by
      calc (2 : Rat) ^ 1024 = 2 ^ (1024 : Int) := (zpow_ofNat 2 1024).symm
        _ ≤ 2 ^ (52 + exponent) := zpow_le_zpow_right₀ one_le_two (by omega)
        _ ≤ m.mantissa * 2 ^ exponent := two_zpow_add_le hfull
    have hresult : (m.mantissa : Rat) * 2 ^ exponent ≤ m.roundedMantissa * 2 ^ exponent := by
      refine mul_le_mul_of_nonneg_right ?_ hunit.le
      exact_mod_cast (le_roundedMantissa m).1
    refine iff_of_false ?_ ?_
    · exact not_lt.mpr (hlarge.trans hresult)
    · exact not_lt.mpr (hlimit.le.trans (hlarge.trans hdescribes.mantissa_le))

end Grid

section Representation

/-- Numbers of the format with a sign and a magnitude. -/
def Represents (sign : Sign) (magnitude : Rat) : UnpackedFloat → Prop
  | .zero s => s = sign ∧ magnitude = 0
  | .finite s mantissa exponent _ =>
    s = sign ∧ Canonical mantissa exponent ∧ magnitude = mantissa * 2 ^ exponent
  | _ => False

/-- A magnitude with its sign. -/
def signed : Sign → Rat → Rat
  | .negative, magnitude => -magnitude
  | .positive, magnitude => magnitude

variable {sign : Sign} {value : Rat} {mantissa : Nat} {exponent : Int} {accuracy : Accuracy}

theorem abs_signed (sign : Sign) (value : Rat) : |signed sign value| = |value| := by
  cases sign with
  | negative => exact abs_neg value
  | positive => rfl

theorem signed_mul (sign : Sign) (value factor : Rat) :
    signed sign (value * factor) = signed sign value * factor := by
  cases sign with
  | negative => exact (neg_mul value factor).symm
  | positive => rfl

theorem Represents.nonneg {u : UnpackedFloat} (h : Represents sign value u) : 0 ≤ value := by
  cases u with
  | zero s => exact h.2.ge
  | finite s m e hm =>
    rw [h.2.2]
    exact mul_nonneg m.cast_nonneg (two_zpow_pos e).le
  | infinity | notANumber => exact h.elim

theorem targetExponent_eq (mantissa : Nat) (exponent : Int) :
    Format.binary64.targetExponent (totalExponent mantissa exponent) =
      max (mantissa.log2 + exponent - 52) (-1074) := by
  simp only [Format.targetExponent, totalExponent, Format.mantissaBits, Format.minExponent]
  norm_num
  omega

theorem mantissa_ofMantissaAndAccuracy (mantissa : Nat) (accuracy : Accuracy) :
    (ExtendedMantissa.ofMantissaAndAccuracy mantissa accuracy).mantissa = mantissa := by
  cases accuracy with
  | exact => rfl
  | inexact ordering => cases ordering <;> rfl

/-- The last place is the one that the format has for the mantissa, unless there are too few
digits. -/
theorem canonical_shiftToTargetExponent (accuracy : Accuracy)
    (h : exponent ≤ Format.binary64.targetExponent (totalExponent mantissa exponent)) :
    Canonical (shiftToTargetExponent Format.binary64 mantissa exponent accuracy).1.mantissa
      (shiftToTargetExponent Format.binary64 mantissa exponent accuracy).2 := by
  simp only [shiftToTargetExponent, shiftToExponent, mantissa_shiftRight,
    mantissa_ofMantissaAndAccuracy]
  rw [targetExponent_eq] at h ⊢
  generalize hshift : (max ((mantissa.log2 : Int) + exponent - 52) (-1074) - exponent).toNat = shift
  rcases Nat.eq_zero_or_pos mantissa with rfl | hpos
  · rw [Nat.log2_zero] at h hshift
    refine ⟨by simp, by omega, .inr (by omega)⟩
  have hlow := Nat.log2_self_le hpos.ne'
  have hhigh := Nat.lt_log2_self (n := mantissa)
  refine ⟨?_, by omega, ?_⟩
  · rw [Nat.div_lt_iff_lt_mul (by positivity), ← pow_add]
    exact hhigh.trans_le (Nat.pow_le_pow_right (by decide) (by omega))
  · by_cases hleast : exponent + shift = -1074
    · exact .inr hleast
    · left
      rw [Nat.le_div_iff_mul_le (by positivity), ← pow_add]
      exact (Nat.pow_le_pow_right (by decide) (by omega)).trans hlow

theorem describes_shiftToTargetExponent
    (h : Describes (.ofMantissaAndAccuracy mantissa accuracy) exponent value) :
    Describes (shiftToTargetExponent Format.binary64 mantissa exponent accuracy).1
      (shiftToTargetExponent Format.binary64 mantissa exponent accuracy).2 value :=
  h.shiftRight _

theorem shiftToTargetExponent_of_lt (hmantissa : mantissa < 2 ^ 53) (hexponent : -1074 ≤ exponent) :
    shiftToTargetExponent Format.binary64 mantissa exponent .exact =
      (⟨mantissa, false, false⟩, exponent) := by
  have hlog : mantissa.log2 ≤ 52 := by
    rcases Nat.eq_zero_or_pos mantissa with rfl | hpos
    · rw [Nat.log2_zero]
      omega
    · have := (Nat.log2_lt hpos.ne').mpr hmantissa
      omega
  have hshift : (max ((mantissa.log2 : Int) + exponent - 52) (-1074) - exponent).toNat = 0 := by
    omega
  rw [shiftToTargetExponent, targetExponent_eq, shiftToExponent, hshift, Nat.cast_zero, add_zero]
  rfl

theorem shiftToTargetExponent_two_pow (hexponent : -1074 ≤ exponent) :
    shiftToTargetExponent Format.binary64 (2 ^ 53) exponent .exact =
      (⟨2 ^ 52, false, false⟩, exponent + 1) := by
  have hshift : (max (((2 ^ 53).log2 : Int) + exponent - 52) (-1074) - exponent).toNat = 1 := by
    rw [Nat.log2_two_pow]
    omega
  rw [shiftToTargetExponent, targetExponent_eq, shiftToExponent, hshift]
  rfl

/-- Rounding gives a number of the format, or one that is too large for it. -/
theorem exists_represents_roundWithAccuracy (sign : Sign)
    (hdescribes : Describes (.ofMantissaAndAccuracy mantissa accuracy) exponent value)
    (hexponent : exponent ≤ Format.binary64.targetExponent (totalExponent mantissa exponent)) :
    ∃ result, Rounded value result ∧
      Represents sign result
        (roundWithAccuracy Format.binary64 sign mantissa exponent accuracy) := by
  have hcanonical := canonical_shiftToTargetExponent accuracy hexponent
  have hshifted := describes_shiftToTargetExponent hdescribes
  rw [roundWithAccuracy]
  generalize shiftToTargetExponent Format.binary64 mantissa exponent accuracy = shifted at *
  obtain ⟨m, e⟩ := shifted
  refine ⟨m.roundedMantissa * 2 ^ e, ⟨m, e, hcanonical, hshifted, rfl⟩, ?_⟩
  have hrounded := le_roundedMantissa m
  have hle := hcanonical.lt
  dsimp only at hle ⊢
  by_cases hlt : m.roundedMantissa < 2 ^ 53
  · rw [shiftToTargetExponent_of_lt hlt hcanonical.exponent_ge]
    dsimp only
    split
    · next hzero =>
      rw [hzero]
      exact ⟨rfl, by rw [Nat.cast_zero, zero_mul]⟩
    · exact ⟨rfl, ⟨hlt, hcanonical.exponent_ge, hcanonical.full.imp_left (·.trans hrounded.1)⟩,
        rfl⟩
  · obtain hcarry : m.roundedMantissa = 2 ^ 53 := by omega
    rw [hcarry, shiftToTargetExponent_two_pow hcanonical.exponent_ge]
    dsimp only
    rw [dif_neg (by decide)]
    have hexponent := hcanonical.exponent_ge
    refine ⟨rfl, ⟨by decide, by omega, .inl le_rfl⟩, ?_⟩
    rw [zpow_add_one₀ two_ne_zero]
    push_cast
    ring

end Representation

end Aprs.Rounding
