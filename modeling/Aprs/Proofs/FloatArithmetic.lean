import Aprs.Proofs.FloatRounding

/-!
Floating-point arithmetic. Each operation gives its exact result rounded, or no number when that is
too large for one.
-/

namespace Aprs

open Float.Model Float.Model.UnpackedFloat Rounding

namespace Binary

/-- A number by the three fields of its bits. -/
def ofFields (negative : Bool) (exponent fraction : Nat) : Binary :=
  if exponent = 2047 then if fraction = 0 then infinite negative else undefined
  else if exponent = 0 then finite negative fraction (-1074)
  else finite negative (leadingOne + fraction) (Int.ofNat exponent - 1075)

theorem toNat_unpackMantissa (b : BitVec Format.binary64.numBits) :
    (unpackMantissa b).toNat = b.toNat % leadingOne := by
  rw [unpackMantissa, BitVec.toNat_cast, BitVec.extractLsb_toNat, Nat.shiftRight_zero]
  rfl

theorem toNat_unpackExponent (b : BitVec Format.binary64.numBits) :
    (unpackExponent b).toNat = b.toNat / leadingOne % 2048 := by
  rw [unpackExponent, BitVec.toNat_cast, BitVec.extractLsb_toNat, Nat.shiftRight_eq_div_pow]
  rfl

theorem toNat_unpackSign (b : BitVec Format.binary64.numBits) :
    (unpackSign b).toNat = b.toNat / 0x8000000000000000 := by
  rw [unpackSign, BitVec.toNat_cast, BitVec.extractLsb_toNat, Nat.shiftRight_eq_div_pow]
  have hlt := b.isLt
  change b.toNat / 2 ^ 63 % 2 = b.toNat / 2 ^ 63
  change b.toNat < 2 ^ 64 at hlt
  omega

/-- The bits of a number. -/
def bitsOf (x : Float) : BitVec Format.binary64.numBits := x.toBits.toBitVec

theorem ofFloat_eq_ofFields (x : Float) :
    ofFloat x = ofFields (decide ((unpackSign (bitsOf x)).toNat = 1))
      (unpackExponent (bitsOf x)).toNat (unpackMantissa (bitsOf x)).toNat := by
  rw [toNat_unpackSign, toNat_unpackExponent, toNat_unpackMantissa]
  rfl

end Binary

def Rounding.isMinus : Sign → Bool
  | .negative => true
  | .positive => false

/-- A floating-point number with a sign and a magnitude. -/
def HasValue (x : Float) (sign : Sign) (magnitude : Rat) : Prop :=
  ∃ mantissa exponent, Binary.ofFloat x = .finite (isMinus sign) mantissa exponent ∧
    magnitude = mantissa * 2 ^ exponent

theorem HasValue.isFinite {x : Float} {sign : Sign} {magnitude : Rat}
    (h : HasValue x sign magnitude) : isFinite x = true := by
  obtain ⟨mantissa, exponent, hx, -⟩ := h
  rw [Aprs.isFinite, hx]

theorem HasValue.nonneg {x : Float} {sign : Sign} {magnitude : Rat}
    (h : HasValue x sign magnitude) : 0 ≤ magnitude := by
  obtain ⟨mantissa, exponent, -, rfl⟩ := h
  positivity

section Packing

variable {u : UnpackedFloat} {x : Float} {sign : Sign} {magnitude : Rat} {mantissa : Nat}
  {exponent : Int}

theorem isMinus_toBitVec (sign : Sign) :
    decide (sign.toBitVec.toNat = 1) = isMinus sign := by
  cases sign <;> rfl

theorem unpackSign_packComponents {spec : Format} (sign : Sign) (e : BitVec spec.exponentBits)
    (m : BitVec spec.mantissaBitsWithoutImplicit) :
    unpackSign (packComponents spec sign e m) = sign.toBitVec := by
  apply BitVec.eq_of_getLsbD_eq
  intro i hi
  obtain rfl : i = 0 := by omega
  simp [unpackSign, packComponents, BitVec.getLsbD_append, BitVec.getElem_append]

theorem Binary.ofFloat_of_packComponents {sign : Sign} {e : BitVec Format.binary64.exponentBits}
    {m : BitVec Format.binary64.mantissaBitsWithoutImplicit}
    (h : UnpackedFloat.pack Format.binary64 u = packComponents Format.binary64 sign e m) :
    ofFloat (.ofModel (.pack u)) = ofFields (isMinus sign) e.toNat m.toNat := by
  have hbits : bitsOf (.ofModel (.pack u)) =
      packComponents Format.binary64 sign e m := h
  rw [ofFloat_eq_ofFields, hbits, unpackSign_packComponents, unpackExponent_packComponents,
    unpackMantissa_packComponents, isMinus_toBitVec]

theorem Binary.ofFloat_pack_finite (hpos : 0 < mantissa) (h : Canonical mantissa exponent)
    (hexponent : exponent ≤ 971) :
    ofFloat (.ofModel (.pack (.finite sign mantissa exponent hpos))) =
      .finite (isMinus sign) mantissa exponent := by
  have hge := h.exponent_ge
  have hlt := h.lt
  obtain ⟨biased, hbiased⟩ : ∃ n : Nat, (n : Int) = exponent + 1075 :=
    ⟨(exponent + 1075).toNat, by omega⟩
  have htoNat : (exponent + Format.binary64.exponentBias +
      Format.binary64.mantissaBitsWithoutImplicit).toNat = biased := by
    change (exponent + (1023 : Nat) + (52 : Nat)).toNat = biased
    omega
  by_cases hfull : 2 ^ 52 ≤ mantissa
  · have hlog : mantissa.log2 = 52 := (Nat.log2_eq_iff hpos.ne').mpr ⟨hfull, hlt⟩
    have hpack : UnpackedFloat.pack Format.binary64 (.finite sign mantissa exponent hpos) =
        packComponents Format.binary64 sign (.ofNat _ biased) (.ofNat _ mantissa) := by
      simp only [UnpackedFloat.pack, htoNat]
      rw [if_neg (by change ¬2048 ≤ biased + 1; omega),
        if_pos (by rw [hlog]; rfl)]
    have hexponentField : biased % 2 ^ Format.binary64.exponentBits = biased :=
      Nat.mod_eq_of_lt (by change biased < 2048; omega)
    have hfraction : leadingOne + mantissa % 2 ^ Format.binary64.mantissaBitsWithoutImplicit =
        mantissa := by
      change leadingOne + mantissa % leadingOne = mantissa
      rw [leadingOne]
      omega
    rw [ofFloat_of_packComponents hpack, BitVec.toNat_ofNat, BitVec.toNat_ofNat, hexponentField,
      ofFields, if_neg (by omega), if_neg (by omega), hfraction, Int.ofNat_eq_natCast, hbiased]
    congr 1
    omega
  · obtain rfl : exponent = -1074 := h.full.resolve_left hfull
    have hlog : mantissa.log2 + 1 ≠ Format.binary64.mantissaBits := by
      have := (Nat.log2_lt hpos.ne').mpr (not_le.mp hfull)
      change mantissa.log2 + 1 ≠ 53
      omega
    have hpack : UnpackedFloat.pack Format.binary64 (.finite sign mantissa (-1074) hpos) =
        packComponents Format.binary64 sign 0#_ (.ofNat _ mantissa) := by
      simp only [UnpackedFloat.pack, htoNat]
      rw [if_neg (by change ¬2048 ≤ biased + 1; omega), if_neg hlog]
    have hfraction : mantissa % 2 ^ Format.binary64.mantissaBitsWithoutImplicit = mantissa :=
      Nat.mod_eq_of_lt (not_le.mp hfull)
    rw [ofFloat_of_packComponents hpack, BitVec.toNat_ofNat, BitVec.toNat_ofNat, hfraction]
    rfl

theorem Rounding.Represents.hasValue_pack (h : Represents sign magnitude u)
    (hlt : magnitude < 2 ^ 1024) : HasValue (.ofModel (.pack u)) sign magnitude := by
  cases u with
  | zero s =>
    obtain ⟨rfl, rfl⟩ := h
    refine ⟨0, -1074, ?_, by rw [Nat.cast_zero, zero_mul]⟩
    exact Binary.ofFloat_of_packComponents (u := .zero s) (e := 0) (m := 0) rfl
  | finite s mantissa exponent hpos =>
    obtain ⟨rfl, hcanonical, rfl⟩ := h
    exact ⟨mantissa, exponent,
      Binary.ofFloat_pack_finite hpos hcanonical (hcanonical.lt_iff.mp hlt), rfl⟩
  | infinity | notANumber => exact h.elim

/-- What is too large for the format becomes an infinity. -/
theorem Rounding.Represents.pack_eq (h : Represents sign magnitude u)
    (hle : 2 ^ 1024 ≤ magnitude) : Float.Model.pack u = .pack (.infinity sign) := by
  cases u with
  | zero s =>
    obtain ⟨rfl, rfl⟩ := h
    exact absurd hle (not_le.mpr (pow_pos two_pos 1024))
  | finite s mantissa exponent hpos =>
    obtain ⟨rfl, hcanonical, rfl⟩ := h
    have hexponent : ¬exponent ≤ 971 := fun hexponent =>
      absurd (hcanonical.lt_iff.mpr hexponent) (not_lt.mpr hle)
    have hpack : UnpackedFloat.pack Format.binary64 (.finite s mantissa exponent hpos) =
        UnpackedFloat.pack Format.binary64 (.infinity s) := by
      simp only [UnpackedFloat.pack]
      rw [if_pos]
      change 2048 ≤ (exponent + (1023 : Nat) + (52 : Nat)).toNat + 1
      omega
    simp only [Float.Model.pack, hpack]
  | infinity | notANumber => exact h.elim

theorem isFinite_pack_infinity (sign : Sign) :
    isFinite (.ofModel (.pack (.infinity sign))) = false := by
  have hpack : UnpackedFloat.pack Format.binary64 (.infinity sign) =
      packComponents Format.binary64 sign (-1#_) 0 := rfl
  rw [isFinite, Binary.ofFloat_of_packComponents hpack]
  rfl

theorem unpack_pack_infinity (sign : Sign) :
    UnpackedFloat.unpack Format.binary64 (UnpackedFloat.pack Format.binary64 (.infinity sign)) =
      .infinity sign := by
  change UnpackedFloat.unpack Format.binary64
    (packComponents Format.binary64 sign (-1#_) 0) = .infinity sign
  rw [UnpackedFloat.unpack]
  simp only [unpackExponent_packComponents, unpackMantissa_packComponents,
    unpackSign_packComponents]
  rw [if_pos trivial]
  cases sign <;> rfl

theorem ofBitVec_eq_of_isMinus {b : BitVec 1} (h : decide (b.toNat = 1) = isMinus sign) :
    Sign.ofBitVec b = sign := by
  have hcases : b = 0#1 ∨ b = 1#1 := by
    have hlt := b.isLt
    rcases Nat.lt_or_ge b.toNat 1 with hzero | hone
    · exact .inl (BitVec.eq_of_toNat_eq (by simpa using hzero))
    · exact .inr (BitVec.eq_of_toNat_eq (by simp; omega))
  rcases hcases with rfl | rfl <;> cases sign <;> first | rfl | cases h

theorem toNat_one_append (b : BitVec Format.binary64.mantissaBitsWithoutImplicit) :
    (1#1 ++ b).toNat = Binary.leadingOne + b.toNat := by
  rw [BitVec.toNat_append, ← Nat.shiftLeft_add_eq_or_of_lt b.isLt]
  rfl

/-- Unpacking finds the magnitude, which is one of the format. -/
theorem HasValue.represents (h : HasValue x sign magnitude) :
    Represents sign magnitude x.toModel.unpack ∧ magnitude < 2 ^ 1024 := by
  obtain ⟨mantissa, exponent, hx, rfl⟩ := h
  rw [Binary.ofFloat_eq_ofFields, Binary.ofFields] at hx
  set bits := Binary.bitsOf x
  have hunpack : x.toModel.unpack = UnpackedFloat.unpack Format.binary64 bits := rfl
  have hfractionLt := (unpackMantissa bits).isLt
  have hexponentLt := (unpackExponent bits).isLt
  change (unpackMantissa bits).toNat < 2 ^ 52 at hfractionLt
  change (unpackExponent bits).toNat < 2048 at hexponentLt
  split at hx
  · split at hx <;> cases hx
  next hspecial =>
  have hspecial' : unpackExponent bits ≠ -1#_ := fun heq => hspecial (by rw [heq]; rfl)
  rw [hunpack, UnpackedFloat.unpack]
  dsimp only
  rw [if_neg hspecial']
  split at hx
  · next hzero =>
    obtain ⟨hsign, rfl, rfl⟩ := Binary.finite.inj hx
    have hzero' : unpackExponent bits = 0#_ := BitVec.eq_of_toNat_eq (by rw [hzero]; rfl)
    have hcanonical : Canonical (unpackMantissa bits).toNat (-1074) :=
      ⟨by omega, le_rfl, .inr rfl⟩
    rw [if_pos hzero', ofBitVec_eq_of_isMinus hsign]
    refine ⟨?_, hcanonical.lt_iff.mpr (by omega)⟩
    split
    · next hfraction =>
      rw [hfraction]
      exact ⟨rfl, by simp⟩
    · rw [hzero]
      exact ⟨rfl, hcanonical, rfl⟩
  · next hnormal =>
    obtain ⟨hsign, rfl, rfl⟩ := Binary.finite.inj hx
    have hnormal' : unpackExponent bits ≠ 0#_ := fun heq => hnormal (by rw [heq]; rfl)
    have hcanonical : Canonical (Binary.leadingOne + (unpackMantissa bits).toNat)
        (Int.ofNat (unpackExponent bits).toNat - 1075) := by
      rw [Binary.leadingOne]
      exact ⟨by omega, by rw [Int.ofNat_eq_natCast]; omega, .inl (by omega)⟩
    rw [if_neg hnormal', ofBitVec_eq_of_isMinus hsign]
    refine ⟨⟨rfl, ?_, ?_⟩, hcanonical.lt_iff.mpr (by rw [Int.ofNat_eq_natCast]; omega)⟩
    · rw [toNat_one_append]
      exact hcanonical
    · rw [toNat_one_append]
      rfl

end Packing

section Operations

variable {u w : UnpackedFloat} {sign other : Sign} {a b : Rat} {m n : Nat} {e f : Int}

theorem describes_exact (m : Nat) (e : Int) :
    Describes (.ofMantissaAndAccuracy m .exact) e (m * 2 ^ e) :=
  ⟨0, le_rfl, one_pos, iff_of_false nofun (by norm_num), iff_of_false nofun (by simp), by
    rw [add_zero]
    rfl⟩

/-- Numbers of the format are not changed by rounding. -/
theorem Rounding.Canonical.rounded (h : Canonical m e) : Rounded (m * 2 ^ e) (m * 2 ^ e) :=
  ⟨⟨m, false, false⟩, e, h, describes_exact m e, rfl⟩

theorem rounded_zero : Rounded 0 0 := by
  have hcanonical : Canonical 0 (-1074) := ⟨by decide, le_rfl, .inr rfl⟩
  simpa using hcanonical.rounded

theorem Rounding.Represents.rounded (h : Represents sign a u) : Rounded a a := by
  cases u with
  | zero s =>
    rw [h.2]
    exact rounded_zero
  | finite s m e hpos =>
    rw [h.2.2]
    exact h.2.1.rounded
  | infinity | notANumber => exact h.elim

/-- The product of two finite numbers, which need not be of the format. -/
theorem exists_represents_mul_finite (sign other : Sign) (hm : 0 < m) (hn : 0 < n)
    (htarget : e + f ≤ Format.binary64.targetExponent (totalExponent (m * n) (e + f))) :
    ∃ result, Rounded (m * 2 ^ e * (n * 2 ^ f)) result ∧
      Represents (sign * other) result
        (UnpackedFloat.mul Format.binary64 (.finite sign m e hm) (.finite other n f hn)) := by
  have hvalue : (m * 2 ^ e * (n * 2 ^ f) : Rat) = (m * n : Nat) * 2 ^ (e + f) := by
    rw [zpow_add₀ two_ne_zero, Nat.cast_mul]
    ring
  rw [hvalue]
  exact exists_represents_roundWithAccuracy _ (describes_exact _ _) htarget

theorem exists_represents_mul (hu : Represents sign a u) (hw : Represents other b w) :
    ∃ result, Rounded (a * b) result ∧
      Represents (sign * other) result (UnpackedFloat.mul Format.binary64 u w) := by
  cases u with
  | infinity | notANumber => exact hu.elim
  | zero s =>
    obtain ⟨rfl, rfl⟩ := hu
    rw [zero_mul]
    cases w with
    | infinity | notANumber => exact hw.elim
    | zero t => exact ⟨0, rounded_zero, by rw [hw.1], rfl⟩
    | finite t n f hn => exact ⟨0, rounded_zero, by rw [hw.1], rfl⟩
  | finite s m e hm =>
    obtain ⟨rfl, hu, rfl⟩ := hu
    cases w with
    | infinity | notANumber => exact hw.elim
    | zero t =>
      obtain ⟨rfl, rfl⟩ := hw
      rw [mul_zero]
      exact ⟨0, rounded_zero, rfl, rfl⟩
    | finite t n f hn =>
      obtain ⟨rfl, hw, rfl⟩ := hw
      refine exists_represents_mul_finite s t hm hn ?_
      rw [targetExponent_eq]
      by_cases hfull : 2 ^ 52 ≤ m * n
      · have hlog := (Nat.le_log2 (by positivity)).mpr hfull
        omega
      · have hm' : e = -1074 := hu.full.resolve_left fun hle =>
          hfull (hle.trans (Nat.le_mul_of_pos_right m hn))
        have hn' : f = -1074 := hw.full.resolve_left fun hle =>
          hfull (hle.trans (Nat.le_mul_of_pos_left n hm))
        omega

theorem decreaseExponent_value (m : Nat) (e target : Int) :
    ((decreaseExponent m e target).1 : Rat) * 2 ^ (decreaseExponent m e target).2 = m * 2 ^ e := by
  rw [decreaseExponent, Nat.shiftLeft_eq, Nat.cast_mul, Nat.cast_pow, Nat.cast_ofNat,
    ← zpow_natCast, mul_assoc, ← zpow_add₀ two_ne_zero]
  congr 2
  omega

theorem log2_shiftLeft (hm : 0 < m) (n : Nat) : (m <<< n).log2 = m.log2 + n := by
  rw [Nat.shiftLeft_eq, Nat.log2_eq_iff (by positivity), pow_add, add_right_comm, pow_add]
  exact ⟨Nat.mul_le_mul_right _ (Nat.log2_self_le hm.ne'),
    Nat.mul_lt_mul_of_pos_right Nat.lt_log2_self (by positivity)⟩

theorem exists_represents_round (sign : Sign) (hm : 0 < m) (e : Int) :
    ∃ result, Rounded (m * 2 ^ e) result ∧
      Represents sign result (UnpackedFloat.round Format.binary64 sign m e) := by
  rw [UnpackedFloat.round]
  dsimp only
  rw [← decreaseExponent_value m e (Format.binary64.targetExponent (totalExponent m e))]
  refine exists_represents_roundWithAccuracy _ (describes_exact _ _) ?_
  rw [targetExponent_eq, targetExponent_eq, decreaseExponent]
  generalize hshift : (e - max ((m.log2 : Int) + e - 52) (-1074)).toNat = shift
  dsimp only
  rw [log2_shiftLeft hm]
  omega

theorem cast_apply (sign : Sign) (m : Nat) : ((sign.apply m : Int) : Rat) = signed sign m := by
  cases sign with
  | negative => exact Int.cast_neg _
  | positive => rfl

theorem exists_represents_normalize (i : Int) (e : Int) :
    ∃ sign result, signed sign i.natAbs = i ∧ Rounded (i.natAbs * 2 ^ e) result ∧
      Represents sign result (UnpackedFloat.normalize Format.binary64 i e .positive) := by
  rw [UnpackedFloat.normalize]
  rcases lt_trichotomy i 0 with hi | rfl | hi
  · obtain ⟨result, hrounded, hresult⟩ := exists_represents_round .negative
      (show 0 < (-i).toNat by omega) e
    rw [Int.compare_eq_lt.mpr hi]
    rw [show (-i).toNat = i.natAbs by omega] at hrounded
    have happly : Sign.negative.apply i.natAbs = i := by
      change -(i.natAbs : Int) = i
      omega
    exact ⟨.negative, result, by rw [← cast_apply, happly], hrounded, hresult⟩
  · rw [Int.natAbs_zero, Nat.cast_zero, zero_mul]
    exact ⟨.positive, 0, rfl, rounded_zero, rfl, rfl⟩
  · obtain ⟨result, hrounded, hresult⟩ := exists_represents_round .positive
      (show 0 < i.toNat by omega) e
    rw [Int.compare_eq_gt.mpr hi]
    rw [show i.toNat = i.natAbs by omega] at hrounded
    have happly : Sign.positive.apply i.natAbs = i := by
      change (i.natAbs : Int) = i
      omega
    exact ⟨.positive, result, by rw [← cast_apply, happly], hrounded, hresult⟩

/-- A sum is worked out exactly and then rounded once. -/
theorem exists_represents_add (hu : Represents sign a u) (hw : Represents other b w) :
    ∃ s c result, 0 ≤ c ∧ signed s c = signed sign a + signed other b ∧ Rounded c result ∧
      Represents s result (UnpackedFloat.add Format.binary64 u w) := by
  have hzero : ∀ s, signed s 0 = 0 := by
    intro s
    rw [← abs_eq_zero, abs_signed, abs_zero]
  cases u with
  | infinity | notANumber => exact hu.elim
  | zero s =>
    obtain ⟨rfl, rfl⟩ := hu
    rw [hzero, zero_add]
    cases w with
    | infinity | notANumber => exact hw.elim
    | zero t =>
      obtain ⟨rfl, rfl⟩ := hw
      have hadd : ∃ r, UnpackedFloat.add Format.binary64 (.zero s) (.zero t) = .zero r := by
        rw [UnpackedFloat.add]
        split
        · exact ⟨_, rfl⟩
        · exact ⟨_, rfl⟩
      obtain ⟨r, hr⟩ := hadd
      rw [hr]
      exact ⟨r, 0, 0, le_rfl, by rw [hzero, hzero], rounded_zero, rfl, rfl⟩
    | finite t n f hn => exact ⟨other, b, b, hw.nonneg, rfl, hw.rounded, hw⟩
  | finite s m e hm =>
    cases w with
    | infinity | notANumber => exact hw.elim
    | zero t =>
      obtain ⟨rfl, rfl⟩ := hw
      rw [hzero, add_zero]
      exact ⟨sign, a, a, hu.nonneg, rfl, hu.rounded, hu⟩
    | finite t n f hn =>
      obtain ⟨rfl, hu, rfl⟩ := hu
      obtain ⟨rfl, hw, rfl⟩ := hw
      rw [UnpackedFloat.add]
      dsimp only
      set least := min e f with hleast
      have hleft := decreaseExponent_value m e least
      have hright := decreaseExponent_value n f least
      have hplace : (decreaseExponent m e least).2 = least ∧
          (decreaseExponent n f least).2 = least := by
        simp only [decreaseExponent]
        omega
      rw [hplace.1] at hleft
      rw [hplace.2] at hright
      obtain ⟨r, result, hsigned, hrounded, hresult⟩ := exists_represents_normalize
        (s.apply (decreaseExponent m e least).1 + t.apply (decreaseExponent n f least).1) least
      refine ⟨r, _, result, ?_, ?_, hrounded, hresult⟩
      · exact mul_nonneg (Nat.cast_nonneg _) (two_zpow_pos least).le
      · rw [signed_mul, hsigned, Int.cast_add, cast_apply, cast_apply, ← hleft, ← hright,
          signed_mul, signed_mul, add_mul]

theorem Rounding.Represents.neg (h : Represents sign a u) :
    Represents (-sign) a u.neg := by
  cases u with
  | zero s => exact ⟨by rw [h.1], h.2⟩
  | finite s m e hm => exact ⟨by rw [h.1], h.2⟩
  | infinity | notANumber => exact h.elim

theorem apply_neg (sign : Sign) (m : Nat) : (-sign).apply m = -sign.apply m := by
  cases sign with
  | negative => exact (Int.neg_neg _).symm
  | positive => rfl

theorem sub_eq_add_neg_of_represents (hu : Represents sign a u) (hw : Represents other b w) :
    UnpackedFloat.sub Format.binary64 u w = UnpackedFloat.add Format.binary64 u w.neg := by
  cases u <;> cases w <;> first | exact hu.elim | exact hw.elim | rfl | skip
  next s m e hm t n f hn =>
    rw [UnpackedFloat.neg, UnpackedFloat.sub, UnpackedFloat.add]
    dsimp only
    rw [apply_neg, ← Int.sub_eq_add_neg]

theorem describes_accuracyOfFraction (num : Nat) {den : Nat} (hden : 0 < den) (e : Int) :
    Describes (.ofMantissaAndAccuracy (num / den) (accuracyOfFraction (num % den) den)) e
      ((num / den : Rat) * 2 ^ e) := by
  have hden' : (0 : Rat) < den := by exact_mod_cast hden
  have hlt := Nat.mod_lt num hden
  have hvalue : (num / den : Rat) = (num / den : Nat) + (num % den : Nat) / den := by
    rw [div_eq_iff hden'.ne', add_mul, div_mul_cancel₀ _ hden'.ne']
    exact_mod_cast (Nat.div_add_mod' num den).symm
  have hhalf : (1 / 2 : Rat) ≤ (num % den : Nat) / den ↔ den ≤ 2 * (num % den) := by
    rw [le_div_iff₀ hden', div_mul_eq_mul_div, one_mul, div_le_iff₀' two_pos]
    exact_mod_cast Iff.rfl
  have heq : ((num % den : Nat) / den : Rat) = 1 / 2 ↔ 2 * (num % den) = den := by
    rw [div_eq_div_iff hden'.ne' two_ne_zero, one_mul, mul_comm]
    exact_mod_cast Iff.rfl
  have hzero : ((num % den : Nat) / den : Rat) = 0 ↔ num % den = 0 := by
    rw [div_eq_zero_iff, or_iff_left hden'.ne', Nat.cast_eq_zero]
  refine ⟨(num % den : Nat) / den, by positivity, ?_, ?_, ?_, ?_⟩
  · rw [div_lt_one hden']
    exact_mod_cast hlt
  · rw [hhalf]
    generalize num % den = r
    unfold accuracyOfFraction
    split
    · exact iff_of_false nofun (by omega)
    · cases hcompare : compare (2 * r) den with
      | lt => exact iff_of_false nofun (not_le.mpr (Nat.compare_eq_lt.mp hcompare))
      | eq => exact iff_of_true rfl (Nat.compare_eq_eq.mp hcompare).ge
      | gt => exact iff_of_true rfl (Nat.compare_eq_gt.mp hcompare).le
  · rw [Ne, Ne, heq, hzero]
    generalize num % den = r
    unfold accuracyOfFraction
    split
    · next hr => exact iff_of_false nofun fun hne => hne.1 hr
    · next hr =>
      cases hcompare : compare (2 * r) den with
      | lt => exact iff_of_true rfl ⟨hr, (Nat.compare_eq_lt.mp hcompare).ne⟩
      | eq => exact iff_of_false nofun fun hne => hne.2 (Nat.compare_eq_eq.mp hcompare)
      | gt => exact iff_of_true rfl ⟨hr, (Nat.compare_eq_gt.mp hcompare).ne'⟩
  · rw [mantissa_ofMantissaAndAccuracy, hvalue]

/-- The quotient of two finite numbers, which need not be of the format. -/
theorem exists_represents_div_finite (hm : 0 < m) (hn : 0 < n) :
    ∃ result, Rounded (m * 2 ^ e / (n * 2 ^ f)) result ∧
      Represents (sign / other) result
        (UnpackedFloat.div Format.binary64 (.finite sign m e hm) (.finite other n f hn)) := by
  have hn' : (0 : Rat) < n := by exact_mod_cast hn
  have htarget : Format.binary64.targetExponent (totalExponent m e - totalExponent n f) =
      max (m.log2 - n.log2 + (e - f) - 53) (-1074) := by
    simp only [Format.targetExponent, totalExponent, Format.mantissaBits, Format.minExponent]
    norm_num
    omega
  simp only [UnpackedFloat.div, divCore, htarget]
  generalize hleast : min (e - f) (max ((m.log2 : Int) - n.log2 + (e - f) - 53) (-1074)) = least
  generalize hshift : (e - f - least).toNat = shift
  have hvalue : (m * 2 ^ e / (n * 2 ^ f) : Rat) = ((m <<< shift : Nat) / n : Rat) * 2 ^ least := by
    rw [Nat.shiftLeft_eq, Nat.cast_mul, Nat.cast_pow, Nat.cast_ofNat, ← zpow_natCast,
      show e = shift + least + f by omega, zpow_add₀ two_ne_zero, zpow_add₀ two_ne_zero]
    field_simp
  rw [hvalue]
  refine exists_represents_roundWithAccuracy _ (describes_accuracyOfFraction _ hn _) ?_
  rw [targetExponent_eq]
  by_cases hsmall : least ≤ -1074
  · omega
  -- Above the least exponent the numerator was shifted far enough for 53 digits.
  have hdigits : 2 ^ 52 ≤ m <<< shift / n := by
    rw [Nat.le_div_iff_mul_le hn, Nat.shiftLeft_eq]
    have hm' := Nat.log2_self_le hm.ne'
    have hn' := (Nat.lt_log2_self (n := n)).le
    calc 2 ^ 52 * n ≤ 2 ^ 52 * 2 ^ (n.log2 + 1) := Nat.mul_le_mul_left _ hn'
      _ = 2 ^ (n.log2 + 53) := by
        rw [← pow_add]
        congr 1
        omega
      _ ≤ 2 ^ (m.log2 + shift) := Nat.pow_le_pow_right two_pos (by omega)
      _ = 2 ^ m.log2 * 2 ^ shift := pow_add _ _ _
      _ ≤ m * 2 ^ shift := Nat.mul_le_mul_right _ hm'
  have hlog := (Nat.le_log2 (by omega)).mpr hdigits
  omega

theorem exists_represents_div (hu : Represents sign a u) (hw : Represents other b w)
    (hb : b ≠ 0) : ∃ result, Rounded (a / b) result ∧
      Represents (sign / other) result (UnpackedFloat.div Format.binary64 u w) := by
  cases w with
  | infinity | notANumber => exact hw.elim
  | zero t => exact absurd hw.2 hb
  | finite t n f hn =>
    obtain ⟨rfl, -, rfl⟩ := hw
    cases u with
    | infinity | notANumber => exact hu.elim
    | zero s =>
      obtain ⟨rfl, rfl⟩ := hu
      rw [zero_div]
      exact ⟨0, rounded_zero, rfl, rfl⟩
    | finite s m e hm =>
      obtain ⟨rfl, -, rfl⟩ := hu
      exact exists_represents_div_finite hm hn

/-- The accuracy of an integer root, as the model tells it. -/
def rootAccuracy (n : Nat) : Accuracy :=
  if n - n.sqrt * n.sqrt = 0 then .exact
  else .inexact (if n - n.sqrt * n.sqrt ≤ n.sqrt then .lt else .gt)

/-- Whatever the root is after its whole part, rounding only asks whether it is more than a half. -/
theorem exists_describes_sqrt (n : Nat) (e : Int) :
    ∃ c, Describes (.ofMantissaAndAccuracy n.sqrt (rootAccuracy n)) e c ∧
      ∀ k : Nat, n ≤ k * k → c ≤ k * 2 ^ e := by
  have hsquare := Nat.sqrt_le n
  have hroot : ∀ k : Nat, n ≤ k * k → n.sqrt ≤ k := fun k hk =>
    Nat.mul_self_le_mul_self_iff.mp (hsquare.trans hk)
  unfold rootAccuracy
  split
  · refine ⟨n.sqrt * 2 ^ e, describes_exact _ _, fun k hk => ?_⟩
    refine mul_le_mul_of_nonneg_right ?_ (two_zpow_pos e).le
    exact_mod_cast hroot k hk
  · next hrem =>
    have hbound : ∀ part : Rat, part < 1 → ∀ k : Nat, n ≤ k * k →
        (n.sqrt + part) * 2 ^ e ≤ k * 2 ^ e := by
      intro part hpart k hk
      refine mul_le_mul_of_nonneg_right ?_ (two_zpow_pos e).le
      have hlt : n.sqrt < k := Nat.mul_self_lt_mul_self_iff.mp (by omega)
      have hcast : (n.sqrt : Rat) + 1 ≤ k := by exact_mod_cast hlt
      linarith
    split
    · refine ⟨(n.sqrt + 1 / 4) * 2 ^ e, ?_, hbound _ (by norm_num)⟩
      exact ⟨1 / 4, by norm_num, by norm_num, iff_of_false nofun (by norm_num),
        iff_of_true rfl (by norm_num), rfl⟩
    · refine ⟨(n.sqrt + 3 / 4) * 2 ^ e, ?_, hbound _ (by norm_num)⟩
      exact ⟨3 / 4, by norm_num, by norm_num, iff_of_true rfl (by norm_num),
        iff_of_true rfl (by norm_num), rfl⟩

theorem exists_represents_sqrt {k : Int} (hu : Represents .positive a u) (ha : a ≤ 2 ^ (2 * k)) :
    ∃ c result, c ≤ 2 ^ k ∧ Rounded c result ∧
      Represents .positive result (UnpackedFloat.sqrt Format.binary64 u) := by
  cases u with
  | infinity | notANumber => exact hu.elim
  | zero s =>
    obtain ⟨rfl, rfl⟩ := hu
    exact ⟨0, 0, (two_zpow_pos k).le, rounded_zero, rfl, rfl⟩
  | finite s m e hm =>
    obtain ⟨rfl, -, rfl⟩ := hu
    have htarget : Format.binary64.targetExponent ((totalExponent m e + 1).ediv 2) =
        max ((m.log2 + e + 2) / 2 - 53) (-1074) := by
      change Format.binary64.targetExponent ((totalExponent m e + 1) / 2) = _
      simp only [Format.targetExponent, totalExponent, Format.mantissaBits, Format.minExponent]
      norm_num
      omega
    have hhalf : e.ediv 2 = e / 2 := rfl
    simp only [UnpackedFloat.sqrt, sqrtCore, htarget, hhalf]
    generalize hleast : min (e / 2) (max (((m.log2 : Int) + e + 2) / 2 - 53) (-1074)) = least
    generalize hshift : (e - 2 * least).toNat = shift
    have hvalue : (m * 2 ^ e : Rat) = (m <<< shift : Nat) * 2 ^ (2 * least) := by
      rw [Nat.shiftLeft_eq, Nat.cast_mul, Nat.cast_pow, Nat.cast_ofNat, ← zpow_natCast, mul_assoc,
        ← zpow_add₀ two_ne_zero]
      congr 2
      omega
    have hpos : 0 < m <<< shift := Nat.shiftLeft_pos_iff.mpr hm
    rw [hvalue] at ha
    obtain ⟨c, hdescribes, hle⟩ := exists_describes_sqrt (m <<< shift) least
    -- The bound is a square of whole last places of the root.
    have hleastLe : least ≤ k := by
      have hone : (1 : Rat) ≤ (m <<< shift : Nat) := by exact_mod_cast hpos
      have hpower : (2 : Rat) ^ (2 * least) ≤ 2 ^ (2 * k) :=
        (le_mul_of_one_le_left (two_zpow_pos _).le hone).trans ha
      have := (zpow_le_zpow_iff_right₀ one_lt_two).mp hpower
      omega
    obtain ⟨n, hn⟩ := exists_nat_mul_two_zpow hleastLe
    have hsquare : m <<< shift ≤ n * n := by
      have hpower : (2 : Rat) ^ (2 * k) = (n * n : Nat) * 2 ^ (2 * least) := by
        rw [two_mul, two_mul, zpow_add₀ two_ne_zero, zpow_add₀ two_ne_zero, hn, Nat.cast_mul]
        ring
      rw [hpower] at ha
      exact_mod_cast le_of_mul_le_mul_right ha (two_zpow_pos _)
    have htarget : least ≤
        Format.binary64.targetExponent (totalExponent (m <<< shift).sqrt least) := by
      rw [targetExponent_eq]
      by_cases hsmall : least ≤ -1074
      · omega
      have hdigits : 2 ^ 52 ≤ (m <<< shift).sqrt := by
        rw [Nat.le_sqrt, ← pow_add, Nat.shiftLeft_eq]
        calc 2 ^ (52 + 52) ≤ 2 ^ (m.log2 + shift) := Nat.pow_le_pow_right two_pos (by omega)
          _ = 2 ^ m.log2 * 2 ^ shift := pow_add _ _ _
          _ ≤ m * 2 ^ shift := Nat.mul_le_mul_right _ (Nat.log2_self_le hm.ne')
      have hlog := (Nat.le_log2 (by omega)).mpr hdigits
      omega
    obtain ⟨result, hrounded, hresult⟩ :=
      exists_represents_roundWithAccuracy .positive hdescribes htarget
    exact ⟨c, result, (hle n hsquare).trans hn.ge, hrounded, hresult⟩

end Operations

end Aprs
