import Aprs.Proofs.Reading
import Aprs.Units

/-!
Exact values. A run of digits is a number below the power of ten of its length, a numeral with a
point is that number with the point moved, and a formula has the value that its operations give.
-/

namespace Aprs

namespace Text

theorem natOfDigits_append (t u : Text) :
    natOfDigits (t ++ u) = natOfDigits t * 10 ^ u.length + natOfDigits u := by
  induction u using List.reverseRecOn with
  | nil => simp [natOfDigits]
  | append_singleton u c ih =>
    have hpush : ∀ v : Text, natOfDigits (v ++ [c]) = 10 * natOfDigits v + digitValue c := by
      intro v
      rw [natOfDigits, List.foldl_append]
      rfl
    rw [← List.append_assoc, hpush, hpush, ih, List.length_append, List.length_singleton, pow_succ]
    ring

theorem natOfDigits_cons (c : Char) (t : Text) :
    natOfDigits (c :: t) = digitValue c * 10 ^ t.length + natOfDigits t := by
  have happend := natOfDigits_append [c] t
  have hone : natOfDigits [c] = digitValue c := by simp [natOfDigits]
  rw [List.singleton_append, hone] at happend
  exact happend

theorem natOfDigits_eq_ofDigits (t : Text) :
    natOfDigits t = Nat.ofDigits 10 (t.reverse.map digitValue) := by
  induction t with
  | nil => rfl
  | cons c t ih =>
    rw [natOfDigits_cons, ih, List.reverse_cons, List.map_append, Nat.ofDigits_append,
      List.length_map, List.length_reverse, List.map_singleton, Nat.ofDigits_singleton]
    ring

/-- A run of one class is cut off where the next character is of no such class. -/
theorem span_append {p : Char → Bool} {t : Text} (rest : Text) (h : ∀ c ∈ t, p c = true)
    (hrest : ∀ c ∈ rest.head?, p c = false) :
    (t ++ rest).takeWhile p = t ∧ (t ++ rest).dropWhile p = rest := by
  have hnone : rest.takeWhile p = [] ∧ rest.dropWhile p = rest := by
    cases rest with
    | nil => exact ⟨rfl, rfl⟩
    | cons c rest => simp [hrest c rfl]
  rw [List.takeWhile_append_of_pos h, List.dropWhile_append_of_pos h, hnone.1, hnone.2,
    List.append_nil]
  exact ⟨rfl, rfl⟩

theorem digitValue_lt {c : Char} (h : c.isDigit = true) : digitValue c < 10 := by
  have hhigh : c.toNat ≤ 57 := (Char.isDigit_iff_toNat.mp h).2
  change c.toNat - 48 < 10
  omega

theorem natOfDigits_lt {t : Text} (h : ∀ c ∈ t, c.isDigit = true) :
    natOfDigits t < 10 ^ t.length := by
  induction t using List.reverseRecOn with
  | nil => decide
  | append_singleton t c ih =>
    rw [List.forall_mem_append] at h
    have ht := ih h.1
    have hc : natOfDigits [c] < 10 := by
      rw [natOfDigits]
      simpa using digitValue_lt (h.2 c (List.mem_singleton_self c))
    rw [natOfDigits_append, List.length_append, List.length_singleton, pow_one,
      pow_succ]
    omega

/-- Numerals of one length stand in the order of their values, in any system of digits that gives
each place more than all places behind it. -/
theorem value_lt_of_lt {radix : Nat} {digit : Char → Nat} {value : Text → Nat} {p : Char → Prop}
    (hcons : ∀ c t, value (c :: t) = digit c * radix ^ t.length + value t)
    (hvalue : ∀ t, (∀ c ∈ t, p c) → value t < radix ^ t.length)
    (hdigit : ∀ c d, p c → p d → c < d → digit c < digit d) {t u : Text}
    (hlength : t.length = u.length) (ht : ∀ c ∈ t, p c) (hu : ∀ c ∈ u, p c) (h : t < u) :
    value t < value u := by
  induction t generalizing u with
  | nil =>
    rw [List.length_eq_zero_iff.mp hlength.symm] at h
    exact absurd h (List.lt_irrefl [])
  | cons c t ih =>
    obtain ⟨d, u, rfl⟩ := List.exists_cons_of_length_eq_add_one hlength.symm
    rw [List.forall_mem_cons] at ht hu
    have htail : t.length = u.length := Nat.succ.inj hlength
    rw [hcons, hcons, ← htail]
    rcases List.cons_lt_cons_iff.mp h with hcd | ⟨rfl, htu⟩
    · have hmore : (digit c + 1) * radix ^ t.length ≤ digit d * radix ^ t.length :=
        Nat.mul_le_mul_right _ (hdigit c d ht.1 hu.1 hcd)
      have hrest := hvalue t ht.2
      rw [Nat.add_mul, Nat.one_mul] at hmore
      omega
    · exact Nat.add_lt_add_left (ih htail ht.2 hu.2 htu) _

theorem natOfDigits_lt_of_lt {t u : Text} (hlength : t.length = u.length)
    (ht : ∀ c ∈ t, c.isDigit = true) (hu : ∀ c ∈ u, c.isDigit = true) (h : t < u) :
    natOfDigits t < natOfDigits u := by
  refine value_lt_of_lt natOfDigits_cons (fun t => natOfDigits_lt) ?_ hlength ht hu h
  intro c d hc _ hcd
  have hlow : '0'.toNat ≤ c.toNat := (Char.isDigit_iff_toNat.mp hc).1
  have hlt : c.toNat < d.toNat := hcd
  rw [digitValue, digitValue]
  omega

end Text

namespace Decimal

variable {whole fraction t : Text}

theorem parse?_eq_parseUnsigned? (h : ∀ c ∈ t, c ≠ '-') : parse? t = parseUnsigned? false t := by
  unfold parse?
  split
  · exact absurd rfl (h '-' (List.mem_cons_self ..))
  · rfl

theorem ne_minus_of_isDigit {c : Char} (h : c.isDigit = true) : c ≠ '-' := by
  rintro rfl
  exact absurd h (by decide)

theorem parseUnsigned?_digits (negative : Bool) (hne : t ≠ []) (h : ∀ c ∈ t, c.isDigit = true) :
    parseUnsigned? negative t = some ⟨negative, Text.natOfDigits t, 0⟩ := by
  obtain ⟨htake, hdrop⟩ := Text.span_append [] h (by simp)
  rw [List.append_nil] at htake hdrop
  rw [parseUnsigned?, hdrop, htake]
  exact if_neg hne

theorem parse?_digits (hne : t ≠ []) (h : ∀ c ∈ t, c.isDigit = true) :
    parse? t = some ⟨false, Text.natOfDigits t, 0⟩ := by
  rw [parse?_eq_parseUnsigned? fun c hc => ne_minus_of_isDigit (h c hc)]
  exact parseUnsigned?_digits false hne h

theorem parseUnsigned?_point (negative : Bool) (hne : fraction ≠ [])
    (hwhole : ∀ c ∈ whole, c.isDigit = true) (hfraction : ∀ c ∈ fraction, c.isDigit = true) :
    parseUnsigned? negative (whole ++ '.' :: fraction) =
      some ⟨negative, Text.natOfDigits (whole ++ fraction), fraction.length⟩ := by
  obtain ⟨htake, hdrop⟩ := Text.span_append ('.' :: fraction) hwhole (by simp)
  rw [parseUnsigned?, hdrop, htake]
  exact if_pos ⟨hne, List.all_eq_true.mpr hfraction⟩

theorem parse?_point (hne : fraction ≠ []) (hwhole : ∀ c ∈ whole, c.isDigit = true)
    (hfraction : ∀ c ∈ fraction, c.isDigit = true) :
    parse? (whole ++ '.' :: fraction) =
      some ⟨false, Text.natOfDigits (whole ++ fraction), fraction.length⟩ := by
  have hminus : ∀ c ∈ whole ++ '.' :: fraction, c ≠ '-' := by
    intro c hc
    rw [List.mem_append, List.mem_cons] at hc
    rcases hc with hc | rfl | hc
    · exact ne_minus_of_isDigit (hwhole c hc)
    · decide
    · exact ne_minus_of_isDigit (hfraction c hc)
  rw [parse?_eq_parseUnsigned? hminus]
  exact parseUnsigned?_point false hne hwhole hfraction

/-- Minutes are written with two digits on both sides of the point. -/
theorem parse?_hundredths {a b c d : Char} (h : ∀ x ∈ [a, b, c, d], x.isDigit = true) :
    parse? [a, b, '.', c, d] = some ⟨false, Text.natOfDigits [a, b, c, d], 2⟩ := by
  have hwhole : ∀ x ∈ [a, b], x.isDigit = true := fun x hx => h x (List.mem_append_left [c, d] hx)
  have hfraction : ∀ x ∈ [c, d], x.isDigit = true :=
    fun x hx => h x (List.mem_append_right [a, b] hx)
  exact parse?_point (List.cons_ne_nil c [d]) hwhole hfraction

end Decimal

namespace Quantity

variable {a b : Quantity} {x y : Rat}

theorem toRat?_scaled (digits places : Nat) :
    (scaled digits places).toRat? = some ((digits : Rat) / 10 ^ places) := by
  simp [scaled, toRat?, Decimal.toRat, Decimal.tenTo]

theorem toRat?_hundredths (n : Nat) : (scaled n 2).toRat? = some ((n : Rat) / 100) := by
  rw [toRat?_scaled]
  norm_num

theorem toRat?_ofNat (n : Nat) : (ofNat n).toRat? = some (n : Rat) := by
  have hscaled := toRat?_scaled n 0
  rw [pow_zero, div_one] at hscaled
  exact hscaled

theorem toRat?_ofInt (i : Int) : (ofInt i).toRat? = some (i : Rat) := by
  have hmagnitude : ((i.natAbs : Nat) : Rat) / (Decimal.tenTo 0 : Rat) = |(i : Rat)| := by
    rw [Nat.cast_natAbs, Int.cast_abs]
    exact div_one _
  change some (if decide (i < 0) then -((i.natAbs : Rat) / (Decimal.tenTo 0 : Rat))
    else (i.natAbs : Rat) / (Decimal.tenTo 0 : Rat)) = _
  rw [hmagnitude]
  by_cases h : i < 0
  · have hneg : (i : Rat) < 0 := Int.cast_lt_zero.mpr h
    rw [decide_eq_true h, if_pos rfl, abs_of_neg hneg, neg_neg]
  · have hnonneg : (0 : Rat) ≤ i := Int.cast_nonneg (Int.not_lt.mp h)
    rw [decide_eq_false h, if_neg Bool.false_ne_true, abs_of_nonneg hnonneg]
/-- An operation has a value where both sides have one. -/
theorem values_eq_some {u v : Option Rat} (f : Rat → Rat → Rat) (hu : u = some x)
    (hv : v = some y) : (do return f (← u) (← v)) = some (f x y) := by
  rw [hu, hv]
  rfl

theorem toRat?_add (ha : a.toRat? = some x) (hb : b.toRat? = some y) :
    (a + b).toRat? = some (x + y) :=
  values_eq_some (· + ·) ha hb

theorem toRat?_sub (ha : a.toRat? = some x) (hb : b.toRat? = some y) :
    (a - b).toRat? = some (x - y) :=
  values_eq_some (· - ·) ha hb

theorem toRat?_mul (ha : a.toRat? = some x) (hb : b.toRat? = some y) :
    (a * b).toRat? = some (x * y) :=
  values_eq_some (· * ·) ha hb

theorem toRat?_div (ha : a.toRat? = some x) (hb : b.toRat? = some y) :
    (a / b).toRat? = some (x / y) :=
  values_eq_some (· / ·) ha hb

theorem toRat?_neg (ha : a.toRat? = some x) : (-a).toRat? = some (-x) := by
  change (do return -(← a.toRat?)) = _
  rw [ha]
  rfl

/-- A number with the sign that a hemisphere gives it. -/
def signed (negative : Bool) (x : Rat) : Rat := if negative then -x else x

theorem toRat?_negIf (negative : Bool) (ha : a.toRat? = some x) :
    (negIf negative a).toRat? = some (signed negative x) := by
  cases negative with
  | false => exact ha
  | true => exact toRat?_neg ha

theorem abs_signed (negative : Bool) (x : Rat) : |signed negative x| = |x| := by
  cases negative with
  | false => rfl
  | true => exact abs_neg x

/-- The value of an arc from its degrees and the hundredths of its minutes. -/
def arc (degrees hundredths : Nat) : Rat := degrees + (hundredths : Rat) / 6000

theorem toRat?_ofDegreesMinutes {degrees hundredths : Nat} (ha : a.toRat? = some (degrees : Rat))
    (hb : b.toRat? = some ((hundredths : Rat) / 100)) :
    (ofDegreesMinutes a b).toRat? = some (arc degrees hundredths) := by
  have hminutes := toRat?_add ha (toRat?_div hb (toRat?_ofNat 60))
  have hvalue : (degrees : Rat) + (hundredths : Rat) / 100 / (60 : Nat) =
      arc degrees hundredths := by
    rw [arc]
    push_cast
    ring
  rw [hvalue] at hminutes
  exact hminutes

end Quantity

end Aprs
