import Aprs.Base91
import Mathlib

/-!
Base-91 numbers as numbers. Reading stops at the limit wherever it is reached, and comes to the
exact value or to the limit, whichever is less; writing gives the digits of a number in their order,
behind as many zeros as the width leaves room for.
-/

namespace Aprs.Base91

/-- What a run of digits stands for, however large it is. -/
def value (t : Text) : Nat := Nat.ofDigits radix (t.reverse.map digit)

theorem value_cons (c : Char) (t : Text) :
    value (c :: t) = digit c * radix ^ t.length + value t := by
  rw [value, List.reverse_cons, List.map_append, Nat.ofDigits_append, List.length_map,
    List.length_reverse, List.map_singleton, Nat.ofDigits_singleton, value]
  ring

theorem digit_lt {c : Char} (h : isDigit c = true) : digit c < radix := by
  obtain ⟨_, hhigh⟩ := Text.between_iff.mp h
  change c.toNat ≤ 123 at hhigh
  change c.toNat - 33 < 91
  omega

theorem value_lt {t : Text} (h : ∀ c ∈ t, isDigit c = true) : value t < radix ^ t.length := by
  have hdigits : ∀ d ∈ t.reverse.map digit, d < radix := by
    intro d hd
    obtain ⟨c, hc, rfl⟩ := List.mem_map.mp hd
    exact digit_lt (h c (List.mem_reverse.mp hc))
  have hlt := Nat.ofDigits_lt_base_pow_length (by decide) hdigits
  rwa [List.length_map, List.length_reverse] at hlt

section Reading

/-- A number at the limit stays there. -/
theorem push_min (n : Nat) (c : Char) :
    push (min n limit) c = min (n * radix + digit c) limit := by
  have hlimit : limit ≤ limit * radix := Nat.le_mul_of_pos_right limit (by decide)
  rw [push]
  rcases Nat.le_total n limit with hn | hn
  · rw [Nat.min_eq_left hn]
    omega
  · have hpush : limit * radix ≤ n * radix := Nat.mul_le_mul_right radix hn
    rw [Nat.min_eq_right hn]
    omega

theorem decodeFrom_min {t : Text} (h : ∀ c ∈ t, isDigit c = true) (n : Nat) :
    decodeFrom (min n limit) t = .ok (min (n * radix ^ t.length + value t) limit) := by
  induction t generalizing n with
  | nil => simp [decodeFrom, value]
  | cons c t ih =>
    obtain ⟨hc, ht⟩ := List.forall_mem_cons.mp h
    rw [decodeFrom, if_pos hc, push_min, ih ht, value_cons, List.length_cons]
    congr 2
    ring

theorem value_dropWhile (t : Text) : value (t.dropWhile (· == '!')) = value t := by
  induction t with
  | nil => rfl
  | cons c t ih =>
    by_cases hc : c = '!'
    · rw [List.dropWhile_cons_of_pos (by rw [hc]; rfl), ih, value_cons, hc]
      change value t = 0 * _ + value t
      rw [Nat.zero_mul, Nat.zero_add]
    · rw [List.dropWhile_cons_of_neg (by rw [beq_iff_eq]; exact hc)]

/-- The limit is the only way in which reading departs from the exact value. -/
theorem decode_eq_min {t : Text} (h : ∀ c ∈ t, isDigit c = true) :
    decode t = .ok (min (value t) limit) := by
  have hdrop : ∀ c ∈ t.dropWhile (· == '!'), isDigit c = true :=
    fun c hc => h c ((List.dropWhile_sublist _).subset hc)
  have hfrom := decodeFrom_min hdrop 0
  rwa [Nat.zero_min, Nat.zero_mul, Nat.zero_add, value_dropWhile] at hfrom

theorem decode_eq_value {t : Text} (h : ∀ c ∈ t, isDigit c = true) (hvalue : value t ≤ limit) :
    decode t = .ok (value t) := by
  rw [decode_eq_min h, Nat.min_eq_left hvalue]

theorem decode_singleton {c : Char} (h : isDigit c = true) : decode [c] = .ok (digit c) := by
  have hvalue : value [c] = digit c := by
    rw [value, List.reverse_singleton, List.map_singleton, Nat.ofDigits_singleton]
  have hlimit : digit c ≤ limit := (digit_lt h).le.trans (by decide)
  have hdigits : ∀ d ∈ [c], isDigit d = true := fun d hd => List.mem_singleton.mp hd ▸ h
  rw [decode_eq_value hdigits (hvalue ▸ hlimit), hvalue]

/-- Every character is looked at, and one that is no digit is an error. -/
theorem isDigit_of_decode {t : Text} {n : Nat} (h : decode t = .ok n) :
    ∀ c ∈ t, isDigit c = true := by
  cases hrest : t.dropWhile isDigit with
  | nil => exact List.dropWhile_eq_nil_iff.mp hrest
  | cons c rest =>
    have hc : isDigit c = false := by
      have hhead := List.head?_dropWhile_not isDigit t
      rw [hrest] at hhead
      simpa using hhead
    rw [← List.takeWhile_append_dropWhile (p := isDigit) (l := t), hrest,
      decode_append_cons (fun d hd => List.mem_takeWhile_imp hd) hc] at h
    cases h

end Reading

section Writing

theorem digits_eq (n : Nat) : digits n = Nat.digits radix n := by
  induction n using Nat.strong_induction_on with
  | _ n ih =>
    rw [digits]
    by_cases hn : n = 0
    · rw [if_pos hn, hn, Nat.digits_zero]
    · have hpos : 0 < n := Nat.pos_of_ne_zero hn
      rw [if_neg hn, Nat.digits_def' (by decide) hpos, ih _ (Nat.div_lt_self hpos (by decide))]

theorem toNat_ofDigit {d : Nat} (h : d < radix) : (ofDigit d).toNat = 33 + d := by
  have hradix : d < 91 := h
  exact Text.toNat_ofNat (show 33 + d < 128 by omega)

theorem digit_ofDigit {d : Nat} (h : d < radix) : digit (ofDigit d) = d := by
  change (ofDigit d).toNat - 33 = d
  rw [toNat_ofDigit h, Nat.add_sub_cancel_left]

theorem isDigit_ofDigit {d : Nat} (h : d < radix) : isDigit (ofDigit d) = true := by
  have hradix : d < 91 := h
  rw [isDigit, Text.between_iff, toNat_ofDigit h]
  change 33 ≤ 33 + d ∧ 33 + d ≤ 123
  omega

theorem isDigit_of_mem_encode {n width : Nat} {c : Char} (h : c ∈ encode n width) :
    isDigit c = true := by
  rw [encode] at h
  rcases List.mem_append.mp h with hzero | hdigit
  · rw [List.eq_of_mem_replicate hzero]
    decide
  · obtain ⟨d, hd, rfl⟩ := List.mem_map.mp hdigit
    rw [List.mem_reverse, digits_eq] at hd
    exact isDigit_ofDigit (Nat.digits_lt_base (by decide) hd)

theorem value_replicate_append (k : Nat) (t : Text) :
    value (List.replicate k '!' ++ t) = value t := by
  induction k with
  | zero => rfl
  | succ k ih =>
    rw [List.replicate_succ, List.cons_append, value_cons, ih]
    change 0 * _ + value t = value t
    rw [Nat.zero_mul, Nat.zero_add]

theorem value_encode (n width : Nat) : value (encode n width) = n := by
  have hdigits : (digits n).map (digit ∘ ofDigit) = digits n := by
    refine (List.map_congr_left fun d hd => ?_).trans (List.map_id _)
    rw [digits_eq] at hd
    exact digit_ofDigit (Nat.digits_lt_base (by decide) hd)
  rw [encode, value_replicate_append, value, ← List.map_reverse, List.reverse_reverse,
    List.map_map, hdigits, digits_eq, Nat.ofDigits_digits]

theorem length_encode {n width : Nat} (hwidth : 1 ≤ width) (h : n < radix ^ width) :
    (encode n width).length = width := by
  have hlength : (digits n).length ≤ width := by
    rw [digits_eq]
    exact (Nat.digits_length_le_iff (by decide) n).mpr h
  rw [encode, List.length_append, List.length_replicate, List.length_map, List.length_reverse]
  omega

theorem decode_encode {n : Nat} (h : n ≤ limit) (width : Nat) :
    decode (encode n width) = .ok n := by
  have hvalue := value_encode n width
  rw [decode_eq_value (fun _ hc => isDigit_of_mem_encode hc) (by rwa [hvalue]), hvalue]

end Writing

end Aprs.Base91
