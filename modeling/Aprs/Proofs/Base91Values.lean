import Aprs.Proofs.ExactValues
import Aprs.Proofs.Rejection

/-!
The values of base-91 texts. A text stands for the sum of its digits, each in its place, and is read
as that sum or as the largest number of 64 bits, whichever is less. What is below the limit goes
through both ways, and texts of one length stand in the order of their numbers.
-/

namespace Aprs.Base91

variable {s t : Text} {c d : Char} {n : Nat}

theorem isDigit_iff_toNat : isDigit c = true ↔ 0x21 ≤ c.toNat ∧ c.toNat ≤ 0x7b :=
  Text.between_iff

theorem forall_isDigit_iff :
    (∀ c ∈ t, isDigit c = true) ↔ ∀ c ∈ t, 0x21 ≤ c.toNat ∧ c.toNat ≤ 0x7b :=
  forall₂_congr fun _ _ => isDigit_iff_toNat

section Limit

theorem value_eq_sum (t : Text) :
    value t = ∑ i : Fin t.length, (t[i].toNat - 33) * 91 ^ (t.length - 1 - i) := by
  induction t with
  | nil => rfl
  | cons c t ih =>
    rw [value_cons, ih]
    change _ = ∑ i : Fin (t.length + 1), _
    rw [Fin.sum_univ_succ]
    congr 1
    refine Finset.sum_congr rfl fun i _ => ?_
    have hplace : t.length - 1 - i = (c :: t).length - 1 - i.succ := by
      rw [List.length_cons, Fin.val_succ]
      omega
    rw [hplace]
    rfl

theorem badDigit?_eq_some_iff :
    badDigit? t = some c ↔
      ∃ before after, t = before ++ c :: after ∧ (∀ d ∈ before, isDigit d = true) ∧
        isDigit c = false := by
  rw [badDigit?, List.find?_eq_some_iff_append]
  constructor
  · rintro ⟨hc, before, after, rfl, hbefore⟩
    exact ⟨before, after, rfl, by simpa using hbefore, by simpa using hc⟩
  · rintro ⟨before, after, rfl, hbefore, hc⟩
    exact ⟨by simpa using hc, before, after, rfl, by simpa using hbefore⟩

theorem decode_eq_ok_iff :
    decode t = .ok n ↔ (∀ c ∈ t, isDigit c = true) ∧ n = min limit (value t) := by
  constructor
  · intro h
    have hdigits := isDigit_of_decode h
    rw [decode_eq_min hdigits] at h
    exact ⟨hdigits, (Except.ok.inj h).symm.trans (Nat.min_comm _ _)⟩
  · rintro ⟨hdigits, rfl⟩
    rw [decode_eq_min hdigits, Nat.min_comm]

/-- Reading fails with the first character that is no digit, wherever it stands. It comes to the
exact value otherwise, zeros in front included, or to the limit. -/
theorem decode_saturates (t : Text) :
    (∀ c, decode t = .error c ↔
      ∃ before after, t = before ++ c :: after ∧
        (∀ d ∈ before, 0x21 ≤ d.toNat ∧ d.toNat ≤ 0x7b) ∧ ¬(0x21 ≤ c.toNat ∧ c.toNat ≤ 0x7b)) ∧
    ∀ n, decode t = .ok n ↔
      (∀ c ∈ t, 0x21 ≤ c.toNat ∧ c.toNat ≤ 0x7b) ∧
        n = min (2 ^ 64 - 1) (∑ i : Fin t.length, (t[i].toNat - 33) * 91 ^ (t.length - 1 - i)) := by
  constructor
  · intro c
    rw [decode_eq_error_iff, badDigit?_eq_some_iff]
    simp only [forall_isDigit_iff, ← isDigit_iff_toNat (c := c), Bool.not_eq_true]
  · intro n
    rw [decode_eq_ok_iff, forall_isDigit_iff, value_eq_sum]
    exact Iff.rfl

/-- Characters that are no digits are refused also past the limit. -/
example : decode (List.replicate 12 '{' ++ [' ']) = .error ' ' := by decide

end Limit

section Order

theorem digit_lt_digit (hc : isDigit c = true) (h : c < d) : digit c < digit d := by
  have hlow : '!'.toNat ≤ c.toNat := (isDigit_iff_toNat.mp hc).1
  have hlt : c.toNat < d.toNat := h
  rw [digit, digit]
  omega

theorem value_lt_of_lt (hlength : s.length = t.length) (hs : ∀ c ∈ s, isDigit c = true)
    (ht : ∀ c ∈ t, isDigit c = true) (h : s < t) : value s < value t :=
  Text.value_lt_of_lt value_cons (fun _ => value_lt) (fun _ _ hc _ => digit_lt_digit hc) hlength
    hs ht h

theorem value_lt_iff (hlength : s.length = t.length) (hs : ∀ c ∈ s, isDigit c = true)
    (ht : ∀ c ∈ t, isDigit c = true) : value s < value t ↔ s < t := by
  refine ⟨fun hlt => ?_, value_lt_of_lt hlength hs ht⟩
  rcases lt_trichotomy s t with h | rfl | h
  · exact h
  · exact absurd hlt (Nat.lt_irrefl _)
  · exact absurd hlt (Nat.lt_asymm (value_lt_of_lt hlength.symm ht hs h))

/-- The length and the number leave no choice of digits. -/
theorem eq_of_value_eq (hlength : s.length = t.length) (hs : ∀ c ∈ s, isDigit c = true)
    (ht : ∀ c ∈ t, isDigit c = true) (h : value s = value t) : s = t := by
  rcases lt_trichotomy s t with hlt | heq | hlt
  · exact absurd h (value_lt_of_lt hlength hs ht hlt).ne
  · exact heq
  · exact absurd h (value_lt_of_lt hlength.symm ht hs hlt).ne'

end Order

section RoundTrip

theorem length_encode_eq_max (n width : Nat) :
    (encode n width).length = max width (max 1 (Nat.digits 91 n).length) := by
  have hdigits : (digits n).length = (Nat.digits 91 n).length := congrArg _ (digits_eq n)
  rw [encode, List.length_append, List.length_replicate, List.length_map, List.length_reverse]
  omega

theorem encode_value (hne : t ≠ []) (h : ∀ c ∈ t, isDigit c = true) :
    encode (value t) t.length = t :=
  eq_of_value_eq (length_encode (List.length_pos_iff.mpr hne) (value_lt h))
    (fun _ => isDigit_of_mem_encode) h (value_encode _ _)

/-- A run of digits that stands for a number of 64 bits. -/
structure IsWord (t : Text) : Prop where
  digits : ∀ c ∈ t, 0x21 ≤ c.toNat ∧ c.toNat ≤ 0x7b
  value_lt : value t < 2 ^ 64

theorem IsWord.decode_eq (h : IsWord t) : decode t = .ok (value t) :=
  decode_eq_value (forall_isDigit_iff.mpr h.digits) (Nat.le_of_lt_succ h.value_lt)

theorem isWord_encode (n : UInt64) (width : Nat) : IsWord (encode n.toNat width) where
  digits := forall_isDigit_iff.mp fun _ => isDigit_of_mem_encode
  value_lt := by
    rw [value_encode]
    exact n.toNat_lt

/-- Every number of 64 bits comes back from the digits that are written for it, and every run of
digits for such a number is what is written for it in that length. Runs of one length stand in the
order of their numbers. -/
theorem encode_round_trip :
    (∀ (n : UInt64) (width : Nat),
      (encode n.toNat width).length = max width (max 1 (Nat.digits 91 n.toNat).length) ∧
      (∀ c ∈ encode n.toNat width, 0x21 ≤ c.toNat ∧ c.toNat ≤ 0x7b) ∧
      value (encode n.toNat width) = n.toNat ∧ decode (encode n.toNat width) = .ok n.toNat) ∧
    (∀ t, IsWord t → decode t = .ok (value t) ∧ (t ≠ [] → encode (value t) t.length = t)) ∧
    ∀ s t, IsWord s → IsWord t → s.length = t.length →
      ∃ m n, decode s = .ok m ∧ decode t = .ok n ∧ (m < n ↔ s < t) ∧ (m = n ↔ s = t) := by
  refine ⟨fun n width => ?_, fun t ht => ?_, fun s t hs ht hlength => ?_⟩
  · have hlimit : n.toNat ≤ limit := Nat.le_of_lt_succ n.toNat_lt
    exact ⟨length_encode_eq_max _ _, (isWord_encode n width).digits, value_encode _ _,
      decode_encode hlimit width⟩
  · exact ⟨ht.decode_eq, fun hne => encode_value hne (forall_isDigit_iff.mpr ht.digits)⟩
  · have hs' := forall_isDigit_iff.mpr hs.digits
    have ht' := forall_isDigit_iff.mpr ht.digits
    refine ⟨_, _, hs.decode_eq, ht.decode_eq, value_lt_iff hlength hs' ht', ?_⟩
    exact ⟨eq_of_value_eq hlength hs' ht', congrArg value⟩

/-- The largest number, in as many digits as it needs, and a small one behind zeros. -/
theorem encode_round_trip_largest :
    IsWord "!!!!!!!!!\x7b".toList ∧ IsWord "L*cTZ-spT0".toList ∧
      decode "L*cTZ-spT0".toList = .ok (2 ^ 64 - 1) ∧
      encode (2 ^ 64 - 1) 10 = "L*cTZ-spT0".toList ∧
      ∃ m n, decode "!!!!!!!!!\x7b".toList = .ok m ∧ decode "L*cTZ-spT0".toList = .ok n ∧
        m < n := by
  obtain ⟨hwrite, hread, horder⟩ := encode_round_trip
  have hnat : (18446744073709551615 : UInt64).toNat = 2 ^ 64 - 1 := by decide
  have hlargest : encode (2 ^ 64 - 1) 10 = "L*cTZ-spT0".toList := by
    rw [← hnat]
    cbv
  have hsmall : "!!!!!!!!!\x7b".toList = encode (90 : UInt64).toNat 10 := by cbv
  have hs : IsWord "!!!!!!!!!\x7b".toList := by
    rw [hsmall]
    exact isWord_encode 90 10
  have ht : IsWord "L*cTZ-spT0".toList := by
    rw [← hlargest, ← hnat]
    exact isWord_encode 18446744073709551615 10
  obtain ⟨-, -, -, hdecode⟩ := hwrite 18446744073709551615 10
  rw [hnat, hlargest] at hdecode
  obtain ⟨hvalue, hencode⟩ := hread _ ht
  rw [Except.ok.inj (hvalue.symm.trans hdecode)] at hencode
  obtain ⟨m, n, hm, hn, hlt, -⟩ := horder _ _ hs ht (by decide)
  exact ⟨hs, ht, hdecode, hencode (by decide), m, n, hm, hn, hlt.mpr (by decide)⟩

end RoundTrip

end Aprs.Base91
