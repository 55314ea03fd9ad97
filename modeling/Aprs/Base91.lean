import Aprs.Text

/-!
Base-91 numbers, as compressed positions, altitudes, comment telemetry and precision tags use them.
Each character stands for its code less 33, the most significant character first.
-/

namespace Aprs.Base91

def radix : Nat := 91

/-- Numbers are held in 64 bits; larger ones count as the largest of these. -/
def limit : Nat := UInt64.size - 1

def isDigit (c : Char) : Bool := Text.between '!' '{' c

def digit (c : Char) : Nat := c.toNat - '!'.toNat

def ofDigit (d : Nat) : Char := Char.ofNat ('!'.toNat + d)

/-- Multiplication and addition stop at the limit one after the other. -/
def push (value : Nat) (c : Char) : Nat := min (min (value * radix) limit + digit c) limit

/-- Fails with the first character that is no digit, also after the limit is reached. -/
def decodeFrom : Nat → Text → Except Char Nat
  | value, [] => .ok value
  | value, c :: t => if isDigit c then decodeFrom (push value c) t else .error c

def decode (t : Text) : Except Char Nat := decodeFrom 0 (t.dropWhile (· == '!'))

theorem exists_decodeFrom_eq_ok {t : Text} (h : ∀ c ∈ t, isDigit c = true) (value : Nat) :
    ∃ n, decodeFrom value t = .ok n := by
  induction t generalizing value with
  | nil => exact ⟨value, rfl⟩
  | cons c t ih =>
    obtain ⟨hc, ht⟩ := List.forall_mem_cons.mp h
    rw [decodeFrom, if_pos hc]
    exact ih ht (push value c)

theorem decodeFrom_append_cons {t rest : Text} {c : Char} (h : ∀ d ∈ t, isDigit d = true)
    (hc : isDigit c = false) (value : Nat) : decodeFrom value (t ++ c :: rest) = .error c := by
  induction t generalizing value with
  | nil => rw [List.nil_append, decodeFrom, if_neg (by rw [hc]; decide)]
  | cons d t ih =>
    obtain ⟨hd, ht⟩ := List.forall_mem_cons.mp h
    rw [List.cons_append, decodeFrom, if_pos hd]
    exact ih ht (push value d)

theorem exists_decode_eq_ok {t : Text} (h : ∀ c ∈ t, isDigit c = true) :
    ∃ n, decode t = .ok n :=
  exists_decodeFrom_eq_ok (fun c hc => h c ((List.dropWhile_sublist _).mem hc)) 0

/-- The first character that is no digit is the one that the error names. -/
theorem decode_append_cons {t rest : Text} {c : Char} (h : ∀ d ∈ t, isDigit d = true)
    (hc : isDigit c = false) : decode (t ++ c :: rest) = .error c := by
  have hdrop : (t ++ c :: rest).dropWhile (· == '!') = t.dropWhile (· == '!') ++ c :: rest := by
    have hne : (c == '!') = false := by
      rw [beq_eq_false_iff_ne]
      rintro rfl
      exact absurd hc (by decide)
    rw [List.dropWhile_append, List.dropWhile_cons_of_neg (by rw [hne]; decide)]
    cases hempty : (t.dropWhile (· == '!')).isEmpty with
    | true => rw [if_pos rfl, List.isEmpty_iff.mp hempty, List.nil_append]
    | false => rw [if_neg (by decide)]
  rw [decode, hdrop]
  exact decodeFrom_append_cons (fun d hd => h d ((List.dropWhile_sublist _).mem hd)) hc 0

/-- Digits of a number, the least significant first; zero has none. -/
def digits (n : Nat) : List Nat :=
  if n = 0 then [] else n % radix :: digits (n / radix)
termination_by n
decreasing_by exact Nat.div_lt_self (by omega) (by decide)

/-- Pads with zeros to `width` characters, and to one character at least. -/
def encode (n : Nat) (width : Nat) : Text :=
  let significant := (digits n).reverse.map ofDigit
  List.replicate (max width 1 - significant.length) '!' ++ significant

end Aprs.Base91
