import Aprs.Telemetry.Definition
import Aprs.Proofs.ExactValues

/-!
Coefficients of telemetry equations, sent as tokens of one list. A token is empty, or a numeral in
its decimal spelling; the first one that is neither is the one that the error counts to.
-/

namespace Aprs

open Float.Model.UnpackedFloat Reading

namespace Decimal

/-- The parts of a numeral: a sign, digits, a point, and at least one digit at the end. All but the
last may be missing. -/
structure Numeral where
  negative : Bool
  leading : Text
  pointed : Bool
  trailing : Text
  isDigit_leading : ∀ c ∈ leading, c.isDigit = true
  isDigit_trailing : ∀ c ∈ trailing, c.isDigit = true
  trailing_ne_nil : trailing ≠ []

namespace Numeral

def unsigned (n : Numeral) : Text :=
  n.leading ++ (if n.pointed then '.' :: n.trailing else n.trailing)

def text (n : Numeral) : Text := if n.negative then '-' :: n.unsigned else n.unsigned

/-- The digits behind a point are parts of a unit. -/
def places (n : Numeral) : Nat := if n.pointed then n.trailing.length else 0

def sign (n : Numeral) : Sign := if n.negative then .negative else .positive

/-- What the digits stand for, without the sign. -/
def magnitude (n : Numeral) : Rat :=
  (Nat.ofDigits 10 ((n.leading ++ n.trailing).reverse.map Text.digitValue) : Nat) / 10 ^ n.places

def decimal (n : Numeral) : Decimal :=
  ⟨n.negative, Text.natOfDigits (n.leading ++ n.trailing), n.places⟩

variable (n : Numeral)

theorem isDigit_of_mem : ∀ c ∈ n.leading ++ n.trailing, c.isDigit = true :=
  List.forall_mem_append.mpr ⟨n.isDigit_leading, n.isDigit_trailing⟩

theorem parseUnsigned?_unsigned (negative : Bool) :
    parseUnsigned? negative n.unsigned =
      some ⟨negative, Text.natOfDigits (n.leading ++ n.trailing), n.places⟩ := by
  rw [unsigned, places]
  cases n.pointed with
  | true =>
    exact parseUnsigned?_point negative n.trailing_ne_nil n.isDigit_leading n.isDigit_trailing
  | false =>
    have hne : n.leading ++ n.trailing ≠ [] := by simp [n.trailing_ne_nil]
    exact parseUnsigned?_digits negative hne n.isDigit_of_mem

theorem minus_not_mem_unsigned : '-' ∉ n.unsigned := by
  have hdigit : '-' ∉ n.leading ++ n.trailing := by
    intro hmem
    exact absurd (n.isDigit_of_mem '-' hmem) (by decide)
  rw [List.mem_append, not_or] at hdigit
  rw [unsigned]
  cases n.pointed <;> simp [hdigit]

theorem parse?_text : parse? n.text = some n.decimal := by
  rw [text, decimal]
  cases n.negative with
  | true => exact n.parseUnsigned?_unsigned true
  | false =>
    have hminus : ∀ c ∈ n.unsigned, c ≠ '-' := by
      rintro c hc rfl
      exact n.minus_not_mem_unsigned hc
    exact (parse?_eq_parseUnsigned? hminus).trans (n.parseUnsigned?_unsigned false)

theorem text_ne_nil : n.text ≠ [] := by
  intro h
  have hparse := n.parse?_text
  rw [h] at hparse
  cases hparse

end Numeral

theorem exists_unsigned_of_parseUnsigned? {negative : Bool} {t : Text} {d : Decimal}
    (h : parseUnsigned? negative t = some d) :
    ∃ n : Numeral, n.negative = negative ∧ n.unsigned = t := by
  have hwhole : ∀ c ∈ t.takeWhile Char.isDigit, c.isDigit = true := fun _ => List.mem_takeWhile_imp
  have hcut : t.takeWhile Char.isDigit ++ t.dropWhile Char.isDigit = t :=
    List.takeWhile_append_dropWhile
  unfold parseUnsigned? at h
  dsimp only at h
  split at h
  · next hrest =>
    split at h
    · cases h
    · next hne =>
      rw [hrest, List.append_nil] at hcut
      rw [hcut] at hne hwhole
      exact ⟨⟨negative, [], false, t, List.forall_mem_nil _, hwhole, hne⟩, rfl, rfl⟩
  · next fraction hrest =>
    split at h
    · next hfraction =>
      rw [hrest] at hcut
      exact ⟨⟨negative, _, true, fraction, hwhole, List.all_eq_true.mp hfraction.2, hfraction.1⟩,
        rfl, hcut⟩
    · cases h
  · cases h

theorem exists_numeral_of_parse? {t : Text} {d : Decimal} (h : parse? t = some d) :
    ∃ n : Numeral, n.text = t := by
  unfold parse? at h
  split at h
  · obtain ⟨n, hnegative, rfl⟩ := exists_unsigned_of_parseUnsigned? h
    exact ⟨n, by rw [Numeral.text, if_pos hnegative]⟩
  · obtain ⟨n, hnegative, rfl⟩ := exists_unsigned_of_parseUnsigned? h
    exact ⟨n, by rw [Numeral.text, hnegative]; rfl⟩

end Decimal

namespace TelemetryDefs

open Decimal

variable {tokens : List Text} {t : Text} {o : Option Quantity} {place : Nat}
  {given : List (Option Quantity)}

/-- A token between the commas of a definition: nothing, or a numeral. -/
def IsCoefficient (t : Text) : Prop := t = [] ∨ ∃ n : Numeral, n.text = t

/-- What a token gives, which is nothing if it is empty. -/
inductive Gives : Text → Option Quantity → Prop
  | nothing : Gives [] none
  | numeral (n : Numeral) : Gives n.text (some (.decimal n.decimal))

theorem Gives.isCoefficient (h : Gives t o) : IsCoefficient t := by
  cases h with
  | nothing => exact .inl rfl
  | numeral n => exact .inr ⟨n, rfl⟩

theorem isCoefficient_of_forall₂ (h : List.Forall₂ Gives tokens given) :
    ∀ t ∈ tokens, IsCoefficient t := by
  induction h with
  | nil => exact List.forall_mem_nil _
  | cons hfirst _ ih => exact List.forall_mem_cons.mpr ⟨hfirst.isCoefficient, ih⟩

theorem IsCoefficient.exists_gives (h : IsCoefficient t) : ∃ o, Gives t o := by
  rcases h with rfl | ⟨n, rfl⟩
  · exact ⟨_, .nothing⟩
  · exact ⟨_, .numeral n⟩

theorem coefficients_cons_of_gives (h : Gives t o) (place : Nat) (tokens : List Text) :
    coefficients place (t :: tokens) = (coefficients (place + 1) tokens).map (o :: ·) := by
  cases h with
  | nothing => rw [coefficients]
  | numeral n =>
    rw [coefficients, n.parse?_text]
    exact n.text_ne_nil

theorem coefficients_cons_of_not (h : ¬IsCoefficient t) (place : Nat) (tokens : List Text) :
    coefficients place (t :: tokens) = .error (.notANumber place) := by
  rw [IsCoefficient, not_or] at h
  have hparse : parse? t = none := by
    by_contra hsome
    obtain ⟨d, hd⟩ := Option.ne_none_iff_exists'.mp hsome
    exact h.2 (exists_numeral_of_parse? hd)
  rw [coefficients, hparse]
  exact h.1

/-- A list is read when every token of it is. -/
theorem coefficients_eq_ok_iff :
    coefficients place tokens = .ok given ↔ List.Forall₂ Gives tokens given := by
  induction tokens generalizing place given with
  | nil =>
    rw [coefficients, List.forall₂_nil_left_iff]
    exact ⟨fun h => (Except.ok.inj h).symm, fun h => congrArg _ h.symm⟩
  | cons t tokens ih =>
    rw [List.forall₂_cons_left_iff]
    constructor
    · intro h
      by_cases ht : IsCoefficient t
      · obtain ⟨o, ho⟩ := ht.exists_gives
        rw [coefficients_cons_of_gives ho] at h
        obtain ⟨others, hothers, rfl⟩ := map_eq_ok_iff.mp h
        exact ⟨o, others, ho, ih.mp hothers, rfl⟩
      · rw [coefficients_cons_of_not ht] at h
        cases h
    · rintro ⟨o, others, ho, hothers, rfl⟩
      rw [coefficients_cons_of_gives ho, ih.mpr hothers]
      rfl

/-- Otherwise the first token that is not read decides, at its own place. -/
theorem coefficients_eq_error_iff {cause : DefinitionError} :
    coefficients place tokens = .error cause ↔
      ∃ before t after, tokens = before ++ t :: after ∧ (∀ u ∈ before, IsCoefficient u) ∧
        ¬IsCoefficient t ∧ cause = .notANumber (place + before.length) := by
  induction tokens generalizing place with
  | nil => simp [coefficients]
  | cons t tokens ih =>
    by_cases ht : IsCoefficient t
    · -- The fault is among the others, whose places are counted from one further on.
      obtain ⟨o, ho⟩ := ht.exists_gives
      rw [coefficients_cons_of_gives ho, map_eq_error_iff, ih]
      constructor
      · rintro ⟨before, u, after, rfl, hbefore, hu, rfl⟩
        refine ⟨t :: before, u, after, rfl, List.forall_mem_cons.mpr ⟨ht, hbefore⟩, hu, ?_⟩
        rw [List.length_cons, Nat.add_assoc, Nat.add_comm 1]
      · rintro ⟨before, u, after, hcut, hbefore, hu, rfl⟩
        cases before with
        | nil =>
          rw [List.nil_append, List.cons.injEq] at hcut
          exact absurd (hcut.1 ▸ ht) hu
        | cons v before =>
          rw [List.cons_append, List.cons.injEq] at hcut
          refine ⟨before, u, after, hcut.2, (List.forall_mem_cons.mp hbefore).2, hu, ?_⟩
          rw [List.length_cons, Nat.add_assoc, Nat.add_comm 1]
    · rw [coefficients_cons_of_not ht]
      constructor
      · intro h
        cases h
        exact ⟨[], t, tokens, rfl, List.forall_mem_nil _, ht, rfl⟩
      · rintro ⟨before, u, after, hcut, hbefore, hu, rfl⟩
        cases before with
        | nil => rfl
        | cons v before =>
          rw [List.cons_append, List.cons.injEq] at hcut
          exact absurd (hbefore v List.mem_cons_self) (hcut.1 ▸ ht)

theorem Gives.eq_none (h : Gives [] o) : o = none := by
  generalize htext : ([] : Text) = t at h
  cases h with
  | nothing => rfl
  | numeral n => exact absurd htext.symm n.text_ne_nil

theorem Gives.eq_decimal {n : Numeral} (h : Gives n.text o) : o = some (.decimal n.decimal) := by
  generalize htext : n.text = t at h
  cases h with
  | nothing => exact absurd htext n.text_ne_nil
  | numeral m =>
    have hparse := m.parse?_text
    rw [← htext, n.parse?_text] at hparse
    rw [Option.some.inj hparse]

/-- Tokens past the end of the list count as empty. -/
theorem gives_getD (h : List.Forall₂ Gives tokens given) (k : Nat) :
    Gives (tokens.getD k []) (given.getD k none) := by
  induction h generalizing k with
  | nil => exact .nothing
  | cons hfirst _ ih =>
    cases k with
    | zero => exact hfirst
    | succ k => exact ih k

end TelemetryDefs

end Aprs
