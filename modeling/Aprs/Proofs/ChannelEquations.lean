import Aprs.Proofs.ChannelDefinitions
import Aprs.Proofs.Coefficients
import Aprs.Proofs.NearestFloat

/-!
Equations of telemetry channels. Up to fifteen coefficients are sent as one list, three for each of
five channels. One that is given becomes the number nearest to its numeral, and one that is not
given is that of the equation that changes nothing.
-/

namespace Aprs

open Float.Model.UnpackedFloat

namespace TelemetryDefs

open Decimal

variable {tokens : List Text} {given : List (Option Quantity)}

section Rows

/-- Three coefficients for each channel, those of the identity where none are given. -/
def matrix (given : List (Option Quantity)) : Vector (Vector Quantity 3) 5 :=
  Vector.ofFn fun i => Vector.ofFn fun j => (given.getD (3 * i + j) none).getD (identity.get j)

theorem matrix_apply (given : List (Option Quantity)) (i : Fin 5) (j : Fin 3) :
    ((matrix given).get i).get j = (given.getD (3 * i + j) none).getD (identity.get j) := by
  simp [matrix]

theorem matrix_singleton_none : matrix [none] = matrix [] := by
  have hnone : ∀ k, [(none : Option Quantity)].getD k none = none := by
    intro k
    cases k <;> rfl
  simp only [matrix, hnone, List.getD_nil]

theorem Listable.equations_eq (h : Listable tokens) :
    equations ([','].intercalate tokens) = (coefficients 1 (tokens.take 15)).map matrix := by
  cases tokens with
  | nil =>
    -- No tokens at all make the same text as a single empty one.
    exact congrArg Except.ok matrix_singleton_none
  | cons t tokens =>
    rw [equations, h.splitOn_eq (List.cons_ne_nil t tokens)]
    rfl

/-- The value of a coefficient of the equation that changes nothing. -/
theorem hasValue_identity (j : Fin 3) :
    HasValue (identity.get j).toFloat .positive (if j = 1 then 1 else 0) := by
  have hzero := hasValue_ofNat (n := 0) (by decide)
  have hone := hasValue_ofNat (n := 1) (by decide)
  rw [Nat.cast_zero] at hzero
  rw [Nat.cast_one] at hone
  fin_cases j
  · exact hzero
  · exact hone
  · exact hzero

/-- Rows of floating-point coefficients that a list of tokens tells. A list may go on past the last
of them, or end before it. -/
structure Tells (tokens : List Text) (rows : Vector (Vector Quantity 3) 5) : Prop where
  given : ∀ (i : Fin 5) (j : Fin 3) (n : Numeral), tokens.getD (3 * i + j) [] = n.text →
    IsNearest ((rows.get i).get j).toFloat n.sign n.magnitude
  missing : ∀ (i : Fin 5) (j : Fin 3), tokens.getD (3 * i + j) [] = [] →
    HasValue ((rows.get i).get j).toFloat .positive (if j = 1 then 1 else 0)

theorem isNearest_numeral (n : Numeral) : IsNearest n.decimal.toFloat n.sign n.magnitude := by
  have hnearest := n.decimal.isNearest_toFloat
  rw [Numeral.decimal, Text.natOfDigits_eq_ofDigits] at hnearest
  rw [Numeral.decimal, Text.natOfDigits_eq_ofDigits]
  exact hnearest

theorem tells_matrix (h : List.Forall₂ Gives (tokens.take 15) given) :
    Tells tokens (matrix given) := by
  have hgives : ∀ (i : Fin 5) (j : Fin 3),
      Gives (tokens.getD (3 * i + j) []) (given.getD (3 * i + j) none) := by
    intro i j
    have hlt : 3 * i.val + j.val < 15 := by omega
    have htoken := gives_getD h (3 * i + j)
    rwa [List.getD_eq_getElem?_getD, List.getElem?_take_of_lt hlt,
      ← List.getD_eq_getElem?_getD] at htoken
  constructor
  case given =>
    intro i j n htext
    have hn := hgives i j
    rw [htext] at hn
    rw [matrix_apply, hn.eq_decimal]
    exact isNearest_numeral n
  case missing =>
    intro i j htext
    have hnone := hgives i j
    rw [htext] at hnone
    rw [matrix_apply, hnone.eq_none]
    exact hasValue_identity j

end Rows

/-- A list of coefficients is accepted just where each of the first fifteen tokens is empty or a
numeral. Then every coefficient is at its place, and all others are those of the identity; else the
error counts to the first token that is at fault. -/
theorem fill_equations (h : Listable tokens) (r : Record Quantity) :
    ((∃ r', (fill ("EQNS.".toList ++ [','].intercalate tokens)).run r = .ok true r') ↔
      ∀ t ∈ tokens.take 15, IsCoefficient t) ∧
    (∀ found r', (fill ("EQNS.".toList ++ [','].intercalate tokens)).run r = .ok found r' →
      found = true ∧ ∃ rows, Tells tokens rows ∧
        r' = { r with
          format := some .telemetryMessage
          telemetryDefs := some { eqns := some rows } }) ∧
    ∀ e r', (fill ("EQNS.".toList ++ [','].intercalate tokens)).run r = .error e r' →
      r' = r ∧ ∃ before t after, tokens.take 15 = before ++ t :: after ∧
        (∀ u ∈ before, IsCoefficient u) ∧ ¬IsCoefficient t ∧
        e = .invalidTelemetryConfig (.notANumber (before.length + 1)) := by
  have hrun := h.run_fill .eqns r
  rw [read, h.equations_eq] at hrun
  change (fill ("EQNS.".toList ++ [','].intercalate tokens)).run r = _ at hrun
  cases hread : coefficients 1 (tokens.take 15) with
  | ok given =>
    have hgiven := coefficients_eq_ok_iff.mp hread
    rw [hread] at hrun
    refine ⟨⟨fun _ => isCoefficient_of_forall₂ hgiven, fun _ => ⟨_, hrun⟩⟩,
      fun found r' hok => ?_, fun e r' herror => ?_⟩
    · cases hrun.symm.trans hok
      exact ⟨rfl, matrix given, tells_matrix hgiven, rfl⟩
    · cases hrun.symm.trans herror
  | error cause =>
    obtain ⟨before, t, after, hcut, hbefore, ht, rfl⟩ := coefficients_eq_error_iff.mp hread
    rw [hread] at hrun
    refine ⟨⟨fun hok => ?_, fun hall => ?_⟩, fun found r' hok => ?_, fun e r' herror => ?_⟩
    · obtain ⟨r', hok⟩ := hok
      cases hrun.symm.trans hok
    · exact absurd (hall t (by simp [hcut])) ht
    · cases hrun.symm.trans hok
    · cases hrun.symm.trans herror
      exact ⟨rfl, before, t, after, hcut, hbefore, ht, by rw [Nat.add_comm]⟩

/-- A place that is left empty, a numeral that opens with its point, and a place that no token
reaches; exponents are not part of a numeral. -/
theorem fill_equations_skipped :
    Listable [[], "2.5".toList, "-.5".toList] ∧
    (∃ rows : Vector (Vector Quantity 3) 5,
      (fill "EQNS.,2.5,-.5".toList).run { raw := [] } =
        .ok true {
          raw := []
          format := some .telemetryMessage
          telemetryDefs := some { eqns := some rows } } ∧
      HasValue ((rows.get 0).get 0).toFloat .positive 0 ∧
      IsNearest ((rows.get 0).get 1).toFloat .positive (25 / 10) ∧
      IsNearest ((rows.get 0).get 2).toFloat .negative (5 / 10) ∧
      HasValue ((rows.get 4).get 1).toFloat .positive 1) ∧
    Listable ["1".toList, "1e3".toList, "x".toList] ∧
    (fill "EQNS.1,1e3,x".toList).run { raw := [] } =
      .error (.invalidTelemetryConfig (.notANumber 2)) { raw := [] } ∧
    ¬IsCoefficient "1e3".toList := by
  have hskipped : Listable [[], "2.5".toList, "-.5".toList] := ⟨by decide, by decide, by decide⟩
  have hexponent : Listable ["1".toList, "1e3".toList, "x".toList] :=
    ⟨by decide, by decide, by decide⟩
  obtain ⟨more, hmore, hpositive, hfive⟩ : ∃ n : Numeral,
      n.text = "2.5".toList ∧ n.sign = .positive ∧ n.magnitude = 25 / 10 :=
    ⟨⟨false, ['2'], true, ['5'], by simp, by simp, by simp⟩, rfl, rfl, rfl⟩
  obtain ⟨half, hhalf, hnegative, htenths⟩ : ∃ n : Numeral,
      n.text = "-.5".toList ∧ n.sign = .negative ∧ n.magnitude = 5 / 10 :=
    ⟨⟨true, [], true, ['5'], by simp, by simp, by simp⟩, rfl, rfl, rfl⟩
  have hread : ∀ t ∈ [[], "2.5".toList, "-.5".toList].take 15, IsCoefficient t := by
    simp only [List.take_succ_cons, List.take_nil, List.forall_mem_cons]
    exact ⟨.inl rfl, .inr ⟨more, hmore⟩, .inr ⟨half, hhalf⟩, List.forall_mem_nil _⟩
  have hrefused : (fill "EQNS.1,1e3,x".toList).run { raw := [] } =
      .error (.invalidTelemetryConfig (.notANumber 2)) { raw := [] } := by cbv
  refine ⟨hskipped, ?_, hexponent, hrefused, ?_⟩
  · obtain ⟨haccepted, hfilled, -⟩ := fill_equations hskipped { raw := [] }
    obtain ⟨r', hrun⟩ := haccepted.mpr hread
    obtain ⟨-, rows, htells, rfl⟩ := hfilled _ _ hrun
    have hsecond := htells.given 0 1 more hmore.symm
    have hthird := htells.given 0 2 half hhalf.symm
    rw [hpositive, hfive] at hsecond
    rw [hnegative, htenths] at hthird
    exact ⟨rows, hrun, htells.missing 0 0 rfl, hsecond, hthird, htells.missing 4 1 rfl⟩
  · obtain ⟨-, before, t, after, hcut, -, ht, hplace⟩ :=
      (fill_equations hexponent { raw := [] }).2.2 _ _ hrefused
    have hlength : before.length = 1 := by
      injection hplace with hcause
      injection hcause with hnumber
      omega
    obtain ⟨first, rfl⟩ := List.length_eq_one_iff.mp hlength
    cases hcut
    exact ht

end TelemetryDefs

end Aprs
