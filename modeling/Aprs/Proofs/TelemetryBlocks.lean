import Aprs.Proofs.CommentTelemetry
import Aprs.Proofs.StepwiseFilling

/-!
Telemetry blocks in the middle of a text. The first bar of the text opens the block, so bars behind
it make no difference: two to seven numbers come back in their channels, channels that were not sent
are zero, and the text around the block closes up. A block with half a number in it stays where it
is, and so does the telemetry that the record has already.
-/

namespace Aprs.Telemetry

variable {ns : List Nat}

section Channels

/-- Eight characters, of which each tells one bit of the number, the least significant first. -/
structure IsBitText (n : Nat) (text : Text) : Prop where
  length_eq : text.length = 8
  getElem?_eq : ∀ i < 8, text[i]? = some (if n.testBit i then '1' else '0')

/-- The channels that numbers stand for, in the order in which they are sent. -/
structure Tells (ns : List Nat) (found : Telemetry) : Prop where
  seq : found.seq.toNat = ns.getD 0 0
  values : found.values.toList.map UInt32.toNat = (List.range 5).map fun i => ns.getD (i + 1) 0
  bits_eq_none : ns.getD 6 0 = 0 → found.bits = none
  bits_eq_some : ns.getD 6 0 ≠ 0 → ∃ text, found.bits = some text ∧ IsBitText (ns.getD 6 0) text

theorem isBitText_bitText (n : Nat) : IsBitText n (bitText n) where
  length_eq := by simp [bitText]
  getElem?_eq i hi := by simp [bitText, hi]

theorem toNat_toUInt32_getD (h : ∀ n ∈ ns, n < 8281) (i : Nat) :
    (ns.getD i 0).toUInt32.toNat = ns.getD i 0 := by
  have hlt : ns.getD i 0 < 8281 := by
    rw [List.getD_eq_getElem?_getD]
    cases hget : ns[i]? with
    | none => decide
    | some n => exact h n (List.mem_of_getElem? hget)
  rw [Nat.toUInt32, UInt32.toNat_ofNat']
  exact Nat.mod_eq_of_lt (hlt.trans (by norm_num))

theorem tells_ofNumbers (h : ∀ n ∈ ns, n < 8281) : Tells ns (ofNumbers ns) where
  seq := toNat_toUInt32_getD h 0
  values := by
    change [_, _, _, _, _] = [_, _, _, _, _]
    simp only [toNat_toUInt32_getD h]
  bits_eq_none hzero := if_pos hzero
  bits_eq_some hbits := ⟨_, if_neg hbits, isBitText_bitText _⟩

end Channels

theorem split_of_newline {t : Text} (h : '\n' ∈ t) : split t = (none, t) :=
  if_neg (Text.not_isSingleLine h)

variable {before after : Text}

theorem split_encode (hbar : '|' ∉ before) (hline : '\n' ∉ before ∧ '\n' ∉ after)
    (h : ∀ n ∈ ns, n < 8281) (hcount : 2 ≤ ns.length ∧ ns.length ≤ 7) :
    split (before ++ (block (ns.flatMap (Base91.encode · 2)) ++ after)) =
      (some (ofNumbers ns), before ++ after) := by
  have hdigits : ∀ c ∈ ns.flatMap (Base91.encode · 2), Base91.isDigit c = true := by
    intro c hc
    obtain ⟨n, -, hn⟩ := List.mem_flatMap.mp hc
    exact Base91.isDigit_of_mem_encode hn
  have hlength := length_flatMap_encode h
  rw [split_append hbar hline hdigits (by omega), if_pos (by omega), numbers_encode h]

/-- A text with an odd block is left alone, whether or not it is one line. -/
theorem split_odd {digits : Text} (hbar : '|' ∉ before) (hbefore : '\n' ∉ before)
    (h : ∀ c ∈ digits, Base91.isDigit c = true) (hodd : digits.length % 2 = 1)
    (hlength : 5 ≤ digits.length ∧ digits.length ≤ 13) :
    split (before ++ (block digits ++ after)) = (none, before ++ (block digits ++ after)) := by
  by_cases hafter : '\n' ∈ after
  · apply split_of_newline
    exact List.mem_append_right before (List.mem_append_right (block digits) hafter)
  · rw [split_append hbar ⟨hbefore, hafter⟩ h (by omega), if_neg (by omega)]

/-- Telemetry comes back as it was sent, wherever in the text it stands. Digits of which there is an
odd number are no telemetry, and change neither the text nor the record. -/
theorem fill_between_bars (r : Record Quantity) (hbar : '|' ∉ before) (hbefore : '\n' ∉ before) :
    (∀ ns : List Nat, 2 ≤ ns.length → ns.length ≤ 7 → (∀ n ∈ ns, n < 8281) → '\n' ∉ after →
      ∃ found, Tells ns found ∧
        (fill (before ++ '|' :: (ns.flatMap (Base91.encode · 2) ++ '|' :: after))).run r =
          .ok (before ++ after) { r with telemetry := some found }) ∧
      ∀ digits : Text, 5 ≤ digits.length → digits.length ≤ 13 → digits.length % 2 = 1 →
        (∀ c ∈ digits, Base91.isDigit c = true) →
        (fill (before ++ '|' :: (digits ++ '|' :: after))).run r =
          .ok (before ++ '|' :: (digits ++ '|' :: after)) r := by
  have hblock : ∀ digits, before ++ '|' :: (digits ++ '|' :: after) =
      before ++ (block digits ++ after) := by
    intro digits
    simp [block]
  constructor
  · intro ns hfew hmany h hafter
    refine ⟨ofNumbers ns, tells_ofNumbers h, ?_⟩
    rw [hblock, run_fill (split_encode hbar ⟨hbefore, hafter⟩ h ⟨hfew, hmany⟩)]
    rfl
  · intro digits hfew hmany hodd h
    rw [hblock, run_fill (split_odd hbar hbefore h hodd ⟨hfew, hmany⟩)]
    rfl

/-- Bits behind all five values with another block behind them, and an odd block before a second
line. -/
theorem fill_between_bars_bits :
    '|' ∉ "Solar ".toList ∧ '\n' ∉ "Solar ".toList ∧
      (∀ n ∈ [1, 2, 3, 4, 5, 591, 97], n < 8281) ∧
      (∃ found, Tells [1, 2, 3, 4, 5, 591, 97] found ∧
        (fill "Solar |!\"!#!$!%!&'N\"'| |!!!!|".toList).run { raw := [] } =
          .ok "Solar  |!!!!|".toList { raw := [], telemetry := some found }) ∧
      (∀ c ∈ "!!!!!".toList, Base91.isDigit c = true) ∧
      (fill "Solar |!!!!!|\n|!!!!|".toList).run { raw := [] } =
        .ok "Solar |!!!!!|\n|!!!!|".toList { raw := [] } := by
  have hbar : '|' ∉ "Solar ".toList := by decide
  have hline : '\n' ∉ "Solar ".toList := by decide
  have hsmall : ∀ n ∈ [1, 2, 3, 4, 5, 591, 97], n < 8281 := by simp
  have hdigits : ∀ c ∈ "!!!!!".toList, Base91.isDigit c = true := List.all_eq_true.mp rfl
  have hsent : "Solar |!\"!#!$!%!&'N\"'| |!!!!|".toList =
      "Solar ".toList ++ '|' :: ([1, 2, 3, 4, 5, 591, 97].flatMap (Base91.encode · 2) ++
        '|' :: " |!!!!|".toList) := by cbv
  refine ⟨hbar, hline, hsmall, ?_, hdigits, ?_⟩
  · rw [hsent]
    exact (fill_between_bars { raw := [] } hbar hline).1 _ (by decide) (by decide) hsmall
      (by decide)
  · exact (@fill_between_bars "Solar ".toList "\n|!!!!|".toList { raw := [] } hbar hline).2
      "!!!!!".toList (by decide) (by decide) (by decide) hdigits

end Aprs.Telemetry
