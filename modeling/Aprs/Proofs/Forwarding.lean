import Aprs.Proofs.Line
import Aprs.Proofs.Rejection

/-!
Lines that forward other lines. The depth in the options bounds the levels from the outside and
appears inside only in the error that names it, so that forwarding a line does to its result the
same at all depths.
-/

namespace Aprs

/-- The same error under options with another depth. -/
def DecodeError.withDepth (depth : Nat) : DecodeError → DecodeError
  | thirdPartyTooDeep _ => thirdPartyTooDeep depth
  | e => e

theorem DecodeError.withDepth_eq_self {depth : Nat} {e : DecodeError} (h : e.stage ≠ .nesting) :
    e.withDepth depth = e := by
  cases e with
  | thirdPartyTooDeep => exact absurd rfl h
  | _ => rfl

namespace Line

variable {options : Options} {now : Int} {levels : Nat} {line : Text}

/-- The depth takes part in the result through the error alone; how far a line is unwrapped is up
to `levels`. -/
theorem decodeWithin_withDepth (options : Options) (now : Int) (depth levels : Nat) (line : Text) :
    decodeWithin { options with maxThirdPartyDepth := depth } now levels line =
      (decodeWithin options now levels line).mapError (DecodeError.withDepth depth) := by
  have hcut : ∀ line, split { options with maxThirdPartyDepth := depth } line =
      split options line := fun _ => rfl
  induction levels, line using levels_induction options with
  | @rejected levels line e hsplit =>
    have hstage : e.stage ≠ .nesting := by
      rw [stage_of_split_error hsplit]
      decide
    rw [decodeWithin_of_split_error hsplit, decodeWithin_of_split_error ((hcut line).trans hsplit),
      Except.mapError, DecodeError.withDepth_eq_self hstage]
  | @report levels line header type content hsplit htype =>
    rw [decodeWithin_of_report hsplit htype,
      decodeWithin_of_report ((hcut line).trans hsplit) htype]
    cases hreport : Report.decode now header.destination type content with
    | ok report => rfl
    | error e =>
      have hstage : e.stage ≠ .nesting := by
        rw [Report.stage_of_decode_error hreport]
        decide
      rw [Except.map, Except.mapError, DecodeError.withDepth_eq_self hstage]
  | @tooDeep line header content hsplit =>
    rw [decodeWithin_zero_of_forwarding hsplit,
      decodeWithin_zero_of_forwarding ((hcut line).trans hsplit)]
    rfl
  | @forwarding levels line header content hsplit ih =>
    rw [decodeWithin_succ_of_forwarding hsplit,
      decodeWithin_succ_of_forwarding ((hcut line).trans hsplit), ih]
    cases decodeWithin options now levels content <;> rfl

/-- An error that names a depth names the one in the options. -/
theorem depth_of_decodeWithin_tooDeep {n : Nat}
    (h : decodeWithin options now levels line = .error (.thirdPartyTooDeep n)) :
    n = options.maxThirdPartyDepth := by
  have hself := decodeWithin_withDepth options now options.maxThirdPartyDepth levels line
  rw [h, Except.mapError, DecodeError.withDepth] at hself
  cases hself
  rfl

theorem split_forwarded {header : Header} {head inner : Text}
    (hheader : Header.decode options head = .ok header) (hcolon : ':' ∉ head)
    (hinner : inner ≠ []) (hend : ∀ c ∈ inner.getLast?, isLineEnd c = false) :
    split options (head ++ ':' :: '\x7d' :: inner) = .ok (header, '\x7d', inner) := by
  obtain ⟨c, t, rfl⟩ := List.exists_cons_of_ne_nil hinner
  exact split_append hheader hcolon (by rwa [List.getLast?_cons_cons]) rfl rfl

end Line

/-- A line that forwards another one is rejected if no depth is left, and otherwise has the result
of the other under a depth that is less by one: its packet inside a record of the header, or its
error, which names the whole depth where it names one. -/
theorem decode_forwarded (options : Options) (now : Int) {head inner : Text} {header : Header}
    (hheader : Header.decode options head = .ok header) (hcolon : ':' ∉ head)
    (hinner : inner ≠ []) (hend : ∀ c ∈ inner.getLast?, Line.isLineEnd c = false) :
    let line := head ++ ':' :: '\x7d' :: inner
    decode options now line =
        (match options.maxThirdPartyDepth with
        | 0 => .error ⟨line, .thirdPartyTooDeep 0⟩
        | depth + 1 =>
          match decode { options with maxThirdPartyDepth := depth } now inner with
          | .ok packet =>
            .ok (.forwarding
              { raw := line
                source := header.source
                destination := header.destination
                path := header.path
                format := some .thirdParty } packet)
          | .error failure =>
            if failure.error = .thirdPartyTooDeep depth then
              .error ⟨line, .thirdPartyTooDeep (depth + 1)⟩
            else .error ⟨line, failure.error⟩) ∧
      ∀ failure, decode options now line = .error failure → failure.record = { raw := line } := by
  intro line
  have hsplit : Line.split options line = .ok (header, '\x7d', inner) :=
    Line.split_forwarded hheader hcolon hinner hend
  constructor
  · cases hdepth : options.maxThirdPartyDepth with
    | zero =>
      rw [decode, hdepth, Line.decodeWithin_zero_of_forwarding hsplit, hdepth]
      rfl
    | succ depth =>
      have hwithin : decode { options with maxThirdPartyDepth := depth } now inner =
          ((Line.decodeWithin options now depth inner).mapError
            (DecodeError.withDepth depth)).mapError fun error => ⟨inner, error⟩ := by
        rw [← Line.decodeWithin_withDepth options now depth depth inner]
        rfl
      dsimp only
      rw [hwithin, decode, hdepth, Line.decodeWithin_succ_of_forwarding hsplit]
      cases hresult : Line.decodeWithin options now depth inner with
      | ok packet => rfl
      | error e =>
        by_cases hnesting : e.stage = .nesting
        · obtain ⟨n, rfl⟩ : ∃ n, e = .thirdPartyTooDeep n := by
            cases e <;> first | exact ⟨_, rfl⟩ | cases hnesting
          have hn := Line.depth_of_decodeWithin_tooDeep hresult
          rw [hn, hdepth]
          simp [Except.map, Except.mapError, DecodeError.withDepth]
        · have hne : e ≠ .thirdPartyTooDeep depth := fun h => hnesting (by rw [h]; rfl)
          simp [Except.map, Except.mapError, DecodeError.withDepth_eq_self hnesting, hne]
  · intro failure hfailure
    obtain ⟨e, _, rfl⟩ := Reading.mapError_eq_error_iff.mp hfailure
    rfl

/-- Two lines inside one another are one too many for a depth of one, which the error names. -/
theorem decode_forwarded_twice :
    Header.decode { maxThirdPartyDepth := 1 } "N1GATE>APRS,WIDE2-1".toList =
        .ok ⟨"N1GATE".toList, "APRS".toList, ["WIDE2-1".toList]⟩ ∧
      ':' ∉ "N1GATE>APRS,WIDE2-1".toList ∧ "B>APRS:\x7dC>APRS:>hi".toList ≠ [] ∧
      (∀ c ∈ "B>APRS:\x7dC>APRS:>hi".toList.getLast?, Line.isLineEnd c = false) ∧
      decode { maxThirdPartyDepth := 1 } 0 "N1GATE>APRS,WIDE2-1:\x7dB>APRS:\x7dC>APRS:>hi".toList =
        .error ⟨"N1GATE>APRS,WIDE2-1:\x7dB>APRS:\x7dC>APRS:>hi".toList, .thirdPartyTooDeep 1⟩ := by
  have hheader : Header.decode { maxThirdPartyDepth := 1 } "N1GATE>APRS,WIDE2-1".toList =
      .ok ⟨"N1GATE".toList, "APRS".toList, ["WIDE2-1".toList]⟩ := by cbv
  have hcolon : ':' ∉ "N1GATE>APRS,WIDE2-1".toList := by decide
  have hinner : "B>APRS:\x7dC>APRS:>hi".toList ≠ [] := by decide
  have hend : ∀ c ∈ "B>APRS:\x7dC>APRS:>hi".toList.getLast?, Line.isLineEnd c = false := by
    intro c hc
    cases hc
    decide
  refine ⟨hheader, hcolon, hinner, hend, ?_⟩
  have hforwarded := (decode_forwarded { maxThirdPartyDepth := 1 } 0 hheader hcolon hinner hend).1
  have hdeep : decode { maxThirdPartyDepth := 0 } 0 "B>APRS:\x7dC>APRS:>hi".toList =
      .error ⟨"B>APRS:\x7dC>APRS:>hi".toList, .thirdPartyTooDeep 0⟩ := by cbv
  dsimp only at hforwarded
  rw [hdeep] at hforwarded
  exact hforwarded

end Aprs
