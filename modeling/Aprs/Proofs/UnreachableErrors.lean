import Aprs.Proofs.Clock
import Aprs.Proofs.Conversions
import Aprs.Proofs.Nesting
import Aprs.Proofs.PositionValues
import Aprs.Proofs.Rejection

/-!
Errors that no line reaches. Three errors are checked for behind layouts that rule them out, and
only the empty line is reported as empty. The coordinates of a compressed position are the one
number that is read before its digits are checked; a character that is no digit can only be
reported from there.
-/

namespace Aprs

open Reading

def DecodeError.unreachable : List DecodeError :=
  [invalidPosition .invalidLatitudeMinutes, invalidPosition .invalidLongitudeMinutes,
    invalidMicE .invalidTelemetryHex]

namespace Uncompressed

theorem cause_of_decode?_error {body : Text} {cause : PositionError}
    (h : decode? body = .error cause) :
    cause = .ambiguityMismatch ∨ cause = .latitudeOutOfRange ∨ cause = .longitudeOutOfRange := by
  unfold decode? at h
  split at h
  · cases h
  split at h
  · cases h
  · next field rest htake =>
    have hfills := (Layout.take?_eq_some_iff.mp htake).2
    obtain ⟨hcause, -⟩ | ⟨hcause, -⟩ | ⟨hcause, -⟩ :=
      cause_of_read_error hfills (map_eq_error_iff.mp h)
    · exact .inl hcause
    · exact .inr (.inl hcause)
    · exact .inr (.inr hcause)

end Uncompressed

namespace Position

variable {now : Int} {kind : PositionKind} {body rest : Text} {e : DecodeError} {c : Char}

theorem decode_of_opensTo (h : OpensTo now kind body rest) (hfix : takeFix rest = .error e) :
    decode now kind body = .error e := by
  obtain ⟨object, after, timestamp, hobject, htimestamp, hearly⟩ := h
  rw [decode_eq_complete hobject htimestamp, complete, hearly, if_neg Bool.false_ne_true, hfix]
  rfl

/-- The position is in no degrees and minutes, and `c` is the first character in the coordinates of
its compressed block that is no digit. -/
def HasBadDigit (now : Int) (kind : PositionKind) (body : Text) (c : Char) : Prop :=
  ∃ rest block after, OpensTo now kind body rest ∧ Uncompressed.decode? rest = .ok none ∧
    Compressed.layout.take? rest = some (block, after) ∧
    Base91.badDigit? (Text.slice 1 8 block) = some c

theorem decode_eq_invalidBase91_iff :
    decode now kind body = .error (.invalidBase91 c) ↔ HasBadDigit now kind body c := by
  constructor
  · intro h
    obtain hobject | htimestamp | ⟨rest, hopens, hfix⟩ := cause_of_decode_error h
    · cases hobject
    · cases htimestamp
    obtain ⟨_, _, hcause⟩ | ⟨hnone, hcompressed⟩ := takeFix_eq_error_iff.mp hfix
    · cases hcause
    obtain ⟨_, hmissing⟩ | ⟨block, after, d, htake, hbad, hd⟩ :=
      Compressed.decode_eq_error_iff.mp hcompressed
    · cases hmissing
    cases hd
    exact ⟨rest, block, after, hopens, hnone, htake, hbad⟩
  · rintro ⟨rest, block, after, hopens, hnone, htake, hbad⟩
    apply decode_of_opensTo hopens
    refine takeFix_eq_error_iff.mpr (.inr ⟨hnone, ?_⟩)
    exact Compressed.decode_eq_error_iff.mpr (.inr ⟨block, after, c, htake, hbad, rfl⟩)

theorem not_mem_unreachable_of_decode_error (h : decode now kind body = .error e) :
    e ∉ DecodeError.unreachable := by
  obtain rfl | rfl | ⟨rest, _, hfix⟩ := cause_of_decode_error h
  · decide
  · decide
  obtain ⟨cause, hcause, rfl⟩ | ⟨_, hcompressed⟩ := takeFix_eq_error_iff.mp hfix
  · obtain rfl | rfl | rfl := Uncompressed.cause_of_decode?_error hcause <;> decide
  obtain ⟨_, rfl⟩ | ⟨_, _, d, _, _, rfl⟩ := Compressed.decode_eq_error_iff.mp hcompressed
  · decide
  · simp [DecodeError.unreachable]

end Position

namespace Report

variable {now : Int} {destination body rest : Text} {type c : Char} {kind : PositionKind}
  {e : DecodeError}

theorem decode_of_positionIn? (h : positionIn? type body = some (kind, rest)) :
    decode now destination type body = (Position.decode now kind rest).map .position := by
  cases hkind : PositionKind.ofChar? type with
  | some found =>
    rw [positionIn?, hkind] at h
    cases h
    unfold decode
    rw [hkind]
  | none =>
    obtain ⟨hmicE, hother, rfl, before, hsplit, hnear⟩ :=
      (positionIn?_eq_some_iff_of_unknown hkind).mp h
    unfold decode
    rw [hkind]
    dsimp only
    rw [hmicE, if_neg Bool.false_ne_true]
    -- All types that a body can have besides are among those that were excluded.
    split
    iterate 5 exact absurd hother (by decide)
    rw [decodeUnknown, hsplit]
    exact if_pos hnear

theorem decode_eq_invalidBase91_iff :
    decode now destination type body = .error (.invalidBase91 c) ↔
      ∃ kind rest, positionIn? type body = some (kind, rest) ∧
        Position.HasBadDigit now kind rest c := by
  constructor
  · intro h
    obtain ⟨kind, rest, hin, hposition⟩ | hmicE | htimestamp | hweather | ⟨_, hconfig⟩ :=
      cause_of_decode_error h
    · exact ⟨kind, rest, hin, Position.decode_eq_invalidBase91_iff.mp hposition⟩
    · obtain ⟨_, hcause, _⟩ := MicE.cause_of_decode_error hmicE
      cases hcause
    · cases htimestamp
    · cases hweather
    · cases hconfig
  · rintro ⟨kind, rest, hin, hbad⟩
    rw [decode_of_positionIn? hin, Position.decode_eq_invalidBase91_iff.mpr hbad]
    rfl

theorem not_mem_unreachable_of_decode_error (h : decode now destination type body = .error e) :
    e ∉ DecodeError.unreachable := by
  obtain ⟨kind, rest, _, hposition⟩ | hmicE | rfl | rfl | ⟨cause, rfl⟩ := cause_of_decode_error h
  · exact Position.not_mem_unreachable_of_decode_error hposition
  · obtain ⟨cause, rfl, hcause⟩ := MicE.cause_of_decode_error hmicE
    simpa [DecodeError.unreachable] using hcause
  · decide
  · decide
  · simp [DecodeError.unreachable]

end Report

namespace Line

variable {options : Options} {now : Int} {levels : Nat} {line body : Text} {type : Char}
  {e : DecodeError}

/-- An error of a report is the error of the innermost one. -/
theorem exists_carries_of_error (h : decodeWithin options now levels line = .error e)
    (hstage : e.stage = .report) :
    ∃ destination type body, Carries options line type body ∧
      Report.decode now destination type body = .error e := by
  induction levels, line using levels_induction options with
  | rejected hsplit =>
    rw [decodeWithin_of_split_error hsplit] at h
    cases h
    rw [stage_of_split_error hsplit] at hstage
    cases hstage
  | @report _ _ header type body hsplit htype =>
    rw [decodeWithin_of_report hsplit htype] at h
    exact ⟨header.destination, type, body, .report hsplit htype, map_eq_error_iff.mp h⟩
  | tooDeep hsplit =>
    rw [decodeWithin_zero_of_forwarding hsplit] at h
    cases h
    cases hstage
  | forwarding hsplit ih =>
    rw [decodeWithin_succ_of_forwarding hsplit] at h
    obtain ⟨destination, type, body, hcarries, hreport⟩ := ih (map_eq_error_iff.mp h)
    exact ⟨destination, type, body, .forwarding hsplit hcarries, hreport⟩

/-- What the innermost report is rejected for is the error, unless it lies too deep. -/
theorem decodeWithin_of_carries (hcarries : Carries options line type body)
    (h : ∀ destination, Report.decode now destination type body = .error e) (levels : Nat) :
    decodeWithin options now levels line = .error e ∨
      decodeWithin options now levels line =
        .error (.thirdPartyTooDeep options.maxThirdPartyDepth) := by
  induction hcarries generalizing levels with
  | report hsplit htype =>
    left
    rw [decodeWithin_of_report hsplit htype, h]
    rfl
  | forwarding hsplit _ ih =>
    cases levels with
    | zero => exact .inr (decodeWithin_zero_of_forwarding hsplit)
    | succ levels =>
      rw [decodeWithin_succ_of_forwarding hsplit]
      rcases ih h levels with hinner | hinner
      · left
        rw [hinner]
        rfl
      · right
        rw [hinner]
        rfl

theorem split_eq_emptyPacket_iff : split options line = .error .emptyPacket ↔ line = [] := by
  constructor
  · intro h
    unfold split at h
    split at h
    · next hempty => exact List.isEmpty_iff.mp hempty
    split at h
    · cases h
    obtain hheader | ⟨header, _, h⟩ := bind_eq_error_iff.mp h
    · obtain ⟨_, _, hcause⟩ := mapError_eq_error_iff.mp hheader
      cases hcause
    split at h
    · cases h
    obtain hcheck | ⟨_, _, h⟩ := bind_eq_error_iff.mp h
    · unfold checkType at hcheck
      split at hcheck
      · cases hcheck
      split at hcheck <;> cases hcheck
    · exact absurd h pure_ne_error
  · rintro rfl
    rfl

/-- Forwarded lines are never empty, as a body of this type has to have content. -/
theorem decodeWithin_eq_emptyPacket_iff :
    decodeWithin options now levels line = .error .emptyPacket ↔ line = [] := by
  constructor
  · intro h
    induction levels, line using levels_induction options with
    | rejected hsplit =>
      rw [decodeWithin_of_split_error hsplit] at h
      cases h
      exact split_eq_emptyPacket_iff.mp hsplit
    | report hsplit htype =>
      rw [decodeWithin_of_report hsplit htype] at h
      cases Report.stage_of_decode_error (map_eq_error_iff.mp h)
    | tooDeep hsplit =>
      rw [decodeWithin_zero_of_forwarding hsplit] at h
      cases h
    | forwarding hsplit ih =>
      rw [decodeWithin_succ_of_forwarding hsplit] at h
      exact absurd (ih (map_eq_error_iff.mp h)) (content_ne_nil_of_forwarding hsplit)
  · intro h
    exact decodeWithin_of_split_error (split_eq_emptyPacket_iff.mpr h)

theorem not_mem_unreachable_of_decodeWithin_error
    (h : decodeWithin options now levels line = .error e) : e ∉ DecodeError.unreachable := by
  intro hmem
  have hstage : ∀ d ∈ DecodeError.unreachable, d.stage = .report := by
    simp [DecodeError.unreachable, DecodeError.stage]
  obtain ⟨_, _, _, _, hreport⟩ := exists_carries_of_error h (hstage e hmem)
  exact Report.not_mem_unreachable_of_decode_error hreport hmem

end Line

/-- Which errors a line can have. Three are out of reach, one is that of the empty line, and one is
that of a compressed position, whose coordinates are the one number that is read before its digits
are checked. All other conversions are given what they can read, in whatever text. -/
theorem decode_unreachable_errors (options : Options) (now : Int) (line : Text) :
    (∀ failure, decode options now line = .error failure →
        failure.error ∉ DecodeError.unreachable ∧
          (failure.error = .emptyPacket ↔ line = []) ∧
          ∀ c, failure.error = .invalidBase91 c ↔
            failure.error ≠ .thirdPartyTooDeep options.maxThirdPartyDepth ∧
              ∃ type body kind position, Line.Carries options line type body ∧
                Report.positionIn? type body = some (kind, position) ∧
                Position.HasBadDigit now kind position c) ∧
      ∀ t : Text, t.Convertible := by
  refine ⟨fun failure h => ?_, Text.convertible⟩
  obtain ⟨e, hwithin, rfl⟩ := mapError_eq_error_iff.mp h
  refine ⟨Line.not_mem_unreachable_of_decodeWithin_error hwithin, ?_, fun c => ⟨?_, ?_⟩⟩
  · rw [← Line.decodeWithin_eq_emptyPacket_iff, hwithin, Except.error.injEq]
  · rintro rfl
    obtain ⟨destination, type, body, hcarries, hreport⟩ := Line.exists_carries_of_error hwithin rfl
    obtain ⟨kind, position, hin, hbad⟩ := Report.decode_eq_invalidBase91_iff.mp hreport
    exact ⟨by simp, type, body, kind, position, hcarries, hin, hbad⟩
  · rintro ⟨hdepth, type, body, kind, position, hcarries, hin, hbad⟩
    have hreport : ∀ destination,
        Report.decode now destination type body = .error (.invalidBase91 c) :=
      fun _ => Report.decode_eq_invalidBase91_iff.mpr ⟨kind, position, hin, hbad⟩
    obtain hsame | hdeep :=
      Line.decodeWithin_of_carries hcarries hreport options.maxThirdPartyDepth
    · rw [hwithin] at hsame
      cases hsame
      rfl
    · rw [hwithin] at hdeep
      cases hdeep
      exact absurd rfl hdepth

/-- A blank among the coordinates of a position in a forwarded line, where small letters make it a
compressed one. -/
theorem decode_unreachable_errors_of_blank :
    ∃ failure, decode {} 0 "A>B:\x7dN0CALL>APRS:!4903.5 n/07201.7 w-Test".toList =
        .error failure ∧
      failure.error = .invalidBase91 ' ' ∧ failure.error ∉ DecodeError.unreachable ∧
      failure.error ≠ .emptyPacket ∧
      (∃ type body kind position,
        Line.Carries {} "A>B:\x7dN0CALL>APRS:!4903.5 n/07201.7 w-Test".toList type body ∧
          Report.positionIn? type body = some (kind, position) ∧
          Position.HasBadDigit 0 kind position ' ') ∧
      Text.Convertible "4903.5 n/07201.7 w-Test".toList := by
  have h : decode {} 0 "A>B:\x7dN0CALL>APRS:!4903.5 n/07201.7 w-Test".toList =
      .error ⟨"A>B:\x7dN0CALL>APRS:!4903.5 n/07201.7 w-Test".toList, .invalidBase91 ' '⟩ := by cbv
  obtain ⟨herrors, hconvertible⟩ :=
    decode_unreachable_errors {} 0 "A>B:\x7dN0CALL>APRS:!4903.5 n/07201.7 w-Test".toList
  obtain ⟨hreachable, hempty, hbase91⟩ := herrors _ h
  refine ⟨_, h, rfl, hreachable, ?_, ((hbase91 ' ').mp rfl).2, hconvertible _⟩
  exact fun heq => absurd (hempty.mp heq) (by decide)

end Aprs
