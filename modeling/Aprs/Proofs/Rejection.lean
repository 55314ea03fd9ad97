import Aprs.Line
import Aprs.Proofs.Base91
import Aprs.Proofs.CommentTags
import Aprs.Proofs.Reading

/-!
The causes of a rejection. A line is rejected as it is cut into header, type and content, or for
what its content reports, or for lying too deep in other lines, and the error tells which: no two
stages share an error. For reports, each reader has one lemma that says what its errors are.
-/

namespace Aprs

open Reading

inductive Stage where
  | line
  | report
  | nesting
  deriving DecidableEq, Repr

def DecodeError.stage : DecodeError → Stage
  | emptyPacket | missingBody | emptyBody | invalidHeader _ | unsupportedFormat _ _ => .line
  | thirdPartyTooDeep _ => .nesting
  | _ => .report

theorem Line.stage_of_checkType_error {type : Char} {content : Text} {e : DecodeError}
    (h : checkType type content = .error e) : e.stage = .line := by
  rw [checkType] at h
  split at h
  · cases h
    rfl
  · split at h
    · cases h
      rfl
    · cases h

theorem Line.stage_of_split_error {options : Options} {line : Text} {e : DecodeError}
    (h : split options line = .error e) : e.stage = .line := by
  rw [split] at h
  split at h
  · cases h
    rfl
  · split at h
    · cases h
      rfl
    · rcases bind_eq_error_iff.mp h with hheader | ⟨header, _, h⟩
      · obtain ⟨cause, _, rfl⟩ := mapError_eq_error_iff.mp hheader
        rfl
      · split at h
        · cases h
          rfl
        · rcases bind_eq_error_iff.mp h with hcheck | ⟨_, _, h⟩
          · exact stage_of_checkType_error hcheck
          · exact absurd h pure_ne_error

namespace Base91

/-- The first character that is no digit, if there is one. -/
def badDigit? (t : Text) : Option Char := t.find? fun c => !isDigit c

theorem badDigit?_eq_none_iff {t : Text} : badDigit? t = none ↔ ∀ c ∈ t, isDigit c = true := by
  simp [badDigit?]

theorem badDigit?_append (t u : Text) : badDigit? (t ++ u) = (badDigit? t).or (badDigit? u) :=
  List.find?_append

/-- Reading fails at the first character that is no digit, and nowhere else. -/
theorem decode_eq_error_iff {t : Text} {c : Char} :
    decode t = .error c ↔ badDigit? t = some c := by
  cases hbad : badDigit? t with
  | none =>
    obtain ⟨n, hn⟩ := exists_decode_eq_ok (badDigit?_eq_none_iff.mp hbad)
    rw [hn]
    simp
  | some d =>
    obtain ⟨hd, before, after, rfl, hbefore⟩ := List.find?_eq_some_iff_append.mp hbad
    rw [decode_append_cons (by simpa using hbefore) (by simpa using hd)]
    simp

end Base91

namespace Compressed

theorem number_eq_error_iff {t : Text} {e : DecodeError} :
    number t = .error e ↔ ∃ c, Base91.badDigit? t = some c ∧ e = .invalidBase91 c := by
  rw [number, mapError_eq_error_iff]
  constructor
  · rintro ⟨c, hc, rfl⟩
    exact ⟨c, Base91.decode_eq_error_iff.mp hc, rfl⟩
  · rintro ⟨c, hc, rfl⟩
    exact ⟨c, Base91.decode_eq_error_iff.mpr hc, rfl⟩

/-- Where the layout is missing there is no block, and in a block only the coordinates can be
wrong. -/
theorem decode_eq_error_iff {body : Text} {e : DecodeError} :
    decode body = .error e ↔
      layout.take? body = none ∧ e = .invalidCompressed ∨
        ∃ block rest c, layout.take? body = some (block, rest) ∧
          Base91.badDigit? (Text.slice 1 8 block) = some c ∧ e = .invalidBase91 c := by
  rw [decode]
  cases htake : layout.take? body with
  | none => simp [eq_comm]
  | some parts =>
    obtain ⟨block, rest⟩ := parts
    have hbad : ∀ c, Base91.badDigit? (Text.slice 1 8 block) = some c ↔
        Base91.badDigit? (Text.slice 1 4 block) = some c ∨
          Base91.badDigit? (Text.slice 1 4 block) = none ∧
            Base91.badDigit? (Text.slice 5 4 block) = some c := by
      intro c
      rw [Text.slice_add 1 4 4, Base91.badDigit?_append, Option.or_eq_some_iff]
    dsimp only
    rw [bind_eq_error_iff]
    constructor
    · rintro (hnorth | ⟨north, hnorth, h⟩)
      · obtain ⟨c, hc, rfl⟩ := number_eq_error_iff.mp hnorth
        exact .inr ⟨block, rest, c, rfl, (hbad c).mpr (.inl hc), rfl⟩
      · rcases bind_eq_error_iff.mp h with heast | ⟨_, _, h⟩
        · obtain ⟨c, hc, rfl⟩ := number_eq_error_iff.mp heast
          have hnone : Base91.badDigit? (Text.slice 1 4 block) = none :=
            Base91.badDigit?_eq_none_iff.mpr
              (Base91.isDigit_of_decode (mapError_eq_ok_iff.mp hnorth))
          exact .inr ⟨block, rest, c, rfl, (hbad c).mpr (.inr ⟨hnone, hc⟩), rfl⟩
        · exact absurd h pure_ne_error
    · rintro (⟨hnone, _⟩ | ⟨_, _, c, heq, hc, rfl⟩)
      · cases hnone
      · cases heq
        rcases (hbad c).mp hc with hnorth | ⟨hnone, heast⟩
        · exact .inl (number_eq_error_iff.mpr ⟨c, hnorth, rfl⟩)
        · obtain ⟨north, hnorth⟩ :=
            Base91.exists_decode_eq_ok (Base91.badDigit?_eq_none_iff.mp hnone)
          refine .inr ⟨north, mapError_eq_ok_iff.mpr hnorth, ?_⟩
          exact bind_eq_error_iff.mpr (.inl (number_eq_error_iff.mpr ⟨c, heast, rfl⟩))

end Compressed

namespace Position

variable {now : Int} {kind : PositionKind} {body rest : Text} {e : DecodeError}

theorem eq_of_takeObject_error (h : takeObject kind body = .error e) : e = .invalidObject := by
  cases kind with
  | station => cases h
  | object =>
    rw [takeObject] at h
    split at h
    · cases h
    · cases h
      rfl

theorem eq_of_takeTimestamp_error (h : takeTimestamp now kind body = .error e) :
    e = .invalidTimestamp := by
  rw [takeTimestamp] at h
  split at h
  · split at h
    · cases h
    · cases h
      rfl
  · cases h

theorem takeFix_eq_error_iff :
    takeFix rest = .error e ↔
      (∃ cause, Uncompressed.decode? rest = .error cause ∧ e = .invalidPosition cause) ∨
        Uncompressed.decode? rest = .ok none ∧ Compressed.decode rest = .error e := by
  rw [takeFix]
  cases Uncompressed.decode? rest with
  | error cause => simp [eq_comm]
  | ok found => cases found <;> simp

/-- The position is `rest`, behind the object and the time that the kind asks for. -/
def OpensTo (now : Int) (kind : PositionKind) (body rest : Text) : Prop :=
  ∃ object after timestamp, takeObject kind body = .ok (object, after) ∧
    takeTimestamp now kind after = .ok (timestamp, rest) ∧ endsEarly timestamp rest = false

theorem cause_of_decode_error (h : decode now kind body = .error e) :
    e = .invalidObject ∨ e = .invalidTimestamp ∨
      ∃ rest, OpensTo now kind body rest ∧ takeFix rest = .error e := by
  rw [decode] at h
  obtain hobject | ⟨⟨object, after⟩, hobject, h⟩ := bind_eq_error_iff.mp h
  · exact .inl (eq_of_takeObject_error hobject)
  obtain htimestamp | ⟨⟨timestamp, rest⟩, htimestamp, h⟩ := bind_eq_error_iff.mp h
  · exact .inr (.inl (eq_of_takeTimestamp_error htimestamp))
  dsimp only at h
  split at h
  · cases h
    exact .inr (.inl rfl)
  · next hearly =>
    rw [Bool.not_eq_true] at hearly
    obtain hfix | ⟨_, _, h⟩ := bind_eq_error_iff.mp h
    · exact .inr (.inr ⟨rest, ⟨object, after, timestamp, hobject, htimestamp, hearly⟩, hfix⟩)
    · exact absurd h pure_ne_error

end Position

namespace MicE

theorem ne_invalidTelemetryHex_of_check_error {destination body : Text} {cause : MicEError}
    (h : check destination body = .error cause) : cause ≠ .invalidTelemetryHex := by
  unfold check at h
  split_ifs at h <;> cases h <;> decide

theorem ne_invalidTelemetryHex_of_decodeLatitude_error {destination : Text} {cause : MicEError}
    (h : decodeLatitude destination = .error cause) : cause ≠ .invalidTelemetryHex := by
  unfold decodeLatitude at h
  dsimp only at h
  split at h
  · cases h
    decide
  split at h
  · cases h
    simp
  split at h
  · cases h
  · cases h
    decide

/-- Channels and altitude are read without fail, so all causes are in the destination and in the
first eight characters. -/
theorem decode_eq_error_iff {destination body : Text} {e : DecodeError} :
    decode destination body = .error e ↔
      ∃ cause, e = .invalidMicE cause ∧
        (check (Text.upTo '-' destination) body = .error cause ∨
          check (Text.upTo '-' destination) body = .ok () ∧
            decodeLatitude (Text.upTo '-' destination) = .error cause) := by
  rw [decode]
  constructor
  · intro h
    obtain hcheck | ⟨⟨⟩, hcheck, h⟩ := bind_eq_error_iff.mp h
    · obtain ⟨cause, hcause, rfl⟩ := mapError_eq_error_iff.mp hcheck
      exact ⟨cause, rfl, .inl hcause⟩
    obtain hlatitude | ⟨⟨latitude, ambiguity⟩, _, h⟩ := bind_eq_error_iff.mp h
    · obtain ⟨cause, hcause, rfl⟩ := mapError_eq_error_iff.mp hlatitude
      exact ⟨cause, rfl, .inr ⟨mapError_eq_ok_iff.mp hcheck, hcause⟩⟩
    obtain hchannels | ⟨⟨channels, rest⟩, _, h⟩ := bind_eq_error_iff.mp h
    · obtain ⟨_, _, hok, _⟩ := exists_splitChannels_eq_ok (body.drop 8)
      rw [hok] at hchannels
      cases hchannels
    obtain haltitude | ⟨⟨altitude, rest'⟩, _, h⟩ := bind_eq_error_iff.mp h
    · obtain ⟨_, _, hok, _⟩ := exists_splitAltitude_eq_ok rest
      rw [hok] at haltitude
      cases haltitude
    · exact absurd h pure_ne_error
  · rintro ⟨cause, rfl, hcheck | ⟨hcheck, hlatitude⟩⟩
    · rw [hcheck]
      rfl
    · rw [hcheck, hlatitude]
      rfl

theorem cause_of_decode_error {destination body : Text} {e : DecodeError}
    (h : decode destination body = .error e) :
    ∃ cause, e = .invalidMicE cause ∧ cause ≠ .invalidTelemetryHex := by
  obtain ⟨cause, rfl, hcheck | ⟨-, hlatitude⟩⟩ := decode_eq_error_iff.mp h
  · exact ⟨cause, rfl, ne_invalidTelemetryHex_of_check_error hcheck⟩
  · exact ⟨cause, rfl, ne_invalidTelemetryHex_of_decodeLatitude_error hlatitude⟩

end MicE

namespace Report

variable {now : Int} {destination body : Text} {type : Char} {e : DecodeError}

/-- Types of bodies that are neither positions nor unknown. -/
def otherTypes : List Char := [',', '\x7b', '>', ':', '_']

/-- The position that a body of the type is read for: all of it, or what follows the first
exclamation mark near the start of a body of unknown type. -/
def positionIn? (type : Char) (body : Text) : Option (PositionKind × Text) :=
  match PositionKind.ofChar? type with
  | some kind => some (kind, body)
  | none =>
    if isMicE type || otherTypes.contains type then none
    else
      match Text.splitFirst? '!' body with
      | some (before, after) =>
        if before.byteLength < bangLimit then some (.station false false, after) else none
      | none => none

theorem positionIn?_eq_some_iff_of_unknown {kind : PositionKind} {rest : Text}
    (hkind : PositionKind.ofChar? type = none) :
    positionIn? type body = some (kind, rest) ↔
      isMicE type = false ∧ otherTypes.contains type = false ∧ kind = .station false false ∧
        ∃ before, Text.splitFirst? '!' body = some (before, rest) ∧
          before.byteLength < bangLimit := by
  rw [positionIn?, hkind]
  dsimp only
  cases isMicE type with
  | true => simp
  | false =>
    cases otherTypes.contains type with
    | true => simp
    | false =>
      rw [Bool.or_false, if_neg Bool.false_ne_true]
      cases Text.splitFirst? '!' body with
      | none => simp
      | some cut =>
        obtain ⟨before, after⟩ := cut
        by_cases hnear : before.byteLength < bangLimit
        · simp [hnear, and_comm, eq_comm]
        · simp [hnear]

theorem decode_eq_decodeUnknown (hkind : PositionKind.ofChar? type = none)
    (hmicE : ¬isMicE type = true) (hinvalid : type ≠ ',') (huser : type ≠ '\x7b')
    (hmessage : type ≠ ':') (hstatus : type ≠ '>') (hweather : type ≠ '_') :
    decode now destination type body = decodeUnknown now body := by
  unfold decode
  rw [hkind]
  dsimp only
  rw [if_neg hmicE]
  split <;> first | contradiction | rfl

theorem decodeUnknown_eq_error_iff :
    decodeUnknown now body = .error e ↔
      ∃ before after, Text.splitFirst? '!' body = some (before, after) ∧
        before.byteLength < bangLimit ∧
        Position.decode now (.station false false) after = .error e := by
  rw [decodeUnknown]
  cases Text.splitFirst? '!' body with
  | none => simp
  | some cut =>
    obtain ⟨before, after⟩ := cut
    dsimp only
    split
    · next hnear => simp [map_eq_error_iff, hnear]
    · next hnear => simp [hnear]

theorem cause_of_decode_error (h : decode now destination type body = .error e) :
    (∃ kind rest, positionIn? type body = some (kind, rest) ∧
        Position.decode now kind rest = .error e) ∨
      MicE.decode destination body = .error e ∨ e = .invalidTimestamp ∨ e = .invalidWeather ∨
        ∃ cause, e = .invalidTelemetryConfig cause := by
  cases hkind : PositionKind.ofChar? type with
  | some kind =>
    unfold decode at h
    rw [hkind] at h
    exact .inl ⟨kind, body, by rw [positionIn?, hkind], map_eq_error_iff.mp h⟩
  | none =>
    unfold decode at h
    rw [hkind] at h
    dsimp only at h
    split at h
    · exact .inr (.inl (map_eq_error_iff.mp h))
    next hmicE =>
    rw [Bool.not_eq_true] at hmicE
    split at h
    · cases h
    · cases h
    · unfold status? at h
      split at h
      · split at h
        · cases h
        · cases h
          exact .inr (.inr (.inl rfl))
      · cases h
    · obtain ⟨cause, _, rfl⟩ := mapError_eq_error_iff.mp (map_eq_error_iff.mp h)
      exact .inr (.inr (.inr (.inr ⟨cause, rfl⟩)))
    · split at h
      · cases h
      · cases h
        exact .inr (.inr (.inr (.inl rfl)))
    · next hcomma hbrace hgreater hcolon hline =>
      have hother : otherTypes.contains type = false := by
        simpa [otherTypes] using ⟨hcomma, hbrace, hgreater, hcolon, hline⟩
      obtain ⟨before, after, hsplit, hnear, hposition⟩ := decodeUnknown_eq_error_iff.mp h
      refine .inl ⟨_, after, (positionIn?_eq_some_iff_of_unknown hkind).mpr ?_, hposition⟩
      exact ⟨hmicE, hother, rfl, before, hsplit, hnear⟩

theorem stage_of_decode_error (h : decode now destination type body = .error e) :
    e.stage = .report := by
  obtain ⟨kind, rest, _, hposition⟩ | hmicE | rfl | rfl | ⟨_, rfl⟩ := cause_of_decode_error h
  · obtain rfl | rfl | ⟨rest, _, hfix⟩ := Position.cause_of_decode_error hposition
    · rfl
    · rfl
    obtain ⟨_, _, rfl⟩ | ⟨_, hcompressed⟩ := Position.takeFix_eq_error_iff.mp hfix
    · rfl
    obtain ⟨_, rfl⟩ | ⟨_, _, _, _, _, rfl⟩ := Compressed.decode_eq_error_iff.mp hcompressed <;> rfl
  · obtain ⟨_, rfl, _⟩ := MicE.cause_of_decode_error hmicE
    rfl
  · rfl
  · rfl
  · rfl

end Report

end Aprs
