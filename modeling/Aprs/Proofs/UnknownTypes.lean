import Aprs.Proofs.Globe
import Aprs.Proofs.HeaderGrammar
import Aprs.Proofs.PositionKinds
import Aprs.Proofs.Rejection
import Aprs.Proofs.Spellings

/-!
Bodies of a type that nobody knows. An exclamation mark near their start is taken for the type of a
position report, so such a line says what it would say without all that stands between the header
and the mark. It is kept as it is when there is no mark, or only one far from the start.
-/

namespace Aprs

open Reading

namespace Report

/-- Types that have a reader of their own. -/
def decodedTypes : List Char :=
  ['\x7d', ',', '\x7b', '>', '\u0060', '\'', typographicQuote, ':', '_', '!', '=', '/', '@', ';']

def IsUnknown (type : Char) : Prop := type ∉ unsupported.map Prod.fst ∧ type ∉ decodedTypes

variable {type : Char} {now : Int} {destination before body : Text}

theorem IsUnknown.lookup_eq_none (h : IsUnknown type) : unsupported.lookup type = none := by
  rw [List.lookup_eq_none_iff]
  intro entry hentry
  rw [bne_iff_ne]
  rintro rfl
  exact h.1 (List.mem_map_of_mem hentry)

theorem IsUnknown.ne (h : IsUnknown type) {c : Char} (hc : c ∈ decodedTypes) : type ≠ c := by
  rintro rfl
  exact h.2 hc

theorem IsUnknown.decode_eq (h : IsUnknown type) :
    decode now destination type body = decodeUnknown now body := by
  have hkind : PositionKind.ofChar? type = none := by
    unfold PositionKind.ofChar?
    split <;> first | rfl | exact absurd rfl (h.ne (by decide))
  have hmicE : ¬isMicE type = true := by
    simp only [isMicE, Bool.or_eq_true, beq_iff_eq, not_or]
    exact ⟨⟨h.ne (by decide), h.ne (by decide)⟩, h.ne (by decide)⟩
  exact decode_eq_decodeUnknown hkind hmicE (h.ne (by decide)) (h.ne (by decide)) (h.ne (by decide))
    (h.ne (by decide)) (h.ne (by decide))

theorem decodeUnknown_of_near (hbefore : '!' ∉ before) (hnear : before.byteLength < bangLimit) :
    decodeUnknown now (before ++ '!' :: body) =
      (Position.decode now (.station false false) body).map .position := by
  rw [decodeUnknown, Text.splitFirst?_eq_some_iff.mpr ⟨rfl, hbefore⟩]
  exact if_pos hnear

theorem decodeUnknown_of_far (hbefore : '!' ∉ before) (hfar : bangLimit ≤ before.byteLength) :
    decodeUnknown now (before ++ '!' :: body) = .ok (.undecoded (before ++ '!' :: body)) := by
  rw [decodeUnknown, Text.splitFirst?_eq_some_iff.mpr ⟨rfl, hbefore⟩]
  exact if_neg (Nat.not_lt.mpr hfar)

theorem decodeUnknown_of_not_mem (h : '!' ∉ body) :
    decodeUnknown now body = .ok (.undecoded body) := by
  rw [decodeUnknown, Text.splitFirst?_eq_none_iff.mpr h]

end Report

namespace Line

variable {options : Options} {now : Int} {levels : Nat} {head before body content : Text}
  {header : Header} {type : Char}

theorem split_unknown (hheader : Header.decode options head = .ok header) (hcolon : ':' ∉ head)
    (htype : Report.IsUnknown type) (hcontent : content ≠ [])
    (hend : ∀ c ∈ content.getLast?, isLineEnd c = false)
    (hquote : ¬garbledQuote <+: type :: content) :
    split options (head ++ ':' :: type :: content) = .ok (header, type, content) := by
  have hsplit : splitType? (type :: content) = some (type, content) := by
    rw [splitType?]
    cases hdrop : Text.dropPrefix? garbledQuote (type :: content) with
    | none => rfl
    | some rest => exact absurd ⟨rest, (Text.dropPrefix?_eq_some hdrop).symm⟩ hquote
  have hempty : content.isEmpty = false := by simp [hcontent]
  refine split_append hheader hcolon ?_ hsplit ?_
  · rwa [List.getLast?_cons_of_ne_nil hcontent]
  · rw [checkType, hempty, Bool.false_and, if_neg Bool.false_ne_true, htype.lookup_eq_none]

/-- A line of unknown type is its own content, unless it has a position in it. -/
theorem decodeWithin_unknown (hheader : Header.decode options head = .ok header)
    (hcolon : ':' ∉ head) (htype : Report.IsUnknown type) (hcontent : content ≠ [])
    (hend : ∀ c ∈ content.getLast?, isLineEnd c = false)
    (hquote : ¬garbledQuote <+: type :: content) :
    decodeWithin options now levels (head ++ ':' :: type :: content) =
      (Report.decodeUnknown now content).map fun report =>
        .plain ((blankRecord (head ++ ':' :: type :: content) header).withReport report) := by
  rw [decodeWithin_of_report (split_unknown hheader hcolon htype hcontent hend hquote)
    (htype.ne (by decide)), htype.decode_eq]

/-- What stands before the mark, and the type, are not looked at any more. -/
theorem decodeWithin_unknown_of_near (hheader : Header.decode options head = .ok header)
    (hcolon : ':' ∉ head) (htype : Report.IsUnknown type)
    (hend : ∀ c ∈ (before ++ '!' :: body).getLast?, isLineEnd c = false)
    (hquote : ¬garbledQuote <+: type :: (before ++ '!' :: body)) (hbefore : '!' ∉ before)
    (hnear : before.byteLength < Report.bangLimit) (hbody : body ≠ []) :
    decodeWithin options now levels (head ++ ':' :: type :: (before ++ '!' :: body)) =
      (decodeWithin options now levels (head ++ ':' :: '!' :: body)).map
        (Packet.withRaw (head ++ ':' :: type :: (before ++ '!' :: body))) := by
  have hcontent : before ++ '!' :: body ≠ [] := by simp
  have hlast : ∀ c ∈ body.getLast?, isLineEnd c = false := by
    rwa [List.getLast?_append_of_ne_nil _ (List.cons_ne_nil _ _),
      List.getLast?_cons_of_ne_nil hbody] at hend
  have hplain : decodeWithin options now levels (head ++ ':' :: '!' :: body) = _ :=
    @decodeWithin_position options header (.station false false) head body now levels hheader hcolon
      hbody hlast
  rw [decodeWithin_unknown hheader hcolon htype hcontent hend hquote,
    Report.decodeUnknown_of_near hbefore hnear, hplain]
  cases Position.decode now (.station false false) body with
  | error e => rfl
  | ok p =>
    exact congrArg (Except.ok ∘ Packet.plain)
      (Record.withReport_blankRecord_raw (.position p) _ _ header)

end Line

/-- A line of unknown type is read from the first exclamation mark on, if there is one in the first
forty bytes of its content and anything behind it. With nothing behind it there is no position, and
without it there is nothing to read. -/
theorem decode_unknown (options : Options) (now : Int) {head content : Text} {type : Char}
    {header : Header} (hheader : Header.decode options head = .ok header) (hcolon : ':' ∉ head)
    (htype : Report.IsUnknown type) (hcontent : content ≠ [])
    (hend : ∀ c ∈ content.getLast?, Line.isLineEnd c = false)
    (hquote : ¬Line.garbledQuote <+: type :: content) :
    let line := head ++ ':' :: type :: content
    (∀ before body, content = before ++ '!' :: body → '!' ∉ before → before.byteLength < 40 →
      (body ≠ [] → decode options now line =
        match decode options now (head ++ ':' :: '!' :: body) with
        | .ok packet => .ok (packet.withRaw line)
        | .error failure => .error ⟨line, failure.error⟩) ∧
      (body = [] → decode options now line = .error ⟨line, .invalidCompressed⟩)) ∧
    ((∀ before body, content = before ++ '!' :: body → '!' ∉ before → 40 ≤ before.byteLength) →
      decode options now line =
        .ok (.plain { Line.blankRecord line header with
          format := some .invalid
          body := some content })) := by
  intro line
  have hline : Line.decodeWithin options now options.maxThirdPartyDepth line = _ :=
    Line.decodeWithin_unknown hheader hcolon htype hcontent hend hquote
  refine ⟨?_, fun hfar => ?_⟩
  · rintro before body rfl hbefore hnear
    refine ⟨fun hbody => ?_, ?_⟩
    · rw [decode, decode, Line.decodeWithin_unknown_of_near hheader hcolon htype hend hquote hbefore
        hnear hbody]
      cases Line.decodeWithin options now options.maxThirdPartyDepth (head ++ ':' :: '!' :: body)
      · rfl
      · rfl
    · rintro rfl
      rw [decode, hline, Report.decodeUnknown_of_near hbefore hnear]
      rfl
  · have hundecoded : Report.decodeUnknown now content = .ok (.undecoded content) := by
      by_cases hmark : '!' ∈ content
      · obtain ⟨before, body, rfl, hbefore⟩ := List.eq_append_cons_of_mem hmark
        exact Report.decodeUnknown_of_far hbefore (hfar before body rfl hbefore)
      · exact Report.decodeUnknown_of_not_mem hmark
    rw [decode, hline, hundecoded]
    rfl

/-- A position behind letters of two bytes, a mark at the end, and no mark. -/
theorem decode_unknown_letters :
    Header.decode {} "N0CALL>APRS".toList = .ok ⟨"N0CALL".toList, "APRS".toList, []⟩ ∧
      ':' ∉ "N0CALL>APRS".toList ∧ Report.IsUnknown 'é' ∧
      decode {} 0 "N0CALL>APRS:éà!/5L!!<*e7>7P[Test".toList =
        (match decode {} 0 "N0CALL>APRS:!/5L!!<*e7>7P[Test".toList with
        | .ok packet => .ok (packet.withRaw "N0CALL>APRS:éà!/5L!!<*e7>7P[Test".toList)
        | .error failure => .error ⟨"N0CALL>APRS:éà!/5L!!<*e7>7P[Test".toList, failure.error⟩) ∧
      decode {} 0 "N0CALL>APRS:éà!".toList =
        .error ⟨"N0CALL>APRS:éà!".toList, .invalidCompressed⟩ ∧
      decode {} 0 "N0CALL>APRS:éà".toList =
        .ok (.plain
          { raw := "N0CALL>APRS:éà".toList
            source := "N0CALL".toList
            destination := "APRS".toList
            format := some .invalid
            body := some "à".toList }) := by
  have hheader : Header.decode {} "N0CALL>APRS".toList =
      .ok ⟨"N0CALL".toList, "APRS".toList, []⟩ := by cbv
  have hcolon : ':' ∉ "N0CALL>APRS".toList := by decide
  have htype : Report.IsUnknown 'é' := ⟨by decide, by decide⟩
  have hbefore : '!' ∉ ['à'] := by decide
  refine ⟨hheader, hcolon, htype, ?_, ?_, ?_⟩
  · have hend : ∀ c ∈ "à!/5L!!<*e7>7P[Test".toList.getLast?, Line.isLineEnd c = false := by
      simp [Line.isLineEnd]
    have hline : "N0CALL>APRS:éà!/5L!!<*e7>7P[Test".toList =
        "N0CALL>APRS".toList ++ ':' :: 'é' :: "à!/5L!!<*e7>7P[Test".toList := rfl
    have hplain : "N0CALL>APRS:!/5L!!<*e7>7P[Test".toList =
        "N0CALL>APRS".toList ++ ':' :: '!' :: "/5L!!<*e7>7P[Test".toList := rfl
    rw [hline, hplain]
    exact ((decode_unknown {} 0 hheader hcolon htype (by decide) hend (by decide)).1 ['à']
      "/5L!!<*e7>7P[Test".toList rfl hbefore (by decide)).1 (by decide)
  · have hend : ∀ c ∈ ['à', '!'].getLast?, Line.isLineEnd c = false := by
      simp [Line.isLineEnd]
    exact ((decode_unknown {} 0 hheader hcolon htype (by decide) hend (by decide)).1 ['à'] [] rfl
      hbefore (by decide)).2 rfl
  · have hend : ∀ c ∈ ['à'].getLast?, Line.isLineEnd c = false := by
      simp [Line.isLineEnd]
    refine (decode_unknown {} 0 hheader hcolon htype (by decide) hend (by decide)).2 ?_
    intro before body heq
    have hmem : '!' ∈ ['à'] := by
      rw [heq]
      exact List.mem_append_right before List.mem_cons_self
    exact absurd hmem hbefore

end Aprs
