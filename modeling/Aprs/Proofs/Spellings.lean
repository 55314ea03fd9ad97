import Aprs.Proofs.MicEEncoding

/-!
Spellings of a line that say the same. Line ends around a line count for nothing, and neither do the
mark of a Mic-E report and the identifier of its destination; lines that differ in no more than that
have the same error, or records that differ in the text of the line and in the destination alone,
which are kept as they were received.
-/

namespace Aprs

namespace Text

variable {p : Char → Bool} {u t v : Text}

theorem trimStart_append_of_all (hu : ∀ c ∈ u, p c = true) (t : Text) :
    trimStart p (u ++ t) = trimStart p t := List.dropWhile_append_of_pos hu

theorem trimEnd_append_of_all (t : Text) (hv : ∀ c ∈ v, p c = true) :
    trimEnd p (t ++ v) = trimEnd p t := by
  rw [trimEnd, trimEnd, List.reverse_append,
    List.dropWhile_append_of_pos fun c hc => hv c (List.mem_reverse.mp hc)]

theorem trim_surrounded (hu : ∀ c ∈ u, p c = true) (t : Text) (hv : ∀ c ∈ v, p c = true) :
    trim p (u ++ t ++ v) = trim p t := by
  rw [trim, trim, List.append_assoc, trimStart_append_of_all hu, trimStart, trimStart,
    List.dropWhile_append]
  cases hempty : (t.dropWhile p).isEmpty with
  | true => rw [if_pos rfl, List.isEmpty_iff.mp hempty, List.dropWhile_eq_nil_iff.mpr hv]
  | false => rw [if_neg Bool.false_ne_true, trimEnd_append_of_all _ hv]

end Text

/-- All that a report adds to a record is the same under another header and in another line. -/
theorem Record.withReport_blankRecord (report : Report) (line line' : Text)
    (header header' : Header) :
    (Line.blankRecord line' header').withReport report =
      { (Line.blankRecord line header).withReport report with
        raw := line'
        source := header'.source
        destination := header'.destination
        path := header'.path } := by
  cases report with
  | position p =>
    rw [withReport, withReport, withPosition_blankRecord, withPosition_blankRecord]
    rfl
  | micE m =>
    rw [withReport, withReport, withMicE_blankRecord, withMicE_blankRecord]
    rfl
  | status timestamp text =>
    rw [withStatus_blankRecord, withStatus_blankRecord]
    rfl
  | message message =>
    cases message with
    | addressed addressee content => cases content <;> rfl
    | _ => rfl
  | _ => rfl

theorem Record.withReport_blankRecord_raw (report : Report) (line line' : Text) (header : Header) :
    (Line.blankRecord line' header).withReport report =
      { (Line.blankRecord line header).withReport report with raw := line' } := by
  obtain ⟨_, hsource, hdestination, hpath⟩ := @Record.header_withReport line header report
  rw [withReport_blankRecord report line line' header header, ← hsource, ← hdestination, ← hpath]

/-- The same packet out of a line with another text. -/
def Packet.withRaw (raw : Text) : Packet Quantity → Packet Quantity
  | plain r => plain { r with raw }
  | forwarding r inner => forwarding { r with raw } inner

theorem MicE.decode_of_upTo {destination destination' : Text}
    (h : Text.upTo '-' destination = Text.upTo '-' destination') (body : Text) :
    decode destination body = decode destination' body := by
  rw [decode, decode, h]

namespace Line

variable {options : Options} {now : Int} {levels : Nat} {line line' u v : Text}

theorem split_surrounded (hline : line ≠ []) (hu : ∀ c ∈ u, isLineEnd c = true)
    (hv : ∀ c ∈ v, isLineEnd c = true) : split options (u ++ line ++ v) = split options line := by
  have hempty : (u ++ line ++ v).isEmpty = false := by simp [hline]
  have hempty' : line.isEmpty = false := by simp [hline]
  rw [split, split, hempty, hempty', Text.trim_surrounded hu line hv]

/-- Once it is split, the text of a line reaches the outermost record and nothing else. -/
theorem decodeWithin_of_split_eq (h : split options line' = split options line) :
    decodeWithin options now levels line' =
      (decodeWithin options now levels line).map (Packet.withRaw line') := by
  cases hsplit : split options line with
  | error e =>
    rw [decodeWithin_of_split_error hsplit, decodeWithin_of_split_error (h.trans hsplit)]
    rfl
  | ok parts =>
    obtain ⟨header, type, content⟩ := parts
    by_cases htype : type = '\x7d'
    · rw [htype] at hsplit
      cases levels with
      | zero =>
        rw [decodeWithin_zero_of_forwarding hsplit,
          decodeWithin_zero_of_forwarding (h.trans hsplit)]
        rfl
      | succ levels =>
        rw [decodeWithin_succ_of_forwarding hsplit,
          decodeWithin_succ_of_forwarding (h.trans hsplit)]
        cases decodeWithin options now levels content <;> rfl
    · rw [decodeWithin_of_report hsplit htype, decodeWithin_of_report (h.trans hsplit) htype]
      cases Report.decode now header.destination type content with
      | error e => rfl
      | ok report =>
        exact congrArg (Except.ok ∘ Packet.plain)
          (Record.withReport_blankRecord_raw report line line' header)

theorem checkType_of_isMicE {type : Char} (h : Report.isMicE type = true) (content : Text) :
    checkType type content = if content = [] then .error .emptyBody else .ok () := by
  simp only [Report.isMicE, Bool.or_eq_true, beq_iff_eq] at h
  rcases h with (rfl | rfl) | rfl <;> cases content <;> rfl

theorem isLineEnd_of_mark {mark : Text} (h : mark ∈ MicE.marks) :
    ∀ c ∈ mark.getLast?, isLineEnd c = false := by
  intro c hc
  simp only [MicE.marks, List.mem_cons, List.not_mem_nil, or_false] at h
  rcases h with rfl | rfl | rfl | rfl <;> cases hc <;> decide

/-- The record of a Mic-E report with this header, but for the text of the line. All that is read of
the body stands behind the mark and before the line ends at its end. -/
def markedRecord (header : Header) (x : Text) : Except DecodeError (Record Quantity) :=
  let content := Text.trimEnd isLineEnd x
  if content = [] then .error .emptyBody
  else (MicE.decode header.destination content).map (blankRecord [] header).withMicE

theorem decodeWithin_marked {head mark : Text} {header : Header}
    (hheader : Header.decode options head = .ok header) (hcolon : ':' ∉ head)
    (hmark : mark ∈ MicE.marks) (x : Text) :
    decodeWithin options now levels (head ++ ':' :: (mark ++ x)) =
      (markedRecord header x).map fun r =>
        .plain { r with raw := head ++ ':' :: (mark ++ x) } := by
  obtain ⟨type, htype, hmicE, _⟩ := exists_splitType?_of_mark hmark (Text.trimEnd isLineEnd x)
  have hforwarding : type ≠ '\x7d' := by
    rintro rfl
    exact absurd hmicE (by decide)
  have hsplit := split_append_eq_map x hheader hcolon (isLineEnd_of_mark hmark) htype
  rw [checkType_of_isMicE hmicE] at hsplit
  rw [markedRecord]
  by_cases hempty : Text.trimEnd isLineEnd x = []
  · rw [if_pos hempty] at hsplit ⊢
    exact decodeWithin_of_split_error hsplit
  · rw [if_neg hempty] at hsplit ⊢
    rw [decodeWithin_of_report hsplit hforwarding, Report.decode_of_isMicE hmicE]
    cases MicE.decode header.destination (Text.trimEnd isLineEnd x) with
    | error e => rfl
    | ok m =>
      simp only [Except.map, Record.withReport, Record.withMicE_blankRecord]
      rfl

/-- The identifier of the destination reaches the record as a part of the destination only. -/
theorem markedRecord_destination {header : Header} {destination : Text}
    (h : Text.upTo '-' destination = Text.upTo '-' header.destination) (x : Text) :
    markedRecord { header with destination } x =
      (markedRecord header x).map fun r => { r with destination } := by
  rw [markedRecord, markedRecord, MicE.decode_of_upTo h]
  split
  · rfl
  · cases MicE.decode header.destination (Text.trimEnd isLineEnd x) with
    | error e => rfl
    | ok m =>
      simp only [Except.map, Record.withMicE_blankRecord]
      rfl

end Line

/-- Mic-E reports may be marked in any way, and their destinations may differ in the identifier:
such lines are all rejected with the same error, or are all accepted with the same record but for
the text of the line and the destination. Line ends around any line only reach the text of the
line. -/
theorem decode_spellings (options : Options) (now : Int) :
    (∀ (head head' destination : Text) (header : Header) (x : Text),
      Header.decode options head = .ok header →
      Header.decode options head' = .ok { header with destination } →
      Text.upTo '-' destination = Text.upTo '-' header.destination →
      ':' ∉ head → ':' ∉ head' →
      let line (mark : Text) := head ++ ':' :: (mark ++ x)
      let line' (mark : Text) := head' ++ ':' :: (mark ++ x)
      (∃ e, ∀ mark ∈ MicE.marks, decode options now (line mark) = .error ⟨line mark, e⟩ ∧
          decode options now (line' mark) = .error ⟨line' mark, e⟩) ∨
        ∃ r : Record Quantity, ∀ mark ∈ MicE.marks,
          decode options now (line mark) = .ok (.plain { r with raw := line mark }) ∧
          decode options now (line' mark) =
            .ok (.plain { r with raw := line' mark, destination })) ∧
      ∀ line u v : Text, line ≠ [] → (∀ c ∈ u, Line.isLineEnd c = true) →
        (∀ c ∈ v, Line.isLineEnd c = true) →
        decode options now (u ++ line ++ v) =
          match decode options now line with
          | .ok packet => .ok (packet.withRaw (u ++ line ++ v))
          | .error failure => .error ⟨u ++ line ++ v, failure.error⟩ := by
  constructor
  · intro head head' destination header x hheader hheader' hbase hcolon hcolon' line line'
    have hmarked : ∀ mark ∈ MicE.marks,
        decode options now (line mark) = ((Line.markedRecord header x).map fun r =>
          .plain { r with raw := line mark }).mapError (⟨line mark, ·⟩) := by
      intro mark hmark
      rw [decode, Line.decodeWithin_marked hheader hcolon hmark x]
    have hmarked' : ∀ mark ∈ MicE.marks,
        decode options now (line' mark) = ((Line.markedRecord header x).map fun r =>
          .plain { r with raw := line' mark, destination }).mapError (⟨line' mark, ·⟩) := by
      intro mark hmark
      rw [decode, Line.decodeWithin_marked hheader' hcolon' hmark x,
        Line.markedRecord_destination hbase]
      cases Line.markedRecord header x <;> rfl
    cases hrecord : Line.markedRecord header x with
    | error e =>
      rw [hrecord] at hmarked hmarked'
      exact .inl ⟨e, fun mark hmark => ⟨hmarked mark hmark, hmarked' mark hmark⟩⟩
    | ok r =>
      rw [hrecord] at hmarked hmarked'
      exact .inr ⟨r, fun mark hmark => ⟨hmarked mark hmark, hmarked' mark hmark⟩⟩
  · intro line u v hline hu hv
    rw [decode, decode, Line.decodeWithin_of_split_eq (Line.split_surrounded hline hu hv)]
    cases Line.decodeWithin options now options.maxThirdPartyDepth line <;> rfl

/-- A report whose mark is garbled on its way to a destination with an identifier, and then one
between line ends. -/
theorem decode_spellings_identifier :
    let head := "N0CALL>S32U6T,WIDE1-1".toList
    let head' := "N0CALL>S32U6T-7,WIDE1-1".toList
    let x := "vCD\"&P>/\"4T\x7dHello".toList
    let line := head ++ ':' :: (['\u0060'] ++ x)
    let line' := head' ++ ':' :: (Line.garbledQuote ++ x)
    let surrounded := ['\n'] ++ line ++ ['\r', '\n']
    Header.decode {} head = .ok ⟨"N0CALL".toList, "S32U6T".toList, ["WIDE1-1".toList]⟩ ∧
      Header.decode {} head' = .ok ⟨"N0CALL".toList, "S32U6T-7".toList, ["WIDE1-1".toList]⟩ ∧
      Text.upTo '-' "S32U6T-7".toList = Text.upTo '-' "S32U6T".toList ∧
      ':' ∉ head ∧ ':' ∉ head' ∧ ∃ r : Record Quantity, r.comment = "Hello".toList ∧
        decode {} 0 line = .ok (.plain { r with raw := line }) ∧
        decode {} 0 line' =
          .ok (.plain { r with raw := line', destination := "S32U6T-7".toList }) ∧
        decode {} 0 surrounded = .ok (.plain { r with raw := surrounded }) := by
  have hheader : Header.decode {} "N0CALL>S32U6T,WIDE1-1".toList =
      .ok ⟨"N0CALL".toList, "S32U6T".toList, ["WIDE1-1".toList]⟩ := by cbv
  have hheader' : Header.decode {} "N0CALL>S32U6T-7,WIDE1-1".toList =
      .ok ⟨"N0CALL".toList, "S32U6T-7".toList, ["WIDE1-1".toList]⟩ := by cbv
  have hcomment : (decode {} 0 ("N0CALL>S32U6T,WIDE1-1".toList ++
      ':' :: (['\u0060'] ++ "vCD\"&P>/\"4T\x7dHello".toList))).map (fun p => p.record.comment) =
        .ok "Hello".toList := by cbv
  intro head head' x line line' surrounded
  have hbase : Text.upTo '-' "S32U6T-7".toList = Text.upTo '-' "S32U6T".toList := by cbv
  have hcolon : ':' ∉ head := by decide
  have hcolon' : ':' ∉ head' := by decide
  have hmark : ['\u0060'] ∈ MicE.marks := by decide
  have hmark' : Line.garbledQuote ∈ MicE.marks := by decide
  obtain ⟨hspelled, hsurrounded⟩ := decode_spellings {} 0
  refine ⟨hheader, hheader', hbase, hcolon, hcolon', ?_⟩
  rcases hspelled head head' _ _ x hheader hheader' hbase hcolon hcolon' with ⟨e, h⟩ | ⟨r, h⟩
  · rw [(h _ hmark).1] at hcomment
    cases hcomment
  · rw [(h _ hmark).1] at hcomment
    refine ⟨r, Except.ok.inj hcomment, (h _ hmark).1, (h _ hmark').2, ?_⟩
    rw [hsurrounded line ['\n'] ['\r', '\n'] (by decide) (by simp [Line.isLineEnd])
      (by simp [Line.isLineEnd]), (h _ hmark).1]
    rfl

end Aprs
