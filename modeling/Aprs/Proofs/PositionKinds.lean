import Aprs.Proofs.Clock

/-!
The five types of position reports. They differ in what stands before the position: a mark, for an
object its name, and for some a timestamp. Once that is taken off, all of them are read by one
reader that knows nothing of the type.
-/

namespace Aprs

namespace PositionKind

/-- The type of a body with a position report of this kind. -/
def mark : PositionKind → Char
  | station false false => '!'
  | station true false => '='
  | station false true => '/'
  | station true true => '@'
  | object => ';'

theorem ofChar?_mark (kind : PositionKind) : ofChar? kind.mark = some kind := by
  rcases kind with ⟨_ | _, _ | _⟩ | _ <;> rfl

/-- Of an object and a timestamp, what a report of this kind tells. -/
def object? (kind : PositionKind) (header : ObjectHeader) : Option ObjectHeader :=
  if kind = object then some header else none

def timestamp? (kind : PositionKind) (timestamp : Timestamp) : Option Timestamp :=
  if kind.isTimed then some timestamp else none

end PositionKind

namespace ObjectHeader

/-- A star follows the name of an object that is still there. -/
def written (header : ObjectHeader) : Text := header.name ++ [if header.alive then '*' else '_']

theorem take?_written {header : ObjectHeader} (hlength : header.name.length = 9)
    (hprintable : ∀ c ∈ header.name, Text.between ' ' '~' c = true) (rest : Text) :
    take? (header.written ++ rest) = some (header, rest) := by
  obtain ⟨name, alive⟩ := header
  have hfills : Layout.Fills layout (written ⟨name, alive⟩) := by
    refine (Layout.fills_columns_iff.mpr ⟨hlength, hprintable⟩).append ?_
    cases alive <;> exact ⟨rfl, trivial⟩
  have htake : (written ⟨name, alive⟩).take 9 = name := List.take_left' hlength
  have hget : (written ⟨name, alive⟩).getD 9 ' ' = if alive then '*' else '_' := by
    rw [written, List.getD_append_right _ _ _ _ (Nat.le_of_eq hlength), hlength]
    rfl
  rw [take?, Layout.take?_append hfills]
  simp only [Option.map_some, htake, hget]
  cases alive <;> rfl

end ObjectHeader

namespace Timestamp

/-- The timestamp of these digits in this form, as it is understood at an instant. -/
def ofDigits (now : Int) (digits : Text) (form : Char) : Timestamp :=
  ⟨digits ++ [form], (epochOf now digits form).getD 0⟩

theorem take?_ofDigits (now : Int) {digits : Text} {form : Char} (hlength : digits.length = 6)
    (hdigits : ∀ c ∈ digits, c.isDigit = true) (hform : form ≠ '\n') (rest : Text) :
    take? now ((ofDigits now digits form).raw ++ rest) =
      some (ofDigits now digits form, rest) := by
  have hfills : Layout.Fills layout (digits ++ [form]) :=
    (Layout.fills_columns_iff.mpr ⟨hlength, hdigits⟩).append ⟨bne_iff_ne.mpr hform, trivial⟩
  have htake : (digits ++ [form]).take 6 = digits := List.take_left' hlength
  have hget : (digits ++ [form]).getD 6 ' ' = form := by
    rw [List.getD_append_right _ _ _ _ (Nat.le_of_eq hlength), hlength]
    rfl
  rw [take?, ofDigits, Layout.take?_append hfills]
  simp only [Option.map_some, htake, hget]

end Timestamp

namespace Position

variable {kind : PositionKind} {object : ObjectHeader} {timestamp : Timestamp} {now : Int}
  {body : Text}

/-- What stands between the mark and the position. -/
def opening (kind : PositionKind) (object : ObjectHeader) (timestamp : Timestamp) : Text :=
  match kind with
  | .station _ false => []
  | .station _ true => timestamp.raw
  | .object => object.written ++ timestamp.raw

theorem takeObject_opening (hlength : object.name.length = 9)
    (hprintable : ∀ c ∈ object.name, Text.between ' ' '~' c = true) :
    takeObject kind (opening kind object timestamp ++ body) =
      .ok (kind.object? object, if kind.isTimed then timestamp.raw ++ body else body) := by
  cases kind with
  | station capable timed => cases timed <;> rfl
  | object =>
    rw [opening, List.append_assoc, takeObject, ObjectHeader.take?_written hlength hprintable]
    rfl

theorem takeTimestamp_opening
    (htake : Timestamp.take? now (timestamp.raw ++ body) = some (timestamp, body)) :
    takeTimestamp now kind (if kind.isTimed then timestamp.raw ++ body else body) =
      .ok (kind.timestamp? timestamp, body) := by
  rw [takeTimestamp, PositionKind.timestamp?]
  by_cases htimed : kind.isTimed = true
  · rw [if_pos htimed, if_pos htimed, if_pos htimed, htake]
  · rw [if_neg htimed, if_neg htimed, if_neg htimed]

theorem complete_of_ne_nil (object : Option ObjectHeader) (timestamp : Option Timestamp)
    (hbody : body ≠ []) :
    complete kind object timestamp body =
      (takeFix body).map fun (fix, rest) =>
        ⟨kind.messageCapable, object, timestamp, fix, Remark.read fix.symbolCode rest⟩ := by
  rw [complete, endsEarly, List.isEmpty_eq_false_iff.mpr hbody, Bool.false_and,
    if_neg Bool.false_ne_true]

/-- Behind its opening a report is read in the same way for all kinds. -/
theorem decode_opening (hlength : object.name.length = 9)
    (hprintable : ∀ c ∈ object.name, Text.between ' ' '~' c = true)
    (htake : Timestamp.take? now (timestamp.raw ++ body) = some (timestamp, body))
    (hbody : body ≠ []) :
    decode now kind (opening kind object timestamp ++ body) =
      (takeFix body).map fun (fix, rest) =>
        ⟨kind.messageCapable, kind.object? object, kind.timestamp? timestamp, fix,
          Remark.read fix.symbolCode rest⟩ := by
  rw [decode_eq_complete (takeObject_opening hlength hprintable) (takeTimestamp_opening htake)]
  exact complete_of_ne_nil _ _ hbody

end Position

namespace Record

/-- The record `r` of a position, with what a report of this kind adds of its own. -/
def announced (r : Record Quantity) (line : Text) (kind : PositionKind) (object : ObjectHeader)
    (timestamp : Timestamp) : Record Quantity :=
  let told := { r with raw := line, messageCapable := kind.messageCapable }
  let timed :=
    { told with rawTimestamp := some timestamp.raw, timestamp := Int64.ofInt timestamp.epoch }
  match kind with
  | .station _ false => told
  | .station _ true => timed
  | .object =>
    { timed with
      format := some .object
      objectFormat := r.format
      objectName := some object.name
      objectAlive := some object.alive }

theorem withPosition_eq_announced (line : Text) (header : Header) (kind : PositionKind)
    (object : ObjectHeader) (timestamp : Timestamp) (fix : Fix) (remark : Remark) :
    (Line.blankRecord line header).withPosition
        ⟨kind.messageCapable, kind.object? object, kind.timestamp? timestamp, fix, remark⟩ =
      ((Line.blankRecord [] header).withPosition ⟨false, none, none, fix, remark⟩).announced line
        kind object timestamp := by
  rw [withPosition_blankRecord, withPosition_blankRecord]
  rcases kind with ⟨_ | _, _ | _⟩ | _ <;> rfl

end Record

theorem Report.decode_of_kind {type : Char} {kind : PositionKind}
    (h : PositionKind.ofChar? type = some kind) (now : Int) (destination body : Text) :
    decode now destination type body = (Position.decode now kind body).map .position := by
  unfold decode
  rw [h]

namespace Line

variable {options : Options} {header : Header} {kind : PositionKind} {head content : Text}

theorem split_position (hheader : Header.decode options head = .ok header) (hcolon : ':' ∉ head)
    (hcontent : content ≠ []) (hend : ∀ c ∈ content.getLast?, isLineEnd c = false) :
    split options (head ++ ':' :: kind.mark :: content) = .ok (header, kind.mark, content) := by
  obtain ⟨c, t, rfl⟩ := List.exists_cons_of_ne_nil hcontent
  apply split_append hheader hcolon (by rwa [List.getLast?_cons_cons])
  · rcases kind with ⟨_ | _, _ | _⟩ | _ <;> rfl
  · rcases kind with ⟨_ | _, _ | _⟩ | _ <;> rfl

theorem decodeWithin_position {now : Int} {levels : Nat}
    (hheader : Header.decode options head = .ok header) (hcolon : ':' ∉ head)
    (hcontent : content ≠ []) (hend : ∀ c ∈ content.getLast?, isLineEnd c = false) :
    decodeWithin options now levels (head ++ ':' :: kind.mark :: content) =
      (Position.decode now kind content).map fun p =>
        .plain ((blankRecord (head ++ ':' :: kind.mark :: content) header).withPosition p) := by
  have hmark : kind.mark ≠ '\x7d' := by
    rcases kind with ⟨_ | _, _ | _⟩ | _ <;> decide
  rw [decodeWithin_of_report (split_position hheader hcolon hcontent hend) hmark,
    Report.decode_of_kind (PositionKind.ofChar?_mark kind)]
  cases Position.decode now kind content <;> rfl

end Line

/-- Lines that announce the same position in the five ways are all rejected with the same error, or
all accepted with the same record, to which each adds what its kind tells. -/
theorem decode_kinds (options : Options) (now : Int) {head body digits : Text} {form : Char}
    {object : ObjectHeader} {header : Header}
    (hheader : Header.decode options head = .ok header) (hcolon : ':' ∉ head)
    (hbody : body ≠ []) (hend : ∀ c ∈ body.getLast?, Line.isLineEnd c = false)
    (hlength : digits.length = 6) (hdigits : ∀ c ∈ digits, c.isDigit = true) (hform : form ≠ '\n')
    (hname : object.name.length = 9)
    (hprintable : ∀ c ∈ object.name, Text.between ' ' '~' c = true) :
    let timestamp := Timestamp.ofDigits now digits form
    let line (kind : PositionKind) :=
      head ++ ':' :: kind.mark :: (Position.opening kind object timestamp ++ body)
    (∃ e, ∀ kind, decode options now (line kind) = .error ⟨line kind, e⟩) ∨
      ∃ r : Record Quantity, (r.format = some .uncompressed ∨ r.format = some .compressed) ∧
        r.rawTimestamp = none ∧ r.timestamp = 0 ∧ r.objectName = none ∧ r.objectAlive = none ∧
        r.objectFormat = none ∧
        ∀ kind, decode options now (line kind) =
          .ok (.plain (r.announced (line kind) kind object timestamp)) := by
  intro timestamp line
  have htake := Timestamp.take?_ofDigits now hlength hdigits hform body
  have hline : ∀ kind, decode options now (line kind) =
      ((Position.takeFix body).map fun (fix, rest) =>
        .plain (((Line.blankRecord [] header).withPosition
          ⟨false, none, none, fix, Remark.read fix.symbolCode rest⟩).announced (line kind) kind
            object timestamp)).mapError fun e => ⟨line kind, e⟩ := by
    intro kind
    have hcontent : Position.opening kind object timestamp ++ body ≠ [] :=
      List.append_ne_nil_of_right_ne_nil _ hbody
    have hlast : ∀ c ∈ (Position.opening kind object timestamp ++ body).getLast?,
        Line.isLineEnd c = false := by
      rwa [List.getLast?_append_of_ne_nil _ hbody]
    rw [decode, Line.decodeWithin_position hheader hcolon hcontent hlast,
      Position.decode_opening hname hprintable htake hbody]
    cases Position.takeFix body with
    | error e => rfl
    | ok found =>
      simp only [Except.map, Except.mapError, Record.withPosition_eq_announced]
      rfl
  cases hfix : Position.takeFix body with
  | error e =>
    refine .inl ⟨e, fun kind => ?_⟩
    rw [hline, hfix]
    rfl
  | ok found =>
    obtain ⟨fix, rest⟩ := found
    refine .inr ⟨(Line.blankRecord [] header).withPosition
      ⟨false, none, none, fix, Remark.read fix.symbolCode rest⟩, ?_, ?_⟩
    · rw [Record.withPosition_blankRecord]
      cases hform : fix.form <;> simp [Position.format, hform, PositionForm.format]
    · refine ⟨?_, ?_, ?_, ?_, ?_, fun kind => by rw [hline, hfix]; rfl⟩ <;>
        rw [Record.withPosition_blankRecord] <;> rfl

/-- A compressed object, whose name begins with a star and whose time is in no known form. -/
theorem decode_kinds_compressed :
    Header.decode {} "N0CALL>APRS,WIDE1-1".toList =
        .ok ⟨"N0CALL".toList, "APRS".toList, ["WIDE1-1".toList]⟩ ∧
      ':' ∉ "N0CALL>APRS,WIDE1-1".toList ∧ "/5L!!<*e7>7P[Convoy".toList ≠ [] ∧
      (∀ c ∈ "/5L!!<*e7>7P[Convoy".toList.getLast?, Line.isLineEnd c = false) ∧
      "092345".toList.length = 6 ∧ (∀ c ∈ "092345".toList, c.isDigit = true) ∧ 'é' ≠ '\n' ∧
      "*LEADER _".toList.length = 9 ∧
      (∀ c ∈ "*LEADER _".toList, Text.between ' ' '~' c = true) ∧
      ∃ r : Record Quantity, r.format = some .compressed ∧
        decode {} 0 "N0CALL>APRS,WIDE1-1:=/5L!!<*e7>7P[Convoy".toList =
          .ok (.plain { r with
            raw := "N0CALL>APRS,WIDE1-1:=/5L!!<*e7>7P[Convoy".toList
            messageCapable := true }) ∧
        decode {} 0 "N0CALL>APRS,WIDE1-1:;*LEADER __092345é/5L!!<*e7>7P[Convoy".toList =
          .ok (.plain { r with
            raw := "N0CALL>APRS,WIDE1-1:;*LEADER __092345é/5L!!<*e7>7P[Convoy".toList
            messageCapable := false
            rawTimestamp := some "092345é".toList
            timestamp := 0
            format := some .object
            objectFormat := some .compressed
            objectName := some "*LEADER _".toList
            objectAlive := some false }) := by
  have hheader : Header.decode {} "N0CALL>APRS,WIDE1-1".toList =
      .ok ⟨"N0CALL".toList, "APRS".toList, ["WIDE1-1".toList]⟩ := by cbv
  have hcolon : ':' ∉ "N0CALL>APRS,WIDE1-1".toList := by decide
  have hbody : "/5L!!<*e7>7P[Convoy".toList ≠ [] := by decide
  have hend : ∀ c ∈ "/5L!!<*e7>7P[Convoy".toList.getLast?, Line.isLineEnd c = false := by
    intro c hc
    cases hc
    decide
  have hdigits : ∀ c ∈ "092345".toList, c.isDigit = true :=
    List.all_eq_true.mp (by decide)
  have hname : (ObjectHeader.mk "*LEADER _".toList false).name.length = 9 := rfl
  have hprintable : ∀ c ∈ "*LEADER _".toList, Text.between ' ' '~' c = true :=
    List.all_eq_true.mp (by decide)
  refine ⟨hheader, hcolon, hbody, hend, rfl, hdigits, by decide, rfl, hprintable, ?_⟩
  have hformat : (decode {} 0 "N0CALL>APRS,WIDE1-1:=/5L!!<*e7>7P[Convoy".toList).map
      (fun packet => packet.record.format) = .ok (some .compressed) := by cbv
  obtain ⟨packet, hpacket, hcompressed⟩ := Reading.map_eq_ok_iff.mp hformat
  rcases decode_kinds {} 0 hheader hcolon hbody hend rfl hdigits (show 'é' ≠ '\n' by decide)
    hname hprintable with ⟨e, herror⟩ | ⟨r, _, _, _, _, _, _, hr⟩
  · cases hpacket.symm.trans (herror (.station true false))
  · cases hpacket.symm.trans (hr (.station true false))
    have hobject := hr .object
    rw [Record.announced, show r.format = some .compressed from hcompressed] at hobject
    exact ⟨r, hcompressed, hpacket, hobject⟩

end Aprs
