import Aprs.Proofs.Filling
import Aprs.Proofs.Line

/-!
What the clock can change. A line decoded at two instants is accepted at both or at neither: two
packets differ in nothing but the instants that their timestamps name, and two errors only differ
for a body that ends after its timestamp, as the instant decides which of two complaints is made.
-/

namespace Aprs

def Timestamp.untimed (t : Timestamp) : Timestamp := { t with epoch := 0 }

def Position.untimed (p : Position) : Position :=
  { p with timestamp := p.timestamp.map Timestamp.untimed }

/-- A report without the instants in it. -/
def Report.untimed : Report → Report
  | position p => position p.untimed
  | weather w => weather { w with epoch := 0 }
  | status timestamp text => status (timestamp.map Timestamp.untimed) text
  | report => report

def Record.untimed (r : Record Quantity) : Record Quantity := { r with timestamp := 0 }

def Packet.untimed : Packet Quantity → Packet Quantity
  | plain r => plain r.untimed
  | forwarding r p => forwarding r.untimed p.untimed

/-- Two answers to one question: values that are the same, or errors that leak no more than they
may. -/
inductive Agree {ε α : Type} (same : α → α → Prop) (leak : ε → ε → Prop) :
    Except ε α → Except ε α → Prop
  | ok {a b : α} (h : same a b) : Agree same leak (.ok a) (.ok b)
  | error {d e : ε} (h : leak d e) : Agree same leak (.error d) (.error e)

namespace Agree

variable {ε α β : Type} {same : α → α → Prop} {same' : β → β → Prop} {leak leak' : ε → ε → Prop}
  {x y : Except ε α}

theorem of_eq (hsame : ∀ a, same a a) (hleak : ∀ e, leak e e) (x : Except ε α) :
    Agree same leak x x := by
  cases x with
  | ok a => exact .ok (hsame a)
  | error e => exact .error (hleak e)

theorem mono (h : Agree same leak x y) (hleak : ∀ d e, leak d e → leak' d e) :
    Agree same leak' x y := by
  cases h with
  | ok h => exact .ok h
  | error h => exact .error (hleak _ _ h)

theorem map {f g : α → β} (h : Agree same leak x y) (hsame : ∀ a b, same a b → same' (f a) (g b)) :
    Agree same' leak (x.map f) (y.map g) := by
  cases h with
  | ok h => exact .ok (hsame _ _ h)
  | error h => exact .error h

end Agree

/-- Errors at two instants are equal, or the two complaints about a body that ends early. -/
def Leak (early : Prop) (d e : DecodeError) : Prop :=
  d = e ∨ early ∧ (d = .invalidTimestamp ∧ e = .invalidCompressed ∨
    d = .invalidCompressed ∧ e = .invalidTimestamp)

theorem Leak.refl {early : Prop} (e : DecodeError) : Leak early e e := .inl rfl

theorem Leak.mono {early early' : Prop} (h : early → early') {d e : DecodeError}
    (hleak : Leak early d e) : Leak early' d e := by
  rcases hleak with heq | ⟨hearly, hcases⟩
  · exact .inl heq
  · exact .inr ⟨h hearly, hcases⟩

namespace Position

variable {now : Int} {kind : PositionKind} {body rest after : Text}
  {object : Option ObjectHeader} {timestamp : Option Timestamp}

/-- What is left to read after the timestamp. -/
def complete (kind : PositionKind) (object : Option ObjectHeader) (timestamp : Option Timestamp)
    (body : Text) : Except DecodeError Position :=
  if endsEarly timestamp body then .error .invalidTimestamp
  else (takeFix body).map fun (fix, rest) =>
    ⟨kind.messageCapable, object, timestamp, fix, Remark.read fix.symbolCode rest⟩

theorem decode_eq_complete (hobject : takeObject kind body = .ok (object, rest))
    (htimestamp : takeTimestamp now kind rest = .ok (timestamp, after)) :
    decode now kind body = complete kind object timestamp after := by
  rw [decode, hobject]
  change (takeTimestamp now kind rest >>= _) = _
  rw [htimestamp, complete]
  change (if endsEarly timestamp after = true then _ else _) = _
  by_cases hearly : endsEarly timestamp after = true
  · rw [if_pos hearly, if_pos hearly]
    rfl
  · rw [if_neg hearly, if_neg hearly]
    cases takeFix after <;> rfl

theorem decode_of_takeTimestamp_error {e : DecodeError}
    (hobject : takeObject kind body = .ok (object, rest))
    (htimestamp : takeTimestamp now kind rest = .error e) : decode now kind body = .error e := by
  rw [decode, hobject]
  change (takeTimestamp now kind rest >>= _) = _
  rw [htimestamp]
  rfl

/-- Whether there is a timestamp, and where it ends, is up to the text alone. -/
theorem takeTimestamp_cases (kind : PositionKind) (body : Text) :
    (∀ now, takeTimestamp now kind body = .ok (none, body)) ∨
      (∀ now, takeTimestamp now kind body = .error .invalidTimestamp) ∨
      ∃ raw rest, kind.isTimed = true ∧ Timestamp.layout.take? body = some (raw, rest) ∧
        ∀ now, ∃ epoch, takeTimestamp now kind body = .ok (some ⟨raw, epoch⟩, rest) := by
  by_cases htimed : kind.isTimed = true
  · cases hraw : Timestamp.layout.take? body with
    | none =>
      refine .inr (.inl fun now => ?_)
      rw [takeTimestamp, if_pos htimed, Timestamp.take?, hraw]
      rfl
    | some parts =>
      obtain ⟨raw, rest⟩ := parts
      refine .inr (.inr ⟨raw, rest, htimed, rfl, fun now => ?_⟩)
      rw [takeTimestamp, if_pos htimed, Timestamp.take?, hraw]
      exact ⟨_, rfl⟩
  · refine .inl fun now => ?_
    rw [takeTimestamp, if_neg htimed]

/-- Nothing follows the timestamp of the body. -/
def EndsAtTimestamp (kind : PositionKind) (body : Text) : Prop :=
  kind.isTimed = true ∧ ∃ object rest raw, takeObject kind body = .ok (object, rest) ∧
    Timestamp.layout.take? rest = some (raw, [])

/-- The empty rest is rejected either way, but the instant decides for what. -/
theorem complete_nil (kind : PositionKind) (object : Option ObjectHeader)
    (timestamp : Option Timestamp) :
    complete kind object timestamp [] = .error .invalidTimestamp ∨
      complete kind object timestamp [] = .error .invalidCompressed := by
  rw [complete]
  by_cases hearly : endsEarly timestamp [] = true
  · rw [if_pos hearly]
    exact .inl rfl
  · rw [if_neg hearly]
    exact .inr rfl

theorem complete_agree (kind : PositionKind) (object : Option ObjectHeader) (raw : Text)
    (epoch epoch' : Int) {early : Prop} (hearly : body = [] → early) :
    Agree (fun p q : Position => p.untimed = q.untimed) (Leak early)
      (complete kind object (some ⟨raw, epoch⟩) body)
      (complete kind object (some ⟨raw, epoch'⟩) body) := by
  -- Only an empty rest makes the reader look at the instant.
  by_cases hbody : body = []
  · rw [hbody]
    rcases complete_nil kind object (some ⟨raw, epoch⟩) with h | h <;>
      rcases complete_nil kind object (some ⟨raw, epoch'⟩) with h' | h' <;> rw [h, h']
    · exact .error (Leak.refl _)
    · exact .error (.inr ⟨hearly hbody, .inl ⟨rfl, rfl⟩⟩)
    · exact .error (.inr ⟨hearly hbody, .inr ⟨rfl, rfl⟩⟩)
    · exact .error (Leak.refl _)
  · have hmore : ∀ timestamp, endsEarly timestamp body = false := by
      intro timestamp
      rw [endsEarly, List.isEmpty_eq_false_iff.mpr hbody, Bool.false_and]
    rw [complete, complete, hmore, hmore, if_neg Bool.false_ne_true, if_neg Bool.false_ne_true]
    cases takeFix body with
    | error e => exact .error (Leak.refl e)
    | ok parts => exact .ok rfl

theorem decode_agree (now now' : Int) (kind : PositionKind) (body : Text) :
    Agree (fun p q : Position => p.untimed = q.untimed) (Leak (EndsAtTimestamp kind body))
      (decode now kind body) (decode now' kind body) := by
  cases hobject : takeObject kind body with
  | error e =>
    rw [decode, decode, hobject]
    exact .error (Leak.refl e)
  | ok parts =>
    obtain ⟨object, rest⟩ := parts
    rcases takeTimestamp_cases kind rest with hnone | hmissing | ⟨raw, after, htimed, hraw, hsome⟩
    · rw [decode_eq_complete hobject (hnone now), decode_eq_complete hobject (hnone now')]
      refine .of_eq ?_ Leak.refl _
      exact fun _ => rfl
    · rw [decode_of_takeTimestamp_error hobject (hmissing now),
        decode_of_takeTimestamp_error hobject (hmissing now')]
      exact .error (Leak.refl _)
    · obtain ⟨epoch, htimestamp⟩ := hsome now
      obtain ⟨epoch', htimestamp'⟩ := hsome now'
      rw [decode_eq_complete hobject htimestamp, decode_eq_complete hobject htimestamp']
      apply complete_agree
      rintro rfl
      exact ⟨htimed, object, rest, raw, hobject, hraw⟩

end Position

namespace Report

/-- The body is a position report that ends at its timestamp. -/
def EndsAtTimestamp (type : Char) (body : Text) : Prop :=
  ∃ kind, PositionKind.ofChar? type = some kind ∧ Position.EndsAtTimestamp kind body

variable {type : Char} {destination body : Text}

theorem status?_agree (now now' : Int) (body : Text) {early : Prop} :
    Agree (fun report report' : Report => report.untimed = report'.untimed) (Leak early)
      (status? now body) (status? now' body) := by
  unfold status?
  by_cases hlayout : (statusTimeLayout.take? body).isSome = true
  · rw [if_pos hlayout, if_pos hlayout, Timestamp.take?, Timestamp.take?]
    cases Timestamp.layout.take? body with
    | none => exact .error (Leak.refl _)
    | some parts => exact .ok rfl
  · rw [if_neg hlayout, if_neg hlayout]
    exact .ok rfl

theorem decodeUnknown_agree (now now' : Int) (body : Text) {early : Prop} :
    Agree (fun report report' : Report => report.untimed = report'.untimed) (Leak early)
      (decodeUnknown now body) (decodeUnknown now' body) := by
  unfold decodeUnknown
  split
  · split
    · next before after _ _ =>
      have hposition := Position.decode_agree now now' (.station false false) after
      refine (hposition.mono ?_).map fun p q h => congrArg position h
      intro d e hleak
      exact hleak.mono fun hearly => absurd hearly.1 (by decide)
    · exact .ok rfl
  · exact .ok rfl

theorem decode_agree (now now' : Int) (destination : Text) (type : Char) (body : Text) :
    Agree (fun report report' : Report => report.untimed = report'.untimed)
      (Leak (EndsAtTimestamp type body)) (decode now destination type body)
      (decode now' destination type body) := by
  have hsame : ∀ x : Except DecodeError Report,
      Agree (fun report report' : Report => report.untimed = report'.untimed)
        (Leak (EndsAtTimestamp type body)) x x := .of_eq (fun _ => rfl) Leak.refl
  unfold decode
  cases hkind : PositionKind.ofChar? type with
  | some kind =>
    have hposition := Position.decode_agree now now' kind body
    refine (hposition.mono ?_).map fun p q h => congrArg position h
    intro d e hleak
    exact hleak.mono fun hearly => ⟨kind, hkind, hearly⟩
  | none =>
    by_cases hmicE : isMicE type = true
    · simp only [if_pos hmicE]
      exact hsame _
    · simp only [if_neg hmicE]
      split
      · exact hsame _
      · exact hsame _
      · exact status?_agree now now' body
      · exact hsame _
      · unfold WeatherReport.decode?
        cases WeatherReport.required.take? body with
        | none => exact .error (Leak.refl _)
        | some parts => exact .ok rfl
      · exact decodeUnknown_agree now now' body

end Report

namespace Record

variable {line : Text} {header : Header}

/-- Instants only reach the member that is meant for them. -/
theorem untimed_withReport (report : Report) :
    ((Line.blankRecord line header).withReport report).untimed =
      ((Line.blankRecord line header).withReport report.untimed).untimed := by
  cases report with
  | position p =>
    change ((Line.blankRecord line header).withPosition p).untimed =
      ((Line.blankRecord line header).withPosition p.untimed).untimed
    rw [withPosition_blankRecord, withPosition_blankRecord]
    obtain ⟨messageCapable, object, timestamp, fix, remark⟩ := p
    cases timestamp <;> rfl
  | status timestamp text =>
    change _ = ((Line.blankRecord line header).withReport
      (.status (timestamp.map Timestamp.untimed) text)).untimed
    rw [withStatus_blankRecord, withStatus_blankRecord]
    cases timestamp <;> rfl
  | weather w => rfl
  | micE m => rfl
  | message message => rfl
  | userDefined id type body => rfl
  | undecoded body => rfl

end Record

namespace Line

variable {options : Options}

/-- The line reports a body of the type, itself or through lines that it forwards. -/
inductive Carries (options : Options) : Text → Char → Text → Prop
  | report {line : Text} {header : Header} {type : Char} {body : Text}
    (hsplit : split options line = .ok (header, type, body)) (htype : type ≠ '\x7d') :
    Carries options line type body
  | forwarding {line : Text} {header : Header} {inner : Text} {type : Char} {body : Text}
    (hsplit : split options line = .ok (header, '\x7d', inner))
    (hinner : Carries options inner type body) : Carries options line type body

/-- The innermost report of the line is one of a position and ends at its timestamp. -/
def EndsAtTimestamp (options : Options) (line : Text) : Prop :=
  ∃ type body, Carries options line type body ∧ Report.EndsAtTimestamp type body

/-- On the way through the levels nothing is added to what the innermost report tells of the
clock. -/
theorem decodeWithin_agree (options : Options) (now now' : Int) (levels : Nat) (line : Text) :
    Agree (fun p q : Packet Quantity => p.untimed = q.untimed)
      (Leak (EndsAtTimestamp options line)) (decodeWithin options now levels line)
      (decodeWithin options now' levels line) := by
  induction levels, line using levels_induction options with
  | rejected hsplit =>
    rw [decodeWithin_of_split_error hsplit, decodeWithin_of_split_error hsplit]
    exact .error (Leak.refl _)
  | @report levels line header type body hsplit htype =>
    rw [decodeWithin_of_report hsplit htype, decodeWithin_of_report hsplit htype]
    have hreport := Report.decode_agree now now' header.destination type body
    refine (hreport.mono ?_).map ?_
    · intro d e hleak
      exact hleak.mono fun hearly => ⟨type, body, .report hsplit htype, hearly⟩
    · intro report report' hsame
      rw [Packet.untimed, Packet.untimed, Record.untimed_withReport report, hsame,
        ← Record.untimed_withReport report']
  | tooDeep hsplit =>
    rw [decodeWithin_zero_of_forwarding hsplit, decodeWithin_zero_of_forwarding hsplit]
    exact .error (Leak.refl _)
  | forwarding hsplit ih =>
    rw [decodeWithin_succ_of_forwarding hsplit, decodeWithin_succ_of_forwarding hsplit]
    refine (ih.mono ?_).map ?_
    · rintro d e hleak
      refine hleak.mono ?_
      rintro ⟨type, body, hcarries, hearly⟩
      exact ⟨type, body, .forwarding hsplit hcarries, hearly⟩
    · intro p q hsame
      rw [Packet.untimed, Packet.untimed, hsame]

end Line

/-- At two instants a line is accepted or rejected alike. The packets are equal but for instants;
the errors are equal, or the innermost report ends at its timestamp and is rejected for the
timestamp at one instant and for the missing position at the other. -/
theorem decode_clock (options : Options) (now now' : Int) (line : Text) :
    (∃ p q, decode options now line = .ok p ∧ decode options now' line = .ok q ∧
      p.untimed = q.untimed) ∨
    ∃ f g, decode options now line = .error f ∧ decode options now' line = .error g ∧
      (f.error = g.error ∨
        Line.EndsAtTimestamp options line ∧
          (f.error = .invalidTimestamp ∧ g.error = .invalidCompressed ∨
            f.error = .invalidCompressed ∧ g.error = .invalidTimestamp)) := by
  have hagree := Line.decodeWithin_agree options now now' options.maxThirdPartyDepth line
  unfold decode
  generalize Line.decodeWithin options now options.maxThirdPartyDepth line = x at hagree
  generalize Line.decodeWithin options now' options.maxThirdPartyDepth line = y at hagree
  cases hagree with
  | ok hsame => exact .inl ⟨_, _, rfl, rfl, hsame⟩
  | error hleak => exact .inr ⟨_, _, rfl, rfl, hleak⟩

/-- The first day of 1970 begins with the instant zero, which counts as none. -/
example : decode {} 0 "N0CALL>APRS:/010000z".toList =
      .error ⟨"N0CALL>APRS:/010000z".toList, .invalidCompressed⟩ ∧
    decode {} 2678400 "N0CALL>APRS:/010000z".toList =
      .error ⟨"N0CALL>APRS:/010000z".toList, .invalidTimestamp⟩ := by
  constructor
  · cbv
  · cbv

end Aprs
