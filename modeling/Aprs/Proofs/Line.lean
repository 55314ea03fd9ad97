import Aprs.Line
import Aprs.Proofs.Reading

/-!
One level of a line: when it splits into header, type and content, and what decoding it comes to
once it does.
-/

namespace Aprs.Line

open Reading

variable {options : Options} {now : Int} {levels : Nat} {line content : Text} {header : Header}
  {type : Char}

theorem split_eq_ok_iff :
    split options line = .ok (header, type, content) ↔
      line ≠ [] ∧ ∃ head body, Text.trim isLineEnd line = head ++ ':' :: body ∧ ':' ∉ head ∧
        Header.decode options head = .ok header ∧ splitType? body = some (type, content) ∧
        checkType type content = .ok () := by
  rw [split]
  by_cases hempty : line.isEmpty = true
  · rw [if_pos hempty]
    have hnil : line = [] := List.isEmpty_iff.mp hempty
    constructor
    · intro h
      cases h
    · exact fun h => absurd hnil h.1
  · rw [if_neg hempty]
    have hne : line ≠ [] := fun h => hempty (List.isEmpty_iff.mpr h)
    constructor
    · intro h
      refine ⟨hne, ?_⟩
      split at h
      · cases h
      · next head body hsplit =>
        obtain ⟨htrim, hcolon⟩ := Text.splitFirst?_eq_some_iff.mp hsplit
        obtain ⟨found, hheader, h⟩ := bind_eq_ok_iff.mp h
        split at h
        · cases h
        · next found' rest htype =>
          obtain ⟨_, hcheck, h⟩ := bind_eq_ok_iff.mp h
          cases pure_eq_ok_iff.mp h
          exact ⟨head, body, htrim, hcolon, mapError_eq_ok_iff.mp hheader, htype, hcheck⟩
    · rintro ⟨_, head, body, htrim, hcolon, hheader, htype, hcheck⟩
      rw [Text.splitFirst?_eq_some_iff.mpr ⟨htrim, hcolon⟩]
      refine bind_eq_ok_iff.mpr ⟨header, mapError_eq_ok_iff.mpr hheader, ?_⟩
      rw [htype]
      exact bind_eq_ok_iff.mpr ⟨(), hcheck, rfl⟩

/-- Induction on how deep lines may lie in one another. A line is rejected as it is split, or
reports something itself, or forwards another line, for which a level has to be left. -/
theorem levels_induction (options : Options) {motive : Nat → Text → Prop}
    (rejected : ∀ {levels line e}, split options line = .error e → motive levels line)
    (report : ∀ {levels line header type content},
      split options line = .ok (header, type, content) → type ≠ '\x7d' → motive levels line)
    (tooDeep : ∀ {line header content},
      split options line = .ok (header, '\x7d', content) → motive 0 line)
    (forwarding : ∀ {levels line header content},
      split options line = .ok (header, '\x7d', content) → motive levels content →
      motive (levels + 1) line)
    (levels : Nat) (line : Text) : motive levels line := by
  induction levels generalizing line with
  | zero =>
    cases hsplit : split options line with
    | error e => exact rejected hsplit
    | ok parts =>
      obtain ⟨header, type, content⟩ := parts
      by_cases htype : type = '\x7d'
      · rw [htype] at hsplit
        exact tooDeep hsplit
      · exact report hsplit htype
  | succ levels ih =>
    cases hsplit : split options line with
    | error e => exact rejected hsplit
    | ok parts =>
      obtain ⟨header, type, content⟩ := parts
      by_cases htype : type = '\x7d'
      · rw [htype] at hsplit
        exact forwarding hsplit (ih content)
      · exact report hsplit htype

/-- A source begins with a letter or a digit. -/
theorem exists_cons_of_isSource {source : Text} (h : Callsign.isSource source = true) :
    ∃ c t, source = c :: t ∧ c.isAlphanum = true := by
  rw [Callsign.isSource] at h
  simp only [Bool.and_eq_true, bne_iff_ne, ne_eq] at h
  obtain ⟨⟨⟨_, hne⟩, hbase⟩, _⟩ := h
  obtain ⟨c, base, hparts⟩ := List.exists_cons_of_ne_nil hne
  have hc : c.isAlphanum = true := by
    rw [hparts, List.all_cons, Bool.and_eq_true] at hbase
    exact hbase.1
  rw [Callsign.parts] at hparts
  split at hparts
  · next before after hsplit =>
    obtain ⟨rfl, _⟩ := Text.splitFirst?_eq_some_iff.mp hsplit
    refine ⟨c, base ++ '-' :: after, ?_, hc⟩
    rw [show before = c :: base from hparts, List.cons_append]
  · exact ⟨c, base, hparts, hc⟩

theorem exists_cons_of_header {head : Text} (h : Header.decode options head = .ok header) :
    ∃ c t, head = c :: t ∧ c.isAlphanum = true := by
  rw [Header.decode] at h
  split at h
  · cases h
  · next source route hsplit =>
    split at h
    · cases h
    · next hsource =>
      obtain ⟨rfl, _⟩ := Text.splitFirst?_eq_some_iff.mp hsplit
      rw [Bool.not_eq_true', Bool.not_eq_false] at hsource
      obtain ⟨c, t, rfl, hc⟩ := exists_cons_of_isSource hsource
      exact ⟨c, t ++ '>' :: route, rfl, hc⟩

/-- Characters of a class that has no line ends in it. -/
theorem isLineEnd_eq_false_of_class {holds : Char → Bool} {c : Char} (hreturn : holds '\r' = false)
    (hfeed : holds '\n' = false) (h : holds c = true) : isLineEnd c = false := by
  cases hend : isLineEnd c with
  | false => rfl
  | true =>
    rw [isLineEnd, Bool.or_eq_true, beq_iff_eq, beq_iff_eq] at hend
    rcases hend with rfl | rfl
    · rw [hreturn] at h
      cases h
    · rw [hfeed] at h
      cases h

/-- A line begins with its header, so it is trimmed at its end only. Behind a character which ends
no line, that is done to what follows the character. -/
theorem trim_line (trailing : Text) {head body : Text}
    (hheader : Header.decode options head = .ok header)
    (hend : ∀ c ∈ body.getLast?, isLineEnd c = false) :
    Text.trim isLineEnd (head ++ ':' :: (body ++ trailing)) =
      head ++ ':' :: (body ++ Text.trimEnd isLineEnd trailing) := by
  obtain ⟨c, t, rfl, hc⟩ := exists_cons_of_header hheader
  have hstart : ∀ d ∈ ((c :: t) ++ ':' :: (body ++ trailing)).head?, isLineEnd d = false := by
    intro d hd
    rw [List.cons_append, List.head?_cons, Option.mem_some_iff] at hd
    rw [← hd]
    exact isLineEnd_eq_false_of_class (by decide) (by decide) hc
  have hlast : ∀ d ∈ ((c :: t) ++ ':' :: body).getLast?, isLineEnd d = false := by
    intro d hd
    rw [List.getLast?_append, List.getLast?_cons, Option.some_or, Option.mem_some_iff] at hd
    cases hbody : body.getLast? with
    | none =>
      rw [← hd, hbody]
      decide
    | some b =>
      rw [← hd, hbody]
      exact hend b hbody
  have hassoc : ∀ u, (c :: t) ++ ':' :: (body ++ u) = ((c :: t) ++ ':' :: body) ++ u := by
    intro u
    rw [List.append_assoc]
    rfl
  rw [Text.trim, Text.trimStart_eq_self hstart, hassoc, hassoc, Text.trimEnd_append hlast]

/-- A header without a colon and a body with a type make a line of these parts, unless the content
is refused. -/
theorem split_append_eq_map (trailing : Text) {head body : Text}
    (hheader : Header.decode options head = .ok header) (hcolon : ':' ∉ head)
    (hend : ∀ c ∈ body.getLast?, isLineEnd c = false)
    (htype : splitType? (body ++ Text.trimEnd isLineEnd trailing) = some (type, content)) :
    split options (head ++ ':' :: (body ++ trailing)) =
      (checkType type content).map fun _ => (header, type, content) := by
  have hempty : ¬(head ++ ':' :: (body ++ trailing)).isEmpty = true := by simp
  rw [split, if_neg hempty, trim_line trailing hheader hend,
    Text.splitFirst?_eq_some_iff.mpr ⟨rfl, hcolon⟩]
  dsimp only
  rw [hheader, htype]
  change (checkType type content >>= fun _ => .ok (header, type, content)) = _
  cases checkType type content <;> rfl

theorem split_append_trimEnd (trailing : Text) {head body : Text}
    (hheader : Header.decode options head = .ok header) (hcolon : ':' ∉ head)
    (hend : ∀ c ∈ body.getLast?, isLineEnd c = false)
    (htype : splitType? (body ++ Text.trimEnd isLineEnd trailing) = some (type, content))
    (hcheck : checkType type content = .ok ()) :
    split options (head ++ ':' :: (body ++ trailing)) = .ok (header, type, content) := by
  rw [split_append_eq_map trailing hheader hcolon hend htype, hcheck]
  rfl

theorem split_append {head body : Text} (hheader : Header.decode options head = .ok header)
    (hcolon : ':' ∉ head) (hend : ∀ c ∈ body.getLast?, isLineEnd c = false)
    (htype : splitType? body = some (type, content)) (hcheck : checkType type content = .ok ()) :
    split options (head ++ ':' :: body) = .ok (header, type, content) := by
  have htrimmed : body ++ Text.trimEnd isLineEnd [] = body := List.append_nil body
  have hsplit := split_append_trimEnd [] hheader hcolon hend (by rwa [htrimmed]) hcheck
  rwa [List.append_nil] at hsplit

theorem decodeWithin_of_split_error {e : DecodeError} (h : split options line = .error e) :
    decodeWithin options now levels line = .error e := by
  rw [decodeWithin, h]
  rfl

theorem decodeWithin_of_report (h : split options line = .ok (header, type, content))
    (htype : type ≠ '\x7d') :
    decodeWithin options now levels line =
      (Report.decode now header.destination type content).map fun report =>
        .plain ((blankRecord line header).withReport report) := by
  rw [decodeWithin, h]
  change (if type = '\x7d' then _ else _) = _
  rw [if_neg htype]
  cases Report.decode now header.destination type content <;> rfl

theorem decodeWithin_zero_of_forwarding
    (h : split options line = .ok (header, '\x7d', content)) :
    decodeWithin options now 0 line =
      .error (.thirdPartyTooDeep options.maxThirdPartyDepth) := by
  rw [decodeWithin, h]
  rfl

/-- The record of a line that forwards another one says no more than that. -/
def forwardingRecord (line : Text) (header : Header) : Record Quantity :=
  { blankRecord line header with format := some .thirdParty }

theorem decodeWithin_succ_of_forwarding
    (h : split options line = .ok (header, '\x7d', content)) :
    decodeWithin options now (levels + 1) line =
      (decodeWithin options now levels content).map
        (.forwarding (forwardingRecord line header)) := by
  rw [decodeWithin, h]
  change (decodeWithin options now levels content >>= fun inner => _) = _
  cases decodeWithin options now levels content <;> rfl

/-- What holds of reports, and of forwarded packets as soon as it holds of what they forward, holds
of all that is accepted. -/
theorem decodeWithin_induction {motive : Text → Packet Quantity → Prop}
    (plain : ∀ {line header type content report},
      split options line = .ok (header, type, content) → type ≠ '\x7d' →
      Report.decode now header.destination type content = .ok report →
      motive line (.plain ((blankRecord line header).withReport report)))
    (forwarding : ∀ {line header content inner},
      split options line = .ok (header, '\x7d', content) → motive content inner →
      motive line (.forwarding (forwardingRecord line header) inner))
    {packet : Packet Quantity} (h : decodeWithin options now levels line = .ok packet) :
    motive line packet := by
  induction levels, line using levels_induction options generalizing packet with
  | rejected hsplit =>
    rw [decodeWithin_of_split_error hsplit] at h
    cases h
  | report hsplit htype =>
    rw [decodeWithin_of_report hsplit htype] at h
    obtain ⟨report, hreport, rfl⟩ := map_eq_ok_iff.mp h
    exact plain hsplit htype hreport
  | tooDeep hsplit =>
    rw [decodeWithin_zero_of_forwarding hsplit] at h
    cases h
  | forwarding hsplit ih =>
    rw [decodeWithin_succ_of_forwarding hsplit] at h
    obtain ⟨inner, hinner, rfl⟩ := map_eq_ok_iff.mp h
    exact forwarding hsplit (ih hinner)

end Aprs.Line
