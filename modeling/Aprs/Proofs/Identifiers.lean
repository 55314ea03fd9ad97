import Aprs.Proofs.AddressedMessages
import Aprs.Proofs.CommentText

/-!
The identifiers of a message: the addressee, the digit or letter of a bulletin or an announcement,
its group, and the numbers. Each stays in its grammar of ASCII characters but for one. The group of
a bulletin is read without regard to letter case, and two letters from outside ASCII fold to one
inside.
-/

namespace Aprs

namespace Message

variable {least most limit : Nat} {t body field rest address : Text} {m : Message} {c : Char}

/-- A name of letters, digits, underscores, hyphens and spaces, of which none is at its end. -/
structure IsName (least most : Nat) (t : Text) : Prop where
  least_le : least ≤ t.length
  le_most : t.length ≤ most
  identifier : ∀ c ∈ t, c.isAlphanum = true ∨ c = '_' ∨ c = ' ' ∨ c = '-'
  last : ∀ c ∈ t.getLast?, c ≠ ' '

theorem isFoldedIdentifier_iff :
    isFoldedIdentifier c = true ↔ isIdentifier c = true ∨ c = '\u017f' ∨ c = '\u212a' := by
  simp [isFoldedIdentifier, or_assoc]

/-- The two letters are no identifiers, so they are what a folded one may be besides. -/
theorem isIdentifier_iff_of_folded (h : isFoldedIdentifier c = true) :
    isIdentifier c = true ↔ c ≠ '\u017f' ∧ c ≠ '\u212a' := by
  constructor
  · intro hc
    constructor
    · rintro rfl
      exact absurd hc (by decide)
    · rintro rfl
      exact absurd hc (by decide)
  · rintro ⟨hlong, hkelvin⟩
    rcases isFoldedIdentifier_iff.mp h with hc | rfl | rfl
    · exact hc
    · exact absurd rfl hlong
    · exact absurd rfl hkelvin

theorem last_trimEndSpaces (t : Text) : ∀ c ∈ (Text.trimEndSpaces t).getLast?, c ≠ ' ' := by
  rintro c hc rfl
  exact absurd (Text.getLast_trimEnd Text.isSpace t ' ' hc) (by decide)

/-- What is left of a field that an identifier is padded to. -/
theorem isName_trimEndSpaces (hlength : t.length ≤ most)
    (h : ∀ c ∈ t, isIdentifier c = true) : IsName 0 most (Text.trimEndSpaces t) where
  least_le := Nat.zero_le _
  le_most := ((Text.prefix_trimEnd _ t).length_le).trans hlength
  identifier c hc := isIdentifier_iff.mp (h c ((Text.prefix_trimEnd _ t).subset hc))
  last := last_trimEndSpaces t

section Titles

variable {first second third fourth holds : Char → Bool} {b l n id : Char} {g : Text}

/-- Bulletins and announcements begin with four characters of a class each, and a group. -/
def titleLayout (first second third fourth holds : Char → Bool) : Layout :=
  [first, second, third, fourth] ++ Layout.columns 5 holds ++ Layout.exactly ':'

theorem fills_titleLayout_iff :
    Layout.Fills (titleLayout first second third fourth holds) field ↔
      ∃ b l n id g, field = b :: l :: n :: id :: (g ++ [':']) ∧ first b = true ∧ second l = true ∧
        third n = true ∧ fourth id = true ∧ g.length = 5 ∧ ∀ c ∈ g, holds c = true := by
  have hgroup : ∀ u, Layout.Fills (Layout.columns 5 holds ++ Layout.exactly ':') u ↔
      ∃ g, u = g ++ [':'] ∧ g.length = 5 ∧ ∀ c ∈ g, holds c = true := by
    intro u
    rw [Layout.fills_append_iff]
    constructor
    · rintro ⟨g, v, rfl, hg, hv⟩
      rw [Layout.fills_exactly_iff.mp hv]
      exact ⟨g, rfl, Layout.fills_columns_iff.mp hg⟩
    · rintro ⟨g, rfl, hg⟩
      exact ⟨g, [':'], rfl, Layout.fills_columns_iff.mpr hg, Layout.fills_exactly_iff.mpr rfl⟩
  rw [titleLayout, List.append_assoc]
  constructor
  · intro h
    obtain ⟨b, u, rfl, hb, hu⟩ := Layout.fills_cons_iff.mp h
    obtain ⟨l, u, rfl, hl, hu⟩ := Layout.fills_cons_iff.mp hu
    obtain ⟨n, u, rfl, hn, hu⟩ := Layout.fills_cons_iff.mp hu
    obtain ⟨id, u, rfl, hid, hu⟩ := Layout.fills_cons_iff.mp hu
    obtain ⟨g, rfl, hg⟩ := (hgroup u).mp hu
    exact ⟨b, l, n, id, g, rfl, hb, hl, hn, hid, hg⟩
  · rintro ⟨b, l, n, id, g, rfl, hb, hl, hn, hid, hg⟩
    exact ⟨hb, hl, hn, hid, (hgroup _).mpr ⟨g, rfl, hg⟩⟩

theorem group_title (h : g.length = 5) (rest : Text) :
    group (b :: l :: n :: id :: (g ++ [':'])) rest =
      (id, Text.trimEndSpaces g, Text.trimSpaces (Text.firstLine longestText rest)) := by
  have hslice : Text.slice 4 5 (b :: l :: n :: id :: (g ++ [':'])) = g := List.take_left' h
  rw [group, hslice]
  rfl

theorem slice_title (h : g.length = 5) (rest : Text) :
    Text.slice 4 5 (b :: l :: n :: id :: (g ++ [':']) ++ rest) = g := by
  rw [Text.slice]
  change ((g ++ [':']) ++ rest).take 5 = g
  rw [List.append_assoc, List.take_left' h]

end Titles

/-- What can come of a body: the first grammar that takes its start decides. -/
theorem decode_cases (h : decode body = .ok m) :
    (∃ field rest, bulletinLayout.take? body = some (field, rest) ∧
        m = .bulletin (group field rest).1 (group field rest).2.1 (group field rest).2.2) ∨
      (∃ field rest, announcementLayout.take? body = some (field, rest) ∧
        m = .announcement (group field rest).1 (group field rest).2.1 (group field rest).2.2) ∨
      (∃ field rest content, addressLayout.take? body = some (field, rest) ∧
        ((∃ defs, content = .definition defs) ∨ content = Message.content rest) ∧
        m = .addressed (Text.trimEndSpaces (field.take 9)) content) ∨
      m = .unaddressed := by
  unfold decode at h
  split at h
  · next field rest htake =>
    cases h
    exact .inl ⟨field, rest, htake, rfl⟩
  · split at h
    · next field rest htake =>
      cases h
      exact .inr (.inl ⟨field, rest, htake, rfl⟩)
    · split at h
      · next field rest htake =>
        split at h
        · obtain ⟨defs?, -, hm⟩ := Reading.map_eq_ok_iff.mp h
          cases defs? with
          | some defs => exact .inr (.inr (.inl ⟨field, rest, _, htake, .inl ⟨defs, rfl⟩, hm.symm⟩))
          | none => exact .inr (.inr (.inl ⟨field, rest, _, htake, .inr rfl, hm.symm⟩))
        · cases h
          exact .inr (.inr (.inr rfl))
      · cases h
        exact .inr (.inr (.inr rfl))

namespace Content

def number? : Content → Option Text
  | definition _ => none
  | reply _ number _ => some number
  | text _ number _ => number

def acked? : Content → Option Text
  | definition _ => none
  | reply _ _ acked => acked
  | text _ _ acked => acked

end Content

theorem Numbers.number_spec {numbers : Numbers} (h : numbers.Valid) :
    1 ≤ numbers.number.length ∧ numbers.number.length ≤ 5 ∧
      (∀ c ∈ numbers.number, c.isAlphanum = true) ∧
      ∀ other ∈ numbers.acked?, Numbers.IsPair other := by
  cases numbers with
  | single number => exact ⟨h.1, h.2.1, h.2.2, by rintro other hother; cases hother⟩
  | closed number acked =>
    obtain ⟨⟨hlength, hall⟩, hacked⟩ := h
    rw [Numbers.number, hlength]
    exact ⟨by decide, by decide, hall, hacked⟩

/-- Whatever the numbers of a text are, they were read as such. -/
theorem exists_numbers_of_content (t : Text) :
    (Message.content t).number? = none ∧ (Message.content t).acked? = none ∨
      ∃ numbers : Numbers, numbers.Valid ∧ (Message.content t).number? = some numbers.number ∧
        (Message.content t).acked? = numbers.acked? := by
  unfold Message.content
  split
  · next reply hreply =>
    obtain ⟨response, numbers, hvalid, -, rfl⟩ := reply?_eq_some_iff.mp hreply
    exact .inr ⟨numbers, hvalid, rfl, rfl⟩
  · split
    · next before number acked htag =>
      obtain ⟨numbers, hvalid, -, rfl, rfl⟩ := tag?_eq_some_iff.mp htag
      exact .inr ⟨numbers, hvalid, rfl, rfl⟩
    · exact .inl ⟨rfl, rfl⟩

/-- The identifiers of a record that was filled from a body. A group is in its grammar unless one of
the two letters that fold to others stands in its five columns, and that is a bulletin's. -/
structure Identified (body : Text) (r : Record Quantity) : Prop where
  bulletin : ∀ t ∈ r.bulletinId, ∃ c, t = [c] ∧ c.isDigit = true
  announcement : ∀ t ∈ r.announcementId, ∃ c, t = [c] ∧ c.isUpper = true
  addressee : ∀ t ∈ r.addressee, IsName 0 9 t
  number : ∀ t ∈ r.messageNumber, 1 ≤ t.length ∧ t.length ≤ 5 ∧ ∀ c ∈ t, c.isAlphanum = true
  acked : ∀ t ∈ r.ackedNumber, t.length = 2 ∧ ∀ c ∈ t, c.isAlphanum = true
  group : ∀ t ∈ r.groupIdentifier,
    1 ≤ t.length ∧ t.length ≤ 5 ∧ (∀ c ∈ t.getLast?, c ≠ ' ') ∧
      (∀ c ∈ t, c.isAlphanum = true ∨ c = '_' ∨ c = ' ' ∨ c = '-' ∨
        r.bulletinId.isSome = true ∧ (c = '\u017f' ∨ c = '\u212a')) ∧
      (IsName 1 5 t ↔ '\u017f' ∉ Text.slice 4 5 body ∧ '\u212a' ∉ Text.slice 4 5 body)

theorem mem_nonEmpty_iff {g : Text} : t ∈ Record.nonEmpty g ↔ g ≠ [] ∧ t = g := by
  cases g with
  | nil => simp [Record.nonEmpty]
  | cons c g => simp [Record.nonEmpty, eq_comm]

theorem folded_of_isIdentifier (h : isIdentifier c = true) : isFoldedIdentifier c = true :=
  isFoldedIdentifier_iff.mpr (.inl h)

theorem group_spec {g : Text} (hlength : g.length = 5)
    (h : ∀ c ∈ g, isFoldedIdentifier c = true)
    (ht : t ∈ Record.nonEmpty (Text.trimEndSpaces g)) :
    1 ≤ t.length ∧ t.length ≤ 5 ∧ (∀ c ∈ t.getLast?, c ≠ ' ') ∧ (∀ c ∈ t, c ∈ g) ∧
      (IsName 1 5 t ↔ '\u017f' ∉ g ∧ '\u212a' ∉ g) := by
  obtain ⟨hne, rfl⟩ := mem_nonEmpty_iff.mp ht
  have hpos : 1 ≤ (Text.trimEndSpaces g).length := List.length_pos_iff.mpr hne
  have hle : (Text.trimEndSpaces g).length ≤ 5 :=
    hlength ▸ (Text.prefix_trimEnd Text.isSpace g).length_le
  have hmem : ∀ c ∈ Text.trimEndSpaces g, c ∈ g :=
    fun c hc => (Text.prefix_trimEnd Text.isSpace g).subset hc
  refine ⟨hpos, hle, last_trimEndSpaces g, hmem, ?_⟩
  constructor
  · intro hname
    have hnot : ∀ c, isIdentifier c = false → c ∉ g := by
      intro c hc hcg
      have hspace : Text.isSpace c = false := by
        by_contra hspace
        rw [Bool.not_eq_false, Text.isSpace, beq_iff_eq] at hspace
        rw [hspace] at hc
        cases hc
      have hidentifier := isIdentifier_iff.mpr
        (hname.identifier c ((Text.mem_trimEnd_iff hspace).mpr hcg))
      rw [hc] at hidentifier
      cases hidentifier
    exact ⟨hnot _ (by decide), hnot _ (by decide)⟩
  · rintro ⟨hlong, hkelvin⟩
    refine ⟨hpos, hle, fun c hc => ?_, last_trimEndSpaces g⟩
    have hcg := hmem c hc
    refine isIdentifier_iff.mp ((isIdentifier_iff_of_folded (h c hcg)).mpr ⟨?_, ?_⟩)
    · rintro rfl
      exact hlong hcg
    · rintro rfl
      exact hkelvin hcg

theorem identified_bulletin (htake : bulletinLayout.take? body = some (field, rest))
    (line : Text) (header : Header) :
    Identified body ((Line.blankRecord line header).withMessage
      (.bulletin (group field rest).1 (group field rest).2.1 (group field rest).2.2)) := by
  obtain ⟨rfl, hfills⟩ := Layout.take?_eq_some_iff.mp htake
  obtain ⟨b, l, n, id, g, rfl, -, -, -, hid, hlength, hall⟩ := fills_titleLayout_iff.mp hfills
  rw [group_title hlength]
  constructor
  case bulletin =>
    rintro t ht
    cases ht
    exact ⟨id, rfl, hid⟩
  case group =>
    intro t ht
    obtain ⟨hpos, hle, hlast, hmem, hname⟩ := group_spec hlength hall ht
    rw [slice_title hlength]
    refine ⟨hpos, hle, hlast, fun c hc => ?_, hname⟩
    rcases isFoldedIdentifier_iff.mp (hall c (hmem c hc)) with hidentifier | hfolded
    · have hcases := isIdentifier_iff.mp hidentifier
      tauto
    · exact .inr (.inr (.inr (.inr ⟨rfl, hfolded⟩)))
  all_goals
    rintro t ht
    cases ht

theorem identified_announcement (htake : announcementLayout.take? body = some (field, rest))
    (line : Text) (header : Header) :
    Identified body ((Line.blankRecord line header).withMessage
      (.announcement (group field rest).1 (group field rest).2.1 (group field rest).2.2)) := by
  obtain ⟨rfl, hfills⟩ := Layout.take?_eq_some_iff.mp htake
  obtain ⟨b, l, n, id, g, rfl, -, -, -, hid, hlength, hall⟩ := fills_titleLayout_iff.mp hfills
  rw [group_title hlength]
  constructor
  case announcement =>
    rintro t ht
    cases ht
    exact ⟨id, rfl, hid⟩
  case group =>
    intro t ht
    obtain ⟨hpos, hle, hlast, hmem, hname⟩ :=
      group_spec hlength (fun c hc => folded_of_isIdentifier (hall c hc)) ht
    rw [slice_title hlength]
    refine ⟨hpos, hle, hlast, fun c hc => ?_, hname⟩
    have hcases := isIdentifier_iff.mp (hall c (hmem c hc))
    tauto
  all_goals
    rintro t ht
    cases ht

theorem withMessage_addressed {line addressee : Text} {header : Header} {content : Content}
    {r : Record Quantity}
    (h : r = (Line.blankRecord line header).withMessage (.addressed addressee content)) :
    r.addressee = some addressee ∧ r.messageNumber = content.number? ∧
      r.ackedNumber = content.acked? ∧ r.bulletinId = none ∧ r.announcementId = none ∧
      r.groupIdentifier = none := by
  subst h
  cases content <;> exact ⟨rfl, rfl, rfl, rfl, rfl, rfl⟩

theorem identified_addressed {content : Content}
    (htake : addressLayout.take? body = some (field, rest))
    (hcontent : (∃ defs, content = .definition defs) ∨ content = Message.content t)
    (line : Text) (header : Header) :
    Identified body ((Line.blankRecord line header).withMessage
      (.addressed (Text.trimEndSpaces (field.take 9)) content)) := by
  obtain ⟨record, hrecord⟩ : ∃ r, r = (Line.blankRecord line header).withMessage
      (.addressed (Text.trimEndSpaces (field.take 9)) content) := ⟨_, rfl⟩
  obtain ⟨haddressee, hnumber, hacked, hbulletin, hannouncement, hgroup⟩ :=
    withMessage_addressed hrecord
  rw [← hrecord]
  have hnumbers : content.number? = none ∧ content.acked? = none ∨
      ∃ numbers : Numbers, numbers.Valid ∧ content.number? = some numbers.number ∧
        content.acked? = numbers.acked? := by
    rcases hcontent with ⟨defs, rfl⟩ | rfl
    · exact .inl ⟨rfl, rfl⟩
    · exact exists_numbers_of_content t
  constructor
  case addressee =>
    intro u hu
    rw [haddressee] at hu
    cases hu
    obtain ⟨-, hfills⟩ := Layout.take?_eq_some_iff.mp htake
    obtain ⟨address, v, rfl, haddress, -⟩ := Layout.fills_append_iff.mp hfills
    obtain ⟨hlength, hall⟩ := Layout.fills_columns_iff.mp haddress
    rw [List.take_left' hlength]
    exact isName_trimEndSpaces hlength.le hall
  case number =>
    intro u hu
    rw [hnumber] at hu
    rcases hnumbers with ⟨hnone, -⟩ | ⟨numbers, hvalid, hsome, -⟩
    · rw [hnone] at hu
      cases hu
    · rw [hsome] at hu
      cases hu
      obtain ⟨hpos, hle, hall, -⟩ := Numbers.number_spec hvalid
      exact ⟨hpos, hle, hall⟩
  case acked =>
    intro u hu
    rw [hacked] at hu
    rcases hnumbers with ⟨-, hnone⟩ | ⟨numbers, hvalid, -, hsome⟩
    · rw [hnone] at hu
      cases hu
    · rw [hsome] at hu
      exact (Numbers.number_spec hvalid).2.2.2 u hu
  case bulletin =>
    intro u hu
    rw [hbulletin] at hu
    cases hu
  case announcement =>
    intro u hu
    rw [hannouncement] at hu
    cases hu
  case group =>
    intro u hu
    rw [hgroup] at hu
    cases hu

/-- Identifiers are of ASCII characters, in the number that their field has room for, and end in no
space; only a bulletin's group may hold the long s or the kelvin sign, and does just where one of
them was sent. -/
theorem identified_withMessage (h : decode body = .ok m) (line : Text) (header : Header) :
    Identified body ((Line.blankRecord line header).withMessage m) := by
  rcases decode_cases h with ⟨field, rest, htake, rfl⟩ | ⟨field, rest, htake, rfl⟩ |
    ⟨field, rest, content, htake, hcontent, rfl⟩ | rfl
  · exact identified_bulletin htake line header
  · exact identified_announcement htake line header
  · exact identified_addressed htake hcontent line header
  · constructor <;> (rintro t ht; cases ht)

/-- A group with a sign for kelvin, a space inside and one at its end. -/
theorem identified_withMessage_kelvin :
    decode "bln7K _\u212a :12".toList = .ok (.bulletin '7' "K _\u212a".toList "12".toList) ∧
      Identified "bln7K _\u212a :12".toList ((Line.blankRecord [] default).withMessage
        (.bulletin '7' "K _\u212a".toList "12".toList)) := by
  have hdecode : decode "bln7K _\u212a :12".toList =
      .ok (.bulletin '7' "K _\u212a".toList "12".toList) := by decide
  exact ⟨hdecode, identified_withMessage hdecode [] default⟩

/-- The long s is taken into a group as it was sent, and is no ASCII letter. -/
theorem group_of_long_s :
    decode "BLN1\u017f    :x".toList = .ok (.bulletin '1' ['\u017f'] ['x']) ∧
      ((Line.blankRecord [] default).withMessage
        (.bulletin '1' ['\u017f'] ['x'])).groupIdentifier = some ['\u017f'] ∧
      ¬IsName 1 5 ['\u017f'] := by
  refine ⟨by decide, rfl, fun h => ?_⟩
  exact absurd (h.identifier '\u017f' (List.mem_singleton_self _)) (by decide)

end Message

end Aprs
