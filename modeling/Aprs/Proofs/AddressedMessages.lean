import Aprs.Proofs.CommentTags
import Aprs.Proofs.Globe
import Aprs.Proofs.HeaderGrammar

/-!
Messages to one addressee, read back as they were written. A text may hold braces and the words that
open answers; its number is the one behind its last brace, and it is an answer only as a whole.
-/

namespace Aprs

/-- A text is cut at its last mark in one way only. -/
theorem Text.append_cons_inj_of_not_mem {mark : Char} {t u v w : Text} (hu : mark ∉ u)
    (hw : mark ∉ w) (h : t ++ mark :: u = v ++ mark :: w) : t = v ∧ u = w := by
  have hcut : ∀ {t u : Text}, mark ∉ u →
      splitFirst? mark (t ++ mark :: u).reverse = some (u.reverse, t.reverse) := by
    intro t u hu
    exact splitFirst?_eq_some_iff.mpr
      ⟨by simp, fun hmem => hu (List.mem_reverse.mp hmem)⟩
  have hpair := (hcut hu).symm.trans ((congrArg _ (congrArg _ h)).trans (hcut hw))
  simpa [and_comm] using hpair

namespace TelemetryDefs

variable {kind : DefinitionKind} {t values : Text}

/-- A definition is one line that opens with its kind and a point. -/
theorem kind?_eq_some_iff :
    kind? t = some (kind, values) ↔ '\n' ∉ t ∧ t = kind.tag.toList ++ '.' :: values := by
  rw [kind?]
  constructor
  · intro h
    split at h
    · next hline =>
      obtain ⟨found, -, hfound⟩ := List.exists_of_findSome?_eq_some h
      obtain ⟨rest, hdrop, heq⟩ := Option.map_eq_some_iff.mp hfound
      cases heq
      refine ⟨Text.isSingleLine_iff.mp hline, ?_⟩
      rw [Text.dropPrefix?_eq_some hdrop, List.append_assoc, List.singleton_append]
    · cases h
  · rintro ⟨hline, rfl⟩
    rw [if_pos (Text.isSingleLine_iff.mpr hline)]
    cases kind <;> rfl

theorem decode?_of_not_opening
    (h : ∀ opening ∈ ["PARM.", "UNIT.", "EQNS.", "BITS."], ¬opening.toList <+: t) :
    decode? t = .ok none := by
  cases hkind : kind? t with
  | none => rw [decode?, hkind]
  | some found =>
    obtain ⟨kind, values⟩ := found
    obtain ⟨-, rfl⟩ := kind?_eq_some_iff.mp hkind
    cases kind with
    | parm => exact absurd ⟨values, rfl⟩ (h "PARM." (by decide))
    | unit => exact absurd ⟨values, rfl⟩ (h "UNIT." (by decide))
    | eqns => exact absurd ⟨values, rfl⟩ (h "EQNS." (by decide))
    | bits => exact absurd ⟨values, rfl⟩ (h "BITS." (by decide))

end TelemetryDefs

namespace Message

/-- The number of a message, alone or closed by a brace. Behind the brace the number of another
message may be confirmed. -/
inductive Numbers where
  | single (number : Text)
  | closed (number : Text) (acked : Option Text)
  deriving DecidableEq, Repr

namespace Numbers

def text : Numbers → Text
  | single number => number
  | closed number acked => number ++ '\x7d' :: acked.getD []

def number : Numbers → Text
  | single number => number
  | closed number _ => number

def acked? : Numbers → Option Text
  | single _ => none
  | closed _ acked => acked

def IsPair (t : Text) : Prop := t.length = 2 ∧ ∀ c ∈ t, c.isAlphanum = true

def Valid : Numbers → Prop
  | single number => 1 ≤ number.length ∧ number.length ≤ 5 ∧ ∀ c ∈ number, c.isAlphanum = true
  | closed number acked => IsPair number ∧ ∀ other ∈ acked, IsPair other

variable {numbers : Numbers}

theorem isPair_iff {t : Text} :
    IsPair t ↔ ∃ a b, t = [a, b] ∧ a.isAlphanum = true ∧ b.isAlphanum = true := by
  rw [IsPair, List.length_eq_two]
  constructor
  · rintro ⟨⟨a, b, rfl⟩, h⟩
    exact ⟨a, b, rfl, h a (by simp), h b (by simp)⟩
  · rintro ⟨a, b, rfl, ha, hb⟩
    refine ⟨⟨a, b, rfl⟩, ?_⟩
    simp only [List.forall_mem_cons]
    exact ⟨ha, hb, List.forall_mem_nil _⟩

/-- Besides a closing brace, numbers hold letters and digits only. -/
theorem not_mem_text {c : Char} (h : numbers.Valid) (hc : c.isAlphanum = false)
    (hbrace : c ≠ '\x7d') : c ∉ numbers.text := by
  have hpair : ∀ {t : Text}, IsPair t → c ∉ t := fun ht => Text.not_mem_of_all ht.2 hc
  cases numbers with
  | single number => exact Text.not_mem_of_all h.2.2 hc
  | closed number acked =>
    obtain ⟨hnumber, hacked⟩ := h
    rw [text, List.mem_append, List.mem_cons, not_or, not_or]
    refine ⟨hpair hnumber, hbrace, ?_⟩
    cases acked with
    | none => exact List.not_mem_nil
    | some other => exact hpair (hacked other rfl)

/-- So the brace before them is the last opening one of the message. -/
theorem brace_not_mem (h : numbers.Valid) : '\x7b' ∉ numbers.text :=
  not_mem_text h (by decide) (by decide)

theorem text_closed_ne_single {number t : Text} {acked : Option Text} (h : (single t).Valid) :
    (closed number acked).text ≠ t := by
  intro heq
  have hmem : '\x7d' ∈ (closed number acked).text := by simp [text]
  rw [heq] at hmem
  exact Text.not_mem_of_all h.2.2 (by decide) hmem

end Numbers

open Numbers

theorem isNumber_iff {t : Text} : isNumber t = true ↔ (single t).Valid := by
  simp only [isNumber, Bool.and_eq_true, decide_eq_true_eq, List.all_eq_true, and_assoc]
  exact Iff.rfl

theorem replyNumbers?_eq_some_iff {t number : Text} {acked : Option Text} :
    replyNumbers? t = some (number, acked) ↔
      (closed number acked).Valid ∧ t = (closed number acked).text := by
  constructor
  · intro h
    unfold replyNumbers? at h
    split at h
    · next a b rest =>
      split at h
      · next hnumber =>
        rw [Bool.and_eq_true] at hnumber
        have hpair : IsPair [a, b] := isPair_iff.mpr ⟨a, b, rfl, hnumber⟩
        split at h
        · cases h
          exact ⟨⟨hpair, fun other hother => by cases hother⟩, rfl⟩
        · next c d =>
          split at h
          · next hacked =>
            rw [Bool.and_eq_true] at hacked
            cases h
            refine ⟨⟨hpair, fun other hother => ?_⟩, rfl⟩
            cases hother
            exact isPair_iff.mpr ⟨c, d, rfl, hacked⟩
          · cases h
        · cases h
      · cases h
    · cases h
  · rintro ⟨⟨hnumber, hacked⟩, rfl⟩
    obtain ⟨a, b, rfl, ha, hb⟩ := isPair_iff.mp hnumber
    cases acked with
    | none => simp [Numbers.text, replyNumbers?, ha, hb]
    | some other =>
      obtain ⟨c, d, rfl, hc, hd⟩ := isPair_iff.mp (hacked other rfl)
      simp [Numbers.text, replyNumbers?, ha, hb, hc, hd]

theorem responseOf?_eq_some_iff {t rest : Text} {response : Response} :
    responseOf? t = some (response, rest) ↔ t = response.tag.toList ++ rest := by
  constructor
  · intro h
    obtain ⟨found, _, hfound⟩ := List.exists_of_findSome?_eq_some h
    obtain ⟨after, hdrop, heq⟩ := Option.map_eq_some_iff.mp hfound
    cases heq
    exact Text.dropPrefix?_eq_some hdrop
  · rintro rfl
    cases response <;> rfl

theorem reply?_eq_some_iff {t : Text} {content : Content} :
    reply? t = some content ↔
      ∃ (response : Response) (numbers : Numbers), numbers.Valid ∧
        t = response.tag.toList ++ numbers.text ∧
        content = .reply response numbers.number numbers.acked? := by
  rw [reply?, Option.bind_eq_some_iff]
  constructor
  · rintro ⟨⟨response, rest⟩, hresponse, h⟩
    obtain rfl := responseOf?_eq_some_iff.mp hresponse
    dsimp only at h
    split at h
    · next number acked hnumbers =>
      obtain ⟨hvalid, rfl⟩ := replyNumbers?_eq_some_iff.mp hnumbers
      cases h
      exact ⟨response, closed number acked, hvalid, rfl, rfl⟩
    · split at h
      · next hnumber =>
        cases h
        exact ⟨response, single rest, isNumber_iff.mp hnumber, rfl, rfl⟩
      · cases h
  · rintro ⟨response, numbers, hvalid, rfl, rfl⟩
    refine ⟨(response, numbers.text), responseOf?_eq_some_iff.mpr rfl, ?_⟩
    cases numbers with
    | single number =>
      have hopen : replyNumbers? number = none := by
        by_contra hsome
        obtain ⟨⟨other, acked⟩, hclosed⟩ := Option.ne_none_iff_exists'.mp hsome
        exact text_closed_ne_single hvalid (replyNumbers?_eq_some_iff.mp hclosed).2.symm
      dsimp only [Numbers.text]
      rw [hopen, isNumber_iff.mpr hvalid]
      rfl
    | closed number acked =>
      dsimp only
      rw [replyNumbers?_eq_some_iff.mpr ⟨hvalid, rfl⟩]
      rfl

theorem takeReplyTag?_eq_some_iff {t number rest : Text} {acked : Option Text} :
    takeReplyTag? t = some ((number, acked), rest) ↔
      rest = [] ∧ (closed number acked).Valid ∧ t = '\x7b' :: (closed number acked).text := by
  constructor
  · intro h
    unfold takeReplyTag? at h
    split at h
    · obtain ⟨_, hnumbers, heq⟩ := Option.map_eq_some_iff.mp h
      cases heq
      obtain ⟨hvalid, rfl⟩ := replyNumbers?_eq_some_iff.mp hnumbers
      exact ⟨rfl, hvalid, rfl⟩
    · cases h
  · rintro ⟨rfl, hvalid, rfl⟩
    rw [takeReplyTag?, replyNumbers?_eq_some_iff.mpr ⟨hvalid, rfl⟩]
    rfl

theorem takeTag?_eq_some_iff {t number rest : Text} {acked : Option Text} :
    takeTag? t = some ((number, acked), rest) ↔
      rest = [] ∧ acked = none ∧ (single number).Valid ∧ t = '\x7b' :: number := by
  constructor
  · intro h
    unfold takeTag? at h
    split at h
    · split at h
      · next hnumber =>
        cases h
        exact ⟨rfl, rfl, isNumber_iff.mp hnumber, rfl⟩
      · cases h
    · cases h
  · rintro ⟨rfl, rfl, hvalid, rfl⟩
    rw [takeTag?, isNumber_iff.mpr hvalid]
    rfl

/-- Where only a brace with numbers is taken off, it is found at the last brace. -/
theorem leftmost?_brace {take? : Text → Option ((Text × Option Text) × Text)}
    (hbrace : ∀ {t found rest}, take? t = some (found, rest) →
      ∃ numbers : Numbers, numbers.Valid ∧ t = '\x7b' :: numbers.text)
    {t rest : Text} {found : Text × Option Text}
    (htake : take? ('\x7b' :: t) = some (found, rest)) (before : Text) :
    Text.leftmost? take? (before ++ '\x7b' :: t) = some (before, found, rest) := by
  refine Text.leftmost?_append ?_ htake
  intro u v _ hv
  obtain ⟨c, w, rfl⟩ := List.exists_cons_of_ne_nil hv
  by_contra hsome
  obtain ⟨⟨other, after⟩, hother⟩ := Option.ne_none_iff_exists'.mp hsome
  obtain ⟨numbers, hvalid, heq⟩ := hbrace hother
  rw [List.cons_append, List.cons.injEq] at heq
  exact brace_not_mem hvalid (by simp [← heq.2])

/-- The number of a message is what the last brace is followed by. -/
theorem tag?_eq_some_iff {t before number : Text} {acked : Option Text} :
    tag? t = some (before, number, acked) ↔
      ∃ numbers : Numbers, numbers.Valid ∧ t = before ++ '\x7b' :: numbers.text ∧
        number = numbers.number ∧ acked = numbers.acked? := by
  have hreply : ∀ {t found rest}, takeReplyTag? t = some (found, rest) →
      ∃ numbers : Numbers, numbers.Valid ∧ t = '\x7b' :: numbers.text := by
    intro t found rest h
    obtain ⟨_, hvalid, heq⟩ := takeReplyTag?_eq_some_iff.mp h
    exact ⟨_, hvalid, heq⟩
  have hsingle : ∀ {t found rest}, takeTag? t = some (found, rest) →
      ∃ numbers : Numbers, numbers.Valid ∧ t = '\x7b' :: numbers.text := by
    intro t found rest h
    obtain ⟨_, _, hvalid, heq⟩ := takeTag?_eq_some_iff.mp h
    exact ⟨_, hvalid, heq⟩
  rw [tag?, Option.map_eq_some_iff]
  constructor
  · rintro ⟨⟨before', ⟨number', acked'⟩, rest⟩, h, heq⟩
    cases heq
    cases hclosed : Text.leftmost? takeReplyTag? t with
    | some found =>
      rw [hclosed] at h
      cases h
      obtain ⟨rest, rfl, htake⟩ := Text.leftmost?_eq_some hclosed
      obtain ⟨_, hvalid, rfl⟩ := takeReplyTag?_eq_some_iff.mp htake
      exact ⟨closed number acked, hvalid, rfl, rfl, rfl⟩
    | none =>
      rw [hclosed] at h
      obtain ⟨rest, rfl, htake⟩ := Text.leftmost?_eq_some h
      obtain ⟨_, rfl, hvalid, rfl⟩ := takeTag?_eq_some_iff.mp htake
      exact ⟨single number, hvalid, rfl, rfl, rfl⟩
  · rintro ⟨numbers, hvalid, rfl, rfl, rfl⟩
    cases numbers with
    | closed number acked =>
      have hfound := leftmost?_brace hreply
        (takeReplyTag?_eq_some_iff.mpr ⟨rfl, hvalid, rfl⟩) before
      rw [hfound]
      exact ⟨_, rfl, rfl⟩
    | single number =>
      -- Both tags would stand at the last brace, and only one of them has a closing brace.
      have hnone : Text.leftmost? takeReplyTag? (before ++ '\x7b' :: number) = none := by
        rw [Text.leftmost?_eq_none_iff]
        intro u v heq
        by_contra hsome
        obtain ⟨⟨⟨other, acked⟩, rest⟩, hother⟩ := Option.ne_none_iff_exists'.mp hsome
        obtain ⟨_, hclosed, rfl⟩ := takeReplyTag?_eq_some_iff.mp hother
        have hsame := (Text.append_cons_inj_of_not_mem (brace_not_mem hvalid)
          (brace_not_mem hclosed) heq).2
        exact text_closed_ne_single hvalid hsame.symm
      have hfound := leftmost?_brace hsingle
        (takeTag?_eq_some_iff.mpr ⟨rfl, rfl, hvalid, rfl⟩) before
      rw [Numbers.text, hnone, hfound]
      exact ⟨_, rfl, rfl⟩

inductive Body where
  | reply (response : Response) (numbers : Numbers)
  | numbered (text : Text) (numbers : Numbers)
  | plain (text : Text)
  deriving DecidableEq, Repr

/-- A text of one line that does not begin as the definition of telemetry channels does. -/
def IsFree (t : Text) : Prop :=
  '\n' ∉ t ∧ ∀ opening ∈ ["PARM.", "UNIT.", "EQNS.", "BITS."], ¬opening.toList <+: t

namespace Body

def text : Body → Text
  | reply response numbers => response.tag.toList ++ numbers.text
  | numbered text numbers => text ++ '\x7b' :: numbers.text
  | plain text => text

/-- A plain text is none of the others. -/
def Valid : Body → Prop
  | reply _ numbers => numbers.Valid
  | numbered text numbers => IsFree text ∧ numbers.Valid
  | plain text => IsFree text ∧
      (∀ (response : Response) (numbers : Numbers), numbers.Valid →
        text ≠ response.tag.toList ++ numbers.text) ∧
      ∀ (before : Text) (numbers : Numbers), numbers.Valid → text ≠ before ++ '\x7b' :: numbers.text

def response? : Body → Option Response
  | reply response _ => some response
  | _ => none

def numbers? : Body → Option Numbers
  | reply _ numbers => some numbers
  | numbered _ numbers => some numbers
  | plain _ => none

def messageText? : Body → Option Text
  | reply _ _ => none
  | numbered text _ => some (Text.trimSpaces text)
  | plain text => some (Text.trimSpaces text)

def content : Body → Content
  | reply response numbers => .reply response numbers.number numbers.acked?
  | numbered text numbers =>
    .text (Text.trimSpaces text) (some numbers.number) numbers.acked?
  | plain text => .text (Text.trimSpaces text) none none

end Body

variable {body : Body} {address : Text}

theorem reply?_numbered (t : Text) (numbers : Numbers) :
    reply? (t ++ '\x7b' :: numbers.text) = none := by
  by_contra hsome
  obtain ⟨content, hcontent⟩ := Option.ne_none_iff_exists'.mp hsome
  obtain ⟨response, others, hvalid, heq, _⟩ := reply?_eq_some_iff.mp hcontent
  -- An answer has no opening brace in it.
  have hmem : '\x7b' ∈ response.tag.toList ++ others.text := by simp [← heq]
  rcases List.mem_append.mp hmem with htag | htext
  · cases response <;> exact absurd htag (by decide)
  · exact brace_not_mem hvalid htext

theorem content_text (h : body.Valid) : Message.content body.text = body.content := by
  cases body with
  | reply response numbers =>
    rw [Message.content, Body.text, reply?_eq_some_iff.mpr ⟨response, numbers, h, rfl, rfl⟩]
    rfl
  | numbered text numbers =>
    rw [Message.content, Body.text, reply?_numbered,
      tag?_eq_some_iff.mpr ⟨numbers, h.2, rfl, rfl, rfl⟩]
    rfl
  | plain text =>
    obtain ⟨_, hreply, htag⟩ := h
    have hnoReply : reply? text = none := by
      by_contra hsome
      obtain ⟨content, hcontent⟩ := Option.ne_none_iff_exists'.mp hsome
      obtain ⟨response, numbers, hvalid, heq, _⟩ := reply?_eq_some_iff.mp hcontent
      exact hreply response numbers hvalid heq
    have hnoTag : tag? text = none := by
      by_contra hsome
      obtain ⟨⟨before, number, acked⟩, hfound⟩ := Option.ne_none_iff_exists'.mp hsome
      obtain ⟨numbers, hvalid, heq, _⟩ := tag?_eq_some_iff.mp hfound
      exact htag before numbers hvalid heq
    rw [Message.content, Body.text, hnoReply, hnoTag]
    rfl

/-- Numbers are on one line, and neither they nor the words of answers make a definition. -/
theorem isFree_text (h : body.Valid) : IsFree body.text := by
  have hline : ∀ {numbers : Numbers}, numbers.Valid → '\n' ∉ numbers.text :=
    fun hvalid => not_mem_text hvalid (by decide) (by decide)
  cases body with
  | reply response numbers =>
    have htag : '\n' ∉ response.tag.toList ∧ ∀ opening ∈ ["PARM.", "UNIT.", "EQNS.", "BITS."],
        ¬opening.toList <+: response.tag.toList ++ numbers.text := by
      cases response <;> exact ⟨by decide, by simp [Response.tag]⟩
    exact ⟨List.not_mem_append htag.1 (hline h), htag.2⟩
  | numbered text numbers =>
    obtain ⟨⟨htext, hopening⟩, hvalid⟩ := h
    refine ⟨?_, ?_⟩
    · rw [Body.text, List.mem_append, List.mem_cons, not_or, not_or]
      exact ⟨htext, by decide, hline hvalid⟩
    · intro opening hmem hstart
      -- The opening has no brace in it, so it would have to end before the one of the number.
      have hbrace : ∀ opening ∈ ["PARM.", "UNIT.", "EQNS.", "BITS."],
          '\x7b' ∉ opening.toList := by decide
      have hlonger : text ++ ['\x7b'] <+: text ++ '\x7b' :: numbers.text := by simp
      rcases List.prefix_or_prefix_of_prefix hstart hlonger with hshort | hlong
      · rcases List.prefix_concat_iff.mp hshort with heq | hprefix
        · exact hbrace opening hmem (by simp [heq])
        · exact hopening opening hmem hprefix
      · exact hbrace opening hmem (hlong.subset (by simp))
  | plain text => exact h.1

theorem decode?_eq_none {t : Text} (h : IsFree t) : TelemetryDefs.decode? t = .ok none :=
  TelemetryDefs.decode?_of_not_opening h.2

/-- Nine characters of which the first four name neither a bulletin nor an announcement. -/
structure IsAddress (address : Text) : Prop where
  length_eq : address.length = 9
  identifier : ∀ c ∈ address, c.isAlphanum = true ∨ c = '_' ∨ c = ' ' ∨ c = '-'
  bulletin : (address.take 3).map Char.toUpper = "BLN".toList →
    (address.getD 3 ' ').isDigit = false
  announcement : address.take 3 = "BLN".toList → (address.getD 3 ' ').isUpper = false

theorem toUpper_of_eitherCase {upper c : Char} (h : eitherCase upper c = true)
    (hupper : upper.toUpper = upper)
    (hlower : upper.toLower.toUpper = upper) : c.toUpper = upper := by
  rw [eitherCase, Bool.or_eq_true, beq_iff_eq, beq_iff_eq] at h
  rcases h with rfl | rfl
  · exact hupper
  · exact hlower

theorem isIdentifier_iff {c : Char} :
    isIdentifier c = true ↔ c.isAlphanum = true ∨ c = '_' ∨ c = ' ' ∨ c = '-' := by
  simp [isIdentifier, or_assoc]

theorem take?_layouts (h : IsAddress address) (t : Text) :
    bulletinLayout.take? (address ++ ':' :: t) = none ∧
      announcementLayout.take? (address ++ ':' :: t) = none ∧
      addressLayout.take? (address ++ ':' :: t) = some (address ++ [':'], t) := by
  have hcut : address ++ ':' :: t = (address ++ [':']) ++ t := by simp
  have hlength : (address ++ [':']).length = 10 := by simp [h.length_eq]
  obtain ⟨b, l, n, d, rest, rfl⟩ : ∃ b l n d rest, address = b :: l :: n :: d :: rest := by
    match address, h.length_eq with
    | b :: l :: n :: d :: rest, _ => exact ⟨b, l, n, d, rest, rfl⟩
  rw [hcut]
  refine ⟨?_, ?_, ?_⟩
  · rw [← Option.not_isSome_iff_eq_none, Layout.isSome_take?_append_iff hlength]
    rintro ⟨hb, hl, hn, hd, _⟩
    have hname : [b, l, n].map Char.toUpper = "BLN".toList := by
      rw [List.map_cons, toUpper_of_eitherCase hb (by decide) (by decide), List.map_cons,
        toUpper_of_eitherCase hl (by decide) (by decide), List.map_cons,
        toUpper_of_eitherCase hn (by decide) (by decide)]
      rfl
    cases hd.symm.trans (h.bulletin hname)
  · rw [← Option.not_isSome_iff_eq_none, Layout.isSome_take?_append_iff hlength]
    rintro ⟨hb, hl, hn, hd, _⟩
    have hname : [b, l, n] = "BLN".toList := by
      rw [eq_of_beq hb, eq_of_beq hl, eq_of_beq hn]
      rfl
    cases hd.symm.trans (h.announcement hname)
  · have hcolumns : Layout.Fills (Layout.columns 9 isIdentifier) (b :: l :: n :: d :: rest) := by
      exact Layout.fills_columns_iff.mpr
        ⟨h.length_eq, fun c hc => isIdentifier_iff.mpr (h.identifier c hc)⟩
    have hcolon : Layout.Fills (Layout.exactly ':') [':'] := ⟨rfl, trivial⟩
    exact Layout.take?_append (hcolumns.append hcolon) t

/-- Messages to one addressee are read as they were written. -/
theorem decode_addressed (haddress : IsAddress address) (hbody : body.Valid) (line : Text)
    (header : Header) :
    (decode (address ++ ':' :: body.text)).map (Line.blankRecord line header).withMessage =
      .ok { Line.blankRecord line header with
        format := some .message
        addressee := some (Text.trimEndSpaces address)
        response := body.response?
        messageText := body.messageText?
        messageNumber := body.numbers?.map Numbers.number
        ackedNumber := body.numbers?.bind Numbers.acked? } := by
  obtain ⟨hbulletin, hannouncement, htake⟩ := take?_layouts haddress body.text
  have hfree := isFree_text hbody
  have hline : Text.isSingleLine body.text = true := by
    rw [Text.isSingleLine, List.all_eq_true]
    rintro c hc
    rw [bne_iff_ne]
    rintro rfl
    exact hfree.1 hc
  rw [decode, hbulletin, hannouncement, htake]
  dsimp only
  rw [if_pos hline, addressedTo, decode?_eq_none hfree, List.take_left' haddress.length_eq]
  dsimp only [Except.map]
  rw [content_text hbody]
  cases body <;> rfl

/-- Small letters name no announcement, and of three numbers only the last one counts. -/
theorem decode_addressed_look_alike :
    IsAddress "blnQHAM  ".toList ∧
      (Body.numbered "ack\x7b12\x7d \x7b3 ".toList (.closed "AB".toList (some "CD".toList))).Valid ∧
      (decode "blnQHAM  :ack\x7b12\x7d \x7b3 \x7bAB\x7dCD".toList).map
          (Line.blankRecord [] default).withMessage =
        .ok { Line.blankRecord [] default with
          format := some .message
          addressee := some "blnQHAM".toList
          messageText := some "ack\x7b12\x7d \x7b3".toList
          messageNumber := some "AB".toList
          ackedNumber := some "CD".toList } := by
  have hidentifiers : "blnQHAM  ".toList.all isIdentifier = true := by decide
  have haddress : IsAddress "blnQHAM  ".toList := by
    refine ⟨by decide, fun c hc => ?_, by decide, by decide⟩
    simpa [isIdentifier, or_assoc] using List.all_eq_true.mp hidentifiers c hc
  have hpair : ∀ t ∈ ["AB".toList, "CD".toList], IsPair t := by
    intro t ht
    simp only [List.mem_cons, List.not_mem_nil, or_false] at ht
    rcases ht with rfl | rfl <;> exact ⟨by decide, List.all_eq_true.mp (by decide)⟩
  have hbody : (Body.numbered "ack\x7b12\x7d \x7b3 ".toList
      (.closed "AB".toList (some "CD".toList))).Valid := by
    refine ⟨⟨by decide, by decide⟩, hpair _ (by simp), ?_⟩
    intro other hother
    cases hother
    exact hpair _ (by simp)
  have hline : "blnQHAM  :ack\x7b12\x7d \x7b3 \x7bAB\x7dCD".toList =
      "blnQHAM  ".toList ++ ':' :: (Body.numbered "ack\x7b12\x7d \x7b3 ".toList
        (.closed "AB".toList (some "CD".toList))).text := by cbv
  have haddressee : Text.trimEndSpaces "blnQHAM  ".toList = "blnQHAM".toList := by decide
  have htext : Text.trimSpaces "ack\x7b12\x7d \x7b3 ".toList =
      "ack\x7b12\x7d \x7b3".toList := by cbv
  refine ⟨haddress, hbody, ?_⟩
  rw [hline, decode_addressed haddress hbody [] default, haddressee, Body.messageText?, htext]
  rfl

end Message

end Aprs
