import Aprs.Json.Reader
import Aprs.Json.Writer
import Aprs.Proofs.ExactValues

/-!
Documents survive their text. The two layouts of the writer differ in the blanks that they put
before an item and after a colon; with blanks of any kind there, the reader gives back the document
that was written and stops where its text ends.
-/

namespace Aprs

namespace Text

theorem natOfDigits_toDigits (n : Nat) : natOfDigits (Nat.toDigits 10 n) = n := by
  rw [natOfDigits]
  exact Nat.ofDigitChars_ten_toDigits

theorem isDigit_of_mem_toDigits {n : Nat} {c : Char} (h : c ∈ Nat.toDigits 10 n) :
    c.isDigit = true :=
  Nat.isDigit_of_mem_toDigits (by decide) (by decide) h

end Text

namespace Json

/-- The numbers that the writer makes have digits only after the point; a document with an
unreadable string in it has no text. -/
inductive Legible : Json → Prop where
  | null : Legible null
  | bool (b : Bool) : Legible (bool b)
  | number {n : JsonNumber} (h : ∀ c ∈ n.fraction, c.isDigit = true) : Legible (number n)
  | string (t : Text) : Legible (string t)
  | array {items : List Json} (h : ∀ item ∈ items, Legible item) : Legible (array items)
  | object {members : List (Text × Json)} (h : ∀ member ∈ members, Legible member.2) :
    Legible (object members)

section Numbers

/-- Characters that go on with a number after which they stand. -/
def extendsNumber (c : Char) : Bool := c.isDigit || c == '.' || c == 'e' || c == 'E'

/-- What may follow a value: no character that a number in front of it would take up. -/
def Follows (rest : Text) : Prop := ∀ c ∈ rest.head?, extendsNumber c = false

variable {rest : Text}

theorem Follows.isDigit_eq_false (h : Follows rest) : ∀ c ∈ rest.head?, c.isDigit = false := by
  intro c hc
  have hext := h c hc
  simp only [extendsNumber, Bool.or_eq_false_iff] at hext
  exact hext.1.1.1

/-- The only numeral that begins with a zero is that of zero. -/
theorem toDigits_eq_zero_cons {n : Nat} {t : Text} (h : Nat.toDigits 10 n = '0' :: t) : t = [] := by
  induction n using Nat.strongRecOn generalizing t with
  | ind n ih =>
    by_cases hn : n < 10
    · rw [Nat.toDigits_of_lt_base hn] at h
      exact (List.cons.inj h).2.symm
    · rw [Nat.toDigits_of_base_le (by decide) (by omega)] at h
      obtain ⟨c, u, hu⟩ := List.exists_cons_of_ne_nil (Nat.toDigits_ne_nil (n := n / 10) (b := 10))
      rw [hu, List.cons_append] at h
      obtain ⟨rfl, -⟩ := List.cons.inj h
      have hnil := ih (n / 10) (by omega) hu
      subst hnil
      have hzero : n / 10 = 0 := by
        rw [← Text.natOfDigits_toDigits (n / 10), hu]
        rfl
      omega

theorem readWhole_toDigits (n : Nat) (h : ∀ c ∈ rest.head?, c.isDigit = false) :
    readWhole (Nat.toDigits 10 n ++ rest) = some (n, rest) := by
  obtain ⟨htake, hdrop⟩ := Text.span_append rest (fun c hc => Text.isDigit_of_mem_toDigits hc) h
  have hvalue := Text.natOfDigits_toDigits n
  rw [readWhole, htake, hdrop]
  split
  · next hnil => exact absurd hnil Nat.toDigits_ne_nil
  · next hzero =>
    rw [hzero] at hvalue
    rw [← hvalue]
    rfl
  · next hne heq => exact absurd (toDigits_eq_zero_cons heq) hne
  · rw [hvalue]

theorem readExponentDigits_toDigits (negative : Bool) (n : Nat)
    (h : ∀ c ∈ rest.head?, c.isDigit = false) :
    readExponentDigits negative (Nat.toDigits 10 n ++ rest) =
      some (some (if negative then -(n : Int) else n), rest) := by
  obtain ⟨htake, hdrop⟩ := Text.span_append rest (fun c hc => Text.isDigit_of_mem_toDigits hc) h
  rw [readExponentDigits, htake, hdrop, Text.natOfDigits_toDigits,
    if_neg (by simp [Nat.toDigits_ne_nil])]

theorem readExponent_text (e : Option Int) (h : Follows rest) :
    readExponent ((e.elim [] fun e => 'e' :: JsonNumber.exponentText e) ++ rest) =
      some (e, rest) := by
  cases e with
  | none =>
    cases rest with
    | nil => rfl
    | cons c rest =>
      have hc := h c rfl
      simp only [extendsNumber, Bool.or_eq_false_iff] at hc
      simp [readExponent, hc.1.2, hc.2]
  | some e =>
    have hdigits (negative : Bool) :=
      readExponentDigits_toDigits negative e.natAbs h.isDigit_eq_false
    by_cases he : 0 ≤ e
    · have habs : (e.natAbs : Int) = e := by omega
      have htext : JsonNumber.exponentText e = '+' :: Nat.toDigits 10 e.natAbs := by
        rw [JsonNumber.exponentText, if_pos he, Decimal.intText, Decimal.signed,
          if_neg (by simpa using he)]
      have hread := hdigits false
      rw [if_neg (by decide), habs] at hread
      simpa [htext, readExponent] using hread
    · have habs : -(e.natAbs : Int) = e := by omega
      have htext : JsonNumber.exponentText e = '-' :: Nat.toDigits 10 e.natAbs := by
        rw [JsonNumber.exponentText, if_neg he, Decimal.intText, Decimal.signed,
          if_pos (by simpa using he)]
      have hread := hdigits true
      rw [if_pos rfl, habs] at hread
      simpa [htext, readExponent] using hread

theorem readFraction_text {fraction : Text} (hdigits : ∀ c ∈ fraction, c.isDigit = true)
    (h : ∀ c ∈ rest.head?, c.isDigit = false ∧ c ≠ '.') :
    readFraction ((if fraction.isEmpty then [] else '.' :: fraction) ++ rest) =
      some (fraction, rest) := by
  cases fraction with
  | nil =>
    cases rest with
    | nil => rfl
    | cons c rest => simp [readFraction, (h c rfl).2]
  | cons d fraction =>
    obtain ⟨htake, hdrop⟩ := Text.span_append rest hdigits fun c hc => (h c hc).1
    rw [if_neg (by simp), List.cons_append, readFraction, htake, hdrop]
    rfl

theorem exists_toDigits_eq_cons (n : Nat) :
    ∃ c t, Nat.toDigits 10 n = c :: t ∧ c.isDigit = true := by
  obtain ⟨c, t, ht⟩ := List.exists_cons_of_ne_nil (Nat.toDigits_ne_nil (n := n) (b := 10))
  exact ⟨c, t, ht, Text.isDigit_of_mem_toDigits (n := n) (by rw [ht]; exact List.mem_cons_self)⟩

def startsNumber (c : Char) : Bool := c == '-' || c.isDigit

theorem ne_of_startsNumber {c d : Char} (hc : startsNumber c = true) (hd : startsNumber d = false) :
    c ≠ d := by
  rintro rfl
  rw [hc] at hd
  cases hd

theorem isBlank_of_startsNumber {c : Char} (h : startsNumber c = true) : isBlank c = false := by
  simp only [isBlank, Bool.or_eq_false_iff, beq_eq_false_iff_ne]
  refine ⟨⟨⟨?_, ?_⟩, ?_⟩, ?_⟩ <;> exact ne_of_startsNumber h rfl

theorem exists_text_eq_cons (n : JsonNumber) :
    ∃ c t, n.text = c :: t ∧ startsNumber c = true := by
  obtain ⟨c, t, hdigits, hc⟩ := exists_toDigits_eq_cons n.whole
  rw [JsonNumber.text, Decimal.signed, hdigits]
  cases n.negative with
  | true => exact ⟨_, _, rfl, rfl⟩
  | false => exact ⟨_, _, rfl, by rw [startsNumber, hc, Bool.or_true]⟩

theorem readNumber_text {n : JsonNumber} (hn : ∀ c ∈ n.fraction, c.isDigit = true)
    (h : Follows rest) : readNumber (n.text ++ rest) = some (n, rest) := by
  obtain ⟨negative, whole, fraction, exponent⟩ := n
  set exponentText : Text := exponent.elim [] fun e => 'e' :: JsonNumber.exponentText e with he
  set fractionText : Text := if fraction.isEmpty then [] else '.' :: fraction with hf
  have hexponentHead : ∀ c ∈ (exponentText ++ rest).head?, c.isDigit = false ∧ c ≠ '.' := by
    intro c hc
    cases exponent with
    | none =>
      have hext := h c hc
      simp only [extendsNumber, Bool.or_eq_false_iff, beq_eq_false_iff_ne] at hext
      exact ⟨hext.1.1.1, hext.1.1.2⟩
    | some e =>
      obtain rfl : 'e' = c := Option.some.inj hc
      decide
  have hfractionHead : ∀ c ∈ (fractionText ++ (exponentText ++ rest)).head?, c.isDigit = false := by
    intro c hc
    cases fraction with
    | nil => exact (hexponentHead c hc).1
    | cons d fraction =>
      obtain rfl : '.' = c := Option.some.inj hc
      decide
  have hfraction : readFraction (fractionText ++ (exponentText ++ rest)) =
      some (fraction, exponentText ++ rest) := readFraction_text hn hexponentHead
  have hexponent : readExponent (exponentText ++ rest) = some (exponent, rest) :=
    readExponent_text exponent h
  have hunsigned : readUnsigned negative
      (Nat.toDigits 10 whole ++ (fractionText ++ (exponentText ++ rest))) =
        some (⟨negative, whole, fraction, exponent⟩, rest) := by
    simp only [readUnsigned, readWhole_toDigits whole hfractionHead, hfraction, hexponent,
      Option.bind_eq_bind, Option.bind_some]
    rfl
  simp only [JsonNumber.text, ← he, ← hf, List.append_assoc]
  cases negative with
  | true => exact hunsigned
  | false =>
    obtain ⟨c, digits, hdigits, hc⟩ := exists_toDigits_eq_cons whole
    rw [Decimal.signed, if_neg (by decide), readNumber]
    · exact hunsigned
    · intro t ht
      rw [hdigits, List.cons_append] at ht
      obtain ⟨rfl, -⟩ := List.cons.inj ht
      exact absurd hc (by decide)

end Numbers

section Strings

/-- Control characters without a letter of their own are written with four digits. -/
theorem hex?_paddedHex : ∀ n < 32, ∃ a b c d, Decimal.paddedHex 4 n = [a, b, c, d] ∧
    hex? a b c d = some n ∧ unitOf n = .char (Char.ofNat n) := by
  have hsome : ∀ n < 32, (hex? '0' '0' ((Decimal.paddedHex 4 n).getD 2 ' ')
      ((Decimal.paddedHex 4 n).getD 3 ' ') = some n) ∧ Decimal.paddedHex 4 n =
        ['0', '0', (Decimal.paddedHex 4 n).getD 2 ' ', (Decimal.paddedHex 4 n).getD 3 ' '] ∧
          unitOf n = .char (Char.ofNat n) := by
    decide
  intro n hn
  obtain ⟨hhex, htext, hunit⟩ := hsome n hn
  exact ⟨_, _, _, _, htext, hhex, hunit⟩

/-- What stands for a character in a string is read as that character. -/
theorem readUnits_escape {c : Char} {t rest : Text} {units : List Unit16}
    (h : readUnits t = some (units, rest)) :
    readUnits (escape c ++ t) = some (.char c :: units, rest) := by
  fun_cases escape c
  case case8 hcontrol =>
    obtain ⟨a, b, d, e, htext, hhex, hunit⟩ := hex?_paddedHex c.toNat hcontrol
    simp only [htext, List.cons_append, List.nil_append, readUnits, hhex, h, hunit,
      Option.bind_eq_bind, Option.bind_some, Char.ofNat_toNat]
    rfl
  case case9 hquote hbackslash _ _ _ _ _ hplain =>
    rw [List.singleton_append, readUnits, if_neg hplain, h]
    · rfl
    · exact hquote
    · exact fun _ _ _ _ _ hc _ => hbackslash hc
    · exact fun _ _ hc _ => hbackslash hc
  all_goals simp [readUnits, unescape?, h]

theorem readUnits_flatMap_escape (t rest : Text) :
    readUnits (t.flatMap escape ++ '"' :: rest) = some (t.map .char, rest) := by
  induction t with
  | nil => rfl
  | cons c t ih =>
    rw [List.flatMap_cons, List.append_assoc, readUnits_escape ih, List.map_cons]

theorem textOf?_map_char (t : Text) : textOf? (t.map .char) = some t := by
  induction t with
  | nil => rfl
  | cons c t ih => rw [List.map_cons, textOf?, ih, Option.map_some]

theorem readString_quote (t rest : Text) :
    readString (t.flatMap escape ++ '"' :: rest) = some (some t, rest) := by
  rw [readString, readUnits_flatMap_escape]
  exact congrArg (fun text => some (text, rest)) (textOf?_map_char t)

end Strings

/-- Blanks that spread a document out: before an item, a member or the bracket after the last at a
level, and after a colon. -/
structure Spacing where
  line : Nat → Text
  gap : Text
  isBlank_of_mem_line : ∀ level, ∀ c ∈ line level, isBlank c = true
  isBlank_of_mem_gap : ∀ c ∈ gap, isBlank c = true

namespace Spacing

def none : Spacing where
  line _ := []
  gap := []
  isBlank_of_mem_line _ _ h := absurd h List.not_mem_nil
  isBlank_of_mem_gap _ h := absurd h List.not_mem_nil

def lines : Spacing where
  line := newLine
  gap := [' ']
  isBlank_of_mem_line level c h := by
    rw [newLine, List.mem_cons, List.mem_replicate] at h
    obtain rfl | ⟨-, rfl⟩ := h <;> decide
  isBlank_of_mem_gap c h := by
    rw [List.mem_singleton] at h
    subst h
    decide

end Spacing

mutual

/-- The text of a document with blanks in it. -/
def laidOut (s : Spacing) (level : Nat) : Json → Text
  | null | unreadable => "null".toList
  | bool b => boolText b
  | number n => n.text
  | string t => quote t
  | array [] => ['[', ']']
  | array (item :: items) =>
    '[' :: (s.line (level + 1) ++ (laidOut s (level + 1) item ++ laidOutItems s level items))
  | object [] => ['\x7b', '\x7d']
  | object ((name, value) :: members) =>
    '\x7b' :: (s.line (level + 1) ++ (quote name ++ ':' :: (s.gap ++
      (laidOut s (level + 1) value ++ laidOutMembers s level members))))

def laidOutItems (s : Spacing) (level : Nat) : List Json → Text
  | [] => s.line level ++ [']']
  | item :: items =>
    ',' :: (s.line (level + 1) ++ (laidOut s (level + 1) item ++ laidOutItems s level items))

def laidOutMembers (s : Spacing) (level : Nat) : List (Text × Json) → Text
  | [] => s.line level ++ ['\x7d']
  | (name, value) :: members =>
    ',' :: (s.line (level + 1) ++ (quote name ++ ':' :: (s.gap ++
      (laidOut s (level + 1) value ++ laidOutMembers s level members))))

end

mutual

theorem compact_eq_laidOut (level : Nat) : ∀ json : Json, json.compact = laidOut .none level json
  | null | unreadable | bool _ | number _ | string _ | array [] | object [] => by
    simp only [compact, laidOut]
  | array (item :: items) => by
    simp [compact, laidOut, Spacing.none, compact_eq_laidOut (level + 1) item,
      compactItems_eq_laidOut level items]
  | object ((name, value) :: members) => by
    simp [compact, laidOut, Spacing.none, compact_eq_laidOut (level + 1) value,
      compactMembers_eq_laidOut level members]

theorem compactItems_eq_laidOut (level : Nat) :
    ∀ items : List Json, compactItems items = laidOutItems .none level items
  | [] => rfl
  | item :: items => by
    simp [compactItems, laidOutItems, Spacing.none, compact_eq_laidOut (level + 1) item,
      compactItems_eq_laidOut level items]

theorem compactMembers_eq_laidOut (level : Nat) :
    ∀ members : List (Text × Json), compactMembers members = laidOutMembers .none level members
  | [] => rfl
  | (name, value) :: members => by
    simp [compactMembers, laidOutMembers, Spacing.none, compact_eq_laidOut (level + 1) value,
      compactMembers_eq_laidOut level members]

end

mutual

theorem pretty_eq_laidOut (level : Nat) :
    ∀ json : Json, pretty level json = laidOut .lines level json
  | null | unreadable | bool _ | number _ | string _ | array [] | object [] => by
    simp only [pretty, laidOut]
  | array (item :: items) => by
    simp [pretty, laidOut, Spacing.lines, pretty_eq_laidOut (level + 1) item,
      prettyItems_eq_laidOut level items]
  | object ((name, value) :: members) => by
    simp [pretty, laidOut, Spacing.lines, pretty_eq_laidOut (level + 1) value,
      prettyMembers_eq_laidOut level members]

theorem prettyItems_eq_laidOut (level : Nat) :
    ∀ items : List Json, prettyItems level items = laidOutItems .lines level items
  | [] => rfl
  | item :: items => by
    simp [prettyItems, laidOutItems, Spacing.lines, pretty_eq_laidOut (level + 1) item,
      prettyItems_eq_laidOut level items]

theorem prettyMembers_eq_laidOut (level : Nat) :
    ∀ members : List (Text × Json),
      prettyMembers level members = laidOutMembers .lines level members
  | [] => rfl
  | (name, value) :: members => by
    simp [prettyMembers, laidOutMembers, Spacing.lines, pretty_eq_laidOut (level + 1) value,
      prettyMembers_eq_laidOut level members]

end

section Reader

variable {blanks t rest : Text} {fuel : Nat} {s : Spacing} {level : Nat}

theorem skipBlanks_append (h : ∀ c ∈ blanks, isBlank c = true) (t : Text) :
    skipBlanks (blanks ++ t) = skipBlanks t :=
  List.dropWhile_append_of_pos h

theorem skipBlanks_cons {c : Char} (h : isBlank c = false) (t : Text) :
    skipBlanks (c :: t) = c :: t :=
  List.dropWhile_cons_of_neg (by simp [h])

theorem readItems_append (h : ∀ c ∈ blanks, isBlank c = true) (fuel : Nat) (t : Text) :
    readItems fuel (blanks ++ t) = readItems fuel t := by
  cases fuel with
  | zero => rfl
  | succ fuel => rw [readItems, readItems, skipBlanks_append h]

theorem readMembers_append (h : ∀ c ∈ blanks, isBlank c = true) (fuel : Nat) (t : Text) :
    readMembers fuel (blanks ++ t) = readMembers fuel t := by
  cases fuel with
  | zero => rfl
  | succ fuel => rw [readMembers, readMembers, skipBlanks_append h]

theorem readMember_append (h : ∀ c ∈ blanks, isBlank c = true) (fuel : Nat) (t : Text) :
    readMember fuel (blanks ++ t) = readMember fuel t := by
  cases fuel with
  | zero => rfl
  | succ fuel => rw [readMember, readMember, skipBlanks_append h]

theorem readValue_append (h : ∀ c ∈ blanks, isBlank c = true) (fuel : Nat) (t : Text) :
    readValue fuel (blanks ++ t) = readValue fuel t := by
  cases fuel with
  | zero => rfl
  | succ fuel => rw [readValue, readValue, skipBlanks_append h]

/-- A text without blanks in front whose first character no bracket closes. -/
theorem exists_laidOut_eq_cons (s : Spacing) (level : Nat) (json : Json) :
    ∃ c t, laidOut s level json = c :: t ∧ isBlank c = false ∧ c ≠ ']' := by
  cases json with
  | null | unreadable => exact ⟨'n', _, rfl, rfl, by decide⟩
  | bool b => cases b <;> exact ⟨_, _, rfl, rfl, by decide⟩
  | number n =>
    obtain ⟨c, t, ht, hc⟩ := exists_text_eq_cons n
    exact ⟨c, t, by rw [laidOut, ht], isBlank_of_startsNumber hc, ne_of_startsNumber hc rfl⟩
  | string t => exact ⟨'"', _, rfl, rfl, by decide⟩
  | array items => cases items <;> exact ⟨'[', _, rfl, rfl, by decide⟩
  | object members => cases members <;> exact ⟨'\x7b', _, rfl, rfl, by decide⟩

theorem exists_fuel_eq_succ {json : Json} (h : (laidOut s level json).length ≤ fuel) :
    ∃ n, fuel = n + 1 := by
  obtain ⟨c, t, htext, -, -⟩ := exists_laidOut_eq_cons s level json
  rw [htext, List.length_cons] at h
  exact ⟨fuel - 1, by omega⟩

theorem extendsNumber_of_isBlank {c : Char} (h : isBlank c = true) : extendsNumber c = false := by
  simp only [isBlank, Bool.or_eq_true, beq_iff_eq] at h
  obtain ((rfl | rfl) | rfl) | rfl := h <;> rfl

theorem Follows.blanks_cons (h : ∀ c ∈ blanks, isBlank c = true) {c : Char}
    (hc : extendsNumber c = false) (t : Text) : Follows (blanks ++ c :: t) := by
  intro d hd
  cases blanks with
  | nil =>
    obtain rfl : c = d := Option.some.inj hd
    exact hc
  | cons b blanks =>
    obtain rfl : b = d := Option.some.inj hd
    exact extendsNumber_of_isBlank (h b List.mem_cons_self)

theorem follows_laidOutItems (s : Spacing) (level : Nat) (items : List Json) (rest : Text) :
    Follows (laidOutItems s level items ++ rest) := by
  cases items with
  | nil =>
    rw [laidOutItems, List.append_assoc]
    exact Follows.blanks_cons (s.isBlank_of_mem_line level) rfl rest
  | cons item items =>
    rw [laidOutItems]
    exact Follows.blanks_cons (fun c hc => absurd hc List.not_mem_nil) rfl _

theorem follows_laidOutMembers (s : Spacing) (level : Nat) (members : List (Text × Json))
    (rest : Text) : Follows (laidOutMembers s level members ++ rest) := by
  cases members with
  | nil =>
    rw [laidOutMembers, List.append_assoc]
    exact Follows.blanks_cons (s.isBlank_of_mem_line level) rfl rest
  | cons member members =>
    rw [laidOutMembers]
    exact Follows.blanks_cons (fun c hc => absurd hc List.not_mem_nil) rfl _

/-- A document is read from any of its texts, at any level and in front of anything. -/
def Readable (s : Spacing) (json : Json) : Prop :=
  ∀ level fuel rest, (laidOut s level json).length ≤ fuel → Follows rest →
    readValue fuel (laidOut s level json ++ rest) = some (json, rest)

theorem readItems_laidOutItems (rest : Text) {items : List Json}
    (h : ∀ item ∈ items, Readable s item)
    (hfuel : (laidOutItems s level items).length ≤ fuel) :
    readItems fuel (laidOutItems s level items ++ rest) = some (items, rest) := by
  -- The fuel is counted in characters: a comma pays for the step to the next item.
  induction items generalizing fuel with
  | nil =>
    rw [laidOutItems, List.length_append, List.length_singleton] at hfuel
    obtain ⟨fuel, rfl⟩ : ∃ n, fuel = n + 1 := ⟨fuel - 1, by omega⟩
    rw [laidOutItems, List.append_assoc, readItems_append (s.isBlank_of_mem_line level)]
    rfl
  | cons item items ih =>
    rw [List.forall_mem_cons] at h
    simp only [laidOutItems, List.length_cons, List.length_append] at hfuel
    obtain ⟨fuel, rfl⟩ : ∃ n, fuel = n + 1 := ⟨fuel - 1, by omega⟩
    have hitem := h.1 (level + 1) fuel (laidOutItems s level items ++ rest) (by omega)
      (follows_laidOutItems s level items rest)
    have hrest : (laidOutItems s level items).length ≤ fuel := by omega
    have hitems := ih h.2 hrest
    rw [laidOutItems, List.cons_append, readItems, skipBlanks_cons rfl, List.append_assoc,
      List.append_assoc]
    simp only [readValue_append (s.isBlank_of_mem_line _), hitem, hitems, Option.bind_eq_bind,
      Option.bind_some]
    rfl

theorem readMember_laidOut (name : Text) {value : Json} (hvalue : Readable s value)
    (hfuel : (laidOut s level value).length < fuel) (hrest : Follows rest) :
    readMember fuel (quote name ++ ':' :: (s.gap ++ (laidOut s level value ++ rest))) =
      some ((some name, value), rest) := by
  obtain ⟨fuel, rfl⟩ : ∃ n, fuel = n + 1 := ⟨fuel - 1, by omega⟩
  have hread := hvalue level fuel rest (by omega) hrest
  rw [quote, List.cons_append, List.cons_append, readMember, skipBlanks_cons rfl, List.append_assoc,
    List.singleton_append]
  simp only [readString_quote, skipBlanks_cons (c := ':') rfl,
    readValue_append s.isBlank_of_mem_gap, hread, Option.bind_eq_bind, Option.bind_some]
  rfl

theorem readMembers_laidOutMembers (rest : Text) {members : List (Text × Json)}
    (h : ∀ member ∈ members, Readable s member.2)
    (hfuel : (laidOutMembers s level members).length ≤ fuel) :
    readMembers fuel (laidOutMembers s level members ++ rest) =
      some (members.map fun member => (some member.1, member.2), rest) := by
  induction members generalizing fuel with
  | nil =>
    rw [laidOutMembers, List.length_append, List.length_singleton] at hfuel
    obtain ⟨fuel, rfl⟩ : ∃ n, fuel = n + 1 := ⟨fuel - 1, by omega⟩
    rw [laidOutMembers, List.append_assoc, readMembers_append (s.isBlank_of_mem_line level)]
    rfl
  | cons member members ih =>
    obtain ⟨name, value⟩ := member
    rw [List.forall_mem_cons] at h
    simp only [laidOutMembers, List.length_cons, List.length_append] at hfuel
    obtain ⟨fuel, rfl⟩ : ∃ n, fuel = n + 1 := ⟨fuel - 1, by omega⟩
    have hvalue : (laidOut s (level + 1) value).length < fuel := by omega
    have hmember := readMember_laidOut name h.1 hvalue
      (follows_laidOutMembers s level members rest)
    have hrest : (laidOutMembers s level members).length ≤ fuel := by omega
    have hmembers := ih h.2 hrest
    rw [laidOutMembers, List.cons_append, readMembers, skipBlanks_cons rfl]
    simp only [List.append_assoc, List.cons_append, readMember_append (s.isBlank_of_mem_line _),
      hmember, hmembers, Option.bind_eq_bind, Option.bind_some]
    rfl

theorem objectOf_map (members : List (Text × Json)) :
    objectOf (members.map fun member => (some member.1, member.2)) = object members := by
  have hnames : (members.map fun member => ((some member.1, member.2) : RawMember)).mapM
      (fun (name, value) => name.map (·, value)) = some members := by
    induction members with
    | nil => rfl
    | cons member members ih => simp [ih]
  rw [objectOf, hnames]

theorem readable_number {n : JsonNumber} (h : ∀ c ∈ n.fraction, c.isDigit = true) :
    Readable s (number n) := by
  intro level fuel rest hfuel hrest
  obtain ⟨fuel, rfl⟩ := exists_fuel_eq_succ hfuel
  obtain ⟨c, t, htext, hc⟩ := exists_text_eq_cons n
  have hread := readNumber_text h hrest
  rw [laidOut]
  rw [htext, List.cons_append] at hread ⊢
  rw [readValue, skipBlanks_cons (isBlank_of_startsNumber hc)]
  split
  case h_7 => rw [hread]; rfl
  all_goals
    next heq => exact absurd (List.cons.inj heq).1 (ne_of_startsNumber hc rfl)

theorem readable_array {items : List Json} (h : ∀ item ∈ items, Readable s item) :
    Readable s (array items) := by
  intro level fuel rest hfuel hrest
  obtain ⟨fuel, rfl⟩ := exists_fuel_eq_succ hfuel
  cases items with
  | nil => rfl
  | cons item items =>
    rw [List.forall_mem_cons] at h
    simp only [laidOut, List.length_cons, List.length_append] at hfuel
    have hitem := h.1 (level + 1) fuel (laidOutItems s level items ++ rest) (by omega)
      (follows_laidOutItems s level items rest)
    have hitems := readItems_laidOutItems rest h.2
      (show (laidOutItems s level items).length ≤ fuel by omega)
    obtain ⟨c, t, htext, hblank, hbracket⟩ := exists_laidOut_eq_cons s (level + 1) item
    rw [laidOut, List.cons_append, readValue, skipBlanks_cons rfl]
    simp only [List.append_assoc, skipBlanks_append (s.isBlank_of_mem_line _)]
    rw [htext] at hitem ⊢
    simp only [List.cons_append, skipBlanks_cons hblank] at hitem ⊢
    -- The reader looks for a closing bracket first, which no item starts with.
    split
    · next heq => exact absurd (List.cons.inj heq).1 hbracket
    · simp only [hitem, hitems, Option.bind_eq_bind, Option.bind_some]
      rfl

theorem readable_object {members : List (Text × Json)}
    (h : ∀ member ∈ members, Readable s member.2) : Readable s (object members) := by
  intro level fuel rest hfuel hrest
  obtain ⟨fuel, rfl⟩ := exists_fuel_eq_succ hfuel
  cases members with
  | nil => rfl
  | cons member members =>
    obtain ⟨name, value⟩ := member
    rw [List.forall_mem_cons] at h
    simp only [laidOut, List.length_cons, List.length_append] at hfuel
    have hvalue : (laidOut s (level + 1) value).length < fuel := by omega
    have hmember := readMember_laidOut name h.1 hvalue
      (follows_laidOutMembers s level members rest)
    have hmembers := readMembers_laidOutMembers rest h.2
      (show (laidOutMembers s level members).length ≤ fuel by omega)
    rw [laidOut, List.cons_append, readValue, skipBlanks_cons rfl]
    simp only [List.append_assoc, skipBlanks_append (s.isBlank_of_mem_line _), quote,
      List.cons_append, skipBlanks_cons (c := '"') rfl] at hmember ⊢
    split
    · next heq => exact absurd (List.cons.inj heq).1 (by decide)
    · simp only [hmember, hmembers, Option.bind_eq_bind, Option.bind_some]
      exact congrArg (fun json => some (json, rest)) (objectOf_map ((name, value) :: members))

theorem Legible.readable {json : Json} (h : Legible json) (s : Spacing) : Readable s json := by
  induction h with
  | null =>
    intro level fuel rest hfuel hrest
    obtain ⟨fuel, rfl⟩ := exists_fuel_eq_succ hfuel
    rfl
  | bool b =>
    intro level fuel rest hfuel hrest
    obtain ⟨fuel, rfl⟩ := exists_fuel_eq_succ hfuel
    cases b <;> rfl
  | string t =>
    intro level fuel rest hfuel hrest
    obtain ⟨fuel, rfl⟩ := exists_fuel_eq_succ hfuel
    rw [laidOut, quote, List.cons_append, List.cons_append, List.append_assoc,
      List.singleton_append, readValue, skipBlanks_cons rfl]
    simp only [readString_quote]
    rfl
  | number h => exact readable_number h
  | array _ ih => exact readable_array ih
  | object _ ih => exact readable_object ih

end Reader

/-- Blanks after a document do not matter. -/
theorem Legible.parse?_laidOut {json : Json} (h : Legible json) (s : Spacing) (level : Nat)
    {after : Text} (hafter : ∀ c ∈ after, isBlank c = true) :
    parse? (laidOut s level json ++ after) = some json := by
  have hlength : (laidOut s level json).length ≤ (laidOut s level json ++ after).length + 1 := by
    rw [List.length_append]
    omega
  have hread := h.readable s level _ after hlength fun c hc =>
    extendsNumber_of_isBlank (hafter c (List.mem_of_mem_head? hc))
  have hskip : skipBlanks after = [] := List.dropWhile_eq_nil_iff.mpr hafter
  rw [parse?, hread]
  dsimp only
  rw [hskip]
  rfl

/-- Reading undoes writing, on one line and on many. -/
theorem Legible.parse?_text {json : Json} (h : Legible json) :
    parse? json.compact = some json ∧ parse? (json.pretty 0) = some json := by
  rw [compact_eq_laidOut 0, pretty_eq_laidOut 0, ← List.append_nil (laidOut .none 0 json),
    ← List.append_nil (laidOut .lines 0 json)]
  exact ⟨h.parse?_laidOut .none 0 nofun, h.parse?_laidOut .lines 0 nofun⟩

end Json

end Aprs
