import Aprs.Proofs.Identifiers
import Aprs.Proofs.Passcode

/-!
Bulletins and announcements, read back as they were written. What stands in the place of an
addressee decides, and it decides before the text is looked at: a text that answers, numbers or
defines something does not do so in a bulletin. A name that is not quite one of theirs is an
addressee like any other.
-/

namespace Aprs

namespace Message

variable {limit : Nat} {name g t u v : Text} {upper c : Char}

/-- The start of a text that is read: all of its first line that the limit has room for. -/
structure IsHead (limit : Nat) (u t : Text) : Prop where
  start : u <+: t
  length_le : u.length ≤ limit
  line : '\n' ∉ u
  longest : ∀ v, v <+: t → v.length ≤ limit → '\n' ∉ v → v.length ≤ u.length

theorem isHead_firstLine (limit : Nat) (t : Text) : IsHead limit (Text.firstLine limit t) t where
  start := (List.take_prefix _ _).trans (List.takeWhile_prefix _)
  length_le := List.length_take_le ..
  line := by
    intro hmem
    have hline := List.mem_takeWhile_imp (List.mem_of_mem_take hmem)
    exact absurd hline (by decide)
  longest v hv hlength hline := by
    obtain ⟨w, rfl⟩ := hv
    have hall : ∀ c ∈ v, (c != '\n') = true := by
      intro c hc
      rw [bne_iff_ne]
      rintro rfl
      exact hline hc
    rw [Text.firstLine, List.takeWhile_append_of_pos hall, List.length_take, List.length_append]
    omega

theorem IsHead.unique (hu : IsHead limit u t) (hv : IsHead limit v t) : u = v := by
  have hlength : u.length = v.length :=
    Nat.le_antisymm (hv.longest u hu.start hu.length_le hu.line)
      (hu.longest v hv.start hv.length_le hv.line)
  exact (List.prefix_of_prefix_length_le hu.start hv.start hlength.le).eq_of_length hlength

/-- A group fills its five columns with spaces behind it. -/
def padded (g : Text) : Text := g ++ List.replicate (5 - g.length) ' '

theorem length_padded (h : g.length ≤ 5) : (padded g).length = 5 := by
  rw [padded, List.length_append, List.length_replicate, Nat.add_sub_cancel' h]

theorem isIdentifier_of_mem_padded (h : IsName 0 5 g) (hc : c ∈ padded g) :
    isIdentifier c = true := by
  rcases List.mem_append.mp hc with hg | hspace
  · exact isIdentifier_iff.mpr (h.identifier c hg)
  · rw [List.eq_of_mem_replicate hspace]
    decide

/-- Taking the spaces off the end undoes the padding, also behind what ends in no space. -/
theorem trimEndSpaces_append_padded (h : ∀ c ∈ (u ++ g).getLast?, c ≠ ' ') :
    Text.trimEndSpaces (u ++ padded g) = u ++ g := by
  have hlast : ∀ c ∈ (u ++ g).getLast?, Text.isSpace c = false := by
    intro c hc
    rw [Text.isSpace, beq_eq_false_iff_ne]
    exact h c hc
  have hspaces : Text.trimEnd Text.isSpace (List.replicate (5 - g.length) ' ') = [] := by
    rw [Text.trimEnd, List.reverse_replicate, List.dropWhile_eq_nil_iff.mpr, List.reverse_nil]
    intro c hc
    rw [List.eq_of_mem_replicate hc]
    rfl
  rw [Text.trimEndSpaces, padded, ← List.append_assoc, Text.trimEnd_append hlast, hspaces,
    List.append_nil]

theorem eitherCase_toUpper (c : Char) : eitherCase c.toUpper c = true := by
  by_cases hc : c.toNat < 128
  · exact Text.ascii_cases hc (by decide)
  · rw [Text.toUpper_eq_self_of_le (by omega), eitherCase, beq_self_eq_true, Bool.true_or]

/-- The letters of a name, however they are written. -/
theorem exists_letters (h : name.map Char.toUpper = "BLN".toList) :
    ∃ b l n, name = [b, l, n] ∧ eitherCase 'B' b = true ∧ eitherCase 'L' l = true ∧
      eitherCase 'N' n = true := by
  change name.map Char.toUpper = ['B', 'L', 'N'] at h
  obtain ⟨b, name, rfl, hb, h⟩ := List.map_eq_cons_iff.mp h
  obtain ⟨l, name, rfl, hl, h⟩ := List.map_eq_cons_iff.mp h
  obtain ⟨n, name, rfl, hn, h⟩ := List.map_eq_cons_iff.mp h
  rw [List.map_eq_nil_iff.mp h, ← hb, ← hl, ← hn]
  exact ⟨b, l, n, rfl, eitherCase_toUpper b, eitherCase_toUpper l, eitherCase_toUpper n⟩

theorem isAlphanum_of_eitherCase (h : eitherCase upper c = true)
    (hupper : upper.isAlphanum = true) (hlower : upper.toLower.isAlphanum = true) :
    c.isAlphanum = true := by
  rw [eitherCase, Bool.or_eq_true, beq_iff_eq, beq_iff_eq] at h
  rcases h with rfl | rfl
  · exact hupper
  · exact hlower

variable {id letter : Char}

theorem isLower_iff_toNat : c.isLower = true ↔ 'a'.toNat ≤ c.toNat ∧ c.toNat ≤ 'z'.toNat := by
  simp [Char.isLower, UInt32.le_iff_toNat_le, ← Char.toNat_val]

/-- Digits, capital letters and small ones are apart from each other. -/
theorem not_isDigit_of_isAlpha (h : c.isAlpha = true) : c.isDigit = false := by
  rw [Char.isAlpha, Bool.or_eq_true, isUpper_iff_toNat, isLower_iff_toNat] at h
  rw [← Bool.not_eq_true, Char.isDigit_iff_toNat]
  change (65 ≤ c.toNat ∧ c.toNat ≤ 90) ∨ (97 ≤ c.toNat ∧ c.toNat ≤ 122) at h
  change ¬(48 ≤ c.toNat ∧ c.toNat ≤ 57)
  omega

theorem not_isUpper_of_isLower (h : c.isLower = true) : c.isUpper = false := by
  rw [isLower_iff_toNat] at h
  rw [← Bool.not_eq_true, isUpper_iff_toNat]
  change 97 ≤ c.toNat ∧ c.toNat ≤ 122 at h
  change ¬(65 ≤ c.toNat ∧ c.toNat ≤ 90)
  omega

theorem group_padded {b l n : Char} (hg : IsName 0 5 g) (t : Text) :
    group (b :: l :: n :: id :: (padded g ++ [':'])) t =
      (id, g, Text.trimSpaces (Text.firstLine longestText t)) := by
  have htrim : Text.trimEndSpaces (padded g) = g := trimEndSpaces_append_padded (u := []) hg.last
  rw [group_title (length_padded hg.le_most), htrim]

theorem decode_bulletin (hname : name.map Char.toUpper = "BLN".toList) (hg : IsName 0 5 g)
    (hid : id.isDigit = true) (t : Text) :
    decode (name ++ id :: (padded g ++ ':' :: t)) =
      .ok (.bulletin id g (Text.trimSpaces (Text.firstLine longestText t))) := by
  obtain ⟨b, l, n, rfl, hb, hl, hn⟩ := exists_letters hname
  have hfills : Layout.Fills bulletinLayout (b :: l :: n :: id :: (padded g ++ [':'])) :=
    fills_titleLayout_iff.mpr ⟨b, l, n, id, padded g, rfl, hb, hl, hn, hid,
      length_padded hg.le_most,
      fun c hc => folded_of_isIdentifier (isIdentifier_of_mem_padded hg hc)⟩
  have hcut : [b, l, n] ++ id :: (padded g ++ ':' :: t) =
      (b :: l :: n :: id :: (padded g ++ [':'])) ++ t := by simp
  rw [hcut, decode, Layout.take?_append hfills]
  dsimp only
  rw [group_padded hg]

theorem decode_announcement (hg : IsName 0 5 g) (hid : id.isUpper = true) (t : Text) :
    decode ("BLN".toList ++ id :: (padded g ++ ':' :: t)) =
      .ok (.announcement id g (Text.trimSpaces (Text.firstLine longestText t))) := by
  have hfills : Layout.Fills announcementLayout ('B' :: 'L' :: 'N' :: id :: (padded g ++ [':'])) :=
    fills_titleLayout_iff.mpr ⟨'B', 'L', 'N', id, padded g, rfl, rfl, rfl, rfl, hid,
      length_padded hg.le_most, fun c hc => isIdentifier_of_mem_padded hg hc⟩
  have hcut : "BLN".toList ++ id :: (padded g ++ ':' :: t) =
      ('B' :: 'L' :: 'N' :: id :: (padded g ++ [':'])) ++ t := by simp
  have hbulletin : bulletinLayout.take? (('B' :: 'L' :: 'N' :: id :: (padded g ++ [':'])) ++ t) =
      none := by
    have hcolumns : ('B' :: 'L' :: 'N' :: id :: (padded g ++ [':'])).length =
        bulletinLayout.length := (Layout.length_eq_of_fills hfills).trans rfl
    rw [← Option.not_isSome_iff_eq_none, Layout.isSome_take?_append_iff hcolumns]
    -- the fourth character is a letter, so no bulletin has it
    rintro ⟨-, -, -, hdigit, -⟩
    have hletter : id.isAlpha = true := by rw [Char.isAlpha, hid, Bool.true_or]
    exact absurd hdigit (Bool.eq_false_iff.mp (not_isDigit_of_isAlpha hletter))
  rw [hcut, decode, hbulletin, Layout.take?_append hfills]
  dsimp only
  rw [group_padded hg]

/-- A letter behind the name makes an addressee of it, unless all of them are capitals. -/
theorem isAddress_name (hname : name.map Char.toUpper = "BLN".toList) (hg : IsName 0 5 g)
    (hletter : letter.isAlpha = true)
    (hcase : name ≠ "BLN".toList ∨ letter.isLower = true) :
    IsAddress (name ++ letter :: padded g) := by
  have hlength : name.length = 3 := by
    have hmap := congrArg List.length hname
    rwa [List.length_map] at hmap
  have htake : (name ++ letter :: padded g).take 3 = name := List.take_left' hlength
  have hget : (name ++ letter :: padded g).getD 3 ' ' = letter := by
    rw [← hlength]
    simp
  constructor
  case length_eq =>
    rw [List.length_append, List.length_cons, hlength, length_padded hg.le_most]
  case identifier =>
    intro c hc
    rcases List.mem_append.mp hc with hmem | hmem
    · obtain ⟨b, l, n, rfl, hb, hl, hn⟩ := exists_letters hname
      simp only [List.mem_cons, List.not_mem_nil, or_false] at hmem
      rcases hmem with rfl | rfl | rfl
      · exact .inl (isAlphanum_of_eitherCase hb (by decide) (by decide))
      · exact .inl (isAlphanum_of_eitherCase hl (by decide) (by decide))
      · exact .inl (isAlphanum_of_eitherCase hn (by decide) (by decide))
    · rcases List.mem_cons.mp hmem with rfl | hmem
      · exact .inl (by rw [Char.isAlphanum, hletter, Bool.true_or])
      · exact isIdentifier_iff.mp (isIdentifier_of_mem_padded hg hmem)
  case bulletin =>
    rw [hget]
    exact fun _ => not_isDigit_of_isAlpha hletter
  case announcement =>
    rw [htake, hget]
    intro heq
    exact not_isUpper_of_isLower (hcase.resolve_left (not_not.mpr heq))

/-- What follows an addressee that was padded like a group is read as for any other. -/
theorem decode_name (hname : name.map Char.toUpper = "BLN".toList) (hg : IsName 0 5 g)
    (hletter : letter.isAlpha = true) (hcase : name ≠ "BLN".toList ∨ letter.isLower = true)
    (hline : '\n' ∉ t) :
    decode (name ++ letter :: (padded g ++ ':' :: t)) = addressedTo (name ++ letter :: g) t := by
  have haddress := isAddress_name hname hg hletter hcase
  obtain ⟨hbulletin, hannouncement, htake⟩ := take?_layouts haddress t
  have hsingle : Text.isSingleLine t = true := Text.isSingleLine_iff.mpr hline
  have hcut : name ++ letter :: (padded g ++ ':' :: t) =
      (name ++ letter :: padded g) ++ ':' :: t := by simp
  have hlast : ∀ c ∈ (name ++ [letter] ++ g).getLast?, c ≠ ' ' := by
    intro c hc
    cases hempty : g.getLast? with
    | some d =>
      rw [List.getLast?_append, hempty] at hc
      exact hg.last c (hempty.trans hc)
    | none =>
      rw [List.getLast?_append, hempty] at hc
      rw [Option.none_or, List.getLast?_concat] at hc
      cases hc
      rintro rfl
      exact absurd hletter (by decide)
  have htrim := trimEndSpaces_append_padded hlast
  rw [List.append_assoc, List.append_assoc, List.singleton_append, List.singleton_append] at htrim
  rw [hcut, decode, hbulletin, hannouncement, htake]
  dsimp only
  rw [if_pos hsingle, List.take_left' haddress.length_eq, htrim]

/-- Only definitions are anything but messages, and they are told apart before. -/
theorem format_content {line : Text} {header : Header} {addressee : Text} (t : Text) :
    ((Line.blankRecord line header).withMessage (.addressed addressee (content t))).format =
      some .message := by
  unfold content
  split
  · next reply hreply =>
    obtain ⟨response, numbers, -, -, rfl⟩ := reply?_eq_some_iff.mp hreply
    rfl
  · split
    · rfl
    · rfl

/-- Behind a name in any letter case a digit makes a bulletin, and behind the name in capitals a
capital makes an announcement, with the start of the text whatever it says. Any other letter belongs
to an addressee, to whom the text is a message or a definition, and is rejected as a definition with
a fault is. -/
theorem decode_titled (hname : name.map Char.toUpper = "BLN".toList) (hg : IsName 0 5 g)
    (t line : Text) (header : Header) :
    (∀ id, id.isDigit = true → ∃ u, IsHead 67 u t ∧
      (decode (name ++ id :: (padded g ++ ':' :: t))).map
          (Line.blankRecord line header).withMessage =
        .ok { Line.blankRecord line header with
          format := some (if g = [] then .bulletin else .groupBulletin)
          messageText := some (Text.trimSpaces u)
          bulletinId := some [id]
          groupIdentifier := if g = [] then none else some g }) ∧
    (∀ id, id.isUpper = true → ∃ u, IsHead 67 u t ∧
      (decode ("BLN".toList ++ id :: (padded g ++ ':' :: t))).map
          (Line.blankRecord line header).withMessage =
        .ok { Line.blankRecord line header with
          format := some .announcement
          messageText := some (Text.trimSpaces u)
          announcementId := some [id]
          groupIdentifier := if g = [] then none else some g }) ∧
    ∀ letter, letter.isAlpha = true → name ≠ "BLN".toList ∨ letter.isLower = true → '\n' ∉ t →
      (∀ e, TelemetryDefs.decode? t = .error e →
        decode (name ++ letter :: (padded g ++ ':' :: t)) = .error e) ∧
      ∀ defs?, TelemetryDefs.decode? t = .ok defs? →
        ∃ m, decode (name ++ letter :: (padded g ++ ':' :: t)) = .ok m ∧
          ((Line.blankRecord line header).withMessage m).format =
            some (if defs?.isSome then .telemetryMessage else .message) ∧
          ((Line.blankRecord line header).withMessage m).addressee =
            some (name ++ letter :: g) ∧
          ((Line.blankRecord line header).withMessage m).bulletinId = none ∧
          ((Line.blankRecord line header).withMessage m).announcementId = none ∧
          ((Line.blankRecord line header).withMessage m).groupIdentifier = none := by
  refine ⟨fun id hid => ⟨_, isHead_firstLine _ t, ?_⟩, fun id hid => ⟨_, isHead_firstLine _ t, ?_⟩,
    fun letter hletter hcase hline => ?_⟩
  · rw [decode_bulletin hname hg hid]
    cases g <;> rfl
  · rw [decode_announcement hg hid]
    cases g <;> rfl
  · rw [decode_name hname hg hletter hcase hline, addressedTo]
    constructor
    · intro e he
      rw [he]
      rfl
    · intro defs? hdefs
      rw [hdefs]
      cases defs? with
      | some defs => exact ⟨_, rfl, rfl, rfl, rfl, rfl, rfl⟩
      | none =>
        refine ⟨_, rfl, ?_⟩
        obtain ⟨haddressee, -, -, hrest⟩ := withMessage_addressed rfl
        exact ⟨format_content t, haddressee, hrest⟩

theorem isName_of_all {least most : Nat} (hleast : least ≤ g.length) (hmost : g.length ≤ most)
    (h : g.all isIdentifier = true) (hlast : g.getLast? ≠ some ' ') : IsName least most g where
  least_le := hleast
  le_most := hmost
  identifier c hc := isIdentifier_iff.mp (List.all_eq_true.mp h c hc)
  last := by
    rintro c hc rfl
    exact hlast hc

/-- A rejection with a number, in a bulletin and to an addressee. -/
theorem decode_titled_rejection :
    "bLN".toList.map Char.toUpper = "BLN".toList ∧ IsName 0 5 "W_ x".toList ∧
      (decode "bLN7W_ x : rej12\nPARM.".toList).map (Line.blankRecord [] default).withMessage =
        .ok { Line.blankRecord [] default with
          format := some .groupBulletin
          messageText := some "rej12".toList
          bulletinId := some ['7']
          groupIdentifier := some "W_ x".toList } ∧
      ∃ m, decode "bLNQW_ x :rej12".toList = .ok m ∧
        ((Line.blankRecord [] default).withMessage m).format = some .message ∧
        ((Line.blankRecord [] default).withMessage m).addressee = some "bLNQW_ x".toList := by
  have hname : "bLN".toList.map Char.toUpper = "BLN".toList := by decide
  have hg : IsName 0 5 "W_ x".toList :=
    isName_of_all (by decide) (by decide) (by decide) (by decide)
  refine ⟨hname, hg, ?_, ?_⟩
  · obtain ⟨u, hu, hdecode⟩ :=
      (decode_titled hname hg " rej12\nPARM.".toList [] default).1 '7' (by decide)
    have hfirst : Text.firstLine 67 " rej12\nPARM.".toList = " rej12".toList := by decide
    rw [hu.unique (isHead_firstLine 67 _), hfirst] at hdecode
    exact hdecode
  · obtain ⟨m, hm, hformat, haddressee, -⟩ :=
      ((decode_titled hname hg "rej12".toList [] default).2.2 'Q' (by decide) (.inl (by decide))
        (by decide)).2 none (by decide)
    exact ⟨m, hm, hformat, haddressee⟩

/-- To an addressee a definition can have a fault, and then there is no message. -/
theorem faulty_definition_rejected :
    "bln".toList.map Char.toUpper = "BLN".toList ∧ IsName 0 5 "HAM".toList ∧
      'Q'.isAlpha = true ∧ "bln".toList ≠ "BLN".toList ∧ '\n' ∉ "EQNS.a".toList ∧
      decode ("bln".toList ++ 'Q' :: (padded "HAM".toList ++ ':' :: "EQNS.a".toList)) =
        .error (.notANumber 1) := by
  refine ⟨by decide, isName_of_all (by decide) (by decide) (by decide) (by decide), by decide,
    by decide, by decide, ?_⟩
  decide

end Message

end Aprs
