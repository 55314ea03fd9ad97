import Aprs.MicE
import Aprs.Proofs.ExactValues

/-!
Tags inside a comment. A tag is found at the first or at the last place where its reader takes
something off the rest of the text, and taking it out leaves the text before it and the text after
it, in their order.
-/

namespace Aprs

namespace Text

variable {α : Type} {take? : Text → Option (α × Text)} {t before after : Text} {found : α}

theorem isSingleLine_iff : isSingleLine t = true ↔ '\n' ∉ t := by
  rw [isSingleLine, List.all_eq_true]
  constructor
  · intro h hmem
    exact absurd (h '\n' hmem) (by decide)
  · intro h c hc
    rw [bne_iff_ne]
    rintro rfl
    exact h hc

theorem not_isSingleLine (h : '\n' ∈ t) : ¬isSingleLine t = true := by
  rw [isSingleLine_iff, not_not]
  exact h

theorem leftmost?_eq_some (h : leftmost? take? t = some (before, found, after)) :
    ∃ rest, t = before ++ rest ∧ take? rest = some (found, after) := by
  induction t generalizing before with
  | nil =>
    obtain ⟨⟨_, _⟩, htake, heq⟩ := Option.map_eq_some_iff.mp h
    cases heq
    exact ⟨[], rfl, htake⟩
  | cons c t ih =>
    rw [leftmost?] at h
    split at h
    · next htake =>
      cases h
      exact ⟨c :: t, rfl, htake⟩
    · obtain ⟨⟨_, _, _⟩, hlater, heq⟩ := Option.map_eq_some_iff.mp h
      cases heq
      obtain ⟨rest, rfl, htake⟩ := ih hlater
      exact ⟨rest, rfl, htake⟩

theorem leftmost?_eq_none_iff :
    leftmost? take? t = none ↔ ∀ u v, t = u ++ v → take? v = none := by
  induction t with
  | nil =>
    rw [leftmost?, Option.map_eq_none_iff]
    constructor
    · intro h u v heq
      rw [(List.append_eq_nil_iff.mp heq.symm).2]
      exact h
    · exact fun h => h [] [] rfl
  | cons c t ih =>
    rw [leftmost?]
    constructor
    · intro h
      split at h
      · cases h
      · next htake =>
        intro u v heq
        cases u with
        | nil =>
          rw [List.nil_append] at heq
          rwa [← heq]
        | cons d u =>
          obtain ⟨_, rfl⟩ := List.cons.inj heq
          exact ih.mp (Option.map_eq_none_iff.mp h) u v rfl
    · intro h
      rw [h [] (c :: t) rfl]
      exact Option.map_eq_none_iff.mpr (ih.mpr fun u v heq => h (c :: u) v (by rw [heq]; rfl))

/-- Nothing is taken off earlier in the text. -/
theorem length_le_of_leftmost? (h : leftmost? take? t = some (before, found, after)) {u v : Text}
    (heq : t = u ++ v) (hv : take? v ≠ none) : before.length ≤ u.length := by
  induction t generalizing before u with
  | nil =>
    obtain ⟨_, _, hbefore⟩ := Option.map_eq_some_iff.mp h
    cases hbefore
    exact Nat.zero_le u.length
  | cons c t ih =>
    rw [leftmost?] at h
    split at h
    · cases h
      exact Nat.zero_le u.length
    · next htake =>
      obtain ⟨⟨_, _, _⟩, hlater, hbefore⟩ := Option.map_eq_some_iff.mp h
      cases hbefore
      cases u with
      | nil =>
        rw [List.nil_append] at heq
        rw [← heq] at hv
        exact absurd htake hv
      | cons d u =>
        obtain ⟨-, rfl⟩ := List.cons.inj heq
        exact Nat.succ_le_succ (ih hlater rfl)

theorem leftmost?_append {rest : Text}
    (hbefore : ∀ u v, before = u ++ v → v ≠ [] → take? (v ++ rest) = none)
    (htake : take? rest = some (found, after)) :
    leftmost? take? (before ++ rest) = some (before, found, after) := by
  induction before with
  | nil =>
    cases rest with
    | nil =>
      rw [List.append_nil, leftmost?, htake]
      rfl
    | cons c rest =>
      rw [List.nil_append, leftmost?, htake]
  | cons c before ih =>
    have hnone : take? (c :: (before ++ rest)) = none :=
      hbefore [] (c :: before) rfl (List.cons_ne_nil _ _)
    have hlater := ih fun u v heq hv => hbefore (c :: u) v (by rw [heq, List.cons_append]) hv
    rw [List.cons_append, leftmost?, hnone, hlater]
    rfl

theorem rightmost?_eq_some (h : rightmost? take? t = some (before, found, after)) :
    ∃ rest, t = before ++ rest ∧ take? rest = some (found, after) := by
  induction t generalizing before with
  | nil =>
    obtain ⟨⟨_, _⟩, htake, heq⟩ := Option.map_eq_some_iff.mp h
    cases heq
    exact ⟨[], rfl, htake⟩
  | cons c t ih =>
    rw [rightmost?] at h
    split at h
    · next hlater =>
      cases h
      obtain ⟨rest, rfl, htake⟩ := ih hlater
      exact ⟨rest, rfl, htake⟩
    · obtain ⟨⟨_, _⟩, htake, heq⟩ := Option.map_eq_some_iff.mp h
      cases heq
      exact ⟨c :: t, rfl, htake⟩

/-- There is a last place where there is a first. -/
theorem rightmost?_eq_none_iff :
    rightmost? take? t = none ↔ ∀ u v, t = u ++ v → take? v = none := by
  rw [← leftmost?_eq_none_iff]
  induction t with
  | nil => exact Iff.rfl
  | cons c t ih =>
    rw [rightmost?, leftmost?]
    cases hlater : rightmost? take? t with
    | none =>
      rw [ih.mp hlater]
      cases take? (c :: t) <;> simp
    | some parts =>
      have hearlier : leftmost? take? t ≠ none := by
        intro hnone
        rw [ih.mpr hnone] at hlater
        cases hlater
      cases take? (c :: t) <;> simp [hearlier]

/-- Nothing is taken off later in the text. -/
theorem length_le_of_rightmost? (h : rightmost? take? t = some (before, found, after)) {u v : Text}
    (heq : t = u ++ v) (hv : take? v ≠ none) : u.length ≤ before.length := by
  induction t generalizing before u with
  | nil =>
    rw [(List.append_eq_nil_iff.mp heq.symm).1]
    exact Nat.zero_le before.length
  | cons c t ih =>
    cases u with
    | nil => exact Nat.zero_le before.length
    | cons d u =>
      obtain ⟨-, rfl⟩ := List.cons.inj heq
      rw [rightmost?] at h
      split at h
      · next hlater =>
        cases h
        exact Nat.succ_le_succ (ih hlater rfl)
      · next hlater => exact absurd (rightmost?_eq_none_iff.mp hlater u v rfl) hv

theorem rightmost?_append {rest : Text}
    (hrest : ∀ u v, rest = u ++ v → u ≠ [] → take? v = none)
    (htake : take? rest = some (found, after)) :
    rightmost? take? (before ++ rest) = some (before, found, after) := by
  induction before with
  | nil =>
    cases rest with
    | nil =>
      rw [List.append_nil, rightmost?, htake]
      rfl
    | cons c rest =>
      have hlater : rightmost? take? rest = none :=
        rightmost?_eq_none_iff.mpr fun u v heq =>
          hrest (c :: u) v (by rw [heq, List.cons_append]) (List.cons_ne_nil c u)
      rw [List.nil_append, rightmost?, hlater, htake]
      rfl
  | cons c before ih => rw [List.cons_append, rightmost?, ih]

section Tags

variable {Tells : Text → α → Prop} {tag : Text}

/-- A tag that begins nowhere later than any other. -/
structure First (Tells : Text → α → Prop) (t before tag : Text) (found : α) (after : Text) :
    Prop where
  text : t = before ++ (tag ++ after)
  tells : Tells tag found
  first : ∀ u tag' found' v, t = u ++ (tag' ++ v) → Tells tag' found' → before.length ≤ u.length

/-- A tag that begins nowhere before any other. -/
structure Last (Tells : Text → α → Prop) (t before tag : Text) (found : α) (after : Text) :
    Prop where
  text : t = before ++ (tag ++ after)
  tells : Tells tag found
  last : ∀ u tag' found' v, t = u ++ (tag' ++ v) → Tells tag' found' → u.length ≤ before.length

/-- What is taken off a text is a tag, with what the tag tells. -/
structure Takes (take? : Text → Option (α × Text)) (Tells : Text → α → Prop) : Prop where
  iff : ∀ {t rest : Text} {found : α},
    take? t = some (found, rest) ↔ ∃ tag, t = tag ++ rest ∧ Tells tag found

theorem Takes.ne_none (h : Takes take? Tells) (htag : Tells tag found) (rest : Text) :
    take? (tag ++ rest) ≠ none := by
  rw [h.iff.mpr ⟨tag, rfl, htag⟩]
  exact Option.some_ne_none _

theorem Takes.first (h : Takes take? Tells)
    (hleftmost : leftmost? take? t = some (before, found, after)) :
    ∃ tag, First Tells t before tag found after := by
  obtain ⟨rest, hrest, htake⟩ := leftmost?_eq_some hleftmost
  obtain ⟨tag, rfl, htag⟩ := h.iff.mp htake
  refine ⟨tag, hrest, htag, ?_⟩
  intro u tag' found' v heq htag'
  exact length_le_of_leftmost? hleftmost heq (h.ne_none htag' v)

theorem Takes.last (h : Takes take? Tells)
    (hrightmost : rightmost? take? t = some (before, found, after)) :
    ∃ tag, Last Tells t before tag found after := by
  obtain ⟨rest, hrest, htake⟩ := rightmost?_eq_some hrightmost
  obtain ⟨tag, rfl, htag⟩ := h.iff.mp htake
  refine ⟨tag, hrest, htag, ?_⟩
  intro u tag' found' v heq htag'
  exact length_le_of_rightmost? hrightmost heq (h.ne_none htag' v)

theorem Takes.leftmost?_eq_none_iff (h : Takes take? Tells) :
    leftmost? take? t = none ↔ ∀ tag found, Tells tag found → ¬tag <:+: t := by
  rw [Text.leftmost?_eq_none_iff]
  constructor
  · rintro hnone tag found htag ⟨u, v, rfl⟩
    exact h.ne_none htag v (hnone u (tag ++ v) (List.append_assoc ..))
  · intro hnone u v heq
    cases htake : take? v with
    | none => rfl
    | some parts =>
      obtain ⟨tag, rfl, htag⟩ := h.iff.mp htake
      exact absurd ⟨u, parts.2, by rw [heq, List.append_assoc]⟩ (hnone tag parts.1 htag)

theorem Takes.rightmost?_eq_none_iff (h : Takes take? Tells) :
    rightmost? take? t = none ↔ ∀ tag found, Tells tag found → ¬tag <:+: t := by
  rw [Text.rightmost?_eq_none_iff, ← Text.leftmost?_eq_none_iff, h.leftmost?_eq_none_iff]

/-- The tags of a layout are the fields that fill it, and tell no more than themselves. -/
theorem takes_layout (layout : Layout) :
    Takes layout.take? fun tag field => tag = field ∧ Layout.Fills layout field where
  iff {_ _ field} := by
    rw [Layout.take?_eq_some_iff]
    constructor
    · rintro ⟨rfl, hfills⟩
      exact ⟨field, rfl, rfl, hfills⟩
    · rintro ⟨_, rfl, rfl, hfills⟩
      exact ⟨rfl, hfills⟩

end Tags

end Text

namespace Altitude

def IsTag (tag : Text) : Prop := Layout.Fills below tag ∨ Layout.Fills above tag

/-- What a tag says: feet above the sea, or behind a minus sign below it. -/
inductive Tells : Text → Int → Prop
  | below {digits : Text} (hlength : digits.length = 5) (h : ∀ c ∈ digits, c.isDigit = true) :
    Tells ("/A=-".toList ++ digits) (-(Text.natOfDigits digits : Int))
  | above {digits : Text} (hlength : digits.length = 6) (h : ∀ c ∈ digits, c.isDigit = true) :
    Tells ("/A=".toList ++ digits) (Text.natOfDigits digits)

theorem fills_opening_iff {start : Text} :
    Layout.Fills opening start ↔ start = "/A=".toList := by
  simp [opening, Layout.fills_cons_iff, Layout.fills_nil_iff]

theorem fills_below_iff {tag : Text} :
    Layout.Fills below tag ↔ ∃ digits, tag = "/A=-".toList ++ digits ∧ digits.length = 5 ∧
      ∀ c ∈ digits, c.isDigit = true := by
  simp only [below, Layout.fills_append_iff, Layout.fills_exactly_iff, Layout.fills_columns_iff,
    fills_opening_iff]
  constructor
  · rintro ⟨_, digits, rfl, ⟨_, _, rfl, rfl, rfl⟩, hdigits⟩
    exact ⟨digits, rfl, hdigits⟩
  · rintro ⟨digits, rfl, hdigits⟩
    exact ⟨_, digits, rfl, ⟨_, _, rfl, rfl, rfl⟩, hdigits⟩

theorem fills_above_iff {tag : Text} :
    Layout.Fills above tag ↔ ∃ digits, tag = "/A=".toList ++ digits ∧ digits.length = 6 ∧
      ∀ c ∈ digits, c.isDigit = true := by
  simp only [above, Layout.fills_append_iff, Layout.fills_columns_iff, fills_opening_iff]
  constructor
  · rintro ⟨_, digits, rfl, rfl, hdigits⟩
    exact ⟨digits, rfl, hdigits⟩
  · rintro ⟨digits, rfl, hdigits⟩
    exact ⟨_, digits, rfl, rfl, hdigits⟩

theorem isTag_iff {tag : Text} : IsTag tag ↔ ∃ feet, Tells tag feet := by
  rw [IsTag, fills_below_iff, fills_above_iff]
  constructor
  · rintro (⟨digits, rfl, hlength, hdigits⟩ | ⟨digits, rfl, hlength, hdigits⟩)
    · exact ⟨_, .below hlength hdigits⟩
    · exact ⟨_, .above hlength hdigits⟩
  · rintro ⟨_, ⟨hlength, hdigits⟩ | ⟨hlength, hdigits⟩⟩
    · exact .inl ⟨_, rfl, hlength, hdigits⟩
    · exact .inr ⟨_, rfl, hlength, hdigits⟩

theorem take?_eq_some_iff {t rest : Text} {feet : Int} :
    take? t = some (feet, rest) ↔ ∃ tag, t = tag ++ rest ∧ Tells tag feet := by
  constructor
  · intro h
    unfold take? at h
    split at h
    · next field rest htake =>
      cases h
      obtain ⟨rfl, hfills⟩ := Layout.take?_eq_some_iff.mp htake
      obtain ⟨digits, rfl, hlength, hdigits⟩ := fills_below_iff.mp hfills
      exact ⟨_, rfl, .below hlength hdigits⟩
    · obtain ⟨⟨field, _⟩, htake, heq⟩ := Option.map_eq_some_iff.mp h
      cases heq
      obtain ⟨rfl, hfills⟩ := Layout.take?_eq_some_iff.mp htake
      obtain ⟨digits, rfl, hlength, hdigits⟩ := fills_above_iff.mp hfills
      exact ⟨_, rfl, .above hlength hdigits⟩
  · rintro ⟨_, rfl, ⟨hlength, hdigits⟩ | ⟨hlength, hdigits⟩⟩
    · rw [take?, Layout.take?_append (fills_below_iff.mpr ⟨_, rfl, hlength, hdigits⟩)]
      rfl
    · next digits =>
      have hbelow : below.take? ("/A=".toList ++ digits ++ rest) = none := by
        -- The column of the sign holds a digit.
        obtain ⟨c, digits, rfl⟩ :=
          List.exists_cons_of_ne_nil (List.ne_nil_of_length_eq_add_one hlength)
        have hc : (c == '-') = false := by
          rw [beq_eq_false_iff_ne]
          exact Decimal.ne_minus_of_isDigit (hdigits c List.mem_cons_self)
        simp [below, opening, Layout.exactly, Layout.take?, hc]
      rw [take?, hbelow, Layout.take?_append (fills_above_iff.mpr ⟨_, rfl, hlength, hdigits⟩)]
      rfl

theorem take?_eq_some {t rest : Text} {feet : Int} (h : take? t = some (feet, rest)) :
    ∃ tag, t = tag ++ rest ∧ IsTag tag := by
  obtain ⟨tag, heq, htells⟩ := take?_eq_some_iff.mp h
  exact ⟨tag, heq, isTag_iff.mpr ⟨feet, htells⟩⟩

theorem takes_tells : Text.Takes take? Tells := ⟨take?_eq_some_iff⟩

theorem leftmost?_eq_none_iff {t : Text} :
    Text.leftmost? take? t = none ↔ ∀ tag, IsTag tag → ¬tag <:+: t := by
  rw [takes_tells.leftmost?_eq_none_iff]
  constructor
  · intro h tag htag
    obtain ⟨feet, htells⟩ := isTag_iff.mp htag
    exact h tag feet htells
  · intro h tag feet htells
    exact h tag (isTag_iff.mpr ⟨feet, htells⟩)

end Altitude

namespace Telemetry

theorem takeBlock?_eq_some {t digits rest : Text} (h : takeBlock? t = some (digits, rest)) :
    t = '|' :: digits ++ '|' :: rest ∧ ∀ c ∈ digits, Base91.isDigit c = true := by
  unfold takeBlock? at h
  split at h
  · next t =>
    dsimp only at h
    split at h
    · next hrest =>
      split at h
      · cases h
        rw [List.cons_append, ← hrest, List.takeWhile_append_dropWhile]
        exact ⟨rfl, fun c hc => List.mem_takeWhile_imp hc⟩
      · cases h
    · cases h
  · cases h

/-- A block has two bars. -/
theorem split_eq_none_of_count_le {t : Text} (h : t.count '|' ≤ 1) : split t = (none, t) := by
  unfold split
  split
  · split
    · next before digits after hfound =>
      obtain ⟨rest, rfl, htake⟩ := Text.leftmost?_eq_some hfound
      rw [(takeBlock?_eq_some htake).1] at h
      simp only [List.cons_append, List.count_append, List.count_cons_self] at h
      omega
    · rfl
  · rfl

theorem sublist_split (t : Text) : (split t).2.Sublist t := by
  unfold split
  split
  · split
    · next before digits after hfound =>
      split
      · obtain ⟨rest, rfl, htake⟩ := Text.leftmost?_eq_some hfound
        rw [(takeBlock?_eq_some htake).1]
        refine (List.Sublist.refl before).append ?_
        exact (List.sublist_cons_self '|' after).trans (List.sublist_append_right ('|' :: digits) _)
      · exact List.Sublist.refl t
    · exact List.Sublist.refl t
  · exact List.Sublist.refl t

end Telemetry

namespace Dao

/-- The five characters of a tag. -/
def tag (dao : Dao) : Text := ['!', dao.datum, dao.latitude, dao.longitude, '!']

/-- The characters that a tag may hold. Its digits may be blank. -/
structure IsSent (dao : Dao) : Prop where
  datum : Text.between '!' '\x7b' dao.datum = true
  latitude : Text.between ' ' '\x7b' dao.latitude = true
  longitude : Text.between ' ' '\x7b' dao.longitude = true

theorem take?_eq_some_iff {t rest : Text} {dao : Dao} :
    take? t = some (dao, rest) ↔ t = dao.tag ++ rest ∧ dao.IsSent := by
  constructor
  · intro h
    obtain ⟨⟨field, _⟩, hfield, heq⟩ := Option.map_eq_some_iff.mp h
    obtain ⟨rfl, hfills⟩ := Layout.take?_eq_some_iff.mp hfield
    simp only [layout, Layout.columns, Layout.exactly, List.replicate, List.cons_append,
      List.nil_append, Layout.fills_cons_iff, Layout.fills_nil_iff] at hfills
    obtain ⟨a, _, rfl, ha, datum, _, rfl, hdatum, latitude, _, rfl, hlatitude, longitude, _, rfl,
      hlongitude, b, _, rfl, hb, rfl⟩ := hfills
    cases heq
    rw [eq_of_beq ha, eq_of_beq hb]
    exact ⟨rfl, hdatum, hlatitude, hlongitude⟩
  · rintro ⟨rfl, hsent⟩
    have hfills : Layout.Fills layout dao.tag :=
      ⟨rfl, hsent.datum, hsent.latitude, hsent.longitude, rfl, trivial⟩
    rw [take?, Layout.take?_append hfills]
    rfl

/-- A tag as it is written. -/
def Tells (tag : Text) (dao : Dao) : Prop := tag = dao.tag ∧ dao.IsSent

theorem takes_tells : Text.Takes take? Tells where
  iff {_ _ dao} := by
    rw [take?_eq_some_iff]
    constructor
    · rintro ⟨rfl, hsent⟩
      exact ⟨dao.tag, rfl, rfl, hsent⟩
    · rintro ⟨_, rfl, rfl, hsent⟩
      exact ⟨rfl, hsent⟩

/-- Precision tags begin and end with an exclamation mark. -/
theorem take?_eq_some {t rest : Text} {dao : Dao} (h : take? t = some (dao, rest)) :
    t = '!' :: dao.datum :: dao.latitude :: dao.longitude :: '!' :: rest ∧
      Text.between ' ' '\x7b' dao.latitude = true ∧
      Text.between ' ' '\x7b' dao.longitude = true := by
  obtain ⟨rfl, hsent⟩ := take?_eq_some_iff.mp h
  exact ⟨rfl, hsent.latitude, hsent.longitude⟩

/-- All but blanks are digits to the base 91. -/
theorem isDigit_of_ne_blank {c : Char} (h : Text.between ' ' '\x7b' c = true) (hblank : c ≠ ' ') :
    Base91.isDigit c = true := by
  obtain ⟨hlow, hhigh⟩ := Text.between_iff.mp h
  have hne : ' '.toNat ≠ c.toNat := fun heq => hblank (Char.toNat_inj.mp heq.symm)
  exact Text.between_iff.mpr ⟨Nat.lt_of_le_of_ne hlow hne, hhigh⟩

theorem split_eq_none_of_count_le {t : Text} (h : t.count '!' ≤ 1) : split t = (none, t) := by
  unfold split
  split
  · split
    · next before dao after hfound =>
      obtain ⟨rest, rfl, htake⟩ := Text.rightmost?_eq_some hfound
      obtain ⟨rfl, -, -⟩ := take?_eq_some htake
      have hmore : 0 < (dao.datum :: dao.latitude :: dao.longitude :: '!' :: after).count '!' :=
        List.count_pos_iff.mpr (by simp)
      rw [List.count_append, List.count_cons_self] at h
      omega
    · rfl
  · rfl

theorem split_eq_none {t : Text} (h : '!' ∉ t) : split t = (none, t) :=
  split_eq_none_of_count_le (by rw [List.count_eq_zero.mpr h]; exact Nat.zero_le 1)

theorem sublist_split (t : Text) : (split t).2.Sublist t := by
  unfold split
  split
  · split
    · next before dao after hfound =>
      obtain ⟨rest, rfl, htake⟩ := Text.rightmost?_eq_some hfound
      obtain ⟨rfl, -, -⟩ := take?_eq_some htake
      refine (List.Sublist.refl before).append ?_
      exact List.sublist_append_right ['!', dao.datum, dao.latitude, dao.longitude, '!'] after
    · exact List.Sublist.refl t
  · exact List.Sublist.refl t

end Dao

namespace MicE

theorem exists_hexDigit?_eq_some {c : Char} (h : isHexDigit c = true) :
    ∃ n, Text.hexDigit? c = some n ∧ n < 16 := by
  rw [isHexDigit, Bool.or_eq_true] at h
  rw [Text.hexDigit?]
  by_cases hdecimal : c.isDigit = true
  · have hbounds := Char.isDigit_iff_toNat.mp hdecimal
    rw [if_pos hdecimal]
    refine ⟨_, rfl, ?_⟩
    rw [Text.digitValue]
    simp only [Char.reduceToNat] at hbounds ⊢
    omega
  · have hletter := h.resolve_left hdecimal
    have hbounds := Text.between_iff.mp hletter
    rw [if_neg hdecimal, if_pos hletter]
    refine ⟨_, rfl, ?_⟩
    simp only [Char.reduceToNat] at hbounds ⊢
    omega

theorem exists_hexBytes?_eq_some {t : Text} (hlength : t.length % 2 = 0)
    (hdigits : ∀ c ∈ t, isHexDigit c = true) : ∃ bytes, hexBytes? t = some bytes := by
  induction t using hexBytes?.induct with
  | case1 => exact ⟨[], rfl⟩
  | case2 => simp at hlength
  | case3 a b t ih =>
    simp only [List.forall_mem_cons] at hdigits
    obtain ⟨ha, hb, ht⟩ := hdigits
    obtain ⟨high, hhigh, _⟩ := exists_hexDigit?_eq_some ha
    obtain ⟨low, hlow, _⟩ := exists_hexDigit?_eq_some hb
    have heven : t.length % 2 = 0 := by
      rw [List.length_cons, List.length_cons] at hlength
      omega
    obtain ⟨bytes, hbytes⟩ := ih heven ht
    rw [hexBytes?, hhigh, hlow, hbytes]
    exact ⟨_, rfl⟩

/-- Behind the mark of the channels stand whole bytes. -/
theorem isHexDigit_of_mem_channels {layout : Layout} {field : Text}
    (hlayout : layout ∈ channelLayouts) (h : Layout.Fills layout field) :
    (field.drop 1).length % 2 = 0 ∧ ∀ c ∈ field.drop 1, isHexDigit c = true := by
  have hcolumns : ∃ mark n, layout = mark :: Layout.columns n isHexDigit ∧ n % 2 = 0 := by
    rw [channelLayouts, List.mem_cons, List.mem_singleton] at hlayout
    rcases hlayout with rfl | rfl
    · exact ⟨_, 10, rfl, rfl⟩
    · exact ⟨_, 4, rfl, rfl⟩
  obtain ⟨mark, n, rfl, heven⟩ := hcolumns
  obtain ⟨c, digits, rfl, _, hfills⟩ := Layout.fills_cons_iff.mp h
  obtain ⟨hlength, hdigits⟩ := Layout.fills_columns_iff.mp hfills
  rw [List.drop_one, List.tail_cons, hlength]
  exact ⟨heven, hdigits⟩

/-- Channels are only looked for in columns of hexadecimal digits, so reading them never fails. -/
theorem exists_splitChannels_eq_ok (t : Text) :
    ∃ channels rest, splitChannels t = .ok (channels, rest) ∧ rest.Sublist t := by
  unfold splitChannels
  split
  · exact ⟨none, t, rfl, List.Sublist.refl t⟩
  · next field rest hfind =>
    obtain ⟨layout, hlayout, htake⟩ := List.exists_of_findSome?_eq_some hfind
    obtain ⟨heven, hdigits⟩ :=
      isHexDigit_of_mem_channels hlayout (Layout.take?_eq_some_iff.mp htake).2
    obtain ⟨bytes, hbytes⟩ := exists_hexBytes?_eq_some heven hdigits
    rw [hbytes]
    exact ⟨some bytes, rest, rfl, (Layout.suffix_of_take? htake).sublist⟩

theorem exists_decode_of_altitudeLayout {field : Text} (h : Layout.Fills altitudeLayout field) :
    ∃ n, Base91.decode (field.take 3) = .ok n := by
  obtain ⟨digits, mark, rfl, hcolumns, _⟩ := Layout.fills_append_iff.mp h
  obtain ⟨hlength, hdigits⟩ := Layout.fills_columns_iff.mp hcolumns
  rw [List.take_left' hlength]
  exact Base91.exists_decode_eq_ok hdigits

/-- An altitude is three digits to the base 91, so reading it never fails either. -/
theorem exists_splitAltitude_eq_ok (t : Text) :
    ∃ altitude rest, splitAltitude t = .ok (altitude, rest) ∧ rest.Sublist t := by
  unfold splitAltitude
  split
  · split
    · exact ⟨none, t, rfl, List.Sublist.refl t⟩
    · next before field after hfound =>
      obtain ⟨rest, rfl, htake⟩ := Text.rightmost?_eq_some hfound
      obtain ⟨n, hn⟩ := exists_decode_of_altitudeLayout (Layout.take?_eq_some_iff.mp htake).2
      rw [hn]
      refine ⟨_, _, rfl, (List.Sublist.refl before).append ?_⟩
      exact (Layout.suffix_of_take? htake).sublist
  · exact ⟨none, t, rfl, List.Sublist.refl t⟩

end MicE

end Aprs
