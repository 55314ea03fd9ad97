import Aprs.Line
import Aprs.Proofs.HeaderGrammar

/-!
What weather leaves of a text: tokens are cut off its start, behind a direction and a speed if there
are any, and the rest is kept as it is. The one letter that is rewritten beforehand, the `s` of a
wind speed behind a direction, is found by its place alone. Where no token takes it up it stays
behind as a capital, in a text that was never received.
-/

namespace Aprs.Weather

variable {t before after rest value direction speed : Text} {token : Token} {found : List Token}
  {key : Char}

namespace Token

def text (token : Token) : Text := token.key :: token.value

/-- A key and a character for each of its columns. -/
def IsToken (t : Text) : Prop := ∃ layout ∈ layouts, Layout.Fills layout t

theorem take?_cons_of_isKey (hkey : isKey key = true) (t : Text) :
    take? (key :: t) =
      ((Layout.columns 3 isColumn).take? t).map fun (value, rest) => (⟨key, value⟩, rest) := by
  have hhumidity : (key == 'h') = false := by
    rw [beq_eq_false_iff_ne]
    rintro rfl
    cases hkey
  have hpressure : (key == 'b') = false := by
    rw [beq_eq_false_iff_ne]
    rintro rfl
    cases hkey
  rw [take?, layouts]
  simp only [List.findSome?_cons, Layout.take?, hkey, hhumidity, hpressure, if_true]
  cases (Layout.columns 3 isColumn).take? t <;> rfl

theorem isToken_cons_iff (hkey : isKey key = true) :
    IsToken (key :: value) ↔ Layout.Fills (Layout.columns 3 isColumn) value := by
  constructor
  · rintro ⟨layout, hlayout, hfills⟩
    simp only [layouts, List.mem_cons, List.not_mem_nil, or_false] at hlayout
    rcases hlayout with rfl | rfl | rfl
    · exact hfills.2
    · rw [eq_of_beq hfills.1] at hkey
      cases hkey
    · rw [eq_of_beq hfills.1] at hkey
      cases hkey
  · exact fun hvalue => ⟨_, List.mem_cons_self, hkey, hvalue⟩

theorem isToken_cons_of_isDigit (hkey : isKey key = true)
    (hvalue : Layout.Fills (Layout.columns 3 Char.isDigit) value) : IsToken (key :: value) := by
  obtain ⟨hlength, hdigits⟩ := Layout.fills_columns_iff.mp hvalue
  refine (isToken_cons_iff hkey).mpr (Layout.fills_columns_iff.mpr ⟨hlength, fun c hc => ?_⟩)
  rw [isColumn, Text.isDigitOrFiller, hdigits c hc]
  rfl

theorem take?_eq_some_iff :
    take? t = some (token, rest) ↔ t = token.text ++ rest ∧ IsToken token.text := by
  constructor
  · intro h
    rw [take?, Option.bind_eq_some_iff] at h
    obtain ⟨⟨field, after⟩, hfind, hfield⟩ := h
    obtain ⟨layout, hlayout, htake⟩ := List.exists_of_findSome?_eq_some hfind
    obtain ⟨rfl, hfills⟩ := Layout.take?_eq_some_iff.mp htake
    cases field with
    | nil => cases hfield
    | cons key value =>
      cases hfield
      exact ⟨rfl, layout, hlayout, hfills⟩
  · obtain ⟨key, value⟩ := token
    rintro ⟨rfl, layout, hlayout, hfills⟩
    have htake := Layout.take?_append hfills rest
    simp only [layouts, List.mem_cons, List.not_mem_nil, or_false] at hlayout
    rcases hlayout with rfl | rfl | rfl
    · rw [text, List.cons_append, take?_cons_of_isKey hfills.1, Layout.take?_append hfills.2,
        Option.map_some]
    · obtain rfl : key = 'h' := eq_of_beq hfills.1
      rw [take?, layouts, List.findSome?_cons, List.findSome?_cons, htake]
      rfl
    · obtain rfl : key = 'b' := eq_of_beq hfills.1
      rw [take?, layouts, List.findSome?_cons, List.findSome?_cons, List.findSome?_cons, htake]
      rfl

end Token

open Token

/-- A text cut into tokens and a rest that begins with none. -/
structure Run (t : Text) (found : List Token) (rest : Text) : Prop where
  text_eq : t = (found.map text).flatten ++ rest
  isToken : ∀ token ∈ found, IsToken token.text
  ended : take? rest = none

theorem run_nil_iff : Run t [] rest ↔ t = rest ∧ take? t = none := by
  constructor
  · rintro ⟨rfl, -, hended⟩
    exact ⟨rfl, hended⟩
  · rintro ⟨rfl, hended⟩
    exact ⟨rfl, nofun, hended⟩

theorem run_cons_iff :
    Run t (token :: found) rest ↔
      IsToken token.text ∧ ∃ after, t = token.text ++ after ∧ Run after found rest := by
  constructor
  · rintro ⟨rfl, htokens, hended⟩
    obtain ⟨htoken, htokens⟩ := List.forall_mem_cons.mp htokens
    exact ⟨htoken, _, by simp, rfl, htokens, hended⟩
  · rintro ⟨htoken, _, rfl, rfl, htokens, hended⟩
    exact ⟨by simp, List.forall_mem_cons.mpr ⟨htoken, htokens⟩, hended⟩

/-- The characters of a text are steps enough to cut it. -/
theorem run_tokensUpTo {fuel : Nat} (hfuel : t.length ≤ fuel) :
    Run t (tokensUpTo fuel t).1 (tokensUpTo fuel t).2 := by
  induction fuel generalizing t with
  | zero =>
    rw [List.length_eq_zero_iff.mp (Nat.le_zero.mp hfuel)]
    exact run_nil_iff.mpr ⟨rfl, rfl⟩
  | succ fuel ih =>
    rw [tokensUpTo]
    cases htake : take? t with
    | none => exact run_nil_iff.mpr ⟨rfl, htake⟩
    | some parts =>
      obtain ⟨token, after⟩ := parts
      obtain ⟨rfl, htoken⟩ := take?_eq_some_iff.mp htake
      have hafter : after.length ≤ fuel := by
        rw [text, List.cons_append, List.length_cons, List.length_append] at hfuel
        omega
      exact run_cons_iff.mpr ⟨htoken, after, rfl, ih hafter⟩

theorem run_tokens (t : Text) : Run t (tokens t).1 (tokens t).2 := run_tokensUpTo (Nat.le_refl _)

theorem Run.unique {found' : List Token} {rest' : Text} (h : Run t found rest)
    (h' : Run t found' rest') : found = found' ∧ rest = rest' := by
  induction found generalizing t found' with
  | nil =>
    obtain ⟨rfl, hended⟩ := run_nil_iff.mp h
    cases found' with
    | nil => exact ⟨rfl, (run_nil_iff.mp h').1⟩
    | cons token found' =>
      obtain ⟨htoken, after, rfl, -⟩ := run_cons_iff.mp h'
      rw [take?_eq_some_iff.mpr ⟨rfl, htoken⟩] at hended
      cases hended
  | cons token found ih =>
    obtain ⟨htoken, after, rfl, hafter⟩ := run_cons_iff.mp h
    have htake := take?_eq_some_iff.mpr ⟨Eq.refl (token.text ++ after), htoken⟩
    cases found' with
    | nil =>
      rw [(run_nil_iff.mp h').2] at htake
      cases htake
    | cons token' found' =>
      obtain ⟨htoken', after', heq, hafter'⟩ := run_cons_iff.mp h'
      cases htake.symm.trans (take?_eq_some_iff.mpr ⟨heq, htoken'⟩)
      obtain ⟨rfl, rfl⟩ := ih hafter hafter'
      exact ⟨rfl, rfl⟩

theorem tokens_eq (h : Run t found rest) : tokens t = (found, rest) := by
  obtain ⟨hfound, hrest⟩ := (run_tokens t).unique h
  rw [← hfound, ← hrest]

section Wind

/-- A text that begins like a direction and goes on with an `s` where its speed would stand. -/
structure Speeds (t before after : Text) : Prop where
  text_eq : t = before ++ 's' :: after
  head? : before.head? = some 'c'
  byteLength : before.byteLength = 4

theorem Speeds.unique {before' after' : Text} (h : Speeds t before after)
    (h' : Speeds t before' after') : before = before' ∧ after = after' := by
  have hsplit := Text.splitAtByte?_eq_some_iff.mpr ⟨h.text_eq, h.byteLength⟩
  have hsplit' := Text.splitAtByte?_eq_some_iff.mpr ⟨h'.text_eq, h'.byteLength⟩
  cases hsplit.symm.trans hsplit'
  exact ⟨rfl, rfl⟩

theorem not_speeds_of_windLayout (h : windLayout.take? t = some (value, rest))
    (before after : Text) : ¬Speeds t before after := by
  intro hspeeds
  obtain ⟨heq, hfills⟩ := Layout.take?_eq_some_iff.mp h
  obtain ⟨c, u, rfl, hc, -⟩ := Layout.fills_cons_iff.mp hfills
  have hhead : t.head? = some 'c' := by
    rw [hspeeds.text_eq, List.head?_append, hspeeds.head?]
    rfl
  rw [heq, List.cons_append, List.head?_cons, Option.some_inj] at hhead
  rw [hhead] at hc
  cases hc

theorem take?_windLayout (hdirection : Layout.Fills (Layout.columns 3 Char.isDigit) direction)
    (hspeed : Layout.Fills (Layout.columns 3 Char.isDigit) speed) (rest : Text) :
    windLayout.take? (direction ++ '/' :: speed ++ rest) =
      some (direction ++ '/' :: speed, rest) := by
  apply Layout.take?_append
  rw [← List.singleton_append, ← List.append_assoc]
  exact (hdirection.append (Layout.fills_exactly_iff.mpr rfl)).append hspeed

theorem spellOutWind_append (hdirection : Layout.Fills (Layout.columns 3 Char.isDigit) direction)
    (hspeed : Layout.Fills (Layout.columns 3 Char.isDigit) speed) (rest : Text) :
    spellOutWind (direction ++ '/' :: speed ++ rest) =
      'c' :: direction ++ 'S' :: speed ++ rest := by
  have hlength : direction.length = 3 := Layout.length_eq_of_fills hdirection
  have hdrop : (direction ++ '/' :: speed).drop 4 = speed := by
    rw [← List.singleton_append, ← List.append_assoc]
    exact List.drop_left' (by rw [List.length_append, hlength]; rfl)
  rw [spellOutWind, take?_windLayout hdirection hspeed]
  dsimp only
  rw [hdrop, List.take_left' hlength]

/-- The three ways to spell out the wind. -/
theorem spellOutWind_cases (t : Text) :
    (∃ direction speed rest, t = direction ++ '/' :: speed ++ rest ∧
        Layout.Fills (Layout.columns 3 Char.isDigit) direction ∧
        Layout.Fills (Layout.columns 3 Char.isDigit) speed ∧
        (∀ before after, ¬Speeds t before after) ∧
        spellOutWind t = 'c' :: direction ++ 'S' :: speed ++ rest) ∨
      (∃ before after, Speeds t before after ∧ spellOutWind t = before ++ 'S' :: after) ∨
      (∀ before after, ¬Speeds t before after) ∧ spellOutWind t = t := by
  cases htake : windLayout.take? t with
  | some parts =>
    have hspeeds := not_speeds_of_windLayout htake
    obtain ⟨heq, hfills⟩ := Layout.take?_eq_some_iff.mp htake
    obtain ⟨head, speed, hfield, hhead, hspeed⟩ := Layout.fills_append_iff.mp hfills
    obtain ⟨direction, slash, rfl, hdirection, hslash⟩ := Layout.fills_append_iff.mp hhead
    rw [hfield, Layout.fills_exactly_iff.mp hslash, List.append_assoc direction,
      List.singleton_append] at heq
    exact .inl ⟨direction, speed, parts.2, heq, hdirection, hspeed, hspeeds,
      by rw [heq, spellOutWind_append hdirection hspeed]⟩
  | none =>
    rw [spellOutWind, htake]
    dsimp only
    split
    · next before after hhead hsplit =>
      obtain ⟨rfl, hlength⟩ := Text.splitAtByte?_eq_some_iff.mp hsplit
      refine .inr (.inl ⟨before, after, ⟨rfl, ?_, hlength⟩, rfl⟩)
      cases before with
      | nil => cases hlength
      | cons c before => exact hhead
    · next hnone =>
      refine .inr (.inr ⟨fun before after h => ?_, rfl⟩)
      refine hnone before after ?_ (Text.splitAtByte?_eq_some_iff.mpr ⟨h.text_eq, h.byteLength⟩)
      rw [h.text_eq, List.head?_append, h.head?]
      rfl

theorem isAscii_of_isColumn {c : Char} (h : isColumn c = true) : c.toNat < 128 := by
  simp only [isColumn, Text.isDigitOrFiller, Bool.or_eq_true, beq_iff_eq] at h
  rcases h with ((hdigit | rfl) | rfl) | rfl
  · have hhigh : c.toNat ≤ 57 := (Char.isDigit_iff_toNat.mp hdigit).2
    omega
  all_goals decide

/-- Four bytes that a direction begins with are a token, or no token begins there. -/
theorem isToken_of_take? (hhead : before.head? = some 'c') (hlength : before.byteLength = 4)
    {u : Text} (htake : take? (before ++ u) = some (token, rest)) : before = token.text := by
  obtain ⟨heq, htoken⟩ := take?_eq_some_iff.mp htake
  have hkey : token.key = 'c' := by
    have hfirst := congrArg List.head? heq
    rw [List.head?_append, hhead] at hfirst
    exact (Option.some_inj.mp hfirst).symm
  rw [text, hkey] at htoken
  obtain ⟨hvalue, hcolumns⟩ :=
    Layout.fills_columns_iff.mp ((isToken_cons_iff (by decide)).mp htoken)
  have hbytes : token.text.byteLength = 4 := by
    rw [Text.byteLength_eq_length, text, List.length_cons, hvalue]
    rw [text, List.forall_mem_cons, hkey]
    exact ⟨by decide, fun c hc => isAscii_of_isColumn (hcolumns c hc)⟩
  have hsplit := Text.splitAtByte?_eq_some_iff.mpr ⟨heq, hbytes⟩
  have hsplit' := Text.splitAtByte?_eq_some_iff.mpr ⟨Eq.refl (before ++ u), hlength⟩
  cases hsplit'.symm.trans hsplit
  rfl

end Wind

/-- What is left of a text without its tokens, and without a direction and a speed in front of
them. -/
def Cut (t rest : Text) : Prop :=
  ∃ wind after found, t = wind ++ after ∧ (wind = [] ∨ Layout.Fills windLayout wind) ∧
    Run after found rest

theorem Cut.suffix (h : Cut t rest) : rest <:+ t := by
  obtain ⟨wind, _, found, rfl, -, rfl, -, -⟩ := h
  rw [← List.append_assoc]
  exact List.suffix_append _ rest

/-- The `s` is rewritten where it and its columns are no token, or what stands before it is none. -/
def Overwritten (t : Text) : Prop :=
  ∃ before after, Speeds t before after ∧ ¬(IsToken before ∧ (take? ('s' :: after)).isSome = true)

theorem Run.wind (h : Run t found rest) (hdirection : IsToken ('c' :: direction))
    (hspeed : IsToken ('S' :: speed)) :
    Run ('c' :: direction ++ 'S' :: speed ++ t) (⟨'c', direction⟩ :: ⟨'S', speed⟩ :: found)
      rest := by
  refine run_cons_iff.mpr ⟨hdirection, 'S' :: speed ++ t, by simp [text], ?_⟩
  exact run_cons_iff.mpr ⟨hspeed, t, rfl, h⟩

theorem cut_of_wind (hdirection : Layout.Fills (Layout.columns 3 Char.isDigit) direction)
    (hspeed : Layout.Fills (Layout.columns 3 Char.isDigit) speed) :
    Cut (direction ++ '/' :: speed ++ rest)
      (tokens ('c' :: direction ++ 'S' :: speed ++ rest)).2 := by
  have hrun := (run_tokens rest).wind (isToken_cons_of_isDigit rfl hdirection)
    (isToken_cons_of_isDigit rfl hspeed)
  obtain ⟨-, hfills⟩ := Layout.take?_eq_some_iff.mp (take?_windLayout hdirection hspeed rest)
  rw [tokens_eq hrun]
  exact ⟨direction ++ '/' :: speed, rest, _, rfl, .inr hfills, run_tokens rest⟩

/-- Behind a direction the `s` is taken up, or left behind as a capital with or without the
direction. -/
theorem rest_of_speeds (h : Speeds t before after) :
    (IsToken before ∧ (take? ('s' :: after)).isSome = true ∧
        Cut t (tokens (before ++ 'S' :: after)).2) ∨
      (IsToken before ∧ take? ('s' :: after) = none ∧
        (tokens (before ++ 'S' :: after)).2 = 'S' :: after) ∨
      (¬IsToken before ∧ (tokens (before ++ 'S' :: after)).2 = before ++ 'S' :: after) := by
  obtain ⟨rfl, hhead, hlength⟩ := h
  by_cases hbefore : IsToken before
  · cases before with
    | nil => cases hlength
    | cons c value =>
      obtain rfl : c = 'c' := Option.some_inj.mp hhead
      have hcapital := take?_cons_of_isKey (show isKey 'S' = true from rfl) after
      rw [take?_cons_of_isKey rfl]
      cases htake : (Layout.columns 3 isColumn).take? after with
      | none =>
        rw [htake] at hcapital
        have hrun : Run ('c' :: value ++ 'S' :: after) [⟨'c', value⟩] ('S' :: after) :=
          run_cons_iff.mpr ⟨hbefore, _, rfl, run_nil_iff.mpr ⟨rfl, hcapital⟩⟩
        exact .inr (.inl ⟨hbefore, rfl, congrArg Prod.snd (tokens_eq hrun)⟩)
      | some parts =>
        obtain ⟨speed, rest⟩ := parts
        obtain ⟨rfl, hspeed⟩ := Layout.take?_eq_some_iff.mp htake
        have hrun : ∀ key, isKey key = true → Run ('c' :: value ++ key :: (speed ++ rest))
            (⟨'c', value⟩ :: ⟨key, speed⟩ :: (tokens rest).1) (tokens rest).2 := fun key hkey =>
          run_cons_iff.mpr ⟨hbefore, _, rfl,
            run_cons_iff.mpr ⟨(isToken_cons_iff hkey).mpr hspeed, _, rfl, run_tokens rest⟩⟩
        refine .inl ⟨hbefore, rfl, ?_⟩
        rw [tokens_eq (hrun 'S' rfl)]
        exact ⟨[], _, _, rfl, .inl rfl, hrun 's' rfl⟩
  · refine .inr (.inr ⟨hbefore, ?_⟩)
    cases htake : take? (before ++ 'S' :: after) with
    | none => rw [tokens_eq (run_nil_iff.mpr ⟨rfl, htake⟩)]
    | some parts =>
      rw [isToken_of_take? hhead hlength htake] at hbefore
      exact absurd (take?_eq_some_iff.mp htake).2 hbefore

theorem overwritten_iff (h : Speeds t before after) :
    Overwritten t ↔ ¬(IsToken before ∧ (take? ('s' :: after)).isSome = true) := by
  constructor
  · rintro ⟨_, _, h', hlost⟩
    obtain ⟨rfl, rfl⟩ := h.unique h'
    exact hlost
  · exact fun hlost => ⟨before, after, h, hlost⟩

theorem not_suffix_of_speeds (h : Speeds t before after) : ¬('S' :: after <:+ t) := by
  intro hcapital
  have hsmall : 's' :: after <:+ t := by
    rw [h.text_eq]
    exact List.suffix_append before _
  have heq := (List.suffix_of_suffix_length_le hcapital hsmall (Nat.le_refl _)).eq_of_length rfl
  exact absurd (List.cons.inj heq).1 (by decide)

/-- The capital that is written for the `s` is left behind, with the direction before it if that is
no token. -/
def LeavesCapital (t rest : Text) : Prop :=
  ∃ before after, Speeds t before after ∧
    (IsToken before ∧ rest = 'S' :: after ∨ ¬IsToken before ∧ rest = before ++ 'S' :: after)

theorem LeavesCapital.not_suffix (h : LeavesCapital t rest) : ¬rest <:+ t := by
  obtain ⟨before, after, hspeeds, ⟨-, rfl⟩ | ⟨-, rfl⟩⟩ := h
  · exact not_suffix_of_speeds hspeeds
  · exact fun hsuffix =>
      not_suffix_of_speeds hspeeds ((List.suffix_append before _).trans hsuffix)

theorem cut_or_leavesCapital (t : Text) :
    ¬Overwritten t ∧ Cut t (tokens (spellOutWind t)).2 ∨
      Overwritten t ∧ LeavesCapital t (tokens (spellOutWind t)).2 := by
  rcases spellOutWind_cases t with
    ⟨direction, speed, rest, rfl, hdirection, hspeed, hnone, hspell⟩ |
      ⟨before, after, hspeeds, hspell⟩ | ⟨hnone, hspell⟩
  · rw [hspell]
    exact .inl ⟨fun ⟨_, _, h, _⟩ => hnone _ _ h, cut_of_wind hdirection hspeed⟩
  · rw [hspell, overwritten_iff hspeeds]
    rcases rest_of_speeds hspeeds with ⟨hbefore, htaken, hcut⟩ | ⟨hbefore, hlost, hrest⟩ |
      ⟨hbefore, hrest⟩
    · exact .inl ⟨not_not.mpr ⟨hbefore, htaken⟩, hcut⟩
    · refine .inr ⟨fun h => ?_, before, after, hspeeds, .inl ⟨hbefore, hrest⟩⟩
      rw [hlost] at h
      cases h.2
    · exact .inr ⟨fun h => hbefore h.1, before, after, hspeeds, .inr ⟨hbefore, hrest⟩⟩
  · rw [hspell]
    exact .inl ⟨fun ⟨_, _, h, _⟩ => hnone _ _ h, [], t, _, rfl, .inl rfl, run_tokens t⟩

theorem fills_isColumn {t : Text}
    (h : Layout.Fills (Layout.columns 3 Text.isDigitOrFiller) t) :
    Layout.Fills (Layout.columns 3 isColumn) t ∧ t.byteLength = 3 := by
  obtain ⟨hlength, hfiller⟩ := Layout.fills_columns_iff.mp h
  have hcolumns : ∀ c ∈ t, isColumn c = true := by
    intro c hc
    rw [isColumn, hfiller c hc]
    rfl
  refine ⟨Layout.fills_columns_iff.mpr ⟨hlength, hcolumns⟩, ?_⟩
  rw [Text.byteLength_eq_length fun c hc => isAscii_of_isColumn (hcolumns c hc), hlength]

/-- A report without a position has columns for direction and speed, so its `s` is taken up. -/
theorem not_overwritten_of_decode? {now : Int} {body : Text} {report : WeatherReport}
    (h : WeatherReport.decode? now body = some report) : ¬Overwritten (body.drop 8) := by
  obtain ⟨⟨field, rest⟩, htake, -⟩ := Option.map_eq_some_iff.mp h
  obtain ⟨rfl, hfills⟩ := Layout.take?_eq_some_iff.mp htake
  simp only [WeatherReport.required, Layout.fills_append_iff] at hfills
  obtain ⟨_, temperature, rfl, ⟨_, t, rfl, ⟨_, gust, rfl, ⟨_, g, rfl, ⟨_, speed, rfl, ⟨_, s, rfl,
    ⟨_, direction, rfl, ⟨digits, c, rfl, hdigits, hc⟩, hdirection⟩, hs⟩, hspeed⟩, -⟩, -⟩, -⟩, -⟩ :=
    hfills
  obtain rfl := Layout.fills_exactly_iff.mp hc
  obtain rfl := Layout.fills_exactly_iff.mp hs
  obtain ⟨hdirection, hlength⟩ := fills_isColumn hdirection
  obtain ⟨hspeed, -⟩ := fills_isColumn hspeed
  set after := speed ++ (g ++ (gust ++ (t ++ (temperature ++ rest)))) with hafter
  have hspeeds : Speeds ('c' :: direction ++ 's' :: after) ('c' :: direction) after :=
    ⟨rfl, rfl, by rw [Text.byteLength_cons, hlength]; rfl⟩
  have htaken : take? ('s' :: after) =
      some (⟨'s', speed⟩, g ++ (gust ++ (t ++ (temperature ++ rest)))) := by
    rw [take?_cons_of_isKey rfl, hafter, Layout.take?_append hspeed]
    rfl
  have hdrop : digits ++ ['c'] ++ direction ++ ['s'] ++ speed ++ g ++ gust ++ t ++ temperature ++
      rest = digits ++ ('c' :: direction ++ 's' :: after) := by simp [hafter]
  have height : digits.length = 8 := Layout.length_eq_of_fills hdigits
  rw [hdrop, List.drop_left' height, overwritten_iff hspeeds, htaken]
  exact not_not.mpr ⟨(isToken_cons_iff rfl).mpr hdirection, rfl⟩

/-- Weather read on top of what is known already, with the text that is left. -/
def splitOnto (earlier : Option (Weather Quantity)) (t : Text) : Option (Weather Quantity) × Text :=
  let (tokens, rest) := tokens (spellOutWind t)
  let w := tokens.foldl apply (earlier.getD {})
  (if w.isEmpty then none else some w, rest)

/-- What weather leaves does not depend on what is known already. It is the text without its tokens,
and without a direction and a speed in front of them, just where no letter is overwritten; where one
is, the capital stays behind, and what is left is no end of the text that was received. -/
theorem splitOnto_cut (earlier : Option (Weather Quantity)) (t : Text) :
    let rest := (splitOnto earlier t).2
    rest = (split t).2 ∧ (Cut t rest ↔ ¬Overwritten t) ∧
      (Overwritten t → LeavesCapital t rest ∧ ¬rest <:+ t) ∧
      ∀ now report, WeatherReport.decode? now t = some report → ¬Overwritten (t.drop 8) := by
  intro rest
  refine ⟨rfl, ?_, ?_, fun now report h => not_overwritten_of_decode? h⟩
  · rcases cut_or_leavesCapital t with ⟨hkept, hcut⟩ | ⟨hlost, hcapital⟩
    · exact iff_of_true hcut hkept
    · exact iff_of_false (fun hcut => hcapital.not_suffix hcut.suffix) (not_not.mpr hlost)
  · intro hlost
    rcases cut_or_leavesCapital t with ⟨hkept, -⟩ | ⟨-, hcapital⟩
    · exact absurd hlost hkept
    · exact ⟨hcapital, hcapital.not_suffix⟩

/-- A comment that is no weather at all, and one behind a direction: the letter changes. -/
theorem comment_overwritten :
    (split "clubs".toList).2 = "clubS".toList ∧ ¬(split "clubs".toList).2 <:+ "clubs".toList ∧
      (split "c220sunny".toList).2 = "Sunny".toList ∧
      (decode {} 0 "N0CALL>APRS:!4903.50N/07201.75W_clubs".toList).map (·.record.comment) =
        .ok "clubS".toList := by
  refine ⟨?_, ?_, ?_, ?_⟩
  · decide
  · decide
  · decide
  · cbv

end Aprs.Weather
