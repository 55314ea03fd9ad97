import Aprs.Proofs.AddressedMessages
import Aprs.Proofs.CommentText

/-!
Messages that define telemetry channels, read into a record. A list of names is cut at its commas:
the first thirteen names count, none of them may be long, and missing ones are empty. Bits have
eight places, and the title behind them is short. What has a fault leaves the record as it was, and
so does what is no definition at all. A message for a station is read for a definition first, and
to fill the record in this way comes to the same as to read the message and fill it in afterwards.
-/

namespace Aprs

namespace TelemetryDefs

variable {kind : DefinitionKind} {items names : List Text} {t v values mask title shown : Text}
  {r r' : Record Quantity} {e : DecodeError} {c : Char}

/-- Reads a definition into the record at hand, and tells whether the text was one. -/
def fill (t : Text) : Filling Bool := do
  match ← MonadExcept.ofExcept ((decode? t).mapError .invalidTelemetryConfig) with
  | some defs =>
    modify fun r => r.withContent (.definition defs)
    return true
  | none => return false

theorem run_fill (t : Text) (r : Record Quantity) :
    (fill t).run r =
      match decode? t with
      | .ok (some defs) => .ok true (r.withContent (.definition defs))
      | .ok none => .ok false r
      | .error cause => .error (.invalidTelemetryConfig cause) r := by
  rw [fill]
  cases decode? t with
  | error cause => rfl
  | ok found => cases found <;> rfl

theorem run_fill_error (h : (fill t).run r = .error e r') :
    ∃ cause, decode? t = .error cause ∧ e = .invalidTelemetryConfig cause ∧ r' = r := by
  rw [run_fill] at h
  split at h
  · cases h
  · cases h
  · next cause hcause =>
    cases h
    exact ⟨cause, hcause, rfl, rfl⟩

theorem kind?_tagged (kind : DefinitionKind) (h : '\n' ∉ values) :
    kind? (kind.tag.toList ++ '.' :: values) = some (kind, values) := by
  refine kind?_eq_some_iff.mpr ⟨?_, rfl⟩
  rw [List.mem_append, List.mem_cons, not_or, not_or]
  refine ⟨?_, by decide, h⟩
  cases kind <;> decide

/-- What values say in a definition of that kind. -/
def read : DefinitionKind → Text → Except DefinitionError (TelemetryDefs Quantity)
  | .parm, values => (channelNames .parm values).map fun names => { parmNames := some names }
  | .unit, values => (channelNames .unit values).map fun names => { unitNames := some names }
  | .eqns, values => (equations values).map fun rows => { eqns := some rows }
  | .bits, values =>
    (bits values).map fun (mask, title) => { bitsMask := some mask, title := some title }

/-- Spaces at the end of a definition do not count. -/
theorem run_fill_tagged (kind : DefinitionKind) (h : '\n' ∉ values) (r : Record Quantity) :
    (fill (kind.tag.toList ++ '.' :: values)).run r =
      match read kind (Text.trimEndSpaces values) with
      | .ok defs => .ok true (r.withContent (.definition defs))
      | .error cause => .error (.invalidTelemetryConfig cause) r := by
  have hread : decode? (kind.tag.toList ++ '.' :: values) =
      (read kind (Text.trimEndSpaces values)).map some := by
    rw [decode?, kind?_tagged kind h]
    cases kind with
    | parm => exact (LawfulFunctor.comp_map _ _ (channelNames .parm _))
    | unit => exact (LawfulFunctor.comp_map _ _ (channelNames .unit _))
    | eqns => exact (LawfulFunctor.comp_map _ _ (equations _))
    | bits => exact (LawfulFunctor.comp_map _ _ (bits _))
  rw [run_fill, hread]
  cases read kind (Text.trimEndSpaces values) <;> rfl

theorem trimEndSpaces_eq_self (h : t.getLast? ≠ some ' ') : Text.trimEndSpaces t = t := by
  have hlast : ∀ c ∈ t.getLast?, Text.isSpace c = false := by
    intro c hc
    rw [Text.isSpace, beq_eq_false_iff_ne]
    rintro rfl
    exact h hc
  have htrim := Text.trimEnd_append hlast []
  rw [List.append_nil] at htrim
  exact htrim.trans (List.append_nil t)

section Lists

/-- Items that can be sent as one list with commas. Spaces at its end would be lost. -/
structure Listable (items : List Text) : Prop where
  comma : ∀ item ∈ items, ',' ∉ item
  line : ∀ item ∈ items, '\n' ∉ item
  last : ([','].intercalate items).getLast? ≠ some ' '

theorem not_mem_intercalate (hc : c ≠ ',') (h : ∀ item ∈ items, c ∉ item) :
    c ∉ [','].intercalate items := by
  induction items with
  | nil => exact List.not_mem_nil
  | cons first rest ih =>
    rw [List.forall_mem_cons] at h
    cases rest with
    | nil => simpa using h.1
    | cons second rest =>
      rw [List.intercalate_cons_cons, List.mem_append, List.mem_append, List.mem_singleton,
        not_or, not_or]
      exact ⟨⟨h.1, hc⟩, ih h.2⟩

theorem Listable.newline_not_mem (h : Listable items) : '\n' ∉ [','].intercalate items :=
  not_mem_intercalate (by decide) h.line

theorem Listable.run_fill (h : Listable items) (kind : DefinitionKind) (r : Record Quantity) :
    (fill (kind.tag.toList ++ '.' :: [','].intercalate items)).run r =
      match read kind ([','].intercalate items) with
      | .ok defs => .ok true (r.withContent (.definition defs))
      | .error cause => .error (.invalidTelemetryConfig cause) r := by
  rw [run_fill_tagged kind h.newline_not_mem, trimEndSpaces_eq_self h.last]

theorem Listable.splitOn_eq (h : Listable items) (hne : items ≠ []) :
    ([','].intercalate items).splitOn ',' = items :=
  List.splitOn_intercalate ',' h.comma hne

end Lists

section Names

/-- Names for thirteen channels: the first thirteen of a list, or all of it with empty ones behind
them. -/
def padded (names : List Text) : List Text :=
  names.take 13 ++ List.replicate (13 - names.length) []

theorem length_padded (names : List Text) : (padded names).length = 13 := by
  rw [padded, List.length_append, List.length_replicate, List.length_take]
  omega

theorem channelNames_of_short (h : Listable names) (hne : names ≠ [])
    (hshort : ∀ name ∈ names.take 13, name.length ≤ 20) (kind : DefinitionKind) :
    channelNames kind ([','].intercalate names) = .ok (padded names) := by
  have hall : (names.take 13).all (fun name => decide (name.length ≤ 20)) = true := by
    simpa using hshort
  have hmissing : 13 - (names.take 13).length = 13 - names.length := by
    rw [List.length_take]
    omega
  rw [channelNames, h.splitOn_eq hne, padded, ← hmissing]
  exact if_pos hall

theorem channelNames_of_long (h : Listable names) (hne : names ≠ [])
    (hlong : ∃ name ∈ names.take 13, 20 < name.length) (kind : DefinitionKind) :
    channelNames kind ([','].intercalate names) = .error (.nameTooLong kind) := by
  have hall : ¬(names.take 13).all (fun name => decide (name.length ≤ 20)) = true := by
    simpa using hlong
  rw [channelNames, h.splitOn_eq hne]
  exact if_neg hall

end Names

section Bits

/-- Eight zeros and ones, a comma and a title, with spaces behind it that do not count. -/
structure IsBits (v mask title : Text) : Prop where
  text_eq : Text.trimEndSpaces v = mask ++ ',' :: title
  length_mask : mask.length = 8
  binary : ∀ c ∈ mask, c = '0' ∨ c = '1'
  length_title : title.length ≤ 23

theorem fills_bitsLayout_iff :
    Layout.Fills bitsLayout t ↔
      ∃ mask, t = mask ++ [','] ∧ mask.length = 8 ∧ ∀ c ∈ mask, c = '0' ∨ c = '1' := by
  rw [bitsLayout, Layout.fills_append_iff]
  constructor
  · rintro ⟨mask, comma, rfl, hmask, hcomma⟩
    obtain ⟨hlength, hbinary⟩ := Layout.fills_columns_iff.mp hmask
    rw [Layout.fills_exactly_iff.mp hcomma]
    exact ⟨mask, rfl, hlength, by simpa using hbinary⟩
  · rintro ⟨mask, rfl, hlength, hbinary⟩
    exact ⟨mask, [','], rfl, Layout.fills_columns_iff.mpr ⟨hlength, by simpa using hbinary⟩,
      Layout.fills_exactly_iff.mpr rfl⟩

theorem bits_of_isBits (hline : '\n' ∉ v) (h : IsBits v mask title) :
    bits (Text.trimEndSpaces v) = .ok (mask, Text.trimSpaces title) := by
  have hfills : Layout.Fills bitsLayout (mask ++ [',']) :=
    fills_bitsLayout_iff.mpr ⟨mask, rfl, h.length_mask, h.binary⟩
  have hcut : Text.trimEndSpaces v = (mask ++ [',']) ++ title := by simp [h.text_eq]
  have htitle : '\n' ∉ title := by
    intro hmem
    have hv : '\n' ∈ Text.trimEndSpaces v := by simp [h.text_eq, hmem]
    exact hline ((Text.prefix_trimEnd _ v).subset hv)
  rw [hcut, bits, Layout.take?_append hfills]
  dsimp only
  rw [if_pos ⟨h.length_title, Text.isSingleLine_iff.mpr htitle⟩,
    List.take_append_of_le_length h.length_mask.ge, ← h.length_mask, List.take_length]

theorem isBits_of_bits (h : bits (Text.trimEndSpaces v) = .ok (mask, shown)) :
    ∃ title, IsBits v mask title := by
  unfold bits at h
  split at h
  · next field title htake =>
    split at h
    · next htitle =>
      cases h
      obtain ⟨hcut, hfills⟩ := Layout.take?_eq_some_iff.mp htake
      obtain ⟨mask, rfl, hlength, hbinary⟩ := fills_bitsLayout_iff.mp hfills
      have hmask : (mask ++ [',']).take 8 = mask := by
        rw [List.take_append_of_le_length hlength.ge, ← hlength, List.take_length]
      rw [hmask]
      exact ⟨title, by simp [hcut], hlength, hbinary, htitle.1⟩
    · cases h
  · cases h

theorem eq_invalidBits_of_bits {cause : DefinitionError} (h : bits values = .error cause) :
    cause = .invalidBits := by
  unfold bits at h
  split at h
  · split at h
    · cases h
    · cases h
      rfl
  · cases h
    rfl

end Bits

/-- Names and bits come back as they were sent, and nothing else in the record changes besides its
format. What is longer than it may be, or has no eight bits, is refused, and a text that opens with
no kind of definition defines nothing. -/
theorem fill_definitions (r : Record Quantity) :
    (∀ names : List Text, names ≠ [] → Listable names →
      ((∀ name ∈ names.take 13, name.length ≤ 20) →
        (padded names).length = 13 ∧
        (fill ("PARM.".toList ++ [','].intercalate names)).run r =
          .ok true { r with
            format := some .telemetryMessage
            telemetryDefs := some { parmNames := some (padded names) } } ∧
        (fill ("UNIT.".toList ++ [','].intercalate names)).run r =
          .ok true { r with
            format := some .telemetryMessage
            telemetryDefs := some { unitNames := some (padded names) } }) ∧
      ((∃ name ∈ names.take 13, 20 < name.length) →
        (fill ("PARM.".toList ++ [','].intercalate names)).run r =
          .error (.invalidTelemetryConfig (.nameTooLong .parm)) r ∧
        (fill ("UNIT.".toList ++ [','].intercalate names)).run r =
          .error (.invalidTelemetryConfig (.nameTooLong .unit)) r)) ∧
    (∀ v : Text, '\n' ∉ v →
      (∀ mask title, IsBits v mask title →
        (fill ("BITS.".toList ++ v)).run r =
          .ok true { r with
            format := some .telemetryMessage
            telemetryDefs :=
              some { bitsMask := some mask, title := some (Text.trimSpaces title) } }) ∧
      ((¬∃ mask title, IsBits v mask title) →
        (fill ("BITS.".toList ++ v)).run r = .error (.invalidTelemetryConfig .invalidBits) r)) ∧
    (∀ t e r', (fill t).run r = .error e r' →
      (∃ cause, e = .invalidTelemetryConfig cause) ∧ r' = r) ∧
    ∀ t, (∀ opening ∈ ["PARM.", "UNIT.", "EQNS.", "BITS."], ¬opening.toList <+: t) →
      (fill t).run r = .ok false r := by
  refine ⟨fun names hne h => ⟨fun hshort => ?_, fun hlong => ?_⟩, fun v hv => ?_,
    fun t e r' h => ?_, fun t h => ?_⟩
  · have hparm := h.run_fill .parm r
    have hunit := h.run_fill .unit r
    rw [read, channelNames_of_short h hne hshort] at hparm
    rw [read, channelNames_of_short h hne hshort] at hunit
    exact ⟨length_padded names, hparm, hunit⟩
  · have hparm := h.run_fill .parm r
    have hunit := h.run_fill .unit r
    rw [read, channelNames_of_long h hne hlong] at hparm
    rw [read, channelNames_of_long h hne hlong] at hunit
    exact ⟨hparm, hunit⟩
  · have hbits := run_fill_tagged .bits hv r
    rw [read] at hbits
    constructor
    · intro mask title h
      rw [bits_of_isBits hv h] at hbits
      exact hbits
    · intro hnone
      cases hread : bits (Text.trimEndSpaces v) with
      | ok found => exact absurd ⟨found.1, isBits_of_bits hread⟩ hnone
      | error cause =>
        rw [hread, eq_invalidBits_of_bits hread] at hbits
        exact hbits
  · obtain ⟨cause, -, rfl, rfl⟩ := run_fill_error h
    exact ⟨⟨cause, rfl⟩, rfl⟩
  · rw [run_fill, decode?_of_not_opening h]

/-- A long name past the thirteenth and an empty one among the others; a name of one letter too
many; a title that is as long as it may be once the spaces behind it are gone. -/
theorem fill_definitions_limits :
    Listable ("Vbat".toList :: [] :: List.replicate 11 "T".toList ++
      ["past the thirteenth channel".toList]) ∧
    (fill "PARM.Vbat,,T,T,T,T,T,T,T,T,T,T,T,past the thirteenth channel".toList).run { raw := [] } =
      .ok true {
        raw := []
        format := some .telemetryMessage
        telemetryDefs :=
          some { parmNames := some ("Vbat".toList :: [] :: List.replicate 11 "T".toList) } } ∧
    Listable ["V".toList, "a name of 21 letters!".toList] ∧
    (fill "UNIT.V,a name of 21 letters!".toList).run { raw := [] } =
      .error (.invalidTelemetryConfig (.nameTooLong .unit)) { raw := [] } ∧
    IsBits "10110000, A title of 22 letters.  ".toList "10110000".toList
      " A title of 22 letters.".toList ∧
    (fill "BITS.10110000, A title of 22 letters.  ".toList).run { raw := [] } =
      .ok true {
        raw := []
        format := some .telemetryMessage
        telemetryDefs :=
          some {
            bitsMask := some "10110000".toList
            title := some "A title of 22 letters.".toList } } ∧
    (fill " PARM.V".toList).run { raw := [] } = .ok false { raw := [] } := by
  have hmany : Listable ("Vbat".toList :: [] :: List.replicate 11 "T".toList ++
      ["past the thirteenth channel".toList]) := ⟨by decide, by decide, by decide⟩
  have hlong : Listable ["V".toList, "a name of 21 letters!".toList] :=
    ⟨by decide, by decide, by decide⟩
  have htext : Text.trimEndSpaces "10110000, A title of 22 letters.  ".toList =
      "10110000".toList ++ ',' :: " A title of 22 letters.".toList := by cbv
  have hbits : IsBits "10110000, A title of 22 letters.  ".toList "10110000".toList
      " A title of 22 letters.".toList := ⟨htext, by decide, by simp, by decide⟩
  have htitle : Text.trimSpaces " A title of 22 letters.".toList =
      "A title of 22 letters.".toList := by cbv
  have hparm : "PARM.Vbat,,T,T,T,T,T,T,T,T,T,T,T,past the thirteenth channel".toList =
      "PARM.".toList ++ [','].intercalate ("Vbat".toList :: [] :: List.replicate 11 "T".toList ++
        ["past the thirteenth channel".toList]) := by cbv
  have hunit : "UNIT.V,a name of 21 letters!".toList =
      "UNIT.".toList ++ [','].intercalate ["V".toList, "a name of 21 letters!".toList] := by cbv
  have hsent : "BITS.10110000, A title of 22 letters.  ".toList =
      "BITS.".toList ++ "10110000, A title of 22 letters.  ".toList := by cbv
  obtain ⟨hnames, hsense, -, hother⟩ := fill_definitions { raw := [] }
  have hpadded := ((hnames _ (by decide) hmany).1 (by decide)).2.1
  have htoo := ((hnames _ (by decide) hlong).2 (by decide)).2
  have hread := (hsense _ (by decide)).1 _ _ hbits
  rw [htitle] at hread
  rw [hparm, hunit, hsent]
  exact ⟨hmany, hpadded, hlong, htoo, hbits, hread, hother _ (by decide)⟩

end TelemetryDefs

namespace Message

/-- The text of a message for a station, which is read for itself where it is no definition. -/
def fillAddressed (addressee t : Text) : Filling Unit := do
  modify fun r => { r with addressee := some addressee }
  unless ← TelemetryDefs.fill t do
    modify fun r => r.withContent (content t)

theorem run_fillAddressed (addressee t : Text) (r : Record Quantity) :
    (fillAddressed addressee t).run r =
      match addressedTo addressee t with
      | .ok m => .ok () (r.withMessage m)
      | .error cause =>
        .error (.invalidTelemetryConfig cause) { r with addressee := some addressee } := by
  rw [fillAddressed, addressedTo]
  change (TelemetryDefs.fill t >>= _).run { r with addressee := some addressee } = _
  rw [EStateM.run_bind, TelemetryDefs.run_fill]
  cases TelemetryDefs.decode? t with
  | error cause => rfl
  | ok found => cases found <;> rfl

/-- The start of a body tells a bulletin, an announcement or an addressee. -/
def fill (body : Text) : Filling Unit := do
  match bulletinLayout.take? body with
  | some (field, rest) =>
    let (id, name, text) := group field rest
    modify (Record.withMessage · (.bulletin id name text))
  | none =>
    match announcementLayout.take? body with
    | some (field, rest) =>
      let (id, name, text) := group field rest
      modify (Record.withMessage · (.announcement id name text))
    | none =>
      match addressLayout.take? body with
      | some (field, rest) =>
        if Text.isSingleLine rest then
          fillAddressed (Text.trimEndSpaces (field.take 9)) rest
      | none => return

/-- A message that is refused has an addressee nevertheless, and nothing else. -/
theorem run_fill (body : Text) (r : Record Quantity) :
    (fill body).run r =
      match decode body with
      | .ok m => .ok () (r.withMessage m)
      | .error cause =>
        .error (.invalidTelemetryConfig cause)
          { r with addressee := some (Text.trimEndSpaces (body.take 9)) } := by
  rw [fill, decode]
  cases bulletinLayout.take? body with
  | some parts => rfl
  | none =>
    cases announcementLayout.take? body with
    | some parts => rfl
    | none =>
      cases htake : addressLayout.take? body with
      | none => rfl
      | some parts =>
        obtain ⟨field, rest⟩ := parts
        obtain ⟨hcut, hfills⟩ := Layout.take?_eq_some_iff.mp htake
        have hlength : field.length = 10 := Layout.length_eq_of_fills hfills
        have haddress : body.take 9 = field.take 9 := by
          rw [hcut, List.take_append_of_le_length (by omega)]
        dsimp only
        rw [haddress]
        by_cases hline : Text.isSingleLine rest = true
        · rw [if_pos hline, if_pos hline]
          exact run_fillAddressed _ rest r
        · rw [if_neg hline, if_neg hline]
          rfl

end Message

end Aprs
