import Aprs.Position
import Aprs.Proofs.Reading

/-!
The two looks at a position in degrees and minutes. The layout takes hemispheres in either case, but
the shape, which is looked at first, only knows capital letters. A position with a small letter is
therefore read as a compressed one.
-/

namespace Aprs

theorem isUpper_iff_toNat {c : Char} :
    c.isUpper = true ↔ 'A'.toNat ≤ c.toNat ∧ c.toNat ≤ 'Z'.toNat := by
  simp [Char.isUpper, UInt32.le_iff_toNat_le, ← Char.toNat_val]

theorem toUpper_eq_self {c : Char} (h : c.isUpper = true) : c.toUpper = c := by
  have hhigh : c.toNat ≤ 90 := (isUpper_iff_toNat.mp h).2
  unfold Char.toUpper
  rw [dif_neg]
  intro hlower
  have hlow : 97 ≤ c.toNat := UInt32.le_iff_toNat_le.mp hlower.1
  omega

theorem Base91.isDigit_of_bounds {lo hi : Nat} {c : Char} (hlow : lo ≤ c.toNat)
    (hhigh : c.toNat ≤ hi) (hlo : '!'.toNat ≤ lo) (hhi : hi ≤ '\x7b'.toNat) : isDigit c = true :=
  Text.between_iff.mpr ⟨Nat.le_trans hlo hlow, Nat.le_trans hhigh hhi⟩

/-- A small letter is a digit to the base 91 as well as its capital. -/
theorem Base91.isDigit_of_isDigit_toUpper {c : Char} (h : isDigit c.toUpper = true) :
    isDigit c = true := by
  by_cases hlower : 'a'.val ≤ c.val ∧ c.val ≤ 'z'.val
  · have hlow : 97 ≤ c.toNat := UInt32.le_iff_toNat_le.mp hlower.1
    have hhigh : c.toNat ≤ 122 := UInt32.le_iff_toNat_le.mp hlower.2
    exact isDigit_of_bounds hlow hhigh (by decide) (by decide)
  · rwa [Char.toUpper, dif_neg hlower] at h

/-- The first blank of a number is what makes it none. -/
theorem Base91.decode_eq_error_of_blank {t : Text} (h : ∀ c ∈ t, isDigit c = true ∨ c = ' ')
    (hblank : ' ' ∈ t) : decode t = .error ' ' := by
  obtain ⟨before, after, rfl, hbefore⟩ := List.eq_append_cons_of_mem hblank
  apply decode_append_cons ?_ (by decide)
  intro c hc
  rcases h c (List.mem_append_left _ hc) with hdigit | rfl
  · exact hdigit
  · exact absurd hc hbefore

namespace Compressed

theorem number_eq_error_of_blank {t : Text} (h : ∀ c ∈ t, Base91.isDigit c = true ∨ c = ' ')
    (hblank : ' ' ∈ t) : number t = .error (.invalidBase91 ' ') := by
  rw [number, Base91.decode_eq_error_of_blank h hblank]
  rfl

theorem exists_number_eq_ok {t : Text} (h : ∀ c ∈ t, Base91.isDigit c = true ∨ c = ' ')
    (hblank : ' ' ∉ t) : ∃ n, number t = .ok n := by
  have hdigits : ∀ c ∈ t, Base91.isDigit c = true := by
    intro c hc
    rcases h c hc with hdigit | rfl
    · exact hdigit
    · exact absurd hc hblank
  obtain ⟨n, hn⟩ := Base91.exists_decode_eq_ok hdigits
  refine ⟨n, ?_⟩
  rw [number, hn]
  rfl

/-- Blanks are the only characters at which the coordinates of a block can fail, if all others in
them are digits to the base 91. -/
theorem decode_append {block : Text} (hlayout : Layout.Fills layout block)
    (h : ∀ c ∈ Text.slice 1 8 block, Base91.isDigit c = true ∨ c = ' ') (rest : Text) :
    if ' ' ∈ Text.slice 1 8 block then decode (block ++ rest) = .error (.invalidBase91 ' ')
    else ∃ fix, decode (block ++ rest) = .ok (fix, rest) ∧ fix.form.format = .compressed := by
  have hslice : Text.slice 1 8 block = Text.slice 1 4 block ++ Text.slice 5 4 block :=
    Text.slice_add 1 4 4 block
  rw [hslice, List.forall_mem_append] at h
  obtain ⟨hnorth, heast⟩ := h
  rw [decode, Layout.take?_append hlayout]
  dsimp only
  -- The latitude is read first, and its blank hides what the longitude holds.
  by_cases hfirst : ' ' ∈ Text.slice 1 4 block
  · rw [if_pos (by rw [hslice]; exact List.mem_append_left _ hfirst),
      number_eq_error_of_blank hnorth hfirst]
    rfl
  obtain ⟨north, hn⟩ := exists_number_eq_ok hnorth hfirst
  by_cases hsecond : ' ' ∈ Text.slice 5 4 block
  · rw [if_pos (by rw [hslice]; exact List.mem_append_right _ hsecond), hn,
      number_eq_error_of_blank heast hsecond]
    rfl
  obtain ⟨east, he⟩ := exists_number_eq_ok heast hsecond
  have hnone : ' ' ∉ Text.slice 1 8 block := by
    rw [hslice, List.mem_append, not_or]
    exact ⟨hfirst, hsecond⟩
  rw [if_neg hnone, hn, he]
  exact ⟨_, rfl, rfl⟩

end Compressed

namespace Uncompressed

variable {field body rest : Text}

/-- Whether both hemispheres are capital letters. -/
def hasCapitals (field : Text) : Bool :=
  (field.getD 7 ' ').isUpper && (field.getD 17 ' ').isUpper

theorem eq_or_eq_of_hemisphere {positive negative c : Char}
    (h : hemisphere positive negative c = true) (hcapital : c.isUpper = true) :
    c = positive ∨ c = negative := by
  rw [hemisphere, toUpper_eq_self hcapital, Bool.or_eq_true, beq_iff_eq, beq_iff_eq] at h
  exact h

/-- A field column by column: degrees are digits, and minutes may be blank. -/
theorem exists_columns_of_fills (h : Layout.Fills layout field) :
    ∃ a b c d e m₁ m₂ m₃ m₄ n₁ n₂ n₃ n₄ north table east code,
      field =
        [a, b, m₁, m₂, '.', m₃, m₄, north, table, c, d, e, n₁, n₂, '.', n₃, n₄, east, code] ∧
      (∀ x ∈ [a, b, c, d, e], x.isDigit = true) ∧
      (∀ x ∈ [m₁, m₂, m₃, m₄, n₁, n₂, n₃, n₄], Text.isDigitOrSpace x = true) ∧
      hemisphere 'N' 'S' north = true ∧ Text.isSymbolTable table = true ∧
      hemisphere 'E' 'W' east = true ∧ Text.between '!' '~' code = true := by
  simp only [layout, minutesLayout, Layout.columns, Layout.exactly, List.replicate,
    List.cons_append, List.nil_append, Layout.fills_cons_iff, Layout.fills_nil_iff] at h
  obtain ⟨a, _, rfl, ha, b, _, rfl, hb, h⟩ := h
  obtain ⟨m₁, _, rfl, hm₁, m₂, _, rfl, hm₂, p, _, rfl, hp, m₃, _, rfl, hm₃, m₄, _, rfl, hm₄, h⟩ := h
  obtain ⟨north, _, rfl, hnorth, table, _, rfl, htable, h⟩ := h
  obtain ⟨c, _, rfl, hc, d, _, rfl, hd, e, _, rfl, he, h⟩ := h
  obtain ⟨n₁, _, rfl, hn₁, n₂, _, rfl, hn₂, q, _, rfl, hq, n₃, _, rfl, hn₃, n₄, _, rfl, hn₄, h⟩ := h
  obtain ⟨east, _, rfl, heast, code, _, rfl, hcode, rfl⟩ := h
  rw [eq_of_beq hp, eq_of_beq hq]
  refine ⟨a, b, c, d, e, m₁, m₂, m₃, m₄, n₁, n₂, n₃, n₄, north, table, east, code, rfl, ?_, ?_,
    hnorth, htable, heast, hcode⟩
  · simp only [List.forall_mem_cons, ha, hb, hc, hd, he]
    simp
  · simp only [List.forall_mem_cons, hm₁, hm₂, hm₃, hm₄, hn₁, hn₂, hn₃, hn₄]
    simp

theorem isDigitOrSpace_of_isDigit {c : Char} (h : c.isDigit = true) :
    Text.isDigitOrSpace c = true := by
  rw [Text.isDigitOrSpace, h, Bool.true_or]

/-- The shape differs from the layout in what it takes for a hemisphere, and in nothing that
matters besides. -/
theorem fills_shape_iff (h : Layout.Fills layout field) :
    Layout.Fills shape (field.take 18) ↔ hasCapitals field = true := by
  obtain ⟨a, b, c, d, e, m₁, m₂, m₃, m₄, n₁, n₂, n₃, n₄, north, table, east, code, rfl, hdegrees,
    hminutes, hnorth, htable, heast, _⟩ := exists_columns_of_fills h
  have hdigits : ∀ x ∈ [a, b, c, d, e], Text.isDigitOrSpace x = true :=
    fun x hx => isDigitOrSpace_of_isDigit (hdegrees x hx)
  have hline : table ≠ '\n' := by
    rintro rfl
    exact absurd htable (by decide)
  simp only [List.forall_mem_cons] at hdigits hminutes
  -- Degrees are digits and a line end is no symbol table, so the hemispheres are all that is left.
  have hshape : Layout.Fills shape
      [a, b, m₁, m₂, '.', m₃, m₄, north, table, c, d, e, n₁, n₂, '.', n₃, n₄, east] ↔
      (north = 'N' ∨ north = 'S') ∧ (east = 'E' ∨ east = 'W') := by
    simp [shape, Layout.columns, Layout.exactly, List.replicate, Layout.Fills, hdigits, hminutes,
      hline]
  have hcapitals : hasCapitals
      [a, b, m₁, m₂, '.', m₃, m₄, north, table, c, d, e, n₁, n₂, '.', n₃, n₄, east, code] =
      (north.isUpper && east.isUpper) := rfl
  rw [hcapitals, Bool.and_eq_true]
  refine hshape.trans ⟨?_, ?_⟩
  · rintro ⟨rfl | rfl, rfl | rfl⟩ <;> decide
  · rintro ⟨hnorthCapital, heastCapital⟩
    exact ⟨eq_or_eq_of_hemisphere hnorth hnorthCapital, eq_or_eq_of_hemisphere heast heastCapital⟩

theorem isSome_take?_shape_iff (h : layout.take? body = some (field, rest)) :
    (shape.take? body).isSome = true ↔ hasCapitals field = true := by
  obtain ⟨rfl, hfills⟩ := Layout.take?_eq_some_iff.mp h
  have hlength : (field.take 18).length = shape.length := by
    rw [List.length_take, Layout.length_eq_of_fills hfills]
    decide
  rw [← List.take_append_drop 18 field, List.append_assoc, Layout.isSome_take?_append_iff hlength,
    List.take_append_drop, fills_shape_iff hfills]

/-- At most the four digits of the minutes are blank. -/
theorem blanks_le (h : Layout.Fills layout field) : blanks (Text.slice 2 5 field) ≤ 4 := by
  obtain ⟨a, b, c, d, e, m₁, m₂, m₃, m₄, n₁, n₂, n₃, n₄, north, table, east, code, rfl, _⟩ :=
    exists_columns_of_fills h
  have hslice : Text.slice 2 5
      [a, b, m₁, m₂, '.', m₃, m₄, north, table, c, d, e, n₁, n₂, '.', n₃, n₄, east, code] =
      [m₁, m₂] ++ '.' :: [m₃, m₄] := rfl
  have hfirst : [m₁, m₂].count ' ' ≤ 2 := List.count_le_length
  have hlast : [m₃, m₄].count ' ' ≤ 2 := List.count_le_length
  rw [hslice, blanks, List.count_append,
    List.count_cons_of_ne (show '.' ≠ ' ' by decide)]
  omega

theorem isDigit_of_hemisphere {positive negative c : Char}
    (h : hemisphere positive negative c = true) (hpositive : Base91.isDigit positive = true)
    (hnegative : Base91.isDigit negative = true) : Base91.isDigit c = true := by
  apply Base91.isDigit_of_isDigit_toUpper
  rw [hemisphere, Bool.or_eq_true, beq_iff_eq, beq_iff_eq] at h
  rcases h with h | h
  · rwa [h]
  · rwa [h]

theorem isDigit_of_isSymbolTable {c : Char} (h : Text.isSymbolTable c = true) :
    Base91.isDigit c = true := by
  rw [Text.isSymbolTable, Bool.or_eq_true, Bool.or_eq_true, Bool.or_eq_true] at h
  rcases h with ((h | h) | h) | h
  · rw [eq_of_beq h]
    decide
  · rw [eq_of_beq h]
    decide
  · obtain ⟨hlow, hhigh⟩ := Char.isDigit_iff_toNat.mp h
    exact Base91.isDigit_of_bounds hlow hhigh (by decide) (by decide)
  · obtain ⟨hlow, hhigh⟩ := isUpper_iff_toNat.mp h
    exact Base91.isDigit_of_bounds hlow hhigh (by decide) (by decide)

theorem isDigit_or_blank_of_isDigitOrSpace {c : Char} (h : Text.isDigitOrSpace c = true) :
    Base91.isDigit c = true ∨ c = ' ' := by
  rw [Text.isDigitOrSpace, Bool.or_eq_true, beq_iff_eq] at h
  rcases h with h | h
  · obtain ⟨hlow, hhigh⟩ := Char.isDigit_iff_toNat.mp h
    exact .inl (Base91.isDigit_of_bounds hlow hhigh (by decide) (by decide))
  · exact .inr h

/-- Blanks are the only characters before the second minutes that are no digits to the base 91. -/
theorem isDigit_or_blank_of_mem_take (h : Layout.Fills layout field) :
    ∀ c ∈ field.take 13, Base91.isDigit c = true ∨ c = ' ' := by
  obtain ⟨a, b, c, d, e, m₁, m₂, m₃, m₄, n₁, n₂, n₃, n₄, north, table, east, code, rfl, hdegrees,
    hminutes, hnorth, htable, _⟩ := exists_columns_of_fills h
  have hdigits : ∀ x ∈ [a, b, c, d, e], Base91.isDigit x = true ∨ x = ' ' :=
    fun x hx => isDigit_or_blank_of_isDigitOrSpace (isDigitOrSpace_of_isDigit (hdegrees x hx))
  have hblanks : ∀ x ∈ [m₁, m₂, m₃, m₄, n₁, n₂, n₃, n₄], Base91.isDigit x = true ∨ x = ' ' :=
    fun x hx => isDigit_or_blank_of_isDigitOrSpace (hminutes x hx)
  have hpoint : Base91.isDigit '.' = true := by decide
  have hn : Base91.isDigit north = true := isDigit_of_hemisphere hnorth (by decide) (by decide)
  have ht : Base91.isDigit table = true := isDigit_of_isSymbolTable htable
  simp only [List.forall_mem_cons] at hdigits hblanks
  simp [hdigits, hblanks, hpoint, hn, ht]

/-- The first thirteen columns make a compressed block, whatever it says. -/
theorem fills_compressed (h : Layout.Fills layout field) :
    Layout.Fills Compressed.layout (field.take 13) := by
  refine Layout.fills_columns_iff.mpr ⟨?_, ?_⟩
  · rw [List.length_take, Layout.length_eq_of_fills h]
    decide
  · intro c hc
    rw [Compressed.isAscii, decide_eq_true_eq]
    rcases isDigit_or_blank_of_mem_take h c hc with hdigit | rfl
    · exact Nat.lt_of_le_of_lt (Text.between_iff.mp hdigit).2 (by decide)
    · decide

/-- A blank among the coordinates of that block is a blank of the latitude. -/
theorem mem_slice_iff (h : Layout.Fills layout field) :
    ' ' ∈ Text.slice 1 8 (field.take 13) ↔ blanks (Text.slice 2 5 field) ≠ 0 := by
  obtain ⟨a, b, c, d, e, m₁, m₂, m₃, m₄, n₁, n₂, n₃, n₄, north, table, east, code, rfl, hdegrees,
    _, hnorth, htable, _⟩ := exists_columns_of_fills h
  have hb : ' ' ≠ b := by
    rintro rfl
    exact absurd (hdegrees ' ' (by simp)) (by decide)
  have hn : ' ' ≠ north := by
    rintro rfl
    exact absurd hnorth (by decide)
  have ht : ' ' ≠ table := by
    rintro rfl
    exact absurd htable (by decide)
  rw [blanks, ne_eq, List.count_eq_zero, Decidable.not_not]
  simp [Text.slice, hb, hn, ht]

theorem decode_compressed (h : layout.take? body = some (field, rest)) :
    if blanks (Text.slice 2 5 field) = 0 then
      ∃ fix, Compressed.decode body = .ok (fix, body.drop 13) ∧ fix.form.format = .compressed
    else Compressed.decode body = .error (.invalidBase91 ' ') := by
  obtain ⟨rfl, hfills⟩ := Layout.take?_eq_some_iff.mp h
  have hlength : 13 ≤ field.length := by
    rw [Layout.length_eq_of_fills hfills]
    decide
  have hcut : field ++ rest = field.take 13 ++ (field ++ rest).drop 13 := by
    rw [List.drop_append_of_le_length hlength, ← List.append_assoc, List.take_append_drop]
  have hdigits : ∀ c ∈ Text.slice 1 8 (field.take 13), Base91.isDigit c = true ∨ c = ' ' :=
    fun c hc =>
      isDigit_or_blank_of_mem_take hfills c (List.mem_of_mem_drop (List.mem_of_mem_take hc))
  have hdecode :=
    Compressed.decode_append (fills_compressed hfills) hdigits ((field ++ rest).drop 13)
  rw [← hcut] at hdecode
  by_cases hblanks : blanks (Text.slice 2 5 field) = 0
  · rw [if_pos hblanks]
    rwa [if_neg (fun hmem => (mem_slice_iff hfills).mp hmem hblanks)] at hdecode
  · rw [if_neg hblanks]
    rwa [if_pos ((mem_slice_iff hfills).mpr hblanks)] at hdecode

theorem decode?_eq (h : layout.take? body = some (field, rest)) :
    decode? body =
      if hasCapitals field then (read field).map fun fix => some (fix, rest) else .ok none := by
  have hshape := isSome_take?_shape_iff h
  rw [decode?, h]
  by_cases hcapitals : hasCapitals field = true
  · obtain ⟨found, hfound⟩ := Option.isSome_iff_exists.mp (hshape.mpr hcapitals)
    rw [if_pos hcapitals, hfound, Option.isNone_some, if_neg Bool.false_ne_true]
  · have hnone : shape.take? body = none :=
      Option.not_isSome_iff_eq_none.mp (fun hsome => hcapitals (hshape.mp hsome))
    rw [if_neg hcapitals, hnone, Option.isNone_none, if_pos rfl]

/-- A position that fills the layout is read as such exactly when its hemispheres are capital
letters. With a small letter it is taken for a compressed position, and accepted as one unless a
digit of its latitude is blank. -/
theorem decode?_of_layout (h : layout.take? body = some (field, rest)) :
    ((shape.take? body).isSome = true ↔ hasCapitals field = true) ∧
      (decode? body = .ok none ↔ hasCapitals field = false) ∧
      (hasCapitals field = true →
        Position.takeFix body =
          ((read field).mapError .invalidPosition).map fun fix => (fix, rest)) ∧
      (hasCapitals field = false →
        Position.takeFix body = Compressed.decode body ∧
        if blanks (Text.slice 2 5 field) = 0 then
          ∃ fix, Position.takeFix body = .ok (fix, body.drop 13) ∧ fix.form.format = .compressed
        else Position.takeFix body = .error (.invalidBase91 ' ')) := by
  refine ⟨isSome_take?_shape_iff h, ?_, ?_, ?_⟩
  · rw [decode?_eq h]
    cases hcapitals : hasCapitals field with
    | false => simp
    | true =>
      cases read field <;> simp [Except.map]
  · intro hcapitals
    rw [Position.takeFix, decode?_eq h, if_pos hcapitals]
    cases read field <;> rfl
  · intro hcapitals
    have hcompressed : Position.takeFix body = Compressed.decode body := by
      rw [Position.takeFix, decode?_eq h, if_neg (by rw [hcapitals]; decide)]
    rw [hcompressed]
    exact ⟨rfl, decode_compressed h⟩

/-- Small letters, and a blank in the latitude on top of them. -/
theorem takeFix_of_small_letters :
    layout.take? "4903.5 n/07201.7 w-Test".toList =
        some ("4903.5 n/07201.7 w-".toList, "Test".toList) ∧
      hasCapitals "4903.5 n/07201.7 w-".toList = false ∧
      decode? "4903.5 n/07201.7 w-Test".toList = .ok none ∧
      Position.takeFix "4903.5 n/07201.7 w-Test".toList = .error (.invalidBase91 ' ') := by
  have hlayout : layout.take? "4903.5 n/07201.7 w-Test".toList =
      some ("4903.5 n/07201.7 w-".toList, "Test".toList) := by decide
  have hcapitals : hasCapitals "4903.5 n/07201.7 w-".toList = false := by decide
  obtain ⟨_, hnone, _, hsmall⟩ := decode?_of_layout hlayout
  obtain ⟨_, hfix⟩ := hsmall hcapitals
  rw [if_neg (by decide)] at hfix
  exact ⟨hlayout, hcapitals, hnone.mpr hcapitals, hfix⟩

/-- The layout takes this position, but the shape does not, and it becomes a compressed one. -/
theorem shape_overrules_layout :
    (layout.take? "4903.50n/07201.75w-Test".toList).isSome = true ∧
      (shape.take? "4903.50n/07201.75w-Test".toList).isSome = false ∧
      decode? "4903.50n/07201.75w-Test".toList = .ok none ∧
      ∃ fix, Position.takeFix "4903.50n/07201.75w-Test".toList = .ok (fix, "1.75w-Test".toList) ∧
        fix.form.format = .compressed := by
  have hlayout : layout.take? "4903.50n/07201.75w-Test".toList =
      some ("4903.50n/07201.75w-".toList, "Test".toList) := by decide
  have hshape : shape.take? "4903.50n/07201.75w-Test".toList = none := by decide
  have hnone : decode? "4903.50n/07201.75w-Test".toList = .ok none := by
    rw [decode?, hshape]
    rfl
  have hcompressed := decode_compressed hlayout
  rw [if_pos (by decide)] at hcompressed
  refine ⟨by rw [hlayout]; rfl, by rw [hshape]; rfl, hnone, ?_⟩
  rw [Position.takeFix, hnone]
  exact hcompressed

end Uncompressed

end Aprs
