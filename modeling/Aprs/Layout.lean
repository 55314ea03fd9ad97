import Aprs.Text

/-!
Fixed layouts: most fields of a packet are a row of columns, each with its own class of characters.
-/

namespace Aprs

/-- The class of characters that each column of a field may hold. -/
abbrev Layout := List (Char → Bool)

namespace Layout

/-- The characters of the first columns, and what follows them. -/
def take? : Layout → Text → Option (Text × Text)
  | [], t => some ([], t)
  | _ :: _, [] => none
  | holds :: columns, c :: t =>
    if holds c then (take? columns t).map fun (field, rest) => (c :: field, rest) else none

def columns (n : Nat) (holds : Char → Bool) : Layout := List.replicate n holds

def exactly (c : Char) : Layout := [(· == c)]

/-- A text that fills the layout and goes on no further. -/
def fits (layout : Layout) (t : Text) : Bool :=
  match take? layout t with
  | some (_, []) => true
  | _ => false

/-- A character for each column, of the class of the column. -/
def Fills : Layout → Text → Prop
  | [], [] => True
  | holds :: columns, c :: t => holds c = true ∧ Fills columns t
  | _, _ => False

theorem fills_nil_iff {t : Text} : Fills [] t ↔ t = [] := by
  cases t <;> simp [Fills]

theorem fills_cons_iff {holds : Char → Bool} {columns : Layout} {t : Text} :
    Fills (holds :: columns) t ↔ ∃ c u, t = c :: u ∧ holds c = true ∧ Fills columns u := by
  cases t with
  | nil => simp [Fills]
  | cons c u =>
    constructor
    · intro h
      exact ⟨c, u, rfl, h⟩
    · rintro ⟨_, _, heq, h⟩
      cases heq
      exact h

theorem fills_exactly_iff {c : Char} {t : Text} : Fills (exactly c) t ↔ t = [c] := by
  rw [exactly, fills_cons_iff]
  constructor
  · rintro ⟨d, u, rfl, hd, hu⟩
    rw [eq_of_beq hd, fills_nil_iff.mp hu]
  · rintro rfl
    exact ⟨c, [], rfl, beq_self_eq_true c, trivial⟩

theorem length_eq_of_fills {layout : Layout} {t : Text} (h : Fills layout t) :
    t.length = layout.length := by
  induction layout generalizing t with
  | nil => simp [fills_nil_iff.mp h]
  | cons holds columns ih =>
    obtain ⟨c, u, rfl, _, hu⟩ := fills_cons_iff.mp h
    simp [ih hu]

theorem fills_columns_iff {n : Nat} {holds : Char → Bool} {t : Text} :
    Fills (columns n holds) t ↔ t.length = n ∧ ∀ c ∈ t, holds c = true := by
  induction n generalizing t with
  | zero =>
    rw [columns, List.replicate_zero, fills_nil_iff, List.length_eq_zero_iff]
    constructor
    · rintro rfl
      simp
    · exact fun h => h.1
  | succ n ih =>
    rw [columns, List.replicate_succ, fills_cons_iff]
    constructor
    · rintro ⟨c, u, rfl, hc, hu⟩
      obtain ⟨hlength, hall⟩ := ih.mp hu
      exact ⟨by rw [List.length_cons, hlength], List.forall_mem_cons.mpr ⟨hc, hall⟩⟩
    · rintro ⟨hlength, hall⟩
      cases t with
      | nil => simp at hlength
      | cons c u =>
        obtain ⟨hc, hu⟩ := List.forall_mem_cons.mp hall
        exact ⟨c, u, rfl, hc, ih.mpr ⟨Nat.succ.inj hlength, hu⟩⟩

theorem fills_append_iff {first second : Layout} {t : Text} :
    Fills (first ++ second) t ↔ ∃ u v, t = u ++ v ∧ Fills first u ∧ Fills second v := by
  induction first generalizing t with
  | nil =>
    constructor
    · exact fun h => ⟨[], t, rfl, trivial, h⟩
    · rintro ⟨u, v, rfl, hu, hv⟩
      rw [fills_nil_iff.mp hu]
      exact hv
  | cons holds columns ih =>
    rw [List.cons_append, fills_cons_iff]
    constructor
    · rintro ⟨c, t, rfl, hc, ht⟩
      obtain ⟨u, v, rfl, hu, hv⟩ := ih.mp ht
      exact ⟨c :: u, v, rfl, ⟨hc, hu⟩, hv⟩
    · rintro ⟨u, v, rfl, hu, hv⟩
      obtain ⟨c, w, rfl, hc, hw⟩ := fills_cons_iff.mp hu
      exact ⟨c, w ++ v, rfl, hc, ih.mpr ⟨w, v, rfl, hw, hv⟩⟩

theorem Fills.append {first second : Layout} {t u : Text} (ht : Fills first t)
    (hu : Fills second u) : Fills (first ++ second) (t ++ u) :=
  fills_append_iff.mpr ⟨t, u, rfl, ht, hu⟩

/-- Taking a field cuts the text where the layout is full. -/
theorem take?_eq_some_iff {layout : Layout} {t field rest : Text} :
    layout.take? t = some (field, rest) ↔ t = field ++ rest ∧ Fills layout field := by
  induction layout generalizing t field rest with
  | nil =>
    rw [take?, Option.some_inj, Prod.mk.injEq, fills_nil_iff]
    constructor
    · rintro ⟨rfl, rfl⟩
      exact ⟨rfl, rfl⟩
    · rintro ⟨rfl, rfl⟩
      exact ⟨rfl, rfl⟩
  | cons holds columns ih =>
    rw [fills_cons_iff]
    cases t with
    | nil =>
      rw [take?]
      constructor
      · intro h
        cases h
      · rintro ⟨heq, c, u, rfl, _⟩
        cases heq
    | cons c t =>
      rw [take?]
      constructor
      · intro h
        split at h
        · next hc =>
          obtain ⟨⟨u, v⟩, htake, hcons⟩ := Option.map_eq_some_iff.mp h
          obtain ⟨rfl, hu⟩ := ih.mp htake
          cases hcons
          exact ⟨rfl, c, u, rfl, hc, hu⟩
        · cases h
      · rintro ⟨heq, d, u, rfl, hd, hu⟩
        rw [List.cons_append, List.cons.injEq] at heq
        obtain ⟨rfl, rfl⟩ := heq
        rw [if_pos hd, ih.mpr ⟨rfl, hu⟩, Option.map_some]

theorem suffix_of_take? {layout : Layout} {t field rest : Text}
    (h : layout.take? t = some (field, rest)) : rest <:+ t := by
  rw [take?_eq_some_iff] at h
  rw [h.1]
  exact List.suffix_append field rest

theorem take?_append {layout : Layout} {field : Text} (h : Fills layout field) (rest : Text) :
    layout.take? (field ++ rest) = some (field, rest) := by
  rw [take?_eq_some_iff]
  exact ⟨rfl, h⟩

theorem take?_append_of_eq_some {layout : Layout} {t field rest : Text}
    (h : layout.take? t = some (field, rest)) (u : Text) :
    layout.take? (t ++ u) = some (field, rest ++ u) := by
  rw [take?_eq_some_iff] at h ⊢
  rw [h.1, List.append_assoc]
  exact ⟨rfl, h.2⟩

theorem fits_iff {layout : Layout} {t : Text} : layout.fits t = true ↔ Fills layout t := by
  rw [fits]
  constructor
  · intro h
    split at h
    · next field htake =>
      rw [take?_eq_some_iff, List.append_nil] at htake
      rw [htake.1]
      exact htake.2
    · cases h
  · intro h
    have htake := take?_append h []
    rw [List.append_nil] at htake
    rw [htake]

/-- A layout is taken off a text if the text begins with as many characters that fill it. -/
theorem isSome_take?_append_iff {layout : Layout} {field rest : Text}
    (hlength : field.length = layout.length) :
    (layout.take? (field ++ rest)).isSome = true ↔ Fills layout field := by
  constructor
  · intro h
    obtain ⟨⟨found, after⟩, htake⟩ := Option.isSome_iff_exists.mp h
    rw [take?_eq_some_iff] at htake
    obtain ⟨heq, hfills⟩ := htake
    have hfound : field.length = found.length := by
      rw [hlength, length_eq_of_fills hfills]
    rw [(List.append_inj heq hfound).1]
    exact hfills
  · intro h
    rw [take?_append h, Option.isSome_some]

end Layout

end Aprs
