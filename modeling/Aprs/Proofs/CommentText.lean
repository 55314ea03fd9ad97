import Aprs.Proofs.Globe
import Aprs.Proofs.MicEGrammar
import Aprs.Proofs.PositionEncoding
import Aprs.Proofs.StepwiseFilling

/-!
The text of a comment. Each stage takes a tag out and joins what stood on both sides of it, by which
the next tag may come about, or be lost. Still no stage adds or moves a character, so the text that
is kept can be read off the text that was sent. Where no tag begins, the stages do nothing at all.
-/

namespace Aprs

theorem Layout.take?_eq_none_iff {layout : Layout} {t : Text} :
    layout.take? t = none ↔ ∀ field, field <+: t → ¬Fills layout field := by
  constructor
  · rintro h field ⟨rest, rfl⟩ hfills
    rw [take?_append hfills] at h
    cases h
  · intro h
    cases htake : layout.take? t with
    | none => rfl
    | some parts =>
      obtain ⟨heq, hfills⟩ := take?_eq_some_iff.mp htake
      exact absurd hfills (h parts.1 ⟨parts.2, heq.symm⟩)

namespace Text

variable {p : Char → Bool} {t : Text}

/-- Trimmed text neither begins nor ends with what is trimmed off. -/
theorem head_trim (p : Char → Bool) (t : Text) : ∀ c ∈ (trim p t).head?, p c = false := by
  intro c hc
  obtain ⟨rest, hrest⟩ := prefix_trimEnd p (trimStart p t)
  have hhead : (trimStart p t).head? = some c := by
    rw [← hrest, List.head?_append]
    exact Option.or_eq_some_iff.mpr (.inl hc)
  have hnot := List.head?_dropWhile_not p t
  rw [trimStart] at hhead
  rw [hhead] at hnot
  simpa using hnot

theorem getLast_trimEnd (p : Char → Bool) (t : Text) :
    ∀ c ∈ (trimEnd p t).getLast?, p c = false := by
  intro c hc
  rw [trimEnd, List.getLast?_reverse] at hc
  have hnot := List.head?_dropWhile_not p t.reverse
  rw [hc] at hnot
  simpa using hnot

theorem getLast_trim (p : Char → Bool) (t : Text) : ∀ c ∈ (trim p t).getLast?, p c = false :=
  getLast_trimEnd p (trimStart p t)

/-- Trimming the end only takes off what is trimmed. -/
theorem mem_trimEnd_iff {p : Char → Bool} {t : Text} {c : Char} (h : p c = false) :
    c ∈ trimEnd p t ↔ c ∈ t := by
  have hcut : c ∈ t ↔ c ∈ t.reverse.takeWhile p ++ t.reverse.dropWhile p := by
    rw [List.takeWhile_append_dropWhile, List.mem_reverse]
  have htaken : c ∉ t.reverse.takeWhile p := by
    intro hc
    rw [List.mem_takeWhile_imp hc] at h
    cases h
  rw [trimEnd, List.mem_reverse, hcut, List.mem_append, or_iff_right htaken]

/-- Some of the characters of a text, in their order, without a space at either end. -/
structure Keeps (kept t : Text) : Prop where
  sublist : kept.Sublist t
  head : ∀ c ∈ kept.head?, c ≠ ' '
  last : ∀ c ∈ kept.getLast?, c ≠ ' '

theorem keeps_trimSpaces {u t : Text} (h : u.Sublist t) : Keeps (trimSpaces u) t where
  sublist := (infix_trim isSpace u).sublist.trans h
  head c hc := by
    rintro rfl
    exact absurd (head_trim isSpace u ' ' hc) (by decide)
  last c hc := by
    rintro rfl
    exact absurd (getLast_trim isSpace u ' ' hc) (by decide)

end Text

theorem Altitude.split_eq_none {t : Text} (h : ¬"/A=".toList <:+: t) : split t = (none, t) := by
  unfold split
  split
  · split
    · next before feet after hfound =>
      obtain ⟨rest, rfl, htake⟩ := Text.leftmost?_eq_some hfound
      obtain ⟨number, rfl, -⟩ := exists_int32?_of_take? htake
      exact absurd ⟨before, number ++ after, by simp⟩ h
    · rfl
  · rfl

namespace Comment

variable {t : Text}

theorem suffix_dropSlash (t : Text) : dropSlash t <:+ t := by
  unfold dropSlash
  split
  · exact List.suffix_cons _ _
  · exact List.suffix_refl t

/-- What every stage leaves of the text. -/
theorem keeps_read (t : Text) : Text.Keeps (read t).text t := by
  have hextension := (Extension.suffix_split t).sublist
  have haltitude := (Altitude.sublist_split (Extension.split t).2).trans hextension
  have htelemetry := (Telemetry.sublist_split _).trans haltitude
  have hdao := (Dao.sublist_split _).trans htelemetry
  exact Text.keeps_trimSpaces ((suffix_dropSlash _).sublist.trans hdao)

/-- Text in which no tag can begin: it opens neither with a slash nor with an extension, the opening
of an altitude is nowhere in it, and there are no two of the marks between which the others
stand. -/
structure Plain (t : Text) : Prop where
  slash : ∀ c ∈ t.head?, c ≠ '/'
  extension : ∀ layout ∈
    [Extension.courseSpeedLayout, Extension.phgLayout, Extension.rangeLayout],
      ∀ field, field <+: t → ¬Layout.Fills layout field
  altitude : ¬"/A=".toList <:+: t
  telemetry : t.count '|' ≤ 1
  dao : t.count '!' ≤ 1

namespace Plain

theorem split_extension (h : Plain t) : Extension.split t = (none, t) := by
  have hnone : ∀ layout ∈ [Extension.courseSpeedLayout, Extension.phgLayout, Extension.rangeLayout],
      layout.take? t = none :=
    fun layout hlayout => Layout.take?_eq_none_iff.mpr (h.extension layout hlayout)
  simp only [List.forall_mem_cons] at hnone
  obtain ⟨hcourse, hphg, hrange, -⟩ := hnone
  rw [Extension.split, Extension.take?, Extension.takeCourseSpeed?, Extension.takePhg?,
    Extension.takeRange?, hcourse, hphg, hrange]
  rfl

theorem read_eq (h : Plain t) : read t = ⟨none, none, none, none, Text.trimSpaces t⟩ := by
  have hslash : dropSlash t = t := by
    unfold dropSlash
    split
    · exact absurd rfl (h.slash '/' rfl)
    · rfl
  simp only [read, h.split_extension, Altitude.split_eq_none h.altitude,
    Telemetry.split_eq_none_of_count_le h.telemetry, Dao.split_eq_none_of_count_le h.dao, hslash]

end Plain

end Comment

theorem MicE.keeps_comment {destination body : Text} {m : MicE}
    (h : decode destination body = .ok m) : Text.Keeps m.comment (body.drop 8) := by
  obtain ⟨-, -, channels, altitude, rest, rest', -, -, hchannels, haltitude, -, hcomment⟩ :=
    exists_steps_of_decode h
  obtain ⟨_, _, hchannels', hfirst⟩ := exists_splitChannels_eq_ok (body.drop 8)
  cases hchannels.symm.trans hchannels'
  obtain ⟨_, _, haltitude', hsecond⟩ := exists_splitAltitude_eq_ok rest
  cases haltitude.symm.trans haltitude'
  have htelemetry := (Telemetry.sublist_split rest').trans (hsecond.trans hfirst)
  rw [hcomment]
  exact Text.keeps_trimSpaces ((Dao.sublist_split _).trans htelemetry)

/-- Comments are what is left of the text that was sent. Text without a tag stays whole, and leaves
everything else in the record as it was. -/
theorem Comment.fill_keeps :
    (∀ (body : Text) (r : Record Quantity),
      (fill body).run r = .ok () (r.withComment (read body)) ∧
        Text.Keeps (r.withComment (read body)).comment body ∧
        (Plain body →
          r.withComment (read body) = { r with comment := Text.trimSpaces body })) ∧
      ∀ (destination body : Text) (m : MicE), MicE.decode destination body = .ok m →
        ∀ r : Record Quantity, Text.Keeps (r.withMicE m).comment (body.drop 8) := by
  refine ⟨fun body r => ⟨run_fill body r, keeps_read body, fun h => ?_⟩,
    fun destination body m h r => MicE.keeps_comment h⟩
  rw [h.read_eq]
  rfl

/-- A bar and an exclamation mark, neither of them in a pair, and a report in which an altitude
stands before the text. -/
theorem Comment.fill_keeps_marks :
    (fill " 50% | Hi! ".toList).run { raw := [], speed := some 36 } =
        .ok () { raw := [], speed := some 36, comment := "50% | Hi!".toList } ∧
      ∃ m, MicE.decode "S32U6T".toList "vCD\"&P>/\"4T\x7dHello world ".toList = .ok m ∧
        Text.Keeps m.comment "\"4T\x7dHello world ".toList := by
  have hplain : Plain " 50% | Hi! ".toList := by
    refine ⟨by simp, ?_, by decide, by decide, by decide⟩
    simp only [List.forall_mem_cons, ← Layout.take?_eq_none_iff]
    exact ⟨by decide, by decide, by decide, List.forall_mem_nil _⟩
  obtain ⟨hcomment, hmicE⟩ := fill_keeps
  obtain ⟨hrun, -, hkept⟩ := hcomment " 50% | Hi! ".toList { raw := [], speed := some 36 }
  refine ⟨by rw [hrun, hkept hplain]; rfl, ?_⟩
  obtain ⟨m, hm⟩ :
      ∃ m, MicE.decode "S32U6T".toList "vCD\"&P>/\"4T\x7dHello world ".toList = .ok m := ⟨_, rfl⟩
  exact ⟨m, hm, hmicE _ _ m hm { raw := [] }⟩

end Aprs
