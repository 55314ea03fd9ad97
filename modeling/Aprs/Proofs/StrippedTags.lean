import Aprs.Proofs.Base91
import Aprs.Proofs.CommentTags
import Aprs.Proofs.ExactValues
import Aprs.Proofs.StepwiseFilling

/-!
Tags taken out of a comment. Tags can overlap, since their marks are also among the characters that
they hold, so it matters which of them is taken: of the altitudes the first one, and of the
precision tags the last. A precision tag moves both coordinates away from zero, and neither of them
across it.
-/

namespace Aprs

namespace Quantity

variable {a b : Quantity} {x y : Rat}

theorem toRat?_outward (ha : a.toRat? = some x) (hb : b.toRat? = some y) :
    (outward a b).toRat? = some (if x < 0 then x - y else x + y) :=
  values_eq_some (fun x y => if x < 0 then x - y else x + y) ha hb

/-- Moved by so many degrees, with the sign that it had. -/
def MovesBy (degrees : Rat) (old new : Quantity) : Prop :=
  ∀ x, old.toRat? = some x → x ≠ 0 →
    ∃ y, new.toRat? = some y ∧ |y| = |x| + degrees ∧ SignType.sign y = SignType.sign x

theorem movesBy_outward (hb : b.toRat? = some y) (hy : 0 ≤ y) : MovesBy y a (outward a b) := by
  intro x hx hne
  refine ⟨_, toRat?_outward hx hb, ?_⟩
  rcases lt_or_gt_of_ne hne with hneg | hpos
  · have hmoved : x - y < 0 := by linarith
    rw [if_pos hneg]
    constructor
    · calc |x - y| = -(x - y) := abs_of_neg hmoved
        _ = -x + y := by ring
        _ = |x| + y := by rw [abs_of_neg hneg]
    · rw [sign_neg hneg, sign_neg hmoved]
  · have hmoved : 0 < x + y := by linarith
    rw [if_neg hpos.le.not_gt]
    constructor
    · calc |x + y| = x + y := abs_of_pos hmoved
        _ = |x| + y := by rw [abs_of_pos hpos]
    · rw [sign_pos hpos, sign_pos hmoved]

end Quantity

namespace Altitude

theorem toRat?_metres (feet : Int) :
    (metres feet).toRat? = some ((feet : Rat) * (3048 / 10000)) :=
  Quantity.toRat?_mul (Quantity.toRat?_ofInt feet) (Quantity.toRat?_scaled 3048 4)

/-- The first tag is taken out and told in metres, or there is none. -/
inductive Strips (t : Text) (r : Record Quantity) :
    EStateM.Result DecodeError (Record Quantity) Text → Prop
  | first {before tag after : Text} {feet : Int} {altitude : Quantity}
      (htag : Text.First Tells t before tag feet after)
      (hvalue : altitude.toRat? = some ((feet : Rat) * (3048 / 10000))) :
      Strips t r (.ok (before ++ after) { r with altitude := some altitude })
  | none (h : ∀ tag feet, Tells tag feet → ¬tag <:+: t) : Strips t r (.ok t r)

variable {t : Text}

theorem strips_fill (h : '\n' ∉ t) (r : Record Quantity) : Strips t r ((fill t).run r) := by
  have hline : Text.isSingleLine t = true := Text.isSingleLine_iff.mpr h
  cases hleftmost : Text.leftmost? take? t with
  | none =>
    have hsplit : split t = (none, t) := by rw [split, if_pos hline, hleftmost]
    rw [run_fill hsplit]
    exact .none (takes_tells.leftmost?_eq_none_iff.mp hleftmost)
  | some parts =>
    obtain ⟨before, feet, after⟩ := parts
    obtain ⟨tag, htag⟩ := takes_tells.first hleftmost
    have hsplit : split t = (some feet, before ++ after) := by
      rw [split, if_pos hline, hleftmost]
    rw [run_fill hsplit]
    exact .first htag (toRat?_metres feet)

theorem run_fill_of_newline (h : '\n' ∈ t) (r : Record Quantity) : (fill t).run r = .ok t r :=
  run_fill (if_neg (Text.not_isSingleLine h)) r

end Altitude

namespace Dao

section Offsets

variable {dao : Dao}

/-- What the digits of a tag add to the minutes of the coordinates. -/
def minutes (dao : Dao) : Rat × Rat :=
  if dao.datum = 'W' ∧ dao.latitude.isDigit ∧ dao.longitude.isDigit then
    ((dao.latitude.toNat - 48 : Rat) / 1000, (dao.longitude.toNat - 48 : Rat) / 1000)
  else if dao.datum = 'w' ∧ dao.latitude ≠ ' ' ∧ dao.longitude ≠ ' ' then
    ((dao.latitude.toNat - 33 : Rat) / 9100, (dao.longitude.toNat - 33 : Rat) / 9100)
  else (0, 0)

/-- A value that is not negative, in minutes. -/
def IsMinutes (q : Quantity) (minutes : Rat) : Prop :=
  0 ≤ minutes ∧ q.toRat? = some (minutes / 60)

theorem isMinutes_ofDecimalDigit {c : Char} (h : c.isDigit = true) :
    IsMinutes (ofDecimalDigit c) ((c.toNat - 48 : Rat) / 1000) := by
  have hlow : 48 ≤ c.toNat := (Char.isDigit_iff_toNat.mp h).1
  have hvalue := Quantity.toRat?_div (Quantity.toRat?_mul
    (Quantity.toRat?_ofNat (Text.digitValue c)) (Quantity.toRat?_scaled 1 3))
    (Quantity.toRat?_ofNat 60)
  have hdigit : (Text.digitValue c : Rat) = c.toNat - 48 := Nat.cast_sub hlow
  rw [hdigit] at hvalue
  constructor
  · have hcast : (48 : Rat) ≤ c.toNat := by exact_mod_cast hlow
    linarith
  · refine hvalue.trans (congrArg some ?_)
    push_cast
    ring

theorem isMinutes_ofBase91Digit {c : Char} (h : Base91.isDigit c = true) :
    IsMinutes (ofBase91Digit c) ((c.toNat - 33 : Rat) / 9100) := by
  have hlow : 33 ≤ c.toNat := (Text.between_iff.mp h).1
  have hdecode : Base91.decode [c] = .ok (c.toNat - 33) := Base91.decode_singleton h
  have hvalue := Quantity.toRat?_div (Quantity.toRat?_mul (Quantity.toRat?_div
    (Quantity.toRat?_ofNat (c.toNat - 33)) (Quantity.toRat?_ofNat 91))
    (Quantity.toRat?_scaled 1 2)) (Quantity.toRat?_ofNat 60)
  rw [Nat.cast_sub hlow] at hvalue
  constructor
  · have hcast : (33 : Rat) ≤ c.toNat := by exact_mod_cast hlow
    linarith
  · rw [ofBase91Digit, hdecode]
    refine hvalue.trans (congrArg some ?_)
    push_cast
    ring

theorem isMinutes_offsets (h : dao.IsSent) :
    IsMinutes dao.offsets.1 dao.minutes.1 ∧ IsMinutes dao.offsets.2 dao.minutes.2 := by
  unfold offsets minutes
  by_cases hdecimal : dao.datum = 'W' ∧ dao.latitude.isDigit ∧ dao.longitude.isDigit
  · rw [if_pos hdecimal, if_pos hdecimal]
    exact ⟨isMinutes_ofDecimalDigit hdecimal.2.1, isMinutes_ofDecimalDigit hdecimal.2.2⟩
  by_cases hbase91 : dao.datum = 'w' ∧ dao.latitude ≠ ' ' ∧ dao.longitude ≠ ' '
  · rw [if_neg hdecimal, if_neg hdecimal, if_pos hbase91, if_pos hbase91]
    exact ⟨isMinutes_ofBase91Digit (isDigit_of_ne_blank h.latitude hbase91.2.1),
      isMinutes_ofBase91Digit (isDigit_of_ne_blank h.longitude hbase91.2.2)⟩
  · rw [if_neg hdecimal, if_neg hdecimal, if_neg hbase91, if_neg hbase91]
    have hzero : IsMinutes 0 0 :=
      ⟨le_rfl, (Quantity.toRat?_ofNat 0).trans (congrArg some (by norm_num))⟩
    exact ⟨hzero, hzero⟩

theorem IsMinutes.movesBy {q : Quantity} {minutes : Rat} (h : IsMinutes q minutes)
    (old : Option Quantity) :
    Option.Rel (Quantity.MovesBy (minutes / 60)) old (old.map (.outward · q)) := by
  have hnonneg : 0 ≤ minutes / 60 := div_nonneg h.1 (by norm_num)
  cases old with
  | none => exact .none
  | some a => exact .some (Quantity.movesBy_outward h.2 hnonneg)

end Offsets

/-- The last tag is taken out, its datum is kept as a capital letter, and both coordinates move
away from zero by the minutes that it tells; or there is none. -/
inductive Strips (t : Text) (r : Record Quantity) :
    EStateM.Result DecodeError (Record Quantity) Text → Prop
  | last {before tag after : Text} {dao : Dao} {latitude longitude : Option Quantity}
      (htag : Text.Last Tells t before tag dao after)
      (hlatitude : Option.Rel (Quantity.MovesBy (dao.minutes.1 / 60)) r.latitude latitude)
      (hlongitude : Option.Rel (Quantity.MovesBy (dao.minutes.2 / 60)) r.longitude longitude) :
      Strips t r (.ok (before ++ after)
        { r with latitude, longitude, daoDatum := some dao.datum.toUpper })
  | none (h : ∀ tag dao, Tells tag dao → ¬tag <:+: t) : Strips t r (.ok t r)

variable {t : Text}

theorem strips_fill (h : '\n' ∉ t) (r : Record Quantity) : Strips t r ((fill t).run r) := by
  have hline : Text.isSingleLine t = true := Text.isSingleLine_iff.mpr h
  cases hrightmost : Text.rightmost? take? t with
  | none =>
    have hsplit : split t = (none, t) := by rw [split, if_pos hline, hrightmost]
    rw [run_fill hsplit]
    exact .none (takes_tells.rightmost?_eq_none_iff.mp hrightmost)
  | some parts =>
    obtain ⟨before, dao, after⟩ := parts
    obtain ⟨tag, htag⟩ := takes_tells.last hrightmost
    obtain ⟨hlatitude, hlongitude⟩ := isMinutes_offsets htag.tells.2
    have hsplit : split t = (some dao, before ++ after) := by
      rw [split, if_pos hline, hrightmost]
    rw [run_fill hsplit]
    exact .last htag (hlatitude.movesBy r.latitude) (hlongitude.movesBy r.longitude)

theorem run_fill_of_newline (h : '\n' ∈ t) (r : Record Quantity) : (fill t).run r = .ok t r :=
  run_fill (if_neg (Text.not_isSingleLine h)) r

end Dao

/-- Of the tags in a line the first altitude goes and the last precision tag. A text of more lines
stays as it is. -/
theorem Comment.fill_strips (t : Text) (r : Record Quantity) :
    ('\n' ∉ t →
      Altitude.Strips t r ((Altitude.fill t).run r) ∧ Dao.Strips t r ((Dao.fill t).run r)) ∧
      ('\n' ∈ t → (Altitude.fill t).run r = .ok t r ∧ (Dao.fill t).run r = .ok t r) := by
  constructor
  · intro h
    exact ⟨Altitude.strips_fill h r, Dao.strips_fill h r⟩
  · intro h
    exact ⟨Altitude.run_fill_of_newline h r, Dao.run_fill_of_newline h r⟩

/-- Two altitudes and two precision tags, of which the second begins with the end of the first. -/
theorem Comment.fill_strips_overlapping :
    '\n' ∉ "/A=001234/A=-00020!W52!w34!".toList ∧
      Altitude.Strips "/A=001234/A=-00020!W52!w34!".toList { raw := [] }
        (.ok "/A=-00020!W52!w34!".toList { raw := [], altitude := some (Altitude.metres 1234) }) ∧
      Dao.Strips "/A=001234/A=-00020!W52!w34!".toList
        { raw := [], latitude := some 49, longitude := some (-72) }
        (.ok "/A=001234/A=-00020!W52".toList
          { raw := []
            latitude := some (.outward 49 (Dao.ofBase91Digit '3'))
            longitude := some (.outward (-72) (Dao.ofBase91Digit '4'))
            daoDatum := some 'W' }) ∧
      '\n' ∈ "!W52!\n".toList ∧
      (Altitude.fill "!W52!\n".toList).run { raw := [] } = .ok "!W52!\n".toList { raw := [] } ∧
      (Dao.fill "!W52!\n".toList).run { raw := [] } = .ok "!W52!\n".toList { raw := [] } := by
  have hone : '\n' ∉ "/A=001234/A=-00020!W52!w34!".toList := by decide
  have htwo : '\n' ∈ "!W52!\n".toList := by decide
  have haltitude := ((fill_strips _ { raw := [] }).1 hone).1
  have hdao :=
    ((fill_strips _ { raw := [], latitude := some 49, longitude := some (-72) }).1 hone).2
  exact ⟨hone, haltitude, hdao, htwo, (fill_strips _ { raw := [] }).2 htwo⟩

end Aprs
