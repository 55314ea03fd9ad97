import Aprs.Proofs.Base91
import Aprs.Proofs.CommentTags
import Aprs.Proofs.HeaderGrammar
import Aprs.Proofs.PositionKinds
import Aprs.Proofs.Soundness

/-!
Telemetry in the comment of a position report. Its digits are also the characters of the other tags,
and altitudes are taken out before telemetry is looked for. A block comes through unless an altitude
tag stands among its digits; taking that out leaves an odd number of them, which is no block.
-/

namespace Aprs

theorem Layout.not_mem_of_fills {layout : Layout} {t : Text} {c : Char} (h : Fills layout t)
    (hc : (layout.all fun holds => !holds c) = true) : c ∉ t := by
  induction layout generalizing t with
  | nil =>
    rw [fills_nil_iff.mp h]
    exact List.not_mem_nil
  | cons holds columns ih =>
    obtain ⟨d, u, rfl, hd, hu⟩ := fills_cons_iff.mp h
    rw [List.all_cons, Bool.and_eq_true] at hc
    rw [List.mem_cons, not_or]
    refine ⟨?_, ih hu hc.2⟩
    rintro rfl
    rw [hd] at hc
    cases hc.1

namespace Altitude

theorem length_of_isTag {tag : Text} (h : IsTag tag) : tag.length = 9 := by
  rcases h with h | h <;> exact Layout.length_eq_of_fills h

theorem bar_not_mem_of_isTag {tag : Text} (h : IsTag tag) : '|' ∉ tag := by
  rcases h with h | h <;> exact Layout.not_mem_of_fills h (by decide)

theorem slash_mem_of_isTag {tag : Text} (h : IsTag tag) : '/' ∈ tag := by
  rcases h with h | h
  all_goals
    obtain ⟨c, t, rfl, hc, _⟩ := Layout.fills_cons_iff.mp h
    rw [eq_of_beq hc]
    exact List.mem_cons_self

end Altitude

namespace Telemetry

/-- Digits between bars. -/
def block (digits : Text) : Text := '|' :: (digits ++ ['|'])

variable {digits : Text}

theorem bar_not_mem (h : ∀ c ∈ digits, Base91.isDigit c = true) : '|' ∉ digits :=
  fun hmem => absurd (h '|' hmem) (by decide)

theorem newline_not_mem_block (h : ∀ c ∈ digits, Base91.isDigit c = true) :
    '\n' ∉ block digits := by
  have hdigits : '\n' ∉ digits := fun hmem => absurd (h '\n' hmem) (by decide)
  simp [block, hdigits]

theorem isSingleLine_block (h : ∀ c ∈ digits, Base91.isDigit c = true) :
    Text.isSingleLine (block digits) = true :=
  Text.isSingleLine_iff.mpr (newline_not_mem_block h)

theorem takeBlock?_block (h : ∀ c ∈ digits, Base91.isDigit c = true) (rest : Text) :
    takeBlock? (block digits ++ rest) =
      if 4 ≤ digits.length ∧ digits.length ≤ 14 then some (digits, rest) else none := by
  have hbar : ∀ c ∈ ('|' :: rest).head?, Base91.isDigit c = false := by
    intro c hc
    cases hc
    decide
  obtain ⟨htake, hdrop⟩ := Text.span_append ('|' :: rest) h hbar
  rw [block, List.cons_append, List.append_assoc, List.singleton_append, takeBlock?, hdrop, htake]
  rfl

/-- No block begins among characters that are no bars, so the first one is found. -/
theorem leftmost?_block {before : Text} (hbefore : '|' ∉ before)
    (h : ∀ c ∈ digits, Base91.isDigit c = true) (hlength : 4 ≤ digits.length ∧ digits.length ≤ 14)
    (after : Text) :
    Text.leftmost? takeBlock? (before ++ (block digits ++ after)) =
      some (before, digits, after) := by
  refine Text.leftmost?_append ?_ (by rw [takeBlock?_block h, if_pos hlength])
  rintro u (_ | ⟨c, v⟩) rfl hne
  · exact absurd rfl hne
  · cases htake : takeBlock? (c :: v ++ (block digits ++ after)) with
    | none => rfl
    | some found =>
      obtain ⟨heq, -⟩ := takeBlock?_eq_some htake
      obtain ⟨rfl, -⟩ := List.cons.inj heq
      exact absurd (List.mem_append_right u List.mem_cons_self) hbefore

/-- The block is taken out, unless half a number is left over in it. -/
theorem split_append {before after : Text} (hbefore : '|' ∉ before)
    (hline : '\n' ∉ before ∧ '\n' ∉ after) (h : ∀ c ∈ digits, Base91.isDigit c = true)
    (hlength : 4 ≤ digits.length ∧ digits.length ≤ 14) :
    split (before ++ (block digits ++ after)) =
      if digits.length % 2 = 0 then (some (ofNumbers (numbers digits)), before ++ after)
      else (none, before ++ (block digits ++ after)) := by
  have hsingle : Text.isSingleLine (before ++ (block digits ++ after)) = true := by
    rw [Text.isSingleLine_iff, List.mem_append, List.mem_append, not_or, not_or]
    exact ⟨hline.1, newline_not_mem_block h, hline.2⟩
  rw [split, if_pos hsingle, leftmost?_block hbefore h hlength]

theorem split_block (h : ∀ c ∈ digits, Base91.isDigit c = true) (heven : digits.length % 2 = 0)
    (hlength : 4 ≤ digits.length ∧ digits.length ≤ 14) :
    split (block digits) = (some (ofNumbers (numbers digits)), []) := by
  have hsplit := split_append (List.not_mem_nil (a := '|'))
    ⟨List.not_mem_nil, List.not_mem_nil⟩ h hlength
  rwa [if_pos heven, List.nil_append, List.append_nil] at hsplit

/-- Half a number is left over. -/
theorem split_block_of_odd (h : ∀ c ∈ digits, Base91.isDigit c = true)
    (hodd : digits.length % 2 = 1) : split (block digits) = (none, block digits) := by
  rw [split, if_pos (isSingleLine_block h)]
  split
  · next before found after hleftmost =>
    obtain ⟨rest, heq, htake⟩ := Text.leftmost?_eq_some hleftmost
    have hbars := congrArg (List.count '|') heq
    rw [(takeBlock?_eq_some htake).1, block] at hbars
    have hbefore : before = [] := by
      cases before with
      | nil => rfl
      | cons c u =>
        -- The two bars of what was found and the one before it are more than the block has.
        have hdigits := List.count_eq_zero.mpr (bar_not_mem h)
        obtain ⟨rfl, _⟩ := List.cons.inj heq
        simp only [List.count_cons, List.count_append, List.count_nil, List.cons_append, hdigits,
          beq_self_eq_true, if_true] at hbars
        omega
    rw [hbefore, List.nil_append] at heq
    rw [← heq, ← List.append_nil (block digits), takeBlock?_block h] at htake
    split at htake
    · cases htake
      rw [if_neg (by omega)]
    · cases htake
  · rfl

/-- The numbers of a block come back. -/
theorem numbers_encode {ns : List Nat} (h : ∀ n ∈ ns, n < 8281) :
    numbers (ns.flatMap (Base91.encode · 2)) = ns := by
  induction ns with
  | nil => rfl
  | cons n ns ih =>
    obtain ⟨hn, hns⟩ := List.forall_mem_cons.mp h
    have hlength : (Base91.encode n 2).length = 2 := Base91.length_encode (by decide) hn
    obtain ⟨a, b, hab⟩ := List.length_eq_two.mp hlength
    have hlimit : n ≤ Base91.limit := hn.le.trans (by decide)
    have hdecode := Base91.decode_encode hlimit 2
    rw [hab] at hdecode
    rw [List.flatMap_cons, hab, List.cons_append, List.cons_append, List.nil_append, numbers,
      hdecode, ih hns]
    rfl

theorem length_flatMap_encode {ns : List Nat} (h : ∀ n ∈ ns, n < 8281) :
    (ns.flatMap (Base91.encode · 2)).length = 2 * ns.length := by
  have htwo : ∀ n ∈ ns, (Base91.encode n 2).length = 2 :=
    fun n hn => Base91.length_encode (by decide) (h n hn)
  rw [List.length_flatMap, List.map_congr_left htwo, List.map_const', List.sum_replicate,
    smul_eq_mul, Nat.mul_comm]

end Telemetry

namespace Altitude

variable {digits tag u v : Text}

/-- Altitude tags have no bars, so one inside a block stands among its digits. -/
theorem exists_of_block_eq (htag : IsTag tag) (h : Telemetry.block digits = u ++ (tag ++ v)) :
    ∃ before after, u = '|' :: before ∧ v = after ++ ['|'] ∧ digits = before ++ (tag ++ after) := by
  have hbar := bar_not_mem_of_isTag htag
  have hne : tag ≠ [] := by
    rintro rfl
    cases length_of_isTag htag
  cases u with
  | nil =>
    obtain ⟨c, t, rfl⟩ := List.exists_cons_of_ne_nil hne
    obtain ⟨rfl, _⟩ := List.cons.inj h
    exact absurd List.mem_cons_self hbar
  | cons c before =>
    rw [Telemetry.block, List.cons_append, List.cons.injEq] at h
    obtain ⟨rfl, hdigits⟩ := h
    rcases List.eq_nil_or_concat v with rfl | ⟨after, d, rfl⟩
    · have hlast := congrArg List.getLast? hdigits
      rw [List.append_nil, List.getLast?_concat, List.getLast?_append_of_ne_nil _ hne] at hlast
      exact absurd (List.mem_of_getLast? hlast.symm) hbar
    · rw [List.concat_eq_append, ← List.append_assoc, ← List.append_assoc] at hdigits
      obtain ⟨rfl, hd⟩ := List.append_inj' hdigits rfl
      cases hd
      exact ⟨before, after, rfl, List.concat_eq_append, by rw [List.append_assoc]⟩

theorem split_block_of_no_tag (hdigits : ∀ c ∈ digits, Base91.isDigit c = true)
    (h : ∀ tag, IsTag tag → ¬tag <:+: digits) :
    split (Telemetry.block digits) = (none, Telemetry.block digits) := by
  have hnone : Text.leftmost? take? (Telemetry.block digits) = none := by
    rw [leftmost?_eq_none_iff]
    rintro tag htag ⟨u, v, heq⟩
    rw [List.append_assoc] at heq
    obtain ⟨before, after, _, _, rfl⟩ := exists_of_block_eq htag heq.symm
    exact h tag htag ⟨before, after, by rw [List.append_assoc]⟩
  rw [split, if_pos (Telemetry.isSingleLine_block hdigits), hnone]

/-- An altitude tag has nine characters, so what it leaves of a block has half a number in it. -/
theorem split_block_of_tag (hdigits : ∀ c ∈ digits, Base91.isDigit c = true)
    (heven : digits.length % 2 = 0) (htag : IsTag tag) (h : tag <:+: digits) :
    ∃ feet left, split (Telemetry.block digits) = (some feet, Telemetry.block left) ∧
      (∀ c ∈ left, Base91.isDigit c = true) ∧ left.length % 2 = 1 := by
  have hinside : tag <:+: Telemetry.block digits :=
    h.trans ⟨['|'], ['|'], rfl⟩
  cases hleftmost : Text.leftmost? take? (Telemetry.block digits) with
  | none => exact absurd hinside (leftmost?_eq_none_iff.mp hleftmost tag htag)
  | some found =>
    obtain ⟨u, feet, v⟩ := found
    obtain ⟨rest, heq, htake⟩ := Text.leftmost?_eq_some hleftmost
    obtain ⟨first, rfl, hfirst⟩ := take?_eq_some htake
    obtain ⟨before, after, rfl, rfl, rfl⟩ := exists_of_block_eq hfirst heq
    refine ⟨feet, before ++ after, ?_, ?_, ?_⟩
    · rw [split, if_pos (Telemetry.isSingleLine_block hdigits), hleftmost]
      simp [Telemetry.block]
    · intro c hc
      exact hdigits c (by simp at hc ⊢; tauto)
    · have hnine := length_of_isTag hfirst
      simp only [List.length_append] at heven ⊢
      omega

end Altitude

namespace Telemetry

/-- A sequence number, five values and perhaps bits, two digits each. -/
def numbersOf (seq : Fin 8281) (values : Vector (Fin 8281) 5) (bits : Option (Fin 8281)) :
    List Nat :=
  seq.val :: (values.toList.map Fin.val ++ bits.toList.map Fin.val)

def written (seq : Fin 8281) (values : Vector (Fin 8281) 5) (bits : Option (Fin 8281)) : Text :=
  (numbersOf seq values bits).flatMap (Base91.encode · 2)

variable {seq : Fin 8281} {values : Vector (Fin 8281) 5} {bits : Option (Fin 8281)}

theorem lt_of_mem_numbersOf {n : Nat} (h : n ∈ numbersOf seq values bits) : n < 8281 := by
  simp only [numbersOf, List.mem_cons, List.mem_append, List.mem_map] at h
  rcases h with rfl | ⟨v, _, rfl⟩ | ⟨b, _, rfl⟩
  · exact seq.isLt
  · exact v.isLt
  · exact b.isLt

theorem isDigit_of_mem_written {c : Char} (h : c ∈ written seq values bits) :
    Base91.isDigit c = true := by
  obtain ⟨n, _, hc⟩ := List.mem_flatMap.mp h
  exact Base91.isDigit_of_mem_encode hc

theorem length_written (seq : Fin 8281) (values : Vector (Fin 8281) 5)
    (bits : Option (Fin 8281)) :
    (written seq values bits).length = 2 * (6 + bits.toList.length) := by
  have hcount : (numbersOf seq values bits).length = 6 + bits.toList.length := by
    simp [numbersOf]
    omega
  rw [written, length_flatMap_encode fun _ hn => lt_of_mem_numbersOf hn, hcount]

/-- Numbers of two digits fit into the channels. -/
theorem ofNumbers_numbersOf :
    (ofNumbers (numbersOf seq values bits)).seq.toNat = seq ∧
      (ofNumbers (numbersOf seq values bits)).values.toList.map UInt32.toNat =
        values.toList.map Fin.val ∧
      (ofNumbers (numbersOf seq values bits)).bits =
        bits.bind fun b => if b.val = 0 then none else some (bitText b) := by
  have hword : ∀ n : Fin 8281, n.val.toUInt32.toNat = n := by
    intro n
    rw [Nat.toUInt32, UInt32.toNat_ofNat']
    omega
  obtain ⟨⟨listed⟩, hlisted⟩ := values
  match listed, hlisted with
  | [a, b, c, d, e], _ =>
    refine ⟨hword seq, ?_, ?_⟩
    · change [a.val.toUInt32.toNat, b.val.toUInt32.toNat, c.val.toUInt32.toNat,
        d.val.toUInt32.toNat, e.val.toUInt32.toNat] = [a.val, b.val, c.val, d.val, e.val]
      simp only [hword]
    · cases bits <;> rfl

end Telemetry

theorem Comment.read_block_of_no_tag {digits : Text}
    (hdigits : ∀ c ∈ digits, Base91.isDigit c = true) (heven : digits.length % 2 = 0)
    (hlength : 4 ≤ digits.length ∧ digits.length ≤ 14)
    (htag : ∀ tag, Altitude.IsTag tag → ¬tag <:+: digits) :
    read (Telemetry.block digits) =
      ⟨none, none, some (Telemetry.ofNumbers (Telemetry.numbers digits)), none, []⟩ := by
  have hextension : Extension.split (Telemetry.block digits) = (none, Telemetry.block digits) := rfl
  unfold read
  rw [hextension]
  dsimp only
  rw [Altitude.split_block_of_no_tag hdigits htag]
  dsimp only
  rw [Telemetry.split_block hdigits heven hlength]
  rfl

theorem Comment.telemetry_read_block_of_tag {digits tag : Text}
    (hdigits : ∀ c ∈ digits, Base91.isDigit c = true) (heven : digits.length % 2 = 0)
    (htag : Altitude.IsTag tag) (h : tag <:+: digits) :
    (read (Telemetry.block digits)).telemetry = none := by
  have hextension : Extension.split (Telemetry.block digits) = (none, Telemetry.block digits) := rfl
  obtain ⟨feet, left, hsplit, hleft, hodd⟩ := Altitude.split_block_of_tag hdigits heven htag h
  unfold read
  rw [hextension]
  dsimp only
  rw [hsplit]
  dsimp only
  rw [Telemetry.split_block_of_odd hleft hodd]

theorem Uncompressed.getLast?_of_decode? {body : Text} {fix : Fix}
    (h : decode? body = .ok (some (fix, []))) : body.getLast? = some fix.symbolCode := by
  obtain ⟨_, field, hlayout, hread⟩ := decode?_eq_some_iff.mp h
  obtain ⟨rfl, hfills⟩ := Layout.take?_eq_some_iff.mp hlayout
  obtain ⟨_, _, _, _, _, _, _, rfl⟩ := exists_of_read hread
  have hlength : field.length = 19 := Layout.length_eq_of_fills hfills
  rw [List.append_nil, List.getLast?_eq_getElem?, hlength]
  simp [hlength]

/-- Where a position in degrees and minutes is found, the rest is read as its symbol says. -/
theorem Position.decode_of_decode? (now : Int) {body rest : Text} {fix : Fix}
    (h : Uncompressed.decode? body = .ok (some (fix, rest))) :
    decode now (.station false false) body =
      .ok ⟨false, none, none, fix, Remark.read fix.symbolCode rest⟩ := by
  have hne : body ≠ [] := by
    rintro rfl
    cases h
  have hfix : takeFix body = .ok (fix, rest) := by rw [takeFix, h]
  rw [decode_eq_complete rfl rfl, complete_of_ne_nil _ _ hne, hfix]
  rfl

/-- Behind an uncompressed position of no weather station stands a comment. -/
theorem Position.decode_uncompressed_comment (now : Int) {position : Text} {fix : Fix}
    (hposition : Uncompressed.decode? position = .ok (some (fix, [])))
    (hsymbol : position.getLast? ≠ some '_') (text : Text) :
    decode now (.station false false) (position ++ text) =
      .ok ⟨false, none, none, fix, .comment (Comment.read text)⟩ := by
  have hlast := Uncompressed.getLast?_of_decode? hposition
  have hcode : fix.symbolCode ≠ Remark.weatherSymbol := by
    intro hcode
    rw [hlast, hcode] at hsymbol
    exact hsymbol rfl
  rw [decode_of_decode? now (Uncompressed.decode?_append hposition text), Remark.read, if_neg hcode,
    List.nil_append]

/-- Telemetry behind a position comes through as it was sent if no altitude tag stands among its
digits, and is lost if one does. -/
theorem decode_comment_telemetry (options : Options) (now : Int) {head position : Text}
    {header : Header} {fix : Fix} (seq : Fin 8281) (values : Vector (Fin 8281) 5)
    (bits : Option (Fin 8281)) (hheader : Header.decode options head = .ok header)
    (hcolon : options.acceptAnyDestination = true → ':' ∉ head)
    (hposition : Uncompressed.decode? position = .ok (some (fix, [])))
    (hsymbol : position.getLast? ≠ some '_') :
    let digits := Telemetry.written seq values bits
    ∃ r : Record Quantity,
      decode options now (head ++ ':' :: '!' :: (position ++ Telemetry.block digits)) =
        .ok (.plain r) ∧
      ((∀ tag, Altitude.IsTag tag → ¬tag <:+: digits) →
        r.comment = [] ∧ ∃ telemetry, r.telemetry = some telemetry ∧
          telemetry.seq.toNat = seq ∧
          telemetry.values.toList.map UInt32.toNat = values.toList.map Fin.val ∧
          telemetry.bits =
            bits.bind fun b => if b.val = 0 then none else some (Telemetry.bitText b)) ∧
      ((∃ tag, Altitude.IsTag tag ∧ tag <:+: digits) → r.telemetry = none) := by
  intro digits
  have hdigits : ∀ c ∈ digits, Base91.isDigit c = true :=
    fun _ hc => Telemetry.isDigit_of_mem_written hc
  have hlength : digits.length = 2 * (6 + bits.toList.length) :=
    Telemetry.length_written seq values bits
  have hbits : bits.toList.length ≤ 1 := by cases bits <;> simp
  have heven : digits.length % 2 = 0 := by omega
  have hcolon : ':' ∉ head := by
    cases hchecked : options.acceptAnyDestination with
    | true => exact hcolon hchecked
    | false => exact Header.colon_not_mem hchecked hheader
  have hcontent : position ++ Telemetry.block digits ≠ [] := by simp [Telemetry.block]
  have hend : ∀ c ∈ (position ++ Telemetry.block digits).getLast?, Line.isLineEnd c = false := by
    intro c hc
    rw [Telemetry.block, ← List.cons_append, ← List.append_assoc, List.getLast?_concat] at hc
    cases hc
    decide
  let line := head ++ ':' :: '!' :: (position ++ Telemetry.block digits)
  let p : Position := ⟨false, none, none, fix, .comment (Comment.read (Telemetry.block digits))⟩
  have hline : Line.decodeWithin options now options.maxThirdPartyDepth line =
      (Position.decode now (.station false false) (position ++ Telemetry.block digits)).map
        fun p => .plain ((Line.blankRecord line header).withPosition p) :=
    @Line.decodeWithin_position options header (.station false false) head _ now _ hheader hcolon
      hcontent hend
  refine ⟨(Line.blankRecord line header).withPosition p, ?_, ?_, ?_⟩
  · rw [decode, hline, Position.decode_uncompressed_comment now hposition hsymbol]
    rfl
  · intro htag
    have hread := Comment.read_block_of_no_tag hdigits heven (by omega) htag
    have hnumbers : Telemetry.numbers digits = Telemetry.numbersOf seq values bits :=
      Telemetry.numbers_encode fun _ hn => Telemetry.lt_of_mem_numbersOf hn
    rw [hnumbers] at hread
    rw [Record.withPosition_blankRecord]
    refine ⟨congrArg Comment.text hread, _, congrArg Comment.telemetry hread, ?_⟩
    exact Telemetry.ofNumbers_numbersOf
  · rintro ⟨tag, htag, hinside⟩
    rw [Record.withPosition_blankRecord]
    exact Comment.telemetry_read_block_of_tag hdigits heven htag hinside

/-- Bits that are all zero count as none. -/
theorem decode_comment_telemetry_zero_bits :
    Header.decode {} "N0CALL>APRS".toList = .ok ⟨"N0CALL".toList, "APRS".toList, []⟩ ∧
      ((Options.mk false 8).acceptAnyDestination = true → ':' ∉ "N0CALL>APRS".toList) ∧
      (∃ fix, Uncompressed.decode? "4903.50N/07201.75W-".toList = .ok (some (fix, []))) ∧
      "4903.50N/07201.75W-".toList.getLast? ≠ some '_' ∧
      (∀ tag, Altitude.IsTag tag →
        ¬tag <:+: Telemetry.written 8280 #v[0, 1, 90, 91, 8280] (some 0)) ∧
      ∃ r : Record Quantity,
        decode {} 0 "N0CALL>APRS:!4903.50N/07201.75W-|\x7b\x7b!!!\"!\x7b\"!\x7b\x7b!!|".toList =
          .ok (.plain r) ∧
        r.comment = [] ∧
        ∃ telemetry, r.telemetry = some telemetry ∧ telemetry.seq.toNat = 8280 ∧
          telemetry.values.toList.map UInt32.toNat = [0, 1, 90, 91, 8280] ∧
          telemetry.bits = none := by
  have hheader : Header.decode {} "N0CALL>APRS".toList =
      .ok ⟨"N0CALL".toList, "APRS".toList, []⟩ := by cbv
  have hcolon : (Options.mk false 8).acceptAnyDestination = true → ':' ∉ "N0CALL>APRS".toList :=
    fun _ => by decide
  have hposition : ∃ fix,
      Uncompressed.decode? "4903.50N/07201.75W-".toList = .ok (some (fix, [])) := by
    refine ⟨⟨.uncompressed 0, Uncompressed.coordinate 49 ⟨false, 350, 2⟩ false,
      Uncompressed.coordinate 72 ⟨false, 175, 2⟩ true, '/', '-', {}⟩, ?_⟩
    cbv
  have hsymbol : "4903.50N/07201.75W-".toList.getLast? ≠ some '_' := by decide
  have hwritten : Telemetry.written 8280 #v[0, 1, 90, 91, 8280] (some 0) =
      "\x7b\x7b!!!\"!\x7b\"!\x7b\x7b!!".toList := by cbv
  have hslash : '/' ∉ Telemetry.written 8280 #v[0, 1, 90, 91, 8280] (some 0) := by
    rw [hwritten]
    decide
  have htag : ∀ tag, Altitude.IsTag tag →
      ¬tag <:+: Telemetry.written 8280 #v[0, 1, 90, 91, 8280] (some 0) :=
    fun tag htag hinside => hslash (hinside.subset (Altitude.slash_mem_of_isTag htag))
  obtain ⟨fix, hfix⟩ := hposition
  obtain ⟨r, hdecode, htelemetry, _⟩ := decode_comment_telemetry {} 0 8280
    #v[0, 1, 90, 91, 8280] (some 0) hheader hcolon hfix hsymbol
  obtain ⟨hcomment, telemetry, hr, hseq, hvalues, hbits⟩ := htelemetry htag
  have hline : "N0CALL>APRS".toList ++ ':' :: '!' :: ("4903.50N/07201.75W-".toList ++
      Telemetry.block (Telemetry.written 8280 #v[0, 1, 90, 91, 8280] (some 0))) =
      "N0CALL>APRS:!4903.50N/07201.75W-|\x7b\x7b!!!\"!\x7b\"!\x7b\x7b!!|".toList := by
    rw [hwritten]
    rfl
  rw [hline] at hdecode
  exact ⟨hheader, hcolon, ⟨fix, hfix⟩, hsymbol, htag, r, hdecode, hcomment, telemetry, hr, hseq,
    hvalues, hbits⟩

/-- An altitude tag among the digits costs the telemetry. So does a colon in the header, which an
unchecked destination can have and where the line is cut. -/
theorem comment_telemetry_lost :
    Header.decode {} "N0CALL>APRS".toList = .ok ⟨"N0CALL".toList, "APRS".toList, []⟩ ∧
      (∃ fix, Uncompressed.decode? "4903.50N/07201.75W-".toList = .ok (some (fix, []))) ∧
      "4903.50N/07201.75W-".toList.getLast? ≠ some '_' ∧
      Telemetry.written 1306 #v[2563, 1380, 1380, 1365, 0] none = "/A=000000!!!".toList ∧
      (decode {} 0 "N0CALL>APRS:!4903.50N/07201.75W-|/A=000000!!!|".toList).map
          (fun packet => (packet.record.telemetry, packet.record.comment)) =
        .ok (none, "|!!!|".toList) ∧
      Header.decode ⟨true, 8⟩ "N0CALL>A:>B".toList =
        .ok ⟨"N0CALL".toList, "A:>B".toList, []⟩ ∧
      Telemetry.written 0 #v[0, 0, 0, 0, 0] none = "!!!!!!!!!!!!".toList ∧
      (decode ⟨true, 8⟩ 0 "N0CALL>A:>B:!4903.50N/07201.75W-|!!!!!!!!!!!!|".toList).map
          (fun packet => (packet.record.telemetry, packet.record.status)) =
        .ok (none, some "B:!4903.50N/07201.75W-|!!!!!!!!!!!!|".toList) := by
  refine ⟨by cbv, ⟨⟨.uncompressed 0, Uncompressed.coordinate 49 ⟨false, 350, 2⟩ false,
    Uncompressed.coordinate 72 ⟨false, 175, 2⟩ true, '/', '-', {}⟩, by cbv⟩, by decide, by cbv,
    by cbv, by cbv, by cbv, by cbv⟩

end Aprs
