import Aprs.Proofs.InputLines

/-!
Input that is UTF-8. What the text of the input is cut into, the bytes of the input are cut into as
well: no byte of a longer character is a line feed or a carriage return, and each line is read as
the text whose bytes it has.
-/

namespace Aprs

namespace Text

section Characters

variable {a b d e : UInt8} {rest : List UInt8}

theorem ofBytes?_one (ha : a.toNat < 0x80) :
    ofBytes? (a :: rest) = (ofBytes? rest).map (Char.ofNat a.toNat :: ·) := by
  have hfirst : a < 0x80 := ha
  conv_lhs => unfold ofBytes?
  rw [if_pos hfirst]

theorem isContinuation_iff : isContinuation b = true ↔ 0x80 ≤ b.toNat ∧ b.toNat ≤ 0xbf := by
  rw [isContinuation, Bool.and_eq_true, decide_eq_true_eq, decide_eq_true_eq]
  exact Iff.rfl

theorem ofBytes?_two (ha : 0xc2 ≤ a.toNat ∧ a.toNat ≤ 0xdf) (hb : isContinuation b = true) :
    ofBytes? (a :: b :: rest) =
      (ofBytes? rest).map (Char.ofNat (extend (a.toNat - 0xc0) b) :: ·) := by
  have hone : ¬a < 0x80 := by
    rw [UInt8.lt_iff_toNat_lt]
    exact Nat.not_lt.mpr (Nat.le_trans (by decide) ha.1)
  have htwo : 0xc2 ≤ a ∧ a ≤ 0xdf := ha
  conv_lhs => unfold ofBytes?
  rw [if_neg hone, if_pos htwo]
  dsimp only
  rw [if_pos hb]

theorem ofBytes?_three (ha : 0xe0 ≤ a.toNat ∧ a.toNat ≤ 0xef) (hb : isSecondOfThree a b = true)
    (hd : isContinuation d = true) :
    ofBytes? (a :: b :: d :: rest) =
      (ofBytes? rest).map (Char.ofNat (extend (extend (a.toNat - 0xe0) b) d) :: ·) := by
  have hone : ¬a < 0x80 := by
    rw [UInt8.lt_iff_toNat_lt]
    exact Nat.not_lt.mpr (Nat.le_trans (by decide) ha.1)
  have htwo : ¬(0xc2 ≤ a ∧ a ≤ 0xdf) := by
    rintro ⟨_, h⟩
    exact absurd (Nat.le_trans ha.1 h) (by decide)
  have hthree : 0xe0 ≤ a ∧ a ≤ 0xef := ha
  conv_lhs => unfold ofBytes?
  rw [if_neg hone, if_neg htwo, if_pos hthree]
  dsimp only
  rw [if_pos (by rw [hb, hd]; rfl)]

theorem ofBytes?_four (ha : 0xf0 ≤ a.toNat ∧ a.toNat ≤ 0xf4) (hb : isSecondOfFour a b = true)
    (hd : isContinuation d = true) (he : isContinuation e = true) :
    ofBytes? (a :: b :: d :: e :: rest) =
      (ofBytes? rest).map (Char.ofNat (extend (extend (extend (a.toNat - 0xf0) b) d) e) :: ·) := by
  have hone : ¬a < 0x80 := by
    rw [UInt8.lt_iff_toNat_lt]
    exact Nat.not_lt.mpr (Nat.le_trans (by decide) ha.1)
  have htwo : ¬(0xc2 ≤ a ∧ a ≤ 0xdf) := by
    rintro ⟨_, h⟩
    exact absurd (Nat.le_trans ha.1 h) (by decide)
  have hthree : ¬(0xe0 ≤ a ∧ a ≤ 0xef) := by
    rintro ⟨_, h⟩
    exact absurd (Nat.le_trans ha.1 h) (by decide)
  have hfour : 0xf0 ≤ a ∧ a ≤ 0xf4 := ha
  conv_lhs => unfold ofBytes?
  rw [if_neg hone, if_neg htwo, if_neg hthree, if_pos hfour]
  dsimp only
  rw [if_pos (by rw [hb, hd, he]; rfl)]

theorem toNat_byte {n : Nat} (h : n < 256) : (UInt8.ofNat n).toNat = n :=
  UInt8.toNat_ofNat_of_lt' h

theorem extend_eq (n : Nat) (b : UInt8) : extend n b = 64 * n + (b.toNat - 128) := rfl

/-- The six lowest bits of a number, as a byte that continues a character. -/
theorem continuation (n : Nat) :
    isContinuation (UInt8.ofNat (n % 64 + 128)) = true ∧
      (UInt8.ofNat (n % 64 + 128)).toNat = n % 64 + 128 := by
  have hvalue := toNat_byte (show n % 64 + 128 < 256 by omega)
  exact ⟨isContinuation_iff.mpr (by omega), hvalue⟩

theorem ofBytes?_append_char (c : Char) (rest : List UInt8) :
    ofBytes? (String.utf8EncodeChar c ++ rest) = (ofBytes? rest).map (c :: ·) := by
  have hchar : Char.ofNat c.val.toNat = c := Char.ofNat_toNat c
  have hvalid : c.val.toNat < 0xd800 ∨ 0xdfff < c.val.toNat ∧ c.val.toNat < 0x110000 := c.valid
  fun_cases String.utf8EncodeChar c
  case case1 v hone =>
    have hvalue : (UInt8.ofNat v).toNat = v := toNat_byte (by omega)
    rw [List.singleton_append, ofBytes?_one (by omega), hvalue, hchar]
  case case2 v hone htwo =>
    have hfirst : (UInt8.ofNat (v / 64 % 32 + 192)).toNat = v / 64 % 32 + 192 :=
      toNat_byte (by omega)
    obtain ⟨hsecond, hvalue⟩ := continuation v
    have hcode : extend ((UInt8.ofNat (v / 64 % 32 + 192)).toNat - 0xc0)
        (UInt8.ofNat (v % 64 + 128)) = v := by
      rw [extend_eq]
      omega
    rw [List.cons_append, List.singleton_append, ofBytes?_two (by omega) hsecond, hcode, hchar]
  case case3 v hone htwo hthree =>
    have hfirst : (UInt8.ofNat (v / 4096 % 16 + 224)).toNat = v / 4096 % 16 + 224 :=
      toNat_byte (by omega)
    obtain ⟨hsecond, hvalue⟩ := continuation (v / 64)
    obtain ⟨hthird, hvalue'⟩ := continuation v
    have hcode : extend (extend ((UInt8.ofNat (v / 4096 % 16 + 224)).toNat - 0xe0)
        (UInt8.ofNat (v / 64 % 64 + 128))) (UInt8.ofNat (v % 64 + 128)) = v := by
      rw [extend_eq, extend_eq]
      omega
    have hpair : isSecondOfThree (UInt8.ofNat (v / 4096 % 16 + 224))
        (UInt8.ofNat (v / 64 % 64 + 128)) = true := by
      simp only [isSecondOfThree, hsecond, Bool.true_and, Bool.and_eq_true, Bool.or_eq_true,
        bne_iff_ne, decide_eq_true_eq, UInt8.le_iff_toNat_le, ne_eq, ← UInt8.toNat_inj, hfirst,
        hvalue, UInt8.reduceToNat]
      omega
    rw [List.cons_append, List.cons_append, List.singleton_append,
      ofBytes?_three (by omega) hpair hthird, hcode, hchar]
  case case4 v hone htwo hthree =>
    have hfirst : (UInt8.ofNat (v / 262144 % 8 + 240)).toNat = v / 262144 % 8 + 240 :=
      toNat_byte (by omega)
    obtain ⟨hsecond, hvalue⟩ := continuation (v / 4096)
    obtain ⟨hthird, hvalue'⟩ := continuation (v / 64)
    obtain ⟨hfourth, hvalue''⟩ := continuation v
    have hcode : extend (extend (extend ((UInt8.ofNat (v / 262144 % 8 + 240)).toNat - 0xf0)
        (UInt8.ofNat (v / 4096 % 64 + 128))) (UInt8.ofNat (v / 64 % 64 + 128)))
          (UInt8.ofNat (v % 64 + 128)) = v := by
      rw [extend_eq, extend_eq, extend_eq]
      omega
    have hpair : isSecondOfFour (UInt8.ofNat (v / 262144 % 8 + 240))
        (UInt8.ofNat (v / 4096 % 64 + 128)) = true := by
      simp only [isSecondOfFour, hsecond, Bool.true_and, Bool.and_eq_true, Bool.or_eq_true,
        bne_iff_ne, decide_eq_true_eq, UInt8.le_iff_toNat_le, ne_eq, ← UInt8.toNat_inj, hfirst,
        hvalue, UInt8.reduceToNat]
      omega
    rw [List.cons_append, List.cons_append, List.cons_append, List.singleton_append,
      ofBytes?_four (by omega) hpair hthird hfourth, hcode, hchar]

/-- The bytes of a text are read as that text. -/
theorem ofBytes?_bytes (t : Text) : ofBytes? (bytes t) = some t := by
  induction t with
  | nil => rfl
  | cons c t ih =>
    rw [bytes, List.flatMap_cons, ofBytes?_append_char, ← bytes, ih, Option.map_some]

/-- Characters below 128 are one byte, and no other character has such a byte. -/
theorem toNat_of_mem_utf8EncodeChar {c : Char} (hb : b.toNat < 128)
    (h : b ∈ String.utf8EncodeChar c) : c.toNat = b.toNat := by
  have hvalid : c.val.toNat < 0xd800 ∨ 0xdfff < c.val.toNat ∧ c.val.toNat < 0x110000 := c.valid
  have hvalue : ∀ n, b = UInt8.ofNat n → n < 256 → b.toNat = n := by
    rintro n rfl hn
    exact toNat_byte hn
  change c.val.toNat = b.toNat
  revert h
  fun_cases String.utf8EncodeChar c <;> intro h <;>
    simp only [List.mem_cons, List.not_mem_nil, or_false] at h
  case case1 v hone =>
    have := hvalue _ h (by omega)
    omega
  -- The bytes of longer characters all lie above.
  case case2 v hone htwo =>
    rcases h with h | h <;> have := hvalue _ h (by omega) <;> omega
  case case3 v hone htwo hthree =>
    rcases h with h | h | h <;> have := hvalue _ h (by omega) <;> omega
  case case4 v hone htwo hthree =>
    rcases h with h | h | h | h <;> have := hvalue _ h (by omega) <;> omega

end Characters

section Lines

variable {c : Char} {t : Text} {ls : List Text}

theorem bytes_append (t u : Text) : bytes (t ++ u) = bytes t ++ bytes u := List.flatMap_append

theorem mem_of_mem_bytes {b : UInt8} (hb : b.toNat < 128) (h : b ∈ bytes t) :
    Char.ofNat b.toNat ∈ t := by
  obtain ⟨c, hc, hmem⟩ := List.mem_flatMap.mp h
  rwa [← toNat_of_mem_utf8EncodeChar hb hmem, Char.ofNat_toNat]

/-- The last byte is that of a character of its own if it is below 128. -/
theorem getLast?_of_getLast?_bytes {b : UInt8} (hb : b.toNat < 128)
    (h : (bytes t).getLast? = some b) : t.getLast? = some (Char.ofNat b.toNat) := by
  obtain rfl | ⟨before, c, rfl⟩ := t.eq_nil_or_concat'
  · cases h
  · obtain ⟨d, hd⟩ : ∃ d, (String.utf8EncodeChar c).getLast? = some d :=
      ⟨_, List.getLast?_eq_some_getLast String.utf8EncodeChar_ne_nil⟩
    have hbytes : bytes [c] = String.utf8EncodeChar c := List.append_nil _
    rw [bytes_append, List.getLast?_append, hbytes, hd, Option.some_or, Option.some.injEq] at h
    subst h
    rw [List.getLast?_append, ← toNat_of_mem_utf8EncodeChar hb (List.mem_of_getLast? hd),
      Char.ofNat_toNat]
    rfl

/-- A text in lines. A line feed ends a line, and so does one with a carriage return in front of it;
what follows the last line feed is a line if there is anything. -/
inductive IsLines : Text → List Text → Prop where
  | nil : IsLines [] []
  | last {line : Text} : line ≠ [] → '\n' ∉ line → IsLines line [line]
  | feed {line rest : Text} {ls : List Text} : '\n' ∉ line → line.getLast? ≠ some '\r' →
    IsLines rest ls → IsLines (line ++ '\n' :: rest) (line :: ls)
  | returnFeed {line rest : Text} {ls : List Text} : '\n' ∉ line → IsLines rest ls →
    IsLines (line ++ '\r' :: '\n' :: rest) (line :: ls)

theorem exists_isLines (t : Text) : ∃ ls, IsLines t ls := by
  by_cases hfeed : '\n' ∈ t
  · obtain ⟨line, rest, ht, hline⟩ := List.eq_append_cons_of_mem hfeed
    obtain ⟨ls, hrest⟩ := exists_isLines rest
    rw [ht]
    obtain hreturn | hreturn := eq_or_ne line.getLast? (some '\r')
    · obtain ⟨before, rfl⟩ := List.getLast?_eq_some_iff.mp hreturn
      rw [List.mem_append, not_or] at hline
      rw [List.append_assoc, List.singleton_append]
      exact ⟨before :: ls, .returnFeed hline.1 hrest⟩
    · exact ⟨line :: ls, .feed hline hreturn hrest⟩
  · cases t with
    | nil => exact ⟨[], .nil⟩
    | cons c t => exact ⟨[c :: t], .last (List.cons_ne_nil c t) hfeed⟩
termination_by t.length
decreasing_by
  rw [ht, List.length_append, List.length_cons]
  omega

open CommandLine

theorem dropReturn_reverse {u : List UInt8} (h : u.getLast? ≠ some 13) :
    dropReturn u.reverse = u := by
  obtain rfl | ⟨before, b, rfl⟩ := u.eq_nil_or_concat'
  · rfl
  · have hb : b ≠ 13 := by
      rintro rfl
      exact h (List.getLast?_concat)
    rw [List.reverse_concat, dropReturn]
    · rw [← List.reverse_concat, List.reverse_reverse]
    · intro line hline
      exact hb (List.cons.inj hline).1

theorem IsLines.lines_bytes (h : IsLines t ls) : lines (bytes t) = ls.map bytes := by
  have hfeed : ∀ {line : Text}, '\n' ∉ line → 10 ∉ bytes line := fun hline hmem =>
    hline (mem_of_mem_bytes (by decide) hmem)
  induction h with
  | nil => rfl
  | @last line hne hline =>
    obtain ⟨c, t, rfl⟩ := List.exists_cons_of_ne_nil hne
    have hbytes : bytes (c :: t) ≠ [] :=
      List.append_ne_nil_of_left_ne_nil String.utf8EncodeChar_ne_nil _
    rw [lines_of_not_mem (hfeed hline) hbytes]
    rfl
  | @feed line rest ls hline hreturn _ ih =>
    have hend : (bytes line).getLast? ≠ some 13 := fun hlast =>
      hreturn (getLast?_of_getLast?_bytes (by decide) hlast)
    have hbytes : bytes (line ++ '\n' :: rest) = bytes line ++ 10 :: bytes rest := bytes_append ..
    rw [hbytes, lines_cons (hfeed hline), dropReturn_reverse hend, ih, List.map_cons]
  | @returnFeed line rest ls hline _ ih =>
    have hbytes : bytes (line ++ '\r' :: '\n' :: rest) =
        (bytes line ++ [13]) ++ 10 :: bytes rest := by
      rw [bytes_append, List.append_assoc]
      rfl
    have hfeed' : 10 ∉ bytes line ++ [13] := by
      simp [hfeed hline]
    rw [hbytes, lines_cons hfeed', List.reverse_concat, dropReturn, List.reverse_reverse, ih,
      List.map_cons]

/-- A text is cut into lines in one way. -/
theorem IsLines.eq_filterMap (h : IsLines t ls) : ls = (lines (bytes t)).filterMap ofBytes? := by
  have hread : ofBytes? ∘ bytes = some := funext ofBytes?_bytes
  rw [h.lines_bytes, List.filterMap_map, hread, List.filterMap_some]

end Lines

end Text

end Aprs
