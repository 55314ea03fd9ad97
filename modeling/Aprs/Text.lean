/-!
Received text: classes of characters, trimming, and the two ways to look for a mark in a text.
-/

namespace Aprs

/-- A text, one Unicode scalar value at a time. -/
abbrev Text := List Char

namespace Text

/-- Length in UTF-8 bytes, the unit in which the protocol counts whole fields. -/
def byteLength (t : Text) : Nat := t.foldr (fun c n => c.utf8Size + n) 0

theorem byteLength_cons (c : Char) (t : Text) :
    byteLength (c :: t) = c.utf8Size + byteLength t := rfl

theorem byteLength_append (t u : Text) : byteLength (t ++ u) = byteLength t + byteLength u := by
  induction t with
  | nil => exact (Nat.zero_add _).symm
  | cons c t ih => rw [List.cons_append, byteLength_cons, byteLength_cons, ih, Nat.add_assoc]

theorem length_le_byteLength (t : Text) : t.length ≤ t.byteLength := by
  induction t with
  | nil => exact Nat.le_refl 0
  | cons c t ih =>
    have hc := c.utf8Size_pos
    rw [byteLength_cons, List.length_cons]
    omega

/-- The UTF-8 bytes of a text. -/
def bytes (t : Text) : List UInt8 := t.flatMap String.utf8EncodeChar

def between (lo hi : Char) (c : Char) : Bool := decide (lo ≤ c) && decide (c ≤ hi)

theorem between_iff {lo hi c : Char} :
    between lo hi c = true ↔ lo.toNat ≤ c.toNat ∧ c.toNat ≤ hi.toNat := by
  rw [between, Bool.and_eq_true, decide_eq_true_eq, decide_eq_true_eq]
  exact Iff.rfl

theorem toNat_ofNat {n : Nat} (h : n < 128) : (Char.ofNat n).toNat = n := by
  have hvalid : n.isValidChar := .inl (by omega)
  rw [Char.ofNat, dif_pos hvalid]
  rfl

def isDigitOrSpace (c : Char) : Bool := c.isDigit || c == ' '

/-- Digits, and the two characters that stand for a value the station does not know. -/
def isDigitOrFiller (c : Char) : Bool := c.isDigit || c == ' ' || c == '.'

/-- Symbol tables are the two slashes and the overlays, which are digits and capital letters. -/
def isSymbolTable (c : Char) : Bool := c == '/' || c == '\\' || c.isDigit || c.isUpper

def trimStart (p : Char → Bool) (t : Text) : Text := t.dropWhile p

def trimEnd (p : Char → Bool) (t : Text) : Text := (t.reverse.dropWhile p).reverse

def trim (p : Char → Bool) (t : Text) : Text := trimEnd p (trimStart p t)

theorem trimStart_eq_self {p : Char → Bool} {t : Text} (h : ∀ c ∈ t.head?, p c = false) :
    trimStart p t = t := by
  cases t with
  | nil => rfl
  | cons c u =>
    have hc : p c = false := h c rfl
    rw [trimStart, List.dropWhile_cons_of_neg (by rw [hc]; decide)]

/-- Trimming the end of a text stops at a character that it does not take off. -/
theorem trimEnd_append {p : Char → Bool} {t : Text} (h : ∀ c ∈ t.getLast?, p c = false) (u : Text) :
    trimEnd p (t ++ u) = t ++ trimEnd p u := by
  have hreverse : t.reverse.dropWhile p = t.reverse := by
    apply trimStart_eq_self
    rwa [List.head?_reverse]
  rw [trimEnd, trimEnd, List.reverse_append, List.dropWhile_append]
  cases hempty : (u.reverse.dropWhile p).isEmpty with
  | true => rw [if_pos rfl, hreverse, List.isEmpty_iff.mp hempty, List.reverse_reverse,
      List.reverse_nil, List.append_nil]
  | false => rw [if_neg (by decide), List.reverse_append, List.reverse_reverse]

theorem prefix_trimEnd (p : Char → Bool) (t : Text) : trimEnd p t <+: t := by
  rw [trimEnd, ← List.reverse_suffix, List.reverse_reverse]
  exact List.dropWhile_suffix p

/-- Trimming the start leaves nothing or an end of what trimming the end leaves. -/
theorem suffix_trim (p : Char → Bool) (t : Text) : trim p t <:+ trimEnd p t := by
  obtain ⟨start, hstart⟩ : trimStart p t <:+ t := List.dropWhile_suffix p
  have hreverse : t.reverse = (trimStart p t).reverse ++ start.reverse := by
    rw [← List.reverse_append, hstart]
  rw [trim, trimEnd, trimEnd, hreverse, List.dropWhile_append]
  cases hempty : ((trimStart p t).reverse.dropWhile p).isEmpty with
  | true =>
    rw [List.isEmpty_iff.mp hempty, List.reverse_nil]
    exact List.nil_suffix
  | false =>
    rw [if_neg (by decide), List.reverse_append, List.reverse_reverse]
    exact List.suffix_append start _

def isSpace (c : Char) : Bool := c == ' '

def trimSpaces (t : Text) : Text := trim isSpace t

def trimEndSpaces (t : Text) : Text := trimEnd isSpace t

/-- Cuts a text at the first `mark`, which neither part keeps. -/
def splitFirst? (mark : Char) : Text → Option (Text × Text)
  | [] => none
  | c :: t =>
    if c = mark then some ([], t)
    else (splitFirst? mark t).map fun (before, after) => (c :: before, after)

/-- The cut is at the mark that has none before it. -/
theorem splitFirst?_eq_some_iff {mark : Char} {t before after : Text} :
    splitFirst? mark t = some (before, after) ↔
      t = before ++ mark :: after ∧ mark ∉ before := by
  induction t generalizing before with
  | nil => simp [splitFirst?]
  | cons c t ih =>
    rw [splitFirst?]
    constructor
    · intro h
      split at h
      · next hc =>
        cases h
        exact ⟨by rw [hc, List.nil_append], List.not_mem_nil⟩
      · next hc =>
        obtain ⟨⟨u, v⟩, hsplit, hcons⟩ := Option.map_eq_some_iff.mp h
        cases hcons
        obtain ⟨rfl, hu⟩ := ih.mp hsplit
        exact ⟨rfl, List.not_mem_cons_of_ne_of_not_mem (Ne.symm hc) hu⟩
    · rintro ⟨heq, hbefore⟩
      cases before with
      | nil =>
        obtain ⟨rfl, rfl⟩ := List.cons.inj heq
        rw [if_pos rfl]
      | cons d u =>
        rw [List.cons_append, List.cons.injEq] at heq
        obtain ⟨rfl, rfl⟩ := heq
        rw [List.mem_cons, not_or] at hbefore
        rw [if_neg (Ne.symm hbefore.1), ih.mpr ⟨rfl, hbefore.2⟩, Option.map_some]

/-- The part before the first `mark`, or all of a text without one. -/
def upTo (mark : Char) (t : Text) : Text := t.takeWhile (· != mark)

/-- Cuts a text at a byte offset, if a character ends there. -/
def splitAtByte? : Nat → Text → Option (Text × Text)
  | 0, t => some ([], t)
  | _ + 1, [] => none
  | n + 1, c :: t =>
    if c.utf8Size ≤ n + 1 then
      (splitAtByte? (n + 1 - c.utf8Size) t).map fun (before, after) => (c :: before, after)
    else none

theorem splitAtByte?_append (before after : Text) :
    splitAtByte? before.byteLength (before ++ after) = some (before, after) := by
  induction before with
  | nil => cases after <;> rfl
  | cons c before ih =>
    have hc := c.utf8Size_pos
    obtain ⟨n, hn⟩ : ∃ n, byteLength (c :: before) = n + 1 :=
      Nat.exists_eq_add_one.mpr (by rw [byteLength_cons]; omega)
    rw [hn, List.cons_append, splitAtByte?, ← hn, byteLength_cons, if_pos (by omega),
      Nat.add_sub_cancel_left, ih, Option.map_some]

/-- The cut is where so many bytes lie before it. -/
theorem splitAtByte?_eq_some_iff {n : Nat} {t before after : Text} :
    splitAtByte? n t = some (before, after) ↔ t = before ++ after ∧ before.byteLength = n := by
  constructor
  · intro h
    fun_induction splitAtByte? n t generalizing before with
    | case1 =>
      cases h
      exact ⟨rfl, rfl⟩
    | case2 => cases h
    | case3 n c t hsize ih =>
      obtain ⟨⟨u, v⟩, hsplit, heq⟩ := Option.map_eq_some_iff.mp h
      cases heq
      obtain ⟨rfl, hlength⟩ := ih hsplit
      exact ⟨rfl, by rw [byteLength_cons]; omega⟩
    | case4 => cases h
  · rintro ⟨rfl, rfl⟩
    exact splitAtByte?_append before after

/-- The `n` characters from the `start`-th on. -/
def slice (start n : Nat) (t : Text) : Text := (t.drop start).take n

theorem slice_add (start m n : Nat) (t : Text) :
    slice start (m + n) t = slice start m t ++ slice (start + m) n t := by
  rw [slice, slice, slice, List.take_add, List.drop_drop]

/-- What follows `start` in a text that begins with it. -/
def dropPrefix? : Text → Text → Option Text
  | [], t => some t
  | _ :: _, [] => none
  | s :: start, c :: t => if s = c then dropPrefix? start t else none

/-- The leftmost place where `take?` cuts something off, with the text before it and after it. -/
def leftmost? (take? : Text → Option (α × Text)) : Text → Option (Text × α × Text)
  | [] => (take? []).map fun (found, after) => ([], found, after)
  | c :: t =>
    match take? (c :: t) with
    | some (found, after) => some ([], found, after)
    | none => (leftmost? take? t).map fun (before, found, after) => (c :: before, found, after)

/-- The rightmost place where `take?` cuts something off. -/
def rightmost? (take? : Text → Option (α × Text)) : Text → Option (Text × α × Text)
  | [] => (take? []).map fun (found, after) => ([], found, after)
  | c :: t =>
    match rightmost? take? t with
    | some (before, found, after) => some (c :: before, found, after)
    | none => (take? (c :: t)).map fun (found, after) => ([], found, after)

def isSingleLine (t : Text) : Bool := t.all (· != '\n')

/-- The longest start of a text that stays on its first line and within `limit` characters. -/
def firstLine (limit : Nat) (t : Text) : Text := (t.takeWhile (· != '\n')).take limit

def digitValue (c : Char) : Nat := c.toNat - '0'.toNat

/-- The value of a hexadecimal digit in either case. -/
def hexDigit? (c : Char) : Option Nat :=
  if c.isDigit then some (digitValue c)
  else if between 'a' 'f' c then some (c.toNat - 'a'.toNat + 10)
  else if between 'A' 'F' c then some (c.toNat - 'A'.toNat + 10)
  else none

/-- The number that a run of decimal digits stands for. -/
def natOfDigits (t : Text) : Nat := t.foldl (fun n c => 10 * n + digitValue c) 0

/-- The number that a non-empty run of decimal digits stands for. -/
def nat? (t : Text) : Option Nat :=
  if t ≠ [] ∧ t.all Char.isDigit then some (natOfDigits t) else none

end Text

end Aprs
