import Aprs.Position
import Aprs.Proofs.ByteOffsets

/-!
The fields of a packet, cut out at byte offsets. What is in front of an offset was matched by a
layout or looked at byte by byte before, so no offset is out of place, and the fields are the same
as those that are taken character by character.
-/

namespace Aprs.Sliced

open Byte Text

section Numbers

/-- A digit to the base 91 is its byte less 33. -/
def base91From (value : Nat) : Text → Run Char Nat
  | [] => pure value
  | c :: t =>
    if !Base91.isDigit c then throw c
    else do
      let digit ← sub? c.toUInt8 33
      base91From (min (min (value * Base91.radix) Base91.limit + digit.toNat) Base91.limit) t

def base91 (t : Text) : Run Char Nat := base91From 0 (t.dropWhile (· == '!'))

def isDigitByte (b : UInt8) : Bool := decide (48 ≤ b) && decide (b ≤ 57)

def digitAt (bytes : List UInt8) (i : Nat) : Option Nat := do
  let b ← at? bytes i
  return (← sub? b 48).toNat

def pairAt (bytes : List UInt8) (i : Nat) : Option Nat := do
  return 10 * (← digitAt bytes i) + (← digitAt bytes (i + 1))

theorem comesTo_base91From (value : Nat) (t : Text) :
    (base91From value t).ComesTo (Base91.decodeFrom value t) := by
  induction t generalizing value with
  | nil => rfl
  | cons c t ih =>
    rw [base91From, Base91.decodeFrom]
    cases hdigit : Base91.isDigit c with
    | false => rfl
    | true =>
      obtain ⟨hlow, hhigh⟩ := Text.between_iff.mp hdigit
      have hcode : c.toUInt8.toNat = c.toNat :=
        toNat_toUInt8 (Nat.lt_of_le_of_lt hhigh (by decide))
      have hle : 33 ≤ c.toUInt8 := by
        rw [UInt8.le_iff_toNat_le, hcode]
        exact hlow
      have hpush : min (min (value * Base91.radix) Base91.limit + (c.toUInt8 - 33).toNat)
          Base91.limit = Base91.push value c := by
        rw [UInt8.toNat_sub_of_le _ _ hle, hcode]
        rfl
      refine Run.ComesTo.lift_bind (sub?_eq_some hle) ?_
      rw [hpush]
      exact ih _

/-- Only digits are decoded, and none of them is below the first. -/
theorem comesTo_base91 (t : Text) : (base91 t).ComesTo (Base91.decode t) :=
  comesTo_base91From 0 _

variable {c : Char} {u : Text} {i n : Nat}

theorem isAscii_of_isDigit (hc : c.isDigit = true) : c.toNat < 128 :=
  Nat.lt_of_le_of_lt (Char.isDigit_iff_toNat.mp hc).2 (by decide)

theorem isAscii_of_between {low high : Char} (hhigh : high.toNat < 128)
    (h : between low high c = true) : c.toNat < 128 :=
  Nat.lt_of_le_of_lt (between_iff.mp h).2 hhigh

theorem isDigitByte_toUInt8 (h : c.toNat < 128) : isDigitByte c.toUInt8 = c.isDigit := by
  rw [Bool.eq_iff_iff, isDigitByte, Bool.and_eq_true, decide_eq_true_eq, decide_eq_true_eq,
    UInt8.le_iff_toNat_le, UInt8.le_iff_toNat_le, toNat_toUInt8 h, Char.isDigit_iff_toNat]
  exact Iff.rfl

theorem toNat_lt_of_isDigitByte {b : UInt8} (h : isDigitByte b = true) : b.toNat < 128 := by
  rw [isDigitByte, Bool.and_eq_true, decide_eq_true_eq, decide_eq_true_eq,
    UInt8.le_iff_toNat_le, UInt8.le_iff_toNat_le] at h
  exact Nat.lt_of_le_of_lt h.2 (by decide)

theorem all_isDigitByte (h : IsAscii u) :
    (u.map Char.toUInt8).all isDigitByte = u.all Char.isDigit := by
  induction u with
  | nil => rfl
  | cons c u ih =>
    obtain ⟨hc, hu⟩ := isAscii_cons.mp h
    rw [List.map_cons, List.all_cons, List.all_cons, isDigitByte_toUInt8 hc, ih hu]

theorem toNat_sub_zero (hlow : 48 ≤ c.toNat) (hhigh : c.toNat < 128) :
    sub? c.toUInt8 48 = some (c.toUInt8 - 48) ∧ (c.toUInt8 - 48).toNat = digitValue c := by
  have hcode := toNat_toUInt8 hhigh
  have hle : 48 ≤ c.toUInt8 := by
    rw [UInt8.le_iff_toNat_le, hcode]
    exact hlow
  refine ⟨sub?_eq_some hle, ?_⟩
  rw [UInt8.toNat_sub_of_le _ _ hle, hcode]
  rfl

theorem digitAt_of_isDigit (hc : c.isDigit = true) (hi : u[i]? = some c) :
    digitAt (u.map Char.toUInt8) i = some (digitValue c) := by
  obtain ⟨hsub, hvalue⟩ := toNat_sub_zero (Char.isDigit_iff_toNat.mp hc).1 (isAscii_of_isDigit hc)
  have hat : at? (u.map Char.toUInt8) i = some c.toUInt8 := by
    rw [at?, List.getElem?_map, hi, Option.map_some]
  rw [digitAt, hat, ← hvalue]
  simp [hsub]

theorem pairAt_of_isDigit (h : ∀ c ∈ u, c.isDigit = true) (n : Nat) (hn : 2 * n + 1 < u.length) :
    pairAt (u.map Char.toUInt8) (2 * n) = some (Timestamp.pair u n) := by
  have hfirst : u[2 * n]? = some u[2 * n] := List.getElem?_eq_getElem _
  have hsecond : u[2 * n + 1]? = some u[2 * n + 1] := List.getElem?_eq_getElem _
  have hpair : (u.drop (2 * n)).take 2 = [u[2 * n], u[2 * n + 1]] := by
    rw [List.drop_eq_getElem_cons (by omega), List.drop_eq_getElem_cons hn]
    rfl
  rw [pairAt, digitAt_of_isDigit (h _ (List.getElem_mem _)) hfirst,
    digitAt_of_isDigit (h _ (List.getElem_mem _)) hsecond, Timestamp.pair, hpair]
  simp [natOfDigits]

end Numbers

section Times

def epochOf (now : Int) (digits : List UInt8) (form : Char) : Option (Option Int) :=
  let today := Calendar.dateAt now
  match form with
  | 'h' => do
    return Calendar.epoch? today (← pairAt digits 0) (← pairAt digits 2) (← pairAt digits 4)
  | 'z' | '/' => do
    return Calendar.epoch? { today with day := ← pairAt digits 0 } (← pairAt digits 2) 0 0
  | _ => some none

def timestamp (now : Int) (body : Text) : Run DecodeError (Timestamp × Text) :=
  if body.bytes.length < 7 then throw .invalidTimestamp
  else do
    let digits ← start? 6 body.bytes
    if !digits.all isDigitByte then throw .invalidTimestamp
    else
      match ← body.dropBytes? 6 with
      | [] => throw .invalidTimestamp
      | form :: _ =>
        if form = '\n' then throw .invalidTimestamp
        else
          let epoch ← epochOf now digits form
          let raw ← body.takeBytes? (6 + form.utf8Size)
          let rest ← body.dropBytes? (6 + form.utf8Size)
          return (⟨raw, epoch.getD 0⟩, rest)

def monthDay (now : Int) (digits : Text) : Option Int :=
  if digits.bytes.length ≠ 8 ∨ ¬digits.bytes.all isDigitByte then some 0
  else do
    let date := ⟨(Calendar.dateAt now).year, ← pairAt digits.bytes 0, ← pairAt digits.bytes 2⟩
    return (Calendar.epoch? date (← pairAt digits.bytes 4) (← pairAt digits.bytes 6) 0).getD 0

variable {now : Int} {u : Text}

theorem epochOf_of_isDigit (hlength : u.length = 6) (h : ∀ c ∈ u, c.isDigit = true) (form : Char) :
    epochOf now (u.map Char.toUInt8) form = some (Timestamp.epochOf now u form) := by
  have hpair : ∀ n < 3, pairAt (u.map Char.toUInt8) (2 * n) = some (Timestamp.pair u n) :=
    fun n hn => pairAt_of_isDigit h n (by omega)
  obtain ⟨hfirst, hsecond, hthird⟩ :
      pairAt (u.map Char.toUInt8) 0 = some (Timestamp.pair u 0) ∧
        pairAt (u.map Char.toUInt8) 2 = some (Timestamp.pair u 1) ∧
        pairAt (u.map Char.toUInt8) 4 = some (Timestamp.pair u 2) :=
    ⟨hpair 0 (by decide), hpair 1 (by decide), hpair 2 (by decide)⟩
  unfold epochOf Timestamp.epochOf
  dsimp only
  split <;> simp [hfirst, hsecond, hthird]

/-- Bytes of digits at the start are characters of digits there. -/
theorem exists_digits_of_bytes {body : Text} {n : Nat} (hlength : n ≤ body.bytes.length)
    (hdigits : (body.bytes.take n).all isDigitByte = true) :
    ∃ digits rest, body = digits ++ rest ∧ digits.length = n ∧ ∀ c ∈ digits, c.isDigit = true := by
  have hlow : ∀ b ∈ body.bytes.take n, b.toNat < 128 := fun b hb =>
    toNat_lt_of_isDigitByte (List.all_eq_true.mp hdigits b hb)
  obtain ⟨digits, rest, rfl, hn, hascii, hbytes⟩ := exists_append_of_bytes hlength hlow
  rw [hbytes, all_isDigitByte hascii, List.all_eq_true] at hdigits
  exact ⟨digits, rest, rfl, hn, hdigits⟩

theorem comesTo_timestamp_of_none {body : Text} (htake : Timestamp.layout.take? body = none) :
    (timestamp now body).ComesTo (.error .invalidTimestamp) := by
  rw [timestamp]
  split
  · exact Run.comesTo_throw _
  next hlength =>
  rw [Nat.not_lt] at hlength
  refine Run.ComesTo.lift_bind (if_pos (by omega)) ?_
  cases hdigits : (body.bytes.take 6).all isDigitByte with
  | false => exact Run.comesTo_throw _
  | true =>
    obtain ⟨u, v, rfl, hu, hall⟩ := exists_digits_of_bytes (by omega) hdigits
    have hascii : IsAscii u := fun c hc => isAscii_of_isDigit (hall c hc)
    refine Run.ComesTo.lift_bind (dropBytes?_append (hascii.byteLength.trans hu) v) ?_
    cases v with
    | nil => exact Run.comesTo_throw _
    | cons form rest =>
      dsimp only
      split
      · exact Run.comesTo_throw _
      · next hform =>
        -- all that the layout asks for is there, so it would have been taken
        have htaken : Timestamp.layout.take? (u ++ form :: rest) = some (u ++ [form], rest) :=
          Layout.take?_columns_append_singleton_iff.mpr
            ⟨u, form, rfl, rfl, hu, hall, bne_iff_ne.mpr hform⟩
        rw [htaken] at htake
        cases htake

theorem comesTo_timestamp_append {digits rest : Text} {form : Char} (hlength : digits.length = 6)
    (hdigits : ∀ c ∈ digits, c.isDigit = true) (hform : form ≠ '\n') :
    (timestamp now (digits ++ form :: rest)).ComesTo
      (.ok (⟨digits ++ [form], (Timestamp.epochOf now digits form).getD 0⟩, rest)) := by
  have hascii : IsAscii digits := fun c hc => isAscii_of_isDigit (hdigits c hc)
  have hsize := form.utf8Size_pos
  have hsix : digits.byteLength = 6 := hascii.byteLength.trans hlength
  have hseven : (digits ++ [form]).byteLength = 6 + form.utf8Size := by
    rw [byteLength_append, hsix]
    rfl
  have hbytes : (digits ++ form :: rest).bytes.length = 6 + form.utf8Size + rest.byteLength := by
    rw [length_bytes, byteLength_append, byteLength_cons, hsix, Nat.add_assoc]
  rw [timestamp, if_neg (by omega)]
  refine Run.ComesTo.lift_bind (hascii.start?_bytes hlength _) ?_
  rw [all_isDigitByte hascii, List.all_eq_true.mpr hdigits]
  refine Run.ComesTo.lift_bind (dropBytes?_append hsix _) ?_
  dsimp only
  rw [if_neg hform]
  refine Run.ComesTo.lift_bind (epochOf_of_isDigit hlength hdigits form) ?_
  rw [List.append_cons]
  refine Run.ComesTo.lift_bind (takeBytes?_append hseven rest) ?_
  refine Run.ComesTo.lift_bind (dropBytes?_append hseven rest) ?_
  exact Run.comesTo_pure _

/-- Six bytes of digits are the digits of a timestamp, and what follows them is its form. -/
theorem comesTo_timestamp (now : Int) (body : Text) :
    (timestamp now body).ComesTo
      ((Timestamp.take? now body).elim (.error .invalidTimestamp) .ok) := by
  rw [Timestamp.take?]
  cases htake : Timestamp.layout.take? body with
  | none => exact comesTo_timestamp_of_none htake
  | some result =>
    obtain ⟨raw, rest⟩ := result
    obtain ⟨digits, form, rfl, rfl, hlength, hdigits, hform⟩ :=
      Layout.take?_columns_append_singleton_iff.mp htake
    have hraw : (digits ++ [form]).take 6 = digits := List.take_left' hlength
    have hlast : (digits ++ [form]).getD 6 ' ' = form := by
      rw [← hlength]
      simp
    simp only [Option.map_some, Option.elim_some, hraw, hlast]
    exact comesTo_timestamp_append hlength hdigits (bne_iff_ne.mp hform)

theorem monthDay_eq_some (now : Int) (digits : Text) :
    monthDay now digits = some (Timestamp.monthDay now digits) := by
  rw [monthDay, Timestamp.monthDay]
  by_cases hfits : Layout.fits (Layout.columns 8 Char.isDigit) digits = true
  · obtain ⟨hlength, hdigits⟩ := Layout.fills_columns_iff.mp (Layout.fits_iff.mp hfits)
    have hascii : IsAscii digits := fun c hc => isAscii_of_isDigit (hdigits c hc)
    have hbytes : digits.bytes.length = 8 := by rw [hascii.bytes, List.length_map, hlength]
    have hall : digits.bytes.all isDigitByte = true := by
      rw [hascii.bytes, all_isDigitByte hascii, List.all_eq_true.mpr hdigits]
    have hpair : ∀ n < 4, pairAt digits.bytes (2 * n) = some (Timestamp.pair digits n) := by
      intro n hn
      rw [hascii.bytes]
      exact pairAt_of_isDigit hdigits n (by omega)
    obtain ⟨hmonth, hday, hhour, hminute⟩ :
        pairAt digits.bytes 0 = some (Timestamp.pair digits 0) ∧
          pairAt digits.bytes 2 = some (Timestamp.pair digits 1) ∧
          pairAt digits.bytes 4 = some (Timestamp.pair digits 2) ∧
          pairAt digits.bytes 6 = some (Timestamp.pair digits 3) :=
      ⟨hpair 0 (by decide), hpair 1 (by decide), hpair 2 (by decide), hpair 3 (by decide)⟩
    rw [if_neg (by simp [hbytes, hall]), if_pos hfits]
    simp [hmonth, hday, hhour, hminute]
  · rw [if_neg hfits, if_pos]
    by_contra hbytes
    rw [not_or, not_not, not_not] at hbytes
    obtain ⟨hlength, hall⟩ := hbytes
    rw [← List.take_of_length_le hlength.le] at hall
    obtain ⟨u, v, rfl, hu, hdigits⟩ := exists_digits_of_bytes hlength.ge hall
    have hascii : IsAscii u := fun c hc => isAscii_of_isDigit (hdigits c hc)
    have hv : v = [] := by
      have hle := length_le_byteLength v
      rw [length_bytes, byteLength_append, hascii.byteLength, hu] at hlength
      exact List.length_eq_zero_iff.mp (by omega)
    rw [hv, List.append_nil] at hfits
    exact hfits (Layout.fits_iff.mpr (Layout.fills_columns_iff.mpr ⟨hu, hdigits⟩))

end Times

section Positions

def objectHeader (body : Text) : Run DecodeError (ObjectHeader × Text) :=
  if body.bytes.length < 10 then throw .invalidObject
  else do
    let name ← start? 9 body.bytes
    if !name.all fun b => decide (32 ≤ b) && decide (b ≤ 126) then throw .invalidObject
    else
      let mark ← at? body.bytes 9
      if mark ≠ 42 ∧ mark ≠ 95 then throw .invalidObject
      else return (⟨← body.takeBytes? 9, mark == 42⟩, ← body.dropBytes? 10)

def uncompressed (body : Text) : Run DecodeError (Option (Fix × Text)) :=
  if (Uncompressed.shape.take? body).isNone then pure none
  else
    match Uncompressed.layout.take? body with
    | none => pure none
    | some (field, _) => do
      let fix ← Run.ofExcept ((Uncompressed.read field).mapError .invalidPosition)
      return some (fix, ← body.dropBytes? field.byteLength)

/-- The first cut is only tried: a text that cannot be cut there is in another layout. -/
def compressed (body : Text) : Run DecodeError (Fix × Text) :=
  match (body.takeBytes? 13).filter fun block => block.all Compressed.isAscii with
  | none => throw .invalidCompressed
  | some block => do
    let north ← (base91 (← block.sliceBytes? 1 5)).adapt DecodeError.invalidBase91
    let east ← (base91 (← block.sliceBytes? 5 9)).adapt DecodeError.invalidBase91
    let c := ((← at? block.bytes 10).toNat : Int) - 33
    let s := ((← at? block.bytes 11).toNat : Int) - 33
    let kind := ((← at? block.bytes 12).toNat : Int) - 33
    let symbolTable ← at? block.bytes 0
    let symbolCode ← at? block.bytes 9
    let rest ← body.dropBytes? 13
    return (
      { form := .compressed (Compressed.fixStatus c kind)
        latitude := Compressed.latitude north
        longitude := Compressed.longitude east
        symbolTable := toChar symbolTable
        symbolCode := toChar symbolCode
        readings := Compressed.readings c s kind }, rest)

theorem isPrintable_iff {b : UInt8} :
    (decide (32 ≤ b) && decide (b ≤ 126)) = true ↔ 32 ≤ b.toNat ∧ b.toNat ≤ 126 := by
  rw [Bool.and_eq_true, decide_eq_true_eq, decide_eq_true_eq]
  exact Iff.rfl

theorem comesTo_objectHeader_of_none {body : Text} (htake : ObjectHeader.layout.take? body = none) :
    (objectHeader body).ComesTo (.error .invalidObject) := by
  rw [objectHeader]
  split
  · exact Run.comesTo_throw _
  next hlength =>
  rw [Nat.not_lt] at hlength
  refine Run.ComesTo.lift_bind (if_pos (by omega)) ?_
  cases hname : (body.bytes.take 9).all fun b => decide (32 ≤ b) && decide (b ≤ 126) with
  | false => exact Run.comesTo_throw _
  | true =>
    rw [List.all_eq_true] at hname
    have hlow : ∀ b ∈ body.bytes.take 9, b.toNat < 128 := fun b hb =>
      Nat.lt_of_le_of_lt (isPrintable_iff.mp (hname b hb)).2 (by decide)
    obtain ⟨u, v, rfl, hu, hascii, hbytes⟩ := exists_append_of_bytes (by omega) hlow
    have hprintable : ∀ c ∈ u, between ' ' '~' c = true := by
      intro c hc
      rw [between_iff, ← toNat_toUInt8 (hascii c hc)]
      exact isPrintable_iff.mp (hname _ (by rw [hbytes]; exact List.mem_map_of_mem hc))
    cases v with
    | nil =>
      rw [length_bytes, List.append_nil, hascii.byteLength] at hlength
      omega
    | cons mark rest =>
      obtain ⟨b, hb, hcode⟩ := hascii.exists_at?_bytes hu mark rest
      refine Run.ComesTo.lift_bind hb ?_
      split
      · exact Run.comesTo_throw _
      · next hmark =>
        have hmark : mark = '*' ∨ mark = '_' := by
          rw [not_and_or, not_not, not_not] at hmark
          rcases hmark with rfl | rfl
          · exact .inl (Char.toNat_inj.mp (hcode (by decide)))
          · exact .inr (Char.toNat_inj.mp (hcode (by decide)))
        have htaken : ObjectHeader.layout.take? (u ++ mark :: rest) = some (u ++ [mark], rest) :=
          Layout.take?_columns_append_singleton_iff.mpr
            ⟨u, mark, rfl, rfl, hu, hprintable, by simpa using hmark⟩
        rw [htaken] at htake
        cases htake

theorem comesTo_objectHeader_append {name rest : Text} {mark : Char} (hlength : name.length = 9)
    (hname : ∀ c ∈ name, between ' ' '~' c = true) (hmark : mark = '*' ∨ mark = '_') :
    (objectHeader (name ++ mark :: rest)).ComesTo (.ok (⟨name, mark == '*'⟩, rest)) := by
  have hascii : IsAscii name := fun c hc => isAscii_of_between (by decide) (hname c hc)
  have hprintable : (name.map Char.toUInt8).all
      (fun b => decide (32 ≤ b) && decide (b ≤ 126)) = true := by
    rw [List.all_map, List.all_eq_true]
    intro c hc
    rw [Function.comp_apply, isPrintable_iff, toNat_toUInt8 (hascii c hc)]
    exact between_iff.mp (hname c hc)
  obtain ⟨hlow, hbyte, hstate⟩ : mark.toNat < 128 ∧
      ¬(mark.toUInt8 ≠ 42 ∧ mark.toUInt8 ≠ 95) ∧ (mark.toUInt8 == 42) = (mark == '*') := by
    rcases hmark with rfl | rfl <;> decide
  have hmarked : IsAscii (name ++ [mark]) := by simp [hascii, hlow]
  have hten : (name ++ [mark]).byteLength = 10 := by
    rw [hmarked.byteLength, List.length_append, hlength, List.length_singleton]
  have hbytes : (name ++ mark :: rest).bytes.length = 10 + rest.byteLength := by
    rw [length_bytes, List.append_cons, byteLength_append, hten]
  have hat : at? (name ++ mark :: rest).bytes 9 = some mark.toUInt8 := by
    rw [List.append_cons]
    exact hmarked.getElem?_bytes (by rw [← hlength]; simp) rest
  rw [objectHeader, if_neg (by omega)]
  refine Run.ComesTo.lift_bind (hascii.start?_bytes hlength _) ?_
  rw [hprintable]
  refine Run.ComesTo.lift_bind hat ?_
  rw [if_neg hbyte, hstate]
  refine Run.ComesTo.lift_bind (takeBytes?_append (hascii.byteLength.trans hlength) _) ?_
  rw [List.append_cons]
  refine Run.ComesTo.lift_bind (dropBytes?_append hten rest) ?_
  exact Run.comesTo_pure _

/-- Nine bytes that can be printed are the name of an object, and the tenth tells its state. -/
theorem comesTo_objectHeader (body : Text) :
    (objectHeader body).ComesTo
      ((ObjectHeader.take? body).elim (.error .invalidObject) .ok) := by
  rw [ObjectHeader.take?]
  cases htake : ObjectHeader.layout.take? body with
  | none => exact comesTo_objectHeader_of_none htake
  | some result =>
    obtain ⟨field, rest⟩ := result
    obtain ⟨name, mark, rfl, rfl, hlength, hname, hmark⟩ :=
      Layout.take?_columns_append_singleton_iff.mp htake
    have hfirst : (name ++ [mark]).take 9 = name := List.take_left' hlength
    have hlast : (name ++ [mark]).getD 9 ' ' = mark := by
      rw [← hlength]
      simp
    simp only [Option.map_some, Option.elim_some, hfirst, hlast]
    exact comesTo_objectHeader_append hlength hname (by simpa using hmark)

theorem comesTo_uncompressed (body : Text) :
    (uncompressed body).ComesTo ((Uncompressed.decode? body).mapError .invalidPosition) := by
  rw [uncompressed, Uncompressed.decode?]
  split
  · exact Run.comesTo_pure none
  · cases htake : Uncompressed.layout.take? body with
    | none => exact Run.comesTo_pure none
    | some result =>
      obtain ⟨field, rest⟩ := result
      obtain ⟨rfl, _⟩ := Layout.take?_eq_some_iff.mp htake
      dsimp only
      cases Uncompressed.read field with
      | error e => exact Run.comesTo_throw _
      | ok fix => exact Run.ComesTo.lift_bind (dropBytes?_append rfl rest) (Run.comesTo_pure _)

theorem comesTo_compressed (body : Text) :
    (compressed body).ComesTo (Compressed.decode body) := by
  rw [compressed, Compressed.decode]
  cases htake : Compressed.layout.take? body with
  | none =>
    -- thirteen bytes of as many characters would fill the layout
    have hnone :
        (body.takeBytes? 13).filter (fun block => block.all Compressed.isAscii) = none := by
      rw [Option.filter_eq_none_iff]
      intro block hblock hall
      obtain ⟨⟨_, rest⟩, hsplit, rfl⟩ := Option.map_eq_some_iff.mp hblock
      obtain ⟨rfl, hbytes⟩ := splitAtByte?_eq_some_iff.mp hsplit
      rw [List.all_eq_true] at hall
      rw [IsAscii.byteLength fun c hc => of_decide_eq_true (hall c hc)] at hbytes
      rw [Compressed.layout,
        Layout.take?_append (Layout.fills_columns_iff.mpr ⟨hbytes, hall⟩)] at htake
      cases htake
    rw [hnone]
    exact Run.comesTo_throw _
  | some result =>
    obtain ⟨block, rest⟩ := result
    obtain ⟨rfl, hfills⟩ := Layout.take?_eq_some_iff.mp htake
    obtain ⟨hlength, hall⟩ := Layout.fills_columns_iff.mp hfills
    have hascii : IsAscii block := fun c hc => of_decide_eq_true (hall c hc)
    have hbytes : block.byteLength = 13 := hascii.byteLength.trans hlength
    have hblock : (takeBytes? 13 (block ++ rest)).filter
        (fun block => block.all Compressed.isAscii) = some block := by
      rw [takeBytes?_append hbytes, Option.filter_some, if_pos (List.all_eq_true.mpr hall)]
    have hat : ∀ i < 13, at? block.bytes i = some (block.getD i ' ').toUInt8 := fun i hi =>
      hascii.at?_bytes (by omega)
    have hoffset : ∀ i, ((block.getD i ' ').toUInt8.toNat : Int) - 33 =
        Compressed.offset (block.getD i ' ') := by
      intro i
      rw [toNat_toUInt8 (hascii.getD i), Compressed.offset]
    rw [hblock]
    refine Run.ComesTo.lift_bind (hascii.sliceBytes?_eq_some (by decide) (by omega)) ?_
    refine Run.ComesTo.bind ((comesTo_base91 _).adapt _) fun north _ => ?_
    refine Run.ComesTo.lift_bind (hascii.sliceBytes?_eq_some (by decide) (by omega)) ?_
    refine Run.ComesTo.bind ((comesTo_base91 _).adapt _) fun east _ => ?_
    refine Run.ComesTo.lift_bind (hat 10 (by decide)) ?_
    refine Run.ComesTo.lift_bind (hat 11 (by decide)) ?_
    refine Run.ComesTo.lift_bind (hat 12 (by decide)) ?_
    refine Run.ComesTo.lift_bind (hat 0 (by decide)) ?_
    refine Run.ComesTo.lift_bind (hat 9 (by decide)) ?_
    refine Run.ComesTo.lift_bind (dropBytes?_append hbytes rest) ?_
    simp only [hoffset, toChar_toUInt8 (hascii.getD _)]
    exact Run.comesTo_pure _

end Positions

end Aprs.Sliced
