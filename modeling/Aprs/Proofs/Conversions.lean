import Aprs.Proofs.CommentTags
import Aprs.Proofs.HeaderGrammar
import Aprs.Text.Utf8

/-!
The conversions behind the tags of a comment. A conversion is only ever given what a layout let
through, and all such text is in its domain: readers that know no fallback, that leave no byte over
and that mind the size of what they read come to the values which are kept.
-/

namespace Aprs

section Pairs

variable {α β : Type}

/-- Values of a list two by two, if each pair has one and nothing is left over. -/
def pairs? (value? : β → β → Option α) : List β → Option (List α)
  | [] => some []
  | [_] => none
  | a :: b :: rest => do
    let value ← value? a b
    let values ← pairs? value? rest
    return value :: values

theorem pairs?_cons_cons {value? : β → β → Option α} {a b : β} {rest : List β} {value : α}
    {values : List α} (hvalue : value? a b = some value)
    (hvalues : pairs? value? rest = some values) :
    pairs? value? (a :: b :: rest) = some (value :: values) := by
  rw [pairs?, hvalue, hvalues]
  rfl

end Pairs

namespace Text

def int32? (t : Text) : Option Int :=
  let number? : Option Int :=
    match t with
    | '-' :: digits => (nat? digits).map fun n => -(n : Int)
    | '+' :: digits => (nat? digits).map Int.ofNat
    | digits => (nat? digits).map Int.ofNat
  number?.filter fun i => decide (-2 ^ 31 ≤ i) && decide (i < 2 ^ 31)

variable {digits : Text}

theorem nat?_of_digits (hne : digits ≠ []) (h : ∀ c ∈ digits, c.isDigit = true) :
    nat? digits = some (natOfDigits digits) := by
  rw [nat?, if_pos ⟨hne, List.all_eq_true.mpr h⟩]

theorem natOfDigits_lt_of_length_le (h : ∀ c ∈ digits, c.isDigit = true)
    (hlength : digits.length ≤ 9) : natOfDigits digits < 2 ^ 31 :=
  calc natOfDigits digits < 10 ^ digits.length := natOfDigits_lt h
    _ ≤ 10 ^ 9 := Nat.pow_le_pow_right (by norm_num) hlength
    _ < 2 ^ 31 := by norm_num

theorem int32?_minus (hne : digits ≠ []) (h : ∀ c ∈ digits, c.isDigit = true)
    (hlength : digits.length ≤ 9) :
    int32? ('-' :: digits) = some (-(natOfDigits digits : Int)) := by
  have hlt := natOfDigits_lt_of_length_le h hlength
  rw [int32?, nat?_of_digits hne h]
  refine Option.filter_eq_some_iff.mpr ⟨rfl, ?_⟩
  rw [Bool.and_eq_true, decide_eq_true_eq, decide_eq_true_eq]
  omega

theorem int32?_digits (hne : digits ≠ []) (h : ∀ c ∈ digits, c.isDigit = true)
    (hlength : digits.length ≤ 9) : int32? digits = some (natOfDigits digits : Int) := by
  have hlt := natOfDigits_lt_of_length_le h hlength
  unfold int32?
  refine Option.filter_eq_some_iff.mpr ⟨?_, ?_⟩
  · split
    · exact absurd (h '-' List.mem_cons_self) (by decide)
    · exact absurd (h '+' List.mem_cons_self) (by decide)
    · rw [nat?_of_digits hne h]
      rfl
  · rw [Bool.and_eq_true, decide_eq_true_eq, decide_eq_true_eq]
    omega

/-- What holds of the first codes can be checked on each of them. -/
@[elab_as_elim]
theorem ascii_cases {P : Char → Prop} {c : Char} (hc : c.toNat < 128)
    (h : ∀ n < 128, P (Char.ofNat n)) : P c := by
  have hcode := h c.toNat hc
  rwa [Char.ofNat_toNat] at hcode

theorem toNat_toUInt8 {c : Char} (h : c.toNat < 128) : c.toUInt8.toNat = c.toNat := by
  change c.val.toUInt8.toNat = c.val.toNat
  rw [UInt32.toNat_toUInt8]
  exact Nat.mod_eq_of_lt (Nat.lt_trans h (by decide))

/-- Up to 127 the code of a character is its only byte. -/
theorem bytes_cons {c : Char} (h : c.toNat < 128) (t : Text) :
    bytes (c :: t) = c.toUInt8 :: bytes t := by
  rw [bytes, List.flatMap_cons, String.utf8EncodeChar_eq_singleton (utf8Size_eq_one h)]
  rfl

theorem ofBytes?_cons {c : Char} (h : c.toNat < 128) (rest : List UInt8) :
    ofBytes? (c.toUInt8 :: rest) = (ofBytes? rest).map (c :: ·) := by
  have hlow : c.toUInt8 < 0x80 := by
    rw [UInt8.lt_iff_toNat_lt, toNat_toUInt8 h]
    exact h
  conv_lhs => unfold ofBytes?
  rw [if_pos hlow, toNat_toUInt8 h, Char.ofNat_toNat]

end Text

namespace MicE

/-- A byte in two hexadecimal digits. -/
def hexByte? (a b : Char) : Option UInt8 := do
  let high ← Text.hexDigit? a
  let low ← Text.hexDigit? b
  if 16 * high + low < 256 then some (16 * high + low).toUInt8 else none

/-- No byte is too large, so the bytes that are kept are those that were sent. -/
theorem pairs?_hexByte? {t : Text} (h : ∀ c ∈ t, isHexDigit c = true) :
    pairs? hexByte? t = hexBytes? t := by
  induction t using hexBytes?.induct with
  | case1 => rfl
  | case2 => rfl
  | case3 a b t ih =>
    simp only [List.forall_mem_cons] at h
    obtain ⟨ha, hb, ht⟩ := h
    obtain ⟨high, hhigh, hhigh16⟩ := exists_hexDigit?_eq_some ha
    obtain ⟨low, hlow, hlow16⟩ := exists_hexDigit?_eq_some hb
    have hbyte : hexByte? a b = some (16 * high + low).toUInt8 := by
      rw [hexByte?, hhigh, hlow]
      exact if_pos (by omega)
    rw [pairs?, hexBytes?, hbyte, hhigh, hlow, ih ht]
    rfl

end MicE

namespace Telemetry

/-- The number in two bytes, if they are the text of one. -/
def number? (a b : UInt8) : Option Nat := do
  let digits ← Text.ofBytes? [a, b]
  (Base91.decode digits).toOption

theorem toNat_lt_of_isDigit {c : Char} (h : Base91.isDigit c = true) : c.toNat < 128 :=
  Nat.lt_of_le_of_lt (Text.between_iff.mp h).2 (by decide)

/-- Two digits are two bytes, so bytes can be cut in twos as well as characters. -/
theorem pairs?_number?_bytes {digits : Text} (heven : digits.length % 2 = 0)
    (h : ∀ c ∈ digits, Base91.isDigit c = true) :
    pairs? number? (Text.bytes digits) = some (numbers digits) := by
  induction digits using numbers.induct with
  | case1 a b rest ih =>
    simp only [List.forall_mem_cons] at h
    obtain ⟨ha, hb, hrest⟩ := h
    have hlast : rest.length % 2 = 0 := by
      rw [List.length_cons, List.length_cons] at heven
      omega
    have hpair : ∀ c ∈ [a, b], Base91.isDigit c = true := by
      simp only [List.forall_mem_cons, ha, hb]
      simp
    obtain ⟨n, hn⟩ := Base91.exists_decode_eq_ok hpair
    have ha := toNat_lt_of_isDigit ha
    have hb := toNat_lt_of_isDigit hb
    have hnumber : number? a.toUInt8 b.toUInt8 = some n := by
      rw [number?, Text.ofBytes?_cons ha, Text.ofBytes?_cons hb]
      change (Base91.decode [a, b]).toOption = some n
      rw [hn]
      rfl
    rw [Text.bytes_cons ha, Text.bytes_cons hb, pairs?_cons_cons hnumber (ih hlast hrest),
      numbers, hn]
    rfl
  | case2 digits hshort =>
    cases digits with
    | nil => rfl
    | cons a rest =>
      cases rest with
      | nil => cases heven
      | cons b rest => exact absurd rfl (hshort a b rest)

end Telemetry

namespace Dao

theorem exists_decode_eq_ok {c : Char} (h : Text.between ' ' '\x7b' c = true) (hblank : c ≠ ' ') :
    ∃ n, Base91.decode [c] = .ok n := by
  apply Base91.exists_decode_eq_ok
  intro d hd
  rw [List.mem_singleton.mp hd]
  exact isDigit_of_ne_blank h hblank

end Dao

namespace Altitude

theorem exists_int32?_of_take? {t rest : Text} {feet : Int} (h : take? t = some (feet, rest)) :
    ∃ number, t = "/A=".toList ++ number ++ rest ∧ Text.int32? number = some feet := by
  obtain ⟨_, rfl, ⟨hlength, hdigits⟩ | ⟨hlength, hdigits⟩⟩ := take?_eq_some_iff.mp h
  · next digits =>
    refine ⟨'-' :: digits, by simp, ?_⟩
    exact Text.int32?_minus (List.ne_nil_of_length_eq_add_one hlength) hdigits (by omega)
  · next digits =>
    refine ⟨digits, rfl, ?_⟩
    exact Text.int32?_digits (List.ne_nil_of_length_eq_add_one hlength) hdigits (by omega)

end Altitude

/-- Whatever field of a tag a grammar finds in the text, its conversion succeeds: a reader without a
fallback gives the value that is kept. -/
structure Text.Convertible (t : Text) : Prop where
  micEAltitude : ∀ before field after,
    rightmost? MicE.altitudeLayout.take? t = some (before, field, after) →
      ∃ n, Base91.decode (field.take 3) = .ok n
  micEChannels : ∀ field rest,
    (MicE.channelLayouts.findSome? fun layout => layout.take? t) = some (field, rest) →
      ∃ channels, pairs? MicE.hexByte? (field.drop 1) = some channels ∧
        MicE.hexBytes? (field.drop 1) = some channels
  telemetry : ∀ before digits after,
    leftmost? Telemetry.takeBlock? t = some (before, digits, after) → digits.length % 2 = 0 →
      pairs? Telemetry.number? digits.bytes = some (Telemetry.numbers digits)
  dao : ∀ before dao after, rightmost? Dao.take? t = some (before, dao, after) →
    t = before ++ '!' :: dao.datum :: dao.latitude :: dao.longitude :: '!' :: after ∧
      (dao.latitude ≠ ' ' → dao.longitude ≠ ' ' →
        ∃ m n, Base91.decode [dao.latitude] = .ok m ∧ Base91.decode [dao.longitude] = .ok n)
  altitude : ∀ before feet after, leftmost? Altitude.take? t = some (before, feet, after) →
    ∃ number, t = before ++ "/A=".toList ++ number ++ after ∧ int32? number = some feet

theorem Text.convertible (t : Text) : t.Convertible where
  micEAltitude before field after h := by
    obtain ⟨rest, rfl, htake⟩ := rightmost?_eq_some h
    exact MicE.exists_decode_of_altitudeLayout (Layout.take?_eq_some_iff.mp htake).2
  micEChannels field rest h := by
    obtain ⟨layout, hlayout, htake⟩ := List.exists_of_findSome?_eq_some h
    obtain ⟨heven, hdigits⟩ :=
      MicE.isHexDigit_of_mem_channels hlayout (Layout.take?_eq_some_iff.mp htake).2
    obtain ⟨channels, hchannels⟩ := MicE.exists_hexBytes?_eq_some heven hdigits
    exact ⟨channels, (MicE.pairs?_hexByte? hdigits).trans hchannels, hchannels⟩
  telemetry before digits after h heven := by
    obtain ⟨rest, rfl, htake⟩ := leftmost?_eq_some h
    exact Telemetry.pairs?_number?_bytes heven (Telemetry.takeBlock?_eq_some htake).2
  dao before dao after h := by
    obtain ⟨rest, rfl, htake⟩ := rightmost?_eq_some h
    obtain ⟨rfl, hlatitude, hlongitude⟩ := Dao.take?_eq_some htake
    refine ⟨rfl, fun hnorth heast => ?_⟩
    obtain ⟨m, hm⟩ := Dao.exists_decode_eq_ok hlatitude hnorth
    obtain ⟨n, hn⟩ := Dao.exists_decode_eq_ok hlongitude heast
    exact ⟨m, n, hm, hn⟩
  altitude before feet after h := by
    obtain ⟨rest, rfl, htake⟩ := leftmost?_eq_some h
    obtain ⟨number, rfl, hnumber⟩ := Altitude.exists_int32?_of_take? htake
    exact ⟨number, by simp, hnumber⟩

end Aprs
