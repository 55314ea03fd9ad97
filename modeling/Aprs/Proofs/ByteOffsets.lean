import Aprs.Proofs.Conversions
import Aprs.Proofs.Utf8Lines

/-!
Texts that are cut at byte offsets, and bytes that are taken by their place. Each such operation has
no value where it is out of place: an offset inside a character or behind the text, a place behind
the last byte, a difference below zero. Up to 127 a character is one byte, so in front of a text in
which only such characters stand, offsets are places of characters and all is in order.
-/

namespace Aprs

namespace Byte

def sub? (a b : UInt8) : Option UInt8 := if b ≤ a then some (a - b) else none

def at? (bytes : List UInt8) (i : Nat) : Option UInt8 := bytes[i]?

def start? (n : Nat) (bytes : List UInt8) : Option (List UInt8) :=
  if n ≤ bytes.length then some (bytes.take n) else none

def set? (i : Nat) (b : UInt8) (bytes : List UInt8) : Option (List UInt8) :=
  if i < bytes.length then some (bytes.set i b) else none

/-- The character with the code of a byte. -/
def toChar (b : UInt8) : Char := Char.ofNat b.toNat

theorem sub?_eq_some {a b : UInt8} (h : b ≤ a) : sub? a b = some (a - b) := if_pos h

theorem toChar_toUInt8 {c : Char} (h : c.toNat < 128) : toChar c.toUInt8 = c := by
  rw [toChar, Text.toNat_toUInt8 h, Char.ofNat_toNat]

end Byte

namespace Text

def takeBytes? (n : Nat) (t : Text) : Option Text := (splitAtByte? n t).map Prod.fst

def dropBytes? (n : Nat) (t : Text) : Option Text := (splitAtByte? n t).map Prod.snd

def sliceBytes? (first last : Nat) (t : Text) : Option Text :=
  (takeBytes? last t).bind (dropBytes? first)

/-- No cut goes through a character. -/
example : dropBytes? 1 ['é', 'x'] = none := by decide

variable {t u v w : Text} {n : Nat}

theorem takeBytes?_append (h : u.byteLength = n) (v : Text) : takeBytes? n (u ++ v) = some u := by
  rw [takeBytes?, splitAtByte?_eq_some_iff.mpr ⟨rfl, h⟩, Option.map_some]

theorem dropBytes?_append (h : u.byteLength = n) (v : Text) : dropBytes? n (u ++ v) = some v := by
  rw [dropBytes?, splitAtByte?_eq_some_iff.mpr ⟨rfl, h⟩, Option.map_some]

theorem sliceBytes?_append {first last : Nat} (hfirst : u.byteLength = first)
    (hlast : (u ++ v).byteLength = last) (w : Text) :
    sliceBytes? first last (u ++ v ++ w) = some v := by
  rw [sliceBytes?, takeBytes?_append hlast, Option.bind_some, dropBytes?_append hfirst]

def IsAscii (t : Text) : Prop := ∀ c ∈ t, c.toNat < 128

@[simp]
theorem isAscii_nil : IsAscii [] := fun _ h => absurd h List.not_mem_nil

@[simp]
theorem isAscii_cons {c : Char} : IsAscii (c :: t) ↔ c.toNat < 128 ∧ IsAscii t :=
  List.forall_mem_cons

@[simp]
theorem isAscii_append : IsAscii (u ++ v) ↔ IsAscii u ∧ IsAscii v := List.forall_mem_append

theorem IsAscii.byteLength (h : IsAscii t) : t.byteLength = t.length := byteLength_eq_length h

theorem IsAscii.byteLength_take (h : IsAscii t) (hle : n ≤ t.length) :
    Text.byteLength (t.take n) = n := by
  have hascii : IsAscii (t.take n) := fun c hc => h c (List.mem_of_mem_take hc)
  rw [hascii.byteLength, List.length_take_of_le hle]

theorem IsAscii.bytes (h : IsAscii t) : t.bytes = t.map Char.toUInt8 := by
  induction t with
  | nil => rfl
  | cons c t ih =>
    obtain ⟨hc, ht⟩ := isAscii_cons.mp h
    rw [bytes_cons hc, ih ht, List.map_cons]

/-- Places in front of a text are places of its bytes. -/
theorem IsAscii.getElem?_bytes (h : IsAscii u) {i : Nat} {c : Char} (hc : u[i]? = some c)
    (v : Text) : (Text.bytes (u ++ v))[i]? = some c.toUInt8 := by
  obtain ⟨hi, _⟩ := List.getElem?_eq_some_iff.mp hc
  rw [bytes_append, h.bytes, List.getElem?_append_left (by rwa [List.length_map]),
    List.getElem?_map, hc, Option.map_some]

theorem IsAscii.getD (h : IsAscii t) (i : Nat) : (t.getD i ' ').toNat < 128 := by
  rw [List.getD_eq_getElem?_getD]
  cases hc : t[i]? with
  | none => decide
  | some c => exact h c (List.mem_of_getElem? hc)

theorem IsAscii.at?_bytes_append (h : IsAscii u) {i : Nat} (hi : i < u.length) (v : Text) :
    Byte.at? (Text.bytes (u ++ v)) i = some (u.getD i ' ').toUInt8 := by
  refine h.getElem?_bytes ?_ v
  rw [List.getD_eq_getElem?_getD, List.getElem?_eq_getElem hi, Option.getD_some]

theorem IsAscii.at?_bytes (h : IsAscii t) {i : Nat} (hi : i < t.length) :
    Byte.at? t.bytes i = some (t.getD i ' ').toUInt8 := by
  have hat := h.at?_bytes_append hi []
  rwa [List.append_nil] at hat

theorem IsAscii.sliceBytes?_eq_some (h : IsAscii t) {first last : Nat} (hle : first ≤ last)
    (hlast : last ≤ t.length) : sliceBytes? first last t = some (slice first (last - first) t) := by
  have hstart : t.take first ++ slice first (last - first) t = t.take last := by
    rw [slice, ← List.take_add, Nat.add_sub_cancel' hle]
  have hslice := sliceBytes?_append (h.byteLength_take (hle.trans hlast))
    (by rw [hstart, h.byteLength_take hlast]) (t.drop last)
  rwa [hstart, List.take_append_drop] at hslice

theorem IsAscii.takeBytes?_append (h : IsAscii u) (hle : n ≤ u.length) (v : Text) :
    takeBytes? n (u ++ v) = some (u.take n) := by
  conv_lhs => rw [← List.take_append_drop n u, List.append_assoc]
  exact Text.takeBytes?_append (h.byteLength_take hle) _

theorem IsAscii.dropBytes?_append (h : IsAscii u) (hle : n ≤ u.length) (v : Text) :
    dropBytes? n (u ++ v) = some ((u ++ v).drop n) := by
  rw [List.drop_append_of_le_length hle]
  conv_lhs => rw [← List.take_append_drop n u, List.append_assoc]
  exact Text.dropBytes?_append (h.byteLength_take hle) _

theorem IsAscii.takeBytes?_eq_some (h : IsAscii t) (hle : n ≤ t.length) :
    takeBytes? n t = some (t.take n) := by
  have htake := h.takeBytes?_append hle []
  rwa [List.append_nil] at htake

theorem IsAscii.dropBytes?_eq_some (h : IsAscii t) (hle : n ≤ t.length) :
    dropBytes? n t = some (t.drop n) := by
  have hdrop := h.dropBytes?_append hle []
  rwa [List.append_nil] at hdrop

theorem IsAscii.start?_bytes (h : IsAscii u) (hlength : u.length = n) (v : Text) :
    Byte.start? n (Text.bytes (u ++ v)) = some (u.map Char.toUInt8) := by
  have hmap : (u.map Char.toUInt8).length = n := by rw [List.length_map, hlength]
  have hle : n ≤ (u.map Char.toUInt8 ++ Text.bytes v).length := by
    rw [List.length_append, hmap]
    exact Nat.le_add_right ..
  rw [bytes_append, h.bytes, Byte.start?, if_pos hle, List.take_left' hmap]

theorem sliceBytes?_eq_some_iff {c : Char} {first : Nat} {t : Text} (hc : c.toNat < 128) :
    t.sliceBytes? first (first + 1) = some [c] ↔
      ∃ before after, t = before ++ c :: after ∧ before.byteLength = first := by
  have hsize : byteLength [c] = 1 := IsAscii.byteLength (isAscii_cons.mpr ⟨hc, isAscii_nil⟩)
  constructor
  · intro h
    rw [sliceBytes?, Option.bind_eq_some_iff] at h
    obtain ⟨u, htake, hdrop⟩ := h
    obtain ⟨⟨_, after⟩, hsplit, rfl⟩ := Option.map_eq_some_iff.mp htake
    obtain ⟨⟨before, _⟩, hcut, rfl⟩ := Option.map_eq_some_iff.mp hdrop
    obtain ⟨rfl, _⟩ := splitAtByte?_eq_some_iff.mp hsplit
    obtain ⟨rfl, hfirst⟩ := splitAtByte?_eq_some_iff.mp hcut
    exact ⟨before, after, (List.append_cons ..).symm, hfirst⟩
  · rintro ⟨before, after, rfl, rfl⟩
    rw [List.append_cons]
    exact sliceBytes?_append rfl (by rw [byteLength_append, hsize]) after

theorem length_bytes (t : Text) : t.bytes.length = t.byteLength := by
  induction t with
  | nil => rfl
  | cons c t ih =>
    rw [bytes, List.flatMap_cons, List.length_append, String.length_utf8EncodeChar, ← bytes, ih,
      byteLength_cons]

theorem exists_bytes_cons (c : Char) (t : Text) :
    ∃ b rest, bytes (c :: t) = b :: rest ∧ (b.toNat < 128 → c.toNat = b.toNat) := by
  obtain ⟨b, rest, hcons⟩ := List.exists_cons_of_ne_nil (String.utf8EncodeChar_ne_nil (c := c))
  refine ⟨b, rest ++ bytes t, ?_, fun hb => ?_⟩
  · rw [bytes, List.flatMap_cons, hcons]
    rfl
  · exact toNat_of_mem_utf8EncodeChar hb (by rw [hcons]; exact List.mem_cons_self)

/-- The byte behind the start of a text is that of the next character, if it is below 128. -/
theorem IsAscii.exists_at?_bytes (h : IsAscii u) (hlength : u.length = n) (c : Char) (v : Text) :
    ∃ b, Byte.at? (Text.bytes (u ++ c :: v)) n = some b ∧ (b.toNat < 128 → c.toNat = b.toNat) := by
  obtain ⟨b, rest, hcons, hcode⟩ := exists_bytes_cons c v
  have hmap : (u.map Char.toUInt8).length = n := by rw [List.length_map, hlength]
  refine ⟨b, ?_, hcode⟩
  rw [Byte.at?, bytes_append, h.bytes, List.getElem?_append_right hmap.le, hmap, Nat.sub_self,
    hcons, List.getElem?_cons_zero]

/-- Bytes below 128 at the start of a text are as many characters. -/
theorem exists_append_of_bytes (hlength : n ≤ t.bytes.length)
    (h : ∀ b ∈ t.bytes.take n, b.toNat < 128) :
    ∃ u v, t = u ++ v ∧ u.length = n ∧ IsAscii u ∧ t.bytes.take n = u.map Char.toUInt8 := by
  induction n generalizing t with
  | zero => exact ⟨[], t, rfl, rfl, isAscii_nil, rfl⟩
  | succ n ih =>
    cases t with
    | nil => exact absurd hlength (Nat.not_succ_le_zero n)
    | cons c t =>
      obtain ⟨b, rest, hcons, hcode⟩ := exists_bytes_cons c t
      have hb : b.toNat < 128 := h b (by rw [hcons]; exact List.mem_cons_self)
      have hc : c.toNat < 128 := by rwa [hcode hb]
      rw [bytes_cons hc] at hlength h ⊢
      obtain ⟨u, v, rfl, hu, hascii, htake⟩ := ih (Nat.le_of_succ_le_succ hlength)
        fun b hb => h b (List.mem_cons_of_mem _ hb)
      exact ⟨c :: u, v, rfl, by rw [List.length_cons, hu], isAscii_cons.mpr ⟨hc, hascii⟩,
        by rw [List.take_succ_cons, htake, List.map_cons]⟩

end Text

namespace Layout

def IsAscii (layout : Layout) : Prop := ∀ holds ∈ layout, ∀ c, holds c = true → c.toNat < 128

variable {first second layout : Layout} {holds : Char → Bool} {t field rest : Text} {n : Nat}

theorem isAscii_nil : IsAscii [] := fun _ h => absurd h List.not_mem_nil

theorem isAscii_cons :
    IsAscii (holds :: layout) ↔ (∀ c, holds c = true → c.toNat < 128) ∧ IsAscii layout :=
  List.forall_mem_cons

theorem isAscii_append : IsAscii (first ++ second) ↔ IsAscii first ∧ IsAscii second :=
  List.forall_mem_append

theorem isAscii_columns (h : ∀ c, holds c = true → c.toNat < 128) (n : Nat) :
    IsAscii (columns n holds) := by
  intro other hmem
  rwa [List.eq_of_mem_replicate hmem]

theorem isAscii_exactly {c : Char} (h : c.toNat < 128) : IsAscii (exactly c) := by
  intro holds hmem d hd
  rw [List.mem_singleton.mp hmem] at hd
  rwa [eq_of_beq hd]

/-- A field of equal columns and a last one of its own. -/
theorem take?_columns_append_singleton_iff {last : Char → Bool} :
    take? (columns n holds ++ [last]) t = some (field, rest) ↔
      ∃ u c, field = u ++ [c] ∧ t = u ++ c :: rest ∧ u.length = n ∧
        (∀ d ∈ u, holds d = true) ∧ last c = true := by
  rw [take?_eq_some_iff, fills_append_iff]
  constructor
  · rintro ⟨rfl, u, v, rfl, hu, hv⟩
    obtain ⟨c, _, rfl, hc, hnil⟩ := fills_cons_iff.mp hv
    rw [fills_nil_iff.mp hnil]
    obtain ⟨hlength, hu⟩ := fills_columns_iff.mp hu
    exact ⟨u, c, rfl, by simp, hlength, hu, hc⟩
  · rintro ⟨u, c, rfl, rfl, hlength, hu, hc⟩
    exact ⟨by simp, u, [c], rfl, fills_columns_iff.mpr ⟨hlength, hu⟩, hc, trivial⟩

theorem Fills.isAscii (h : Fills layout t) (hlayout : layout.IsAscii) : t.IsAscii := by
  induction layout generalizing t with
  | nil => rw [fills_nil_iff.mp h]; exact Text.isAscii_nil
  | cons holds columns ih =>
    obtain ⟨c, u, rfl, hc, hu⟩ := fills_cons_iff.mp h
    obtain ⟨hholds, hcolumns⟩ := isAscii_cons.mp hlayout
    exact Text.isAscii_cons.mpr ⟨hholds c hc, ih hu hcolumns⟩

theorem Fills.byteLength (h : Fills layout t) (hlayout : layout.IsAscii) :
    t.byteLength = layout.length := by
  rw [(h.isAscii hlayout).byteLength, length_eq_of_fills h]

/-- The columns of a field in front of a text are as many bytes. -/
theorem dropBytes?_of_take? (hlayout : layout.IsAscii) (h : take? layout t = some (field, rest)) :
    t.dropBytes? layout.length = some rest := by
  obtain ⟨rfl, hfills⟩ := take?_eq_some_iff.mp h
  exact Text.dropBytes?_append (hfills.byteLength hlayout) rest

end Layout

section Runs

variable {ε α β : Type}

/-- Decoders whose operations on bytes may be out of place, and which come to nothing if one is. -/
abbrev Run (ε α : Type) := ExceptT ε Option α

namespace Run

/-- A step of a decoder that has no operations on bytes. -/
def ofExcept (x : Except ε α) : Run ε α := ExceptT.mk (some x)

/-- All operations on the way are in place, and this is the answer. -/
def ComesTo (run : Run ε α) (answer : Except ε α) : Prop := run = ExceptT.mk (some answer)

theorem comesTo_ofExcept (x : Except ε α) : ComesTo (ofExcept x) x := rfl

theorem comesTo_pure (a : α) : ComesTo (pure a : Run ε α) (.ok a) := rfl

theorem comesTo_throw (e : ε) : ComesTo (throw e : Run ε α) (.error e) := rfl

theorem ComesTo.bind {x : Run ε α} {f : α → Run ε β} {y : Except ε α} {g : α → Except ε β}
    (hx : ComesTo x y) (hf : ∀ a, y = .ok a → ComesTo (f a) (g a)) :
    ComesTo (x >>= f) (y >>= g) := by
  rw [hx]
  cases y with
  | error e => rfl
  | ok a => exact hf a rfl

theorem ComesTo.ok_bind {x : Run ε α} {a : α} {f : α → Run ε β} {y : Except ε β}
    (hx : ComesTo x (.ok a)) (hf : ComesTo (f a) y) : ComesTo (x >>= f) y := by
  rw [hx]
  exact hf

theorem ComesTo.error_bind {x : Run ε α} {e : ε} (hx : ComesTo x (.error e)) (f : α → Run ε β) :
    ComesTo (x >>= f) (.error e) := by
  rw [hx]
  rfl

/-- A reader that may find nothing, which is the cause of a rejection. -/
theorem ComesTo.optional_bind {x : Run ε α} {found : Option α} {e : ε}
    (hx : ComesTo x (found.elim (.error e) .ok)) {f : α → Run ε β} {y : Except ε β}
    (hnone : found = none → y = .error e) (hf : ∀ a, found = some a → ComesTo (f a) y) :
    ComesTo (x >>= f) y := by
  cases found with
  | none =>
    rw [hnone rfl]
    exact hx.error_bind f
  | some a => exact hx.ok_bind (hf a rfl)

/-- Answers that are kept in another form at the end. -/
theorem ComesTo.bind_map {γ : Type} {x : Run ε α} {f : α → Run ε γ} {y : Except ε α}
    {g : α → Except ε β} {h : β → γ} (hx : ComesTo x y)
    (hf : ∀ a, y = .ok a → ComesTo (f a) ((g a).map h)) :
    ComesTo (x >>= f) ((y >>= g).map h) := by
  rw [hx]
  cases y with
  | error e => rfl
  | ok a => exact hf a rfl

theorem comesTo_map (x : Except ε α) (f : α → β) :
    ComesTo (ofExcept x >>= fun a => pure (f a)) (x.map f) := by
  cases x <;> rfl

theorem ComesTo.adapt {δ : Type} {x : Run ε α} {y : Except ε α} (hx : ComesTo x y) (f : ε → δ) :
    ComesTo (ExceptT.adapt f x) (y.mapError f) := by
  rw [hx]
  cases y <;> rfl

/-- An operation that is in place is passed. -/
theorem ComesTo.lift_bind {o : Option α} {a : α} {f : α → Run ε β} {y : Except ε β}
    (ho : o = some a) (hf : ComesTo (f a) y) : ComesTo ((liftM o : Run ε α) >>= f) y := by
  rw [ho]
  exact hf

end Run

end Runs

end Aprs
