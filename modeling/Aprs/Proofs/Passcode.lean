import Aprs.Callsign
import Aprs.Proofs.Conversions
import Aprs.Proofs.Utf8Lines

/-!
The passcode of a callsign against the hash with which the network checks it. The hash takes in one
byte after the other, those at even places above and those at odd places below. The passcode takes
bytes in pairs, and where one is left over at the end, which would go above, it is not taken in.
-/

namespace Aprs

namespace Text

theorem toUInt8_toUpper {c : Char} (h : c.toNat < 128) :
    c.toUpper.toUInt8 = Callsign.upperByte c.toUInt8 := by
  refine ascii_cases h ?_
  decide

theorem toNat_toUpper_lt {c : Char} (h : c.toNat < 128) : c.toUpper.toNat < 128 := by
  refine ascii_cases h ?_
  decide

theorem toUpper_eq_self_of_le {c : Char} (h : 128 ≤ c.toNat) : c.toUpper = c := by
  unfold Char.toUpper
  rw [dif_neg]
  intro hlower
  have hhigh : c.toNat ≤ 122 := UInt32.le_iff_toNat_le.mp hlower.2
  omega

theorem upperByte_eq_self {b : UInt8} (h : 128 ≤ b.toNat) : Callsign.upperByte b = b := by
  unfold Callsign.upperByte
  rw [if_neg]
  intro hlower
  rw [Bool.and_eq_true, decide_eq_true_eq, decide_eq_true_eq] at hlower
  have hhigh : b.toNat ≤ 122 := UInt8.le_iff_toNat_le.mp hlower.2
  omega

/-- Only characters of one byte have a capital, so it does not matter whether characters or bytes
are put in upper case. -/
theorem bytes_map_toUpper (t : Text) :
    bytes (t.map Char.toUpper) = (bytes t).map Callsign.upperByte := by
  induction t with
  | nil => rfl
  | cons c t ih =>
    rw [List.map_cons]
    by_cases hc : c.toNat < 128
    · rw [bytes_cons hc, bytes_cons (toNat_toUpper_lt hc), List.map_cons, toUInt8_toUpper hc, ih]
    · have hkept : (String.utf8EncodeChar c).map Callsign.upperByte = String.utf8EncodeChar c := by
        refine (List.map_congr_left fun b hb => ?_).trans (List.map_id _)
        apply upperByte_eq_self
        by_contra hlow
        have hcode := toNat_of_mem_utf8EncodeChar (by omega) hb
        omega
      rw [toUpper_eq_self_of_le (by omega), bytes, bytes, List.flatMap_cons, List.flatMap_cons,
        List.map_append, hkept]
      exact congrArg _ ih

end Text

namespace Callsign

/-- A byte goes into the high half at an even place, and into the low half at an odd one. -/
def absorb (hash : UInt16) (placed : UInt8 × Nat) : UInt16 :=
  hash ^^^ if placed.2 % 2 = 0 then placed.1.toUInt16 <<< 8 else placed.1.toUInt16

/-- The hash of the network, which takes in every byte. -/
def loginHash (bytes : List UInt8) : UInt16 := bytes.zipIdx.foldl absorb passcodeSeed &&& 0x7fff

/-- The first eight bytes of what stands before the identifier, in capital letters. -/
def rootBytes (callsign : Text) : List UInt8 :=
  (Text.bytes ((Text.upTo '-' callsign).map Char.toUpper)).take 8

/-- A pair takes up an even and an odd place, so pairs go in as their bytes do one by one. -/
theorem foldPairs_eq_foldl (hash : UInt16) (bytes : List UInt8) {start : Nat}
    (hstart : start % 2 = 0) :
    foldPairs hash bytes =
      ((bytes.take (bytes.length / 2 * 2)).zipIdx start).foldl absorb hash := by
  induction hash, bytes using foldPairs.induct generalizing start with
  | case1 hash high low rest ih =>
    have hlength : (high :: low :: rest).length / 2 * 2 = rest.length / 2 * 2 + 2 := by
      simp only [List.length_cons]
      omega
    have hodd : (start + 1) % 2 ≠ 0 := by omega
    have heven : (start + 1 + 1) % 2 = 0 := by omega
    rw [foldPairs, ih heven, hlength, List.take_succ_cons, List.take_succ_cons, List.zipIdx_cons,
      List.zipIdx_cons, List.foldl_cons, List.foldl_cons]
    simp only [absorb, hstart, hodd, if_true, if_false]
  | case2 bytes hash hshort =>
    rcases bytes with _ | ⟨high, _ | ⟨low, rest⟩⟩
    · rfl
    · simp [foldPairs]
    · exact absurd rfl (hshort high low rest)

theorem passcode_eq_foldl (callsign : Text) :
    passcode callsign =
      loginHash ((rootBytes callsign).take ((rootBytes callsign).length / 2 * 2)) := by
  unfold passcode loginHash rootBytes
  rw [foldPairs_eq_foldl passcodeSeed _ (Nat.zero_mod 2), Text.bytes_map_toUpper, List.map_take]

theorem xor_and (x y mask : UInt16) : (x ^^^ y) &&& mask = (x &&& mask) ^^^ (y &&& mask) := by
  apply UInt16.toBitVec_inj.mp
  ext i
  simp [Bool.and_xor_distrib_right]

/-- The byte that is left over would go in at an even place. -/
theorem loginHash_append_singleton {bytes : List UInt8} (heven : bytes.length % 2 = 0)
    (last : UInt8) :
    loginHash (bytes ++ [last]) = loginHash bytes ^^^ (last.toUInt16 <<< 8 &&& 0x7fff) := by
  unfold loginHash
  rw [List.zipIdx_append, List.foldl_append, ← xor_and]
  simp [absorb, heven]

/-- The highest bit is masked out, so a byte in the high half shows unless it is zero without it. -/
theorem masked_eq_zero_iff (b : UInt8) :
    b.toUInt16 <<< 8 &&& 0x7fff = 0 ↔ b = 0 ∨ b = 0x80 := by
  have hb := b.toNat_lt
  have hmask : UInt16.toNat 0x7fff = 2 ^ 15 - 1 := by decide
  have hmod : (b.toUInt16 <<< 8 &&& 0x7fff).toNat = b.toNat % 128 * 256 := by
    rw [UInt16.toNat_and, UInt16.toNat_shiftLeft, hmask, Nat.and_two_pow_sub_one_eq_mod,
      Nat.shiftLeft_eq]
    simp only [UInt8.toNat_toUInt16, UInt16.reduceToNat, Nat.reduceMod, Nat.reducePow]
    omega
  rw [← UInt16.toNat_inj, hmod, ← UInt8.toNat_inj, ← UInt8.toNat_inj]
  change b.toNat % 128 * 256 = 0 ↔ b.toNat = 0 ∨ b.toNat = 128
  omega

/-- The passcode is the hash of the bytes in pairs. For an even number of bytes these are all; for
an odd number the last is missing, and the passcode is the hash just where it would not show. -/
theorem passcode_eq_loginHash (callsign : Text) :
    let root := rootBytes callsign
    passcode callsign = loginHash (root.take (root.length / 2 * 2)) ∧
      (root.length % 2 = 0 → passcode callsign = loginHash root) ∧
      (∀ last, root.length % 2 = 1 → root.getLast? = some last →
        loginHash root = passcode callsign ^^^ (last.toUInt16 <<< 8 &&& 0x7fff) ∧
        (passcode callsign = loginHash root ↔ last = 0 ∨ last = 0x80)) := by
  intro root
  have hpairs : passcode callsign = loginHash (root.take (root.length / 2 * 2)) :=
    passcode_eq_foldl callsign
  refine ⟨hpairs, fun heven => ?_, fun last hodd hlast => ?_⟩
  · rw [hpairs, Nat.div_mul_cancel (Nat.dvd_of_mod_eq_zero heven), List.take_length]
  · obtain ⟨before, hroot⟩ := List.getLast?_eq_some_iff.mp hlast
    have hlength : root.length = before.length + 1 := by rw [hroot, List.length_append]; rfl
    have hbefore : root.take (root.length / 2 * 2) = before := by
      rw [show root.length / 2 * 2 = before.length by omega, hroot, List.take_left]
    rw [hbefore] at hpairs
    have hhash : loginHash root = passcode callsign ^^^ (last.toUInt16 <<< 8 &&& 0x7fff) := by
      rw [hpairs, hroot, loginHash_append_singleton (by omega)]
    have hkept := UInt16.xor_right_inj (a := last.toUInt16 <<< 8 &&& 0x7fff) (b := 0)
      (passcode callsign)
    rw [UInt16.xor_zero, ← hhash, masked_eq_zero_iff] at hkept
    exact ⟨hhash, eq_comm.trans hkept⟩

/-- Five characters, of which the last is missing from the passcode. -/
theorem passcode_odd_root :
    passcode "K1ABC".toList ≠ loginHash (rootBytes "K1ABC".toList) ∧
      passcode "K1ABC".toList = 31121 ∧ loginHash (rootBytes "K1ABC".toList) = 14993 := by
  decide

end Callsign

end Aprs
