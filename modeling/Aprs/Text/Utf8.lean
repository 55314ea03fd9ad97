import Aprs.Text

/-!
Texts from UTF-8 bytes.
-/

namespace Aprs.Text

def isContinuation (b : UInt8) : Bool := decide (0x80 ≤ b) && decide (b ≤ 0xbf)

/-- The six bits that a continuation byte adds to a code point. -/
def extend (n : Nat) (b : UInt8) : Nat := 64 * n + (b.toNat - 0x80)

/-- Whether the second byte of three keeps clear of shorter forms and of surrogates. -/
def isSecondOfThree (first second : UInt8) : Bool :=
  isContinuation second && (first != 0xe0 || decide (0xa0 ≤ second)) &&
    (first != 0xed || decide (second ≤ 0x9f))

/-- Whether the second byte of four keeps clear of shorter forms and stays in the code space. -/
def isSecondOfFour (first second : UInt8) : Bool :=
  isContinuation second && (first != 0xf0 || decide (0x90 ≤ second)) &&
    (first != 0xf4 || decide (second ≤ 0x8f))

/-- The only text with these bytes, if there is one. -/
def ofBytes? : List UInt8 → Option Text
  | [] => some []
  | a :: rest =>
    if a < 0x80 then (ofBytes? rest).map (Char.ofNat a.toNat :: ·)
    else if 0xc2 ≤ a ∧ a ≤ 0xdf then
      match rest with
      | b :: rest =>
        if isContinuation b then
          (ofBytes? rest).map (Char.ofNat (extend (a.toNat - 0xc0) b) :: ·)
        else none
      | _ => none
    else if 0xe0 ≤ a ∧ a ≤ 0xef then
      match rest with
      | b :: c :: rest =>
        if isSecondOfThree a b && isContinuation c then
          (ofBytes? rest).map (Char.ofNat (extend (extend (a.toNat - 0xe0) b) c) :: ·)
        else none
      | _ => none
    else if 0xf0 ≤ a ∧ a ≤ 0xf4 then
      match rest with
      | b :: c :: d :: rest =>
        if isSecondOfFour a b && isContinuation c && isContinuation d then
          (ofBytes? rest).map
            (Char.ofNat (extend (extend (extend (a.toNat - 0xf0) b) c) d) :: ·)
        else none
      | _ => none
    else none

end Aprs.Text
