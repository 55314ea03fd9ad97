import Aprs.Base91
import Aprs.Record

/-!
Telemetry between two bars in a comment: a sequence number, up to five values and eight bits, each
in two base-91 digits.
-/

namespace Aprs.Telemetry

/-- Four to fourteen digits between bars. -/
def takeBlock? : Text → Option (Text × Text)
  | '|' :: t =>
    let digits := t.takeWhile Base91.isDigit
    match t.dropWhile Base91.isDigit with
    | '|' :: rest =>
      if 4 ≤ digits.length ∧ digits.length ≤ 14 then some (digits, rest) else none
    | _ => none
  | _ => none

/-- Numbers of two digits each. -/
def numbers : Text → List Nat
  | a :: b :: rest => (Base91.decode [a, b]).toOption.getD 0 :: numbers rest
  | _ => []

def bitText (n : Nat) : Text := (List.range 8).map fun i => if n.testBit i then '1' else '0'

/-- Channels that were not sent count as zero. -/
def ofNumbers (ns : List Nat) : Telemetry :=
  let channel (i : Nat) : UInt32 := (ns.getD i 0).toUInt32
  let bits := ns.getD 6 0
  { seq := channel 0
    values := #v[channel 1, channel 2, channel 3, channel 4, channel 5]
    bits := if bits = 0 then none else some (bitText bits) }

/-- Takes the first block out of a text of one line. A block with half a number in it stays. -/
def split (t : Text) : Option Telemetry × Text :=
  if Text.isSingleLine t then
    match Text.leftmost? takeBlock? t with
    | some (before, digits, after) =>
      if digits.length % 2 = 0 then (some (ofNumbers (numbers digits)), before ++ after)
      else (none, t)
    | none => (none, t)
  else (none, t)

end Aprs.Telemetry
