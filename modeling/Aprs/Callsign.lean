import Aprs.Text

/-!
Callsigns: the grammars of the three places where one stands in a header, and the passcode with
which a station logs in to the network.
-/

namespace Aprs.Callsign

/-- The base and, after the first hyphen, the station identifier. -/
def parts (callsign : Text) : Text × Option Text :=
  match Text.splitFirst? '-' callsign with
  | some (base, ssid) => (base, some ssid)
  | none => (callsign, none)

/-- Between one and `longest` characters of one class. All classes in use are ASCII, so characters
are bytes. -/
def isField (holds : Char → Bool) (longest : Nat) (t : Text) : Bool :=
  decide (1 ≤ t.length) && decide (t.length ≤ longest) && t.all holds

/-- Up to six letters or digits, and an identifier of one or two digits. -/
def isStation (callsign : Text) : Bool :=
  let (base, ssid) := parts callsign
  isField Char.isAlphanum 6 base && ssid.all (isField Char.isDigit 2)

/-- Sources may be longer and their identifiers may hold letters: nine bytes in all. -/
def isSource (callsign : Text) : Bool :=
  let (base, ssid) := parts callsign
  decide (1 ≤ callsign.byteLength) && decide (callsign.byteLength ≤ 9) &&
    base != [] && base.all Char.isAlphanum && ssid.all (isField Char.isAlphanum 8)

/-- An element of the path: a callsign, and a star once the packet has been repeated by it. -/
def isPathElement (element : Text) : Bool :=
  let call := if element.getLast? = some '*' then element.dropLast else element
  isField (fun c => c.isAlphanum || c == '-') 9 call

def upperByte (b : UInt8) : UInt8 := if 0x61 ≤ b && b ≤ 0x7a then b - 0x20 else b

def passcodeSeed : UInt16 := 0x73e2

/-- Folds pairs of bytes, the first of each pair as the high byte; a byte without partner is left
out. -/
def foldPairs : UInt16 → List UInt8 → UInt16
  | hash, high :: low :: rest =>
    foldPairs (hash ^^^ (high.toUInt16 <<< 8) ^^^ low.toUInt16) rest
  | hash, _ => hash

/-- The passcode is taken from the first eight bytes before the identifier. -/
def passcode (callsign : Text) : UInt16 :=
  foldPairs passcodeSeed (((Text.upTo '-' callsign).bytes.take 8).map upperByte) &&& 0x7fff

end Aprs.Callsign
