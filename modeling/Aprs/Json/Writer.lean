import Aprs.Decimal.Rounding
import Aprs.Json

/-!
The text of a JSON document, on one line or laid out with two spaces for each level.
-/

namespace Aprs

namespace JsonNumber

/-- An exponent has a sign in any case. -/
def exponentText (e : Int) : Text := if 0 ≤ e then '+' :: Decimal.intText e else Decimal.intText e

def text (n : JsonNumber) : Text :=
  Decimal.signed n.negative (Nat.toDigits 10 n.whole) ++
    (if n.fraction.isEmpty then [] else '.' :: n.fraction) ++
    n.exponent.elim [] fun e => 'e' :: exponentText e

end JsonNumber

namespace Json

def escape (c : Char) : Text :=
  match c with
  | '"' => ['\\', '"']
  | '\\' => ['\\', '\\']
  | '\x08' => ['\\', 'b']
  | '\t' => ['\\', 't']
  | '\n' => ['\\', 'n']
  | '\x0c' => ['\\', 'f']
  | '\r' => ['\\', 'r']
  | c => if c.toNat < 32 then ['\\', 'u'] ++ Decimal.paddedHex 4 c.toNat else [c]

def quote (t : Text) : Text := '"' :: t.flatMap escape ++ ['"']

def boolText (b : Bool) : Text := if b then "true".toList else "false".toList

mutual

/-- All on one line, without blanks. What no text stands for is written as nothing. -/
def compact : Json → Text
  | null | unreadable => "null".toList
  | bool b => boolText b
  | number n => n.text
  | string t => quote t
  | array [] => ['[', ']']
  | array (item :: items) => '[' :: compact item ++ compactItems items
  | object [] => ['\x7b', '\x7d']
  | object ((name, value) :: members) =>
    '\x7b' :: quote name ++ ':' :: compact value ++ compactMembers members

def compactItems : List Json → Text
  | [] => [']']
  | item :: items => ',' :: compact item ++ compactItems items

def compactMembers : List (Text × Json) → Text
  | [] => ['\x7d']
  | (name, value) :: members => ',' :: quote name ++ ':' :: compact value ++ compactMembers members

end

def newLine (level : Nat) : Text := '\n' :: List.replicate (2 * level) ' '

mutual

/-- Each item and member on a line of its own. -/
def pretty (level : Nat) : Json → Text
  | null | unreadable => "null".toList
  | bool b => boolText b
  | number n => n.text
  | string t => quote t
  | array [] => ['[', ']']
  | array (item :: items) =>
    '[' :: newLine (level + 1) ++ pretty (level + 1) item ++ prettyItems level items
  | object [] => ['\x7b', '\x7d']
  | object ((name, value) :: members) =>
    '\x7b' :: newLine (level + 1) ++ quote name ++ [':', ' '] ++ pretty (level + 1) value ++
      prettyMembers level members

def prettyItems (level : Nat) : List Json → Text
  | [] => newLine level ++ [']']
  | item :: items =>
    ',' :: newLine (level + 1) ++ pretty (level + 1) item ++ prettyItems level items

def prettyMembers (level : Nat) : List (Text × Json) → Text
  | [] => newLine level ++ ['\x7d']
  | (name, value) :: members =>
    ',' :: newLine (level + 1) ++ quote name ++ [':', ' '] ++ pretty (level + 1) value ++
      prettyMembers level members

end

end Json

end Aprs
