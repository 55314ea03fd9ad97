import Aprs.Json

/-!
Records in JSON: an object whose members have known names, or an array with a value for each name in
order.
-/

namespace Aprs.Json

/-- Values by name, as an object or array gives them. -/
abbrev Fields := List (Text × Json)

/-- Members with other names count for nothing; a known name may stand once. -/
def fields? (names : List Text) : Json → Option Fields
  | object members =>
    if ((members.map Prod.fst).filter names.contains).Nodup then some members else none
  | array items => if items.length = names.length then some (names.zip items) else none
  | _ => none

namespace Fields

/-- The value of a field that has to be there. -/
def required (fields : Fields) (name : String) (read : Json → Option α) : Option α :=
  (fields.lookup name.toList).bind read

/-- The value of a field that may be missing or null. -/
def optional (fields : Fields) (name : String) (read : Json → Option α) : Option (Option α) :=
  match fields.lookup name.toList with
  | none | some null => some none
  | some json => (read json).map some

end Fields

/-- Levels of arrays and objects around a value are counted down; at none left a value may hold
neither. -/
def nested (budget : Nat) (read : Nat → Option α) : Option α :=
  match budget with
  | 0 => none
  | budget + 1 => read budget

def toText? : Json → Option Text
  | string t => some t
  | _ => none

def toBool? : Json → Option Bool
  | bool b => some b
  | _ => none

def toChar? : Json → Option Char
  | string [c] => some c
  | _ => none

def toInt? : Json → Option Int
  | number n => n.toInt?
  | _ => none

/-- A whole number below a bound. -/
def toNat? (bound : Nat) (json : Json) : Option Nat :=
  (toInt? json).bind fun i => if 0 ≤ i ∧ i < bound then some i.toNat else none

def toUInt8? (json : Json) : Option UInt8 := (toNat? UInt8.size json).map Nat.toUInt8

def toUInt16? (json : Json) : Option UInt16 := (toNat? UInt16.size json).map Nat.toUInt16

def toUInt32? (json : Json) : Option UInt32 := (toNat? UInt32.size json).map Nat.toUInt32

def toInt64? (json : Json) : Option Int64 :=
  (toInt? json).bind fun i =>
    if Int64.minValue.toInt ≤ i ∧ i ≤ Int64.maxValue.toInt then some (Int64.ofInt i) else none

def toList? (read : Nat → Json → Option α) (budget : Nat) (json : Json) : Option (List α) :=
  nested budget fun budget =>
    match json with
    | array items => items.mapM (read budget)
    | _ => none

/-- An array of a fixed length. -/
def toVector? (n : Nat) (read : Nat → Json → Option α) (budget : Nat) (json : Json) :
    Option (Vector α n) :=
  (toList? read budget json).bind fun items =>
    if h : items.length = n then some ⟨items.toArray, by simpa using h⟩ else none

def toTexts? (budget : Nat) (json : Json) : Option (List Text) :=
  toList? (fun _ => toText?) budget json

/-- A constant by its tag, which may also be the only name in an object, with null. -/
def toConstant? (all : List α) (tag : α → String) (budget : Nat) (json : Json) : Option α :=
  match json with
  | string t => all.find? fun a => (tag a).toList == t
  | object [(t, null)] => nested budget fun _ => all.find? fun a => (tag a).toList == t
  | _ => none

def ofText (t : Text) : Json := string t

def ofTexts (ts : List Text) : Json := array (ts.map ofText)

def ofString (s : String) : Json := string s.toList

def ofChar (c : Char) : Json := string [c]

def ofNat (n : Nat) : Json := ofInt n

/-- An object with a value for each name in order. -/
def ofValues (names : List Text) (values : List Json) : Json := object (names.zip values)

end Aprs.Json
