import Aprs.Json

/-!
Reading the text of a JSON document.
-/

namespace Aprs.Json

def isBlank (c : Char) : Bool := c == ' ' || c == '\t' || c == '\n' || c == '\r'

def skipBlanks (t : Text) : Text := t.dropWhile isBlank

def hex? (a b c d : Char) : Option Nat := do
  return 4096 * (← Text.hexDigit? a) + 256 * (← Text.hexDigit? b) + 16 * (← Text.hexDigit? c) +
    (← Text.hexDigit? d)

def isHighSurrogate (n : Nat) : Bool := decide (0xd800 ≤ n) && decide (n ≤ 0xdbff)

def isLowSurrogate (n : Nat) : Bool := decide (0xdc00 ≤ n) && decide (n ≤ 0xdfff)

/-- The character that the letter after a backslash names. -/
def unescape? (c : Char) : Option Char :=
  match c with
  | '"' => some '"'
  | '\\' => some '\\'
  | '/' => some '/'
  | 'b' => some '\x08'
  | 'f' => some '\x0c'
  | 'n' => some '\n'
  | 'r' => some '\r'
  | 't' => some '\t'
  | _ => none

/-- The content of a string. Surrogates are held back until their partner comes. -/
inductive Unit16 where
  | char (c : Char)
  | surrogate (n : Nat)
  deriving DecidableEq, Repr

def unitOf (n : Nat) : Unit16 :=
  if isHighSurrogate n || isLowSurrogate n then .surrogate n else .char (Char.ofNat n)

/-- Characters and surrogates up to the closing quote, and what follows it. -/
def readUnits : Text → Option (List Unit16 × Text)
  | '"' :: t => some ([], t)
  | '\\' :: 'u' :: a :: b :: c :: d :: t => do
    let n ← hex? a b c d
    let (units, rest) ← readUnits t
    return (unitOf n :: units, rest)
  | '\\' :: c :: t => do
    let plain ← unescape? c
    let (units, rest) ← readUnits t
    return (.char plain :: units, rest)
  | c :: t =>
    if c.toNat < 32 then none
    else (readUnits t).map fun (units, rest) => (.char c :: units, rest)
  | [] => none

/-- Joins surrogates two by two, the high one first; one without a partner stands for no text. -/
def textOf? : List Unit16 → Option Text
  | [] => some []
  | .char c :: units => (textOf? units).map (c :: ·)
  | .surrogate high :: .surrogate low :: units =>
    if isHighSurrogate high && isLowSurrogate low then
      (textOf? units).map
        (Char.ofNat (0x10000 + 1024 * (high - 0xd800) + (low - 0xdc00)) :: ·)
    else none
  | .surrogate _ :: _ => none

/-- The text of a string after its opening quote, if there is one. -/
def readString (t : Text) : Option (Option Text × Text) :=
  (readUnits t).map fun (units, rest) => (textOf? units, rest)

/-- An integer has no zero in front of another digit. -/
def readWhole (t : Text) : Option (Nat × Text) :=
  let digits := t.takeWhile Char.isDigit
  let rest := t.dropWhile Char.isDigit
  match digits with
  | [] => none
  | ['0'] => some (0, rest)
  | '0' :: _ => none
  | digits => some (Text.natOfDigits digits, rest)

def readFraction : Text → Option (Text × Text)
  | '.' :: t =>
    let digits := t.takeWhile Char.isDigit
    if digits.isEmpty then none else some (digits, t.dropWhile Char.isDigit)
  | t => some ([], t)

def readExponentDigits (negative : Bool) (t : Text) : Option (Option Int × Text) :=
  let digits := t.takeWhile Char.isDigit
  if digits.isEmpty then none
  else
    let n : Int := Text.natOfDigits digits
    some (some (if negative then -n else n), t.dropWhile Char.isDigit)

def readExponent : Text → Option (Option Int × Text)
  | c :: t =>
    if c == 'e' || c == 'E' then
      match t with
      | '+' :: t => readExponentDigits false t
      | '-' :: t => readExponentDigits true t
      | t => readExponentDigits false t
    else some (none, c :: t)
  | [] => some (none, [])

def readUnsigned (negative : Bool) (t : Text) : Option (JsonNumber × Text) := do
  let (whole, t) ← readWhole t
  let (fraction, t) ← readFraction t
  let (exponent, t) ← readExponent t
  return ({ negative, whole, fraction, exponent }, t)

def readNumber : Text → Option (JsonNumber × Text)
  | '-' :: t => readUnsigned true t
  | t => readUnsigned false t

/-- A member by its name and value, the name being no text in unreadable objects. -/
abbrev RawMember := Option Text × Json

def objectOf (members : List RawMember) : Json :=
  match members.mapM fun (name, value) => name.map (·, value) with
  | some members => object members
  | none => unreadable

mutual

/-- Reads a value. Each level and each item takes up a character, so the length of the text is fuel
enough. -/
def readValue : Nat → Text → Option (Json × Text)
  | 0, _ => none
  | fuel + 1, t =>
    match skipBlanks t with
    | '[' :: t =>
      match skipBlanks t with
      | ']' :: t => some (array [], t)
      | t => do
        let (item, t) ← readValue fuel t
        let (items, t) ← readItems fuel t
        return (array (item :: items), t)
    | '\x7b' :: t =>
      match skipBlanks t with
      | '\x7d' :: t => some (object [], t)
      | t => do
        let (member, t) ← readMember fuel t
        let (members, t) ← readMembers fuel t
        return (objectOf (member :: members), t)
    | '"' :: t => (readString t).map fun (text, t) => (text.elim unreadable string, t)
    | 'n' :: 'u' :: 'l' :: 'l' :: t => some (null, t)
    | 't' :: 'r' :: 'u' :: 'e' :: t => some (bool true, t)
    | 'f' :: 'a' :: 'l' :: 's' :: 'e' :: t => some (bool false, t)
    | t => (readNumber t).map fun (n, t) => (number n, t)

/-- The items of an array after its first one. -/
def readItems : Nat → Text → Option (List Json × Text)
  | 0, _ => none
  | fuel + 1, t =>
    match skipBlanks t with
    | ']' :: t => some ([], t)
    | ',' :: t => do
      let (item, t) ← readValue fuel t
      let (items, t) ← readItems fuel t
      return (item :: items, t)
    | _ => none

def readMember : Nat → Text → Option (RawMember × Text)
  | 0, _ => none
  | fuel + 1, t =>
    match skipBlanks t with
    | '"' :: t => do
      let (name, t) ← readString t
      match skipBlanks t with
      | ':' :: t =>
        let (value, t) ← readValue fuel t
        return ((name, value), t)
      | _ => none
    | _ => none

/-- The members of an object after its first one. -/
def readMembers : Nat → Text → Option (List RawMember × Text)
  | 0, _ => none
  | fuel + 1, t =>
    match skipBlanks t with
    | '\x7d' :: t => some ([], t)
    | ',' :: t => do
      let (member, t) ← readMember fuel t
      let (members, t) ← readMembers fuel t
      return (member :: members, t)
    | _ => none

end

/-- Reads a whole text as one document. -/
def parse? (t : Text) : Option Json :=
  match readValue (t.length + 1) t with
  | some (json, rest) => if (skipBlanks rest).isEmpty then some json else none
  | none => none

end Aprs.Json
