import Aprs.Binary
import Aprs.Calendar
import Aprs.Layout
import Aprs.Toml

/-!
Values of TOML that hold no others: strings, numbers, truth values, dates and times.
-/

namespace Aprs.Toml

def isBlank (c : Char) : Bool := c == ' ' || c == '\t'

/-- Tabs are the only control characters in strings and comments. -/
def isPlain (c : Char) : Bool := c == '\t' || (decide (' ' ≤ c) && c != '\x7f')

/-- What follows a line feed, with or without a carriage return before it. -/
def takeNewline? : Text → Option Text
  | '\n' :: t => some t
  | '\r' :: '\n' :: t => some t
  | _ => none

/-! Strings. -/

/-- A Unicode scalar value by its hexadecimal digits. -/
def takeScalar? (digits : Nat) (t : Text) : Option (Char × Text) := do
  if t.length < digits then none
  else
    let values ← (t.take digits).mapM Text.hexDigit?
    let n := values.foldl (fun n d => 16 * n + d) 0
    if n.isValidChar then some (Char.ofNat n, t.drop digits) else none

/-- The character that an escape names, after its backslash. -/
def takeEscape? : Text → Option (Char × Text)
  | 'b' :: t => some ('\x08', t)
  | 't' :: t => some ('\t', t)
  | 'n' :: t => some ('\n', t)
  | 'f' :: t => some ('\x0c', t)
  | 'r' :: t => some ('\r', t)
  | 'e' :: t => some ('\x1b', t)
  | '"' :: t => some ('"', t)
  | '\\' :: t => some ('\\', t)
  | 'x' :: t => takeScalar? 2 t
  | 'u' :: t => takeScalar? 4 t
  | 'U' :: t => takeScalar? 8 t
  | _ => none

/-- The four kinds of strings. -/
structure StringStyle where
  quote : Char
  escapes : Bool
  multiLine : Bool

/-- Three quotes end a string of several lines, and up to two more before them belong to it. -/
def takeClosing? (style : StringStyle) (t : Text) : Option (Text × Text) :=
  let quotes := (t.takeWhile (· == style.quote)).length
  if !style.multiLine then some ([], t.drop 1)
  else if 3 ≤ quotes then
    some (List.replicate (min quotes 5 - 3) style.quote, t.drop (min quotes 5))
  else none

/-- A backslash at the end of a line joins it with the next text. -/
def takeJoin? (t : Text) : Option Text := takeNewline? (t.dropWhile isBlank)

def skipBlankLines : Nat → Text → Text
  | 0, t => t
  | fuel + 1, t =>
    let t := t.dropWhile isBlank
    match takeNewline? t with
    | some t => skipBlankLines fuel t
    | none => t

/-- The content of a string after its opening quotes, and what follows the closing ones. -/
def readString (style : StringStyle) : Nat → Text → Option (Text × Text)
  | 0, _ | _, [] => none
  | fuel + 1, c :: t =>
    if c = style.quote then
      match takeClosing? style (c :: t) with
      | some closing => some closing
      | none => (readString style fuel t).map fun (s, rest) => (c :: s, rest)
    else if c = '\\' ∧ style.escapes then
      match takeEscape? t with
      | some (escaped, t) => (readString style fuel t).map fun (s, rest) => (escaped :: s, rest)
      | none =>
        if style.multiLine then
          (takeJoin? t).bind fun t => readString style fuel (skipBlankLines t.length t)
        else none
    else if style.multiLine && (takeNewline? (c :: t)).isSome then
      (readString style fuel t).map fun (s, rest) => (c :: s, rest)
    else if isPlain c then (readString style fuel t).map fun (s, rest) => (c :: s, rest)
    else none

/-- A line feed right after the opening quotes does not count. -/
def readLines (quote : Char) (escapes : Bool) (t : Text) : Option (Text × Text) :=
  readString ⟨quote, escapes, true⟩ (t.length + 1) ((takeNewline? t).getD t)

def readLine (quote : Char) (escapes : Bool) (t : Text) : Option (Text × Text) :=
  readString ⟨quote, escapes, false⟩ (t.length + 1) t

/-! Numbers. -/

/-- Digits with underscores between them, the underscores left out. -/
def digits? (isDigit : Char → Bool) : Text → Option Text
  | [] => none
  | [c] => if isDigit c then some [c] else none
  | c :: '_' :: t => if isDigit c then (digits? isDigit t).map (c :: ·) else none
  | c :: t => if isDigit c then (digits? isDigit t).map (c :: ·) else none

/-- Decimal digits without needless zeros. -/
def whole? (t : Text) : Option Text :=
  (digits? Char.isDigit t).bind fun digits =>
    if digits.length ≠ 1 ∧ digits.head? = some '0' then none else some digits

def takeSign : Text → Bool × Text
  | '-' :: t => (true, t)
  | '+' :: t => (false, t)
  | t => (false, t)

def based? (base : Nat) (t : Text) : Option Int := do
  let digits ← digits? (fun c => (Text.hexDigit? c).any (· < base)) t
  let values ← digits.mapM Text.hexDigit?
  return (values.foldl (fun n d => base * n + d) 0 : Nat)

/-- Integers that do not fit in 128 bits are refused. -/
def integer? (t : Text) : Option Int := do
  let i ← match t with
    | '0' :: 'x' :: t => based? 16 t
    | '0' :: 'o' :: t => based? 8 t
    | '0' :: 'b' :: t => based? 2 t
    | t =>
      let (negative, t) := takeSign t
      (whole? t).map fun digits =>
        let n : Int := Text.natOfDigits digits
        if negative then -n else n
  if -(1 <<< 127 : Nat) ≤ i ∧ i < (1 <<< 128 : Nat) then some i else none

/-- The digits of an exponent, which may begin with zeros. -/
def exponent? (t : Text) : Option Int :=
  let (negative, t) := takeSign t
  (digits? Char.isDigit t).map fun digits =>
    let n : Int := Text.natOfDigits digits
    if negative then -n else n

def isExponentMark (c : Char) : Bool := c == 'e' || c == 'E'

/-- A finite number from its digits and the power of ten of the last one. -/
def scaled? (digits : Text) (exponent : Int) : Option Float :=
  let n := Text.natOfDigits digits
  let leading := exponent + (digits.dropWhile (· == '0')).length
  if n = 0 ∨ leading < -400 then some 0
  else if 400 < leading then none
  else
    let x := if exponent < 0 then Float.ofScientific n true exponent.natAbs
      else Float.ofScientific n false exponent.natAbs
    if isFinite x then some x else none

def finiteFloat? (t : Text) : Option Float := do
  let mantissa := t.takeWhile (!isExponentMark ·)
  let exponent ← match t.dropWhile (!isExponentMark ·) with
    | [] => some none
    | _ :: e => (exponent? e).map some
  match Text.splitFirst? '.' mantissa with
  | some (whole, fraction) =>
    let whole ← whole? whole
    let fraction ← digits? Char.isDigit fraction
    scaled? (whole ++ fraction) (exponent.getD 0 - fraction.length)
  | none => scaled? (← whole? mantissa) (← exponent)

def float? (t : Text) : Option Float :=
  let (negative, t) := takeSign t
  let x? := if t = "inf".toList then some (1.0 / 0.0) else if t = "nan".toList then some (0.0 / 0.0)
    else finiteFloat? t
  x?.map fun x => if negative then -x else x

def boolean? (t : Text) : Option Bool :=
  if t = "true".toList then some true else if t = "false".toList then some false else none

/-! Dates and times. -/

def two : Layout := Layout.columns 2 Char.isDigit

def dateLayout : Layout :=
  Layout.columns 4 Char.isDigit ++ Layout.exactly '-' ++ two ++ Layout.exactly '-' ++ two

def minuteLayout : Layout := two ++ Layout.exactly ':' ++ two

def number (start n : Nat) (t : Text) : Nat := Text.natOfDigits (Text.slice start n t)

def takeDate? (t : Text) : Option (Text × Text) :=
  (dateLayout.take? t).bind fun (field, rest) =>
    if (Date.mk (number 0 4 field) (number 5 2 field) (number 8 2 field)).isValid then
      some (field, rest)
    else none

/-- Seconds may be left out; a leap second has the number sixty. -/
def dropSeconds? (t : Text) : Option Text :=
  match t with
  | ':' :: t =>
    (two.take? t).bind fun (seconds, rest) =>
      if 60 < Text.natOfDigits seconds then none
      else
        match rest with
        | '.' :: fraction =>
          if (fraction.takeWhile Char.isDigit).isEmpty then none
          else some (fraction.dropWhile Char.isDigit)
        | rest => some rest
  | t => some t

def dropMinutes? (t : Text) : Option Text :=
  (minuteLayout.take? t).bind fun (field, rest) =>
    if number 0 2 field < 24 ∧ number 3 2 field < 60 then some rest else none

def dropTime? (t : Text) : Option Text := (dropMinutes? t).bind dropSeconds?

def isOffset (t : Text) : Bool :=
  match t with
  | [] | ['Z'] | ['z'] => true
  | '+' :: t | '-' :: t => dropMinutes? t == some []
  | _ => false

/-- A date, a time, or both with a letter or a space between them, and then also an offset. -/
def isDateTime (t : Text) : Bool :=
  match takeDate? t with
  | some (_, []) => true
  | some (_, c :: time) =>
    (c == 'T' || c == 't' || c == ' ') && (dropTime? time).any isOffset
  | none => dropTime? t == some []

/-! All of them. -/

def isWordCharacter (c : Char) : Bool :=
  c.isAlphanum || c == '_' || c == '+' || c == '-' || c == '.' || c == ':'

/-- The characters of a value without quotes. After a date a space may join a time. -/
def takeWord (t : Text) : Text × Text :=
  let word := t.takeWhile isWordCharacter
  match t.dropWhile isWordCharacter with
  | ' ' :: c :: rest =>
    if c.isDigit && dateLayout.fits word then
      (word ++ ' ' :: (c :: rest).takeWhile isWordCharacter,
        (c :: rest).dropWhile isWordCharacter)
    else (word, ' ' :: c :: rest)
  | rest => (word, rest)

def word? (t : Text) : Option Toml :=
  (boolean? t).map boolean <|> (integer? t).map integer <|> (float? t).map float <|>
    if isDateTime t then some (dateTime t) else none

end Aprs.Toml
