import Aprs.Layout
import Aprs.Record
import Aprs.Timestamp

/-!
Weather reports: a run of tokens, each a letter and a few columns for its value, and the report that
carries them without a position.
-/

namespace Aprs

namespace Weather

structure Token where
  key : Char
  value : Text
  deriving DecidableEq, Repr, Inhabited

namespace Token

def isKey (c : Char) : Bool :=
  c == 'c' || c == 'S' || c == 'g' || c == 't' || c == 'r' || c == 'p' || c == 'P' || c == 'l' ||
    c == 'L' || c == 's' || c == '#'

def isColumn (c : Char) : Bool := Text.isDigitOrFiller c || c == '-'

/-- Most tokens have three columns, humidity two and pressure five. -/
def layouts : List Layout :=
  [isKey :: Layout.columns 3 isColumn,
    (· == 'h') :: Layout.columns 2 Text.isDigitOrFiller,
    (· == 'b') :: Layout.columns 5 Text.isDigitOrFiller]

/-- Cuts a token off the start of a text. -/
def take? (t : Text) : Option (Token × Text) :=
  (layouts.findSome? fun layout => layout.take? t).bind fun (field, rest) =>
    match field with
    | key :: value => some (⟨key, value⟩, rest)
    | [] => none

def digits (n : Nat) : Layout := Layout.columns n Char.isDigit

/-- Values that say something: digits, below zero for a temperature, with a point for snow. -/
def isWellFormed (token : Token) : Bool :=
  (isKey token.key && (digits 3).fits token.value) ||
    (token.key == 't' && (Layout.exactly '-' ++ digits 2).fits token.value) ||
    (token.key == 'h' && (digits 2).fits token.value) ||
    (token.key == 'b' && (digits 5).fits token.value) ||
    (token.key == 's' && (Layout.exactly '.' ++ digits 2).fits token.value) ||
    (token.key == 's' && (digits 1 ++ Layout.exactly '.' ++ digits 1).fits token.value)

end Token

/-- Takes tokens while there are any; each has a character, so no more than the text has. -/
def tokensUpTo : Nat → Text → List Token × Text
  | 0, t => ([], t)
  | fuel + 1, t =>
    match Token.take? t with
    | some (token, rest) =>
      let (tokens, rest) := tokensUpTo fuel rest
      (token :: tokens, rest)
    | none => ([], t)

def tokens (t : Text) : List Token × Text := tokensUpTo t.length t

def metresPerSecond (milesPerHour : Quantity) : Quantity := milesPerHour * .scaled 44704 5

/-- Millimetres from hundredths of an inch. -/
def millimetres (hundredths : Quantity) : Quantity := hundredths * .scaled 254 3

def celsius (fahrenheit : Quantity) : Quantity := (fahrenheit - 32) / .scaled 18 1

/-- A later token with the same key counts. Two digits cannot write a humidity of one hundred, so
zeros stand for it; small `l` counts from one thousand. -/
def store (w : Weather Quantity) (key : Char) (value : Decimal) : Weather Quantity :=
  let n := Quantity.decimal value
  match key with
  | 'c' => { w with windDirection := some n }
  | 'S' => { w with windSpeed := some (metresPerSecond n) }
  | 'g' => { w with windGust := some (metresPerSecond n) }
  | 't' => { w with temperature := some (celsius n) }
  | 'r' => { w with rain1h := some (millimetres n) }
  | 'p' => { w with rain24h := some (millimetres n) }
  | 'P' => { w with rainSinceMidnight := some (millimetres n) }
  | 'h' => { w with humidity := some (if value.digits = 0 then 100 else n) }
  | 'b' => { w with pressure := some (n / 10) }
  | 'l' => { w with luminosity := some (n + 1000) }
  | 'L' => { w with luminosity := some n }
  | 's' => { w with snow := some (n * .scaled 254 1) }
  | '#' => { w with rainRaw := some n }
  | _ => w

def apply (w : Weather Quantity) (token : Token) : Weather Quantity :=
  if token.isWellFormed then
    match Decimal.parse? token.value with
    | some value => w.store token.key value
    | none => w
  else w

def windLayout : Layout :=
  Layout.columns 3 Char.isDigit ++ Layout.exactly '/' ++ Layout.columns 3 Char.isDigit

/-- Direction and speed may come as `ddd/ddd`. After a direction an `s` is a wind speed, elsewhere
it is snow. -/
def spellOutWind (t : Text) : Text :=
  match windLayout.take? t with
  | some (field, rest) => 'c' :: field.take 3 ++ 'S' :: field.drop 4 ++ rest
  | none =>
    match t.head?, Text.splitAtByte? 4 t with
    | some 'c', some (before, 's' :: after) => before ++ 'S' :: after
    | _, _ => t

/-- The weather at the start of a text, if there is any, and what follows it. -/
def split (t : Text) : Option (Weather Quantity) × Text :=
  let (tokens, rest) := tokens (spellOutWind t)
  let w := tokens.foldl apply {}
  (if w.isEmpty then none else some w, rest)

end Weather

/-- A weather report without a position, dated by month, day, hour and minute. -/
structure WeatherReport where
  digits : Text
  epoch : Int
  weather : Option (Weather Quantity)
  comment : Text
  deriving DecidableEq, Repr

namespace WeatherReport

/-- Wind, gust and temperature have to be there, if only with fillers. -/
def required : Layout :=
  let columns := Layout.columns 3 Text.isDigitOrFiller
  Layout.columns 8 Char.isDigit ++ Layout.exactly 'c' ++ columns ++ Layout.exactly 's' ++ columns ++
    Layout.exactly 'g' ++ columns ++ Layout.exactly 't' ++ columns

def decode? (now : Int) (body : Text) : Option WeatherReport :=
  (required.take? body).map fun (field, _) =>
    let digits := field.take 8
    let (weather, rest) := Weather.split (body.drop 8)
    ⟨digits, Timestamp.monthDay now digits, weather, Text.trimSpaces rest⟩

end WeatherReport

end Aprs
