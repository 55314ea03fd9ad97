import Aprs.Error
import Aprs.Position.Fix

/-!
Positions in degrees and minutes, whose last digits may be blank to hide the exact place.
-/

namespace Aprs.Uncompressed

/-- What is taken for such a position at a glance. -/
def shape : Layout :=
  Layout.columns 4 Text.isDigitOrSpace ++ Layout.exactly '.' ++
    Layout.columns 2 Text.isDigitOrSpace ++ [fun c => c == 'N' || c == 'S'] ++ [(· != '\n')] ++
    Layout.columns 5 Text.isDigitOrSpace ++ Layout.exactly '.' ++
    Layout.columns 2 Text.isDigitOrSpace ++ [fun c => c == 'E' || c == 'W']

def minutesLayout : Layout :=
  Layout.columns 2 Text.isDigitOrSpace ++ Layout.exactly '.' ++ Layout.columns 2 Text.isDigitOrSpace

def hemisphere (positive negative : Char) (c : Char) : Bool :=
  c.toUpper == positive || c.toUpper == negative

/-- Two digits of degrees, minutes, hemisphere and symbol table; three digits, minutes, hemisphere
and symbol code. -/
def layout : Layout :=
  Layout.columns 2 Char.isDigit ++ minutesLayout ++ [hemisphere 'N' 'S'] ++ [Text.isSymbolTable] ++
    Layout.columns 3 Char.isDigit ++ minutesLayout ++ [hemisphere 'E' 'W'] ++
    [Text.between '!' '~']

def blanks (minutes : Text) : Nat := minutes.count ' '

/-- The first blank becomes five and the others zero, which is the middle of what they hide. -/
def fillBlanks : Text → Text
  | [] => []
  | ' ' :: t => '5' :: t.map fun c => if c = ' ' then '0' else c
  | c :: t => c :: fillBlanks t

/-- Without any digit the middle is the half of a degree. -/
def centre (minutes : Text) (ambiguity : Nat) : Text :=
  if 4 ≤ ambiguity then ['3', '0'] else fillBlanks minutes

/-- Degrees and filled minutes, below zero on the second hemisphere. -/
def coordinate (degrees : Nat) (minutes : Decimal) (negative : Bool) : Quantity :=
  Quantity.negIf negative (.ofDegreesMinutes (.ofNat degrees) (.decimal minutes))

def read (field : Text) : Except PositionError Fix :=
  let latitudeMinutes := Text.slice 2 5 field
  let longitudeMinutes := Text.slice 12 5 field
  let ambiguity := blanks latitudeMinutes
  let latitudeDegrees := Text.natOfDigits (Text.slice 0 2 field)
  let longitudeDegrees := Text.natOfDigits (Text.slice 9 3 field)
  if ambiguity ≠ blanks longitudeMinutes then .error .ambiguityMismatch
  else if 89 < latitudeDegrees then .error .latitudeOutOfRange
  else if 179 < longitudeDegrees then .error .longitudeOutOfRange
  else
    match Decimal.parse? (centre latitudeMinutes ambiguity),
        Decimal.parse? (centre longitudeMinutes ambiguity) with
    | none, _ => .error .invalidLatitudeMinutes
    | some _, none => .error .invalidLongitudeMinutes
    | some latitude, some longitude =>
      .ok
        { form := .uncompressed ambiguity
          latitude := coordinate latitudeDegrees latitude ((field.getD 7 ' ').toUpper == 'S')
          longitude := coordinate longitudeDegrees longitude ((field.getD 17 ' ').toUpper == 'W')
          symbolTable := field.getD 8 ' '
          symbolCode := field.getD 18 ' ' }

/-- Nothing for a text that is in another layout. -/
def decode? (body : Text) : Except PositionError (Option (Fix × Text)) :=
  if (shape.take? body).isNone then .ok none
  else
    match layout.take? body with
    | none => .ok none
    | some (field, rest) => (read field).map fun fix => some (fix, rest)

end Aprs.Uncompressed
