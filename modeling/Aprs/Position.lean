import Aprs.Comment
import Aprs.Position.Compressed
import Aprs.Position.Uncompressed
import Aprs.Weather

/-!
Position reports, of stations and of objects, with a comment or with weather.
-/

namespace Aprs

/-- The five types of packets that carry a position. -/
inductive PositionKind where
  | station (messageCapable : Bool) (timed : Bool)
  | object
  deriving DecidableEq, Repr

namespace PositionKind

def ofChar? : Char → Option PositionKind
  | '!' => some (station false false)
  | '=' => some (station true false)
  | '/' => some (station false true)
  | '@' => some (station true true)
  | ';' => some object
  | _ => none

def messageCapable : PositionKind → Bool
  | station capable _ => capable
  | object => false

def isTimed : PositionKind → Bool
  | station _ timed => timed
  | object => true

end PositionKind

/-- The name of an object, and whether it is still there. -/
structure ObjectHeader where
  name : Text
  alive : Bool
  deriving DecidableEq, Repr

namespace ObjectHeader

def layout : Layout :=
  Layout.columns 9 (Text.between ' ' '~') ++ [fun c => c == '*' || c == '_']

def take? (body : Text) : Option (ObjectHeader × Text) :=
  (layout.take? body).map fun (field, rest) =>
    (⟨field.take 9, field.getD 9 ' ' == '*'⟩, rest)

end ObjectHeader

/-- What follows the position. -/
inductive Remark where
  | comment (comment : Comment)
  | weather (extension : Option Extension) (weather : Option (Weather Quantity)) (text : Text)
  deriving DecidableEq, Repr

namespace Remark

/-- Weather stations are known by their symbol. -/
def weatherSymbol : Char := '_'

def read (symbolCode : Char) (t : Text) : Remark :=
  if symbolCode = weatherSymbol then
    let (extension, t) := Extension.split t
    let (found, t) := Weather.split t
    .weather extension found (Text.trimSpaces t)
  else .comment (Comment.read t)

end Remark

structure Position where
  messageCapable : Bool
  object : Option ObjectHeader
  timestamp : Option Timestamp
  fix : Fix
  remark : Remark
  deriving DecidableEq, Repr

namespace Position

def takeObject : PositionKind → Text → Except DecodeError (Option ObjectHeader × Text)
  | .station .., body => .ok (none, body)
  | .object, body =>
    match ObjectHeader.take? body with
    | some (header, rest) => .ok (some header, rest)
    | none => .error .invalidObject

def takeTimestamp (now : Int) (kind : PositionKind) (body : Text) :
    Except DecodeError (Option Timestamp × Text) :=
  if kind.isTimed then
    match Timestamp.take? now body with
    | some (timestamp, rest) => .ok (some timestamp, rest)
    | none => .error .invalidTimestamp
  else .ok (none, body)

/-- A body that ends after a timestamp which names an instant lacks more than a position. -/
def endsEarly (timestamp : Option Timestamp) (body : Text) : Bool :=
  body.isEmpty && timestamp.any (·.epoch != 0)

/-- A text in neither layout is reported as a compressed position. -/
def takeFix (body : Text) : Except DecodeError (Fix × Text) :=
  match Uncompressed.decode? body with
  | .error cause => .error (.invalidPosition cause)
  | .ok (some result) => .ok result
  | .ok none => Compressed.decode body

def decode (now : Int) (kind : PositionKind) (body : Text) : Except DecodeError Position := do
  let (object, body) ← takeObject kind body
  let (timestamp, body) ← takeTimestamp now kind body
  if endsEarly timestamp body then throw .invalidTimestamp
  let (fix, body) ← takeFix body
  return ⟨kind.messageCapable, object, timestamp, fix, Remark.read fix.symbolCode body⟩

end Position

end Aprs
