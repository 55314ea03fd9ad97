import Aprs.Telemetry.Definition

/-!
Messages: bulletins, announcements, and texts to one addressee, which may be numbered, answer a
number or define telemetry channels.
-/

namespace Aprs

namespace Message

inductive Content where
  | definition (defs : TelemetryDefs Quantity)
  /-- An answer to a numbered message, with the number of another one that it confirms. -/
  | reply (response : Response) (number : Text) (acked : Option Text)
  | text (text : Text) (number : Option Text) (acked : Option Text)
  deriving DecidableEq, Repr

end Message

inductive Message where
  | bulletin (id : Char) (group : Text) (text : Text)
  | announcement (id : Char) (group : Text) (text : Text)
  | addressed (addressee : Text) (content : Message.Content)
  /-- A body without an addressee says nothing. -/
  | unaddressed
  deriving DecidableEq, Repr

namespace Message

def isIdentifier (c : Char) : Bool := c.isAlphanum || c == '_' || c == ' ' || c == '-'

/-- Letter case does not count in a bulletin, and then the long s and the kelvin sign are letters
too. -/
def isFoldedIdentifier (c : Char) : Bool := isIdentifier c || c == '\u017f' || c == '\u212a'

def eitherCase (upper : Char) : Char → Bool := fun c => c == upper || c == upper.toLower

def bulletinLayout : Layout :=
  [eitherCase 'B', eitherCase 'L', eitherCase 'N', Char.isDigit] ++
    Layout.columns 5 isFoldedIdentifier ++ Layout.exactly ':'

def announcementLayout : Layout :=
  [(· == 'B'), (· == 'L'), (· == 'N'), Char.isUpper] ++ Layout.columns 5 isIdentifier ++
    Layout.exactly ':'

def addressLayout : Layout := Layout.columns 9 isIdentifier ++ Layout.exactly ':'

def longestText : Nat := 67

/-- The fourth character of the address, the group after it, and the text that is read. -/
def group (field rest : Text) : Char × Text × Text :=
  (field.getD 3 ' ', Text.trimEndSpaces (Text.slice 4 5 field),
    Text.trimSpaces (Text.firstLine longestText rest))

def responseOf? (t : Text) : Option (Response × Text) :=
  Response.all.findSome? fun response =>
    (Text.dropPrefix? response.tag.toList t).map fun rest => (response, rest)

def isNumber (t : Text) : Bool :=
  decide (1 ≤ t.length) && decide (t.length ≤ 5) && t.all Char.isAlphanum

/-- Two characters in braces, or only a closing one, and the number that is confirmed. -/
def replyNumbers? : Text → Option (Text × Option Text)
  | a :: b :: '\x7d' :: acked =>
    if a.isAlphanum && b.isAlphanum then
      match acked with
      | [] => some ([a, b], none)
      | [c, d] => if c.isAlphanum && d.isAlphanum then some ([a, b], some [c, d]) else none
      | _ => none
    else none
  | _ => none

/-- The whole text answers a message. -/
def reply? (t : Text) : Option Content :=
  (responseOf? t).bind fun (response, rest) =>
    match replyNumbers? rest with
    | some (number, acked) => some (.reply response number acked)
    | none => if isNumber rest then some (.reply response rest none) else none

def takeReplyTag? : Text → Option ((Text × Option Text) × Text)
  | '\x7b' :: t => (replyNumbers? t).map (·, [])
  | _ => none

def takeTag? : Text → Option ((Text × Option Text) × Text)
  | '\x7b' :: t => if isNumber t then some ((t, none), []) else none
  | _ => none

/-- The number at the end of a text, and the text before it. -/
def tag? (t : Text) : Option (Text × Text × Option Text) :=
  ((Text.leftmost? takeReplyTag? t) <|> (Text.leftmost? takeTag? t)).map
    fun (before, (number, acked), _) => (before, number, acked)

def content (t : Text) : Content :=
  match reply? t with
  | some reply => reply
  | none =>
    match tag? t with
    | some (before, number, acked) => .text (Text.trimSpaces before) (some number) acked
    | none => .text (Text.trimSpaces t) none none

/-- Definitions are addressed to the station that sends them. -/
def addressedTo (addressee : Text) (t : Text) : Except DefinitionError Message :=
  (TelemetryDefs.decode? t).map fun defs? =>
    match defs? with
    | some defs => .addressed addressee (.definition defs)
    | none => .addressed addressee (content t)

def decode (body : Text) : Except DefinitionError Message :=
  match bulletinLayout.take? body with
  | some (field, rest) =>
    let (id, name, text) := group field rest
    .ok (.bulletin id name text)
  | none =>
    match announcementLayout.take? body with
    | some (field, rest) =>
      let (id, name, text) := group field rest
      .ok (.announcement id name text)
    | none =>
      match addressLayout.take? body with
      | some (field, rest) =>
        if Text.isSingleLine rest then addressedTo (Text.trimEndSpaces (field.take 9)) rest
        else .ok .unaddressed
      | none => .ok .unaddressed

end Message

end Aprs
