import Aprs.Toml.Scalar

/-!
Reading TOML documents.
-/

namespace Aprs.Toml

def skipBlanks (t : Text) : Text := t.dropWhile isBlank

/-- Skips a comment, if there is one, up to the end of its line. -/
def skipComment? : Text → Option Text
  | '#' :: t =>
    let rest := t.dropWhile isPlain
    if rest.isEmpty || (takeNewline? rest).isSome then some rest else none
  | t => some t

/-- Skips blanks, comments and line ends. -/
def skipFiller? : Nat → Text → Option Text
  | 0, t => some t
  | fuel + 1, t => do
    let t ← skipComment? (skipBlanks t)
    match takeNewline? t with
    | some t => skipFiller? fuel t
    | none => some t

/-- Skips what may stand between the items of an array or an inline table. -/
def skipAll? (t : Text) : Option Text := skipFiller? (t.length + 1) t

def isBareKey (c : Char) : Bool := c.isAlphanum || c == '_' || c == '-'

def readSimpleKey : Text → Option (Text × Text)
  | '"' :: t => readLine '"' true t
  | '\'' :: t => readLine '\'' false t
  | t =>
    let key := t.takeWhile isBareKey
    if key.isEmpty then none else some (key, t.dropWhile isBareKey)

/-- A key of at most so many parts: the last one, with those before its dots. -/
def readParts : Nat → Text → Option ((List Text × Text) × Text)
  | 0, _ => none
  | parts + 1, t => do
    let (key, t) ← readSimpleKey (skipBlanks t)
    match skipBlanks t with
    | '.' :: t =>
      let ((path, last), t) ← readParts parts t
      return ((key :: path, last), t)
    | t => return (([], key), t)

/-- So many levels of arrays and inline tables may be open at once, and so many parts may make up a
key. -/
def nestingLimit : Nat := 80

def readKey (t : Text) : Option ((List Text × Text) × Text) := readParts nestingLimit t

/-- A key and the equals sign after it. -/
def readAssigned (t : Text) : Option ((List Text × Text) × Text) := do
  let (key, t) ← readKey t
  match t with
  | '=' :: t => return (key, skipBlanks t)
  | _ => none

mutual

/-- Reads a value in which so many levels may be opened. -/
def readValue : Nat → Nat → Text → Option (Toml × Text)
  | 0, _, _ => none
  | fuel + 1, levels, t =>
    match t with
    | '"' :: '"' :: '"' :: t => (readLines '"' true t).map fun (s, t) => (string s, t)
    | '\'' :: '\'' :: '\'' :: t => (readLines '\'' false t).map fun (s, t) => (string s, t)
    | '"' :: t => (readLine '"' true t).map fun (s, t) => (string s, t)
    | '\'' :: t => (readLine '\'' false t).map fun (s, t) => (string s, t)
    | '[' :: t =>
      match levels with
      | 0 => none
      | levels + 1 => (readItems fuel levels t).map fun (items, t) => (array items, t)
    | '\x7b' :: t =>
      match levels with
      | 0 => none
      | levels + 1 =>
        (readInline fuel levels [] t).map fun (members, t) => (table .inline members, t)
    | t =>
      let (word, rest) := takeWord t
      (word? word).map (·, rest)

/-- Items up to the closing bracket; a comma may follow the last one. -/
def readItems : Nat → Nat → Text → Option (List Toml × Text)
  | 0, _, _ => none
  | fuel + 1, levels, t => do
    match ← skipAll? t with
    | ']' :: t => return ([], t)
    | t =>
      let (item, t) ← readValue fuel levels t
      match ← skipAll? t with
      | ',' :: t =>
        let (items, t) ← readItems fuel levels t
        return (item :: items, t)
      | ']' :: t => return ([item], t)
      | _ => none

/-- Members up to the closing brace, added to those before them. -/
def readInline : Nat → Nat → Members → Text → Option (Members × Text)
  | 0, _, _, _ => none
  | fuel + 1, levels, members, t => do
    match ← skipAll? t with
    | '\x7d' :: t => return (members, t)
    | t =>
      let ((path, key), t) ← readAssigned t
      let (value, t) ← readValue fuel levels t
      let members ← assign? value key path members
      match ← skipAll? t with
      | ',' :: t => readInline fuel levels members t
      | '\x7d' :: t => return (members, t)
      | _ => none

end

/-- The end of a line, after blanks and a comment. -/
def endLine? (t : Text) : Option Text := do
  let t ← skipComment? (skipBlanks t)
  if t.isEmpty then some t else takeNewline? t

def readHeader (t : Text) : Option (TomlStatement × Text) := do
  match t with
  | '[' :: t =>
    let ((path, key), t) ← readKey t
    match t with
    | ']' :: ']' :: t => return (.arrayHeader path key, t)
    | _ => none
  | t =>
    let ((path, key), t) ← readKey t
    match t with
    | ']' :: t => return (.header path key, t)
    | _ => none

def readStatement (t : Text) : Option (TomlStatement × Text) := do
  match t with
  | '[' :: t => readHeader t
  | t =>
    let ((path, key), t) ← readAssigned t
    let (value, t) ← readValue (t.length + 1) nestingLimit t
    return (.assign path key value, t)

/-- The statements of a document, each on a line of its own. -/
def readStatements : Nat → Text → Option (List TomlStatement)
  | 0, _ => none
  | fuel + 1, t => do
    match ← skipAll? t with
    | [] => return []
    | t =>
      let (statement, t) ← readStatement t
      let t ← endLine? t
      let statements ← readStatements fuel t
      return statement :: statements

/-- A mark of the byte order may come first. -/
def dropByteOrderMark : Text → Text
  | '\ufeff' :: t => t
  | t => t

/-- Reads a whole text as one document. -/
def parse? (t : Text) : Option Members :=
  let t := dropByteOrderMark t
  (readStatements (t.length + 1) t).bind TomlStatement.runAll?

end Aprs.Toml
