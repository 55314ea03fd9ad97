import Aprs.Text

/-!
Tables of a TOML document, and the rules for adding to them: no value is defined twice, and each way
to open a table leaves only some ways to add to it later.
-/

namespace Aprs

/-- How a table came about. -/
inductive TableOrigin where
  /-- On the way to a table that a header defines. -/
  | implied
  /-- By a key with dots. -/
  | dotted
  | header
  | inline
  deriving DecidableEq, Repr

inductive Toml where
  | string (text : Text)
  | integer (value : Int)
  | float (value : Float)
  | boolean (value : Bool)
  | dateTime (text : Text)
  | array (items : List Toml)
  | table (origin : TableOrigin) (members : List (Text × Toml))
  /-- An array that headers in double brackets fill, one table after the other. -/
  | tables (items : List (List (Text × Toml)))
  deriving Repr, Inhabited

namespace Toml

abbrev Members := List (Text × Toml)

/-- Replaces the value of a key, or adds one for a new key at the end. -/
def update? (key : Text) (change : Option Toml → Option Toml) : Members → Option Members
  | [] => (change none).map fun value => [(key, value)]
  | (k, v) :: members =>
    if k = key then (change (some v)).map fun value => (k, value) :: members
    else (update? key change members).map ((k, v) :: ·)

def new? (value : Toml) : Option Toml → Option Toml
  | none => some value
  | some _ => none

/-- Changes the last table of an array of tables. -/
def updateLast? (change : Members → Option Members) : List Members → Option (List Members)
  | [] => none
  | [last] => (change last).map ([·])
  | first :: others => (updateLast? change others).map (first :: ·)

/-- Puts a value under a key with dots. The last table on the way has to be made by such keys
alone. -/
def assign? (value : Toml) (key : Text) : List Text → Members → Option Members
  | [], members => update? key (new? value) members
  | step :: path, members =>
    members |> update? step fun found =>
      match found with
      | none => (assign? value key path []).map (table .dotted)
      | some (table .dotted inner) => (assign? value key path inner).map (table .dotted)
      | some (table .implied inner) =>
        if path.isEmpty then none else (assign? value key path inner).map (table .implied)
      | some (tables items) =>
        if path.isEmpty then none else (updateLast? (assign? value key path) items).map tables
      | some _ => none

/-- Changes the table to which a header leads; tables on the way are made where they lack. -/
def within? (change : Members → Option Members) : List Text → Members → Option Members
  | [], members => change members
  | step :: path, members =>
    members |> update? step fun found =>
      match found with
      | none => (within? change path []).map (table .implied)
      | some (table .inline _) => none
      | some (table origin inner) => (within? change path inner).map (table origin)
      | some (tables items) => (updateLast? (within? change path) items).map tables
      | some _ => none

/-- A header defines a table that is new or was only implied. -/
def define? : Option Toml → Option Toml
  | none => some (table .header [])
  | some (table .implied members) => some (table .header members)
  | some _ => none

/-- A header in double brackets begins a table in an array of such. -/
def append? : Option Toml → Option Toml
  | none => some (tables [[]])
  | some (tables items) => some (tables (items ++ [[]]))
  | some _ => none

end Toml

/-- A line of a TOML document. -/
inductive TomlStatement where
  | assign (path : List Text) (key : Text) (value : Toml)
  | header (path : List Text) (key : Text)
  | arrayHeader (path : List Text) (key : Text)

namespace TomlStatement

/-- The document so far, and the header under which assignments are made. -/
abbrev State := List Text × Toml.Members

def run? : State → TomlStatement → Option State
  | (current, root), assign path key value =>
    (Toml.within? (Toml.assign? value key path) current root).map (current, ·)
  | (_, root), header path key =>
    (Toml.within? (Toml.update? key Toml.define?) path root).map (path ++ [key], ·)
  | (_, root), arrayHeader path key =>
    (Toml.within? (Toml.update? key Toml.append?) path root).map (path ++ [key], ·)

/-- The top table after all statements. -/
def runAll? (statements : List TomlStatement) : Option Toml.Members :=
  (statements.foldlM run? ([], [])).map Prod.snd

end TomlStatement

end Aprs
