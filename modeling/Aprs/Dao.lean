import Aprs.Base91
import Aprs.Layout
import Aprs.Quantity

/-!
The precision tag of a comment: a datum and one more digit for each coordinate.
-/

namespace Aprs

structure Dao where
  datum : Char
  latitude : Char
  longitude : Char
  deriving DecidableEq, Repr, Inhabited

namespace Dao

def layout : Layout :=
  Layout.exactly '!' ++ [Text.between '!' '{'] ++ Layout.columns 2 (Text.between ' ' '{') ++
    Layout.exactly '!'

def take? (t : Text) : Option (Dao × Text) :=
  (layout.take? t).map fun (field, rest) =>
    (⟨field.getD 1 ' ', field.getD 2 ' ', field.getD 3 ' '⟩, rest)

/-- Takes the last tag out of a text of one line. -/
def split (t : Text) : Option Dao × Text :=
  if Text.isSingleLine t then
    match Text.rightmost? take? t with
    | some (before, dao, after) => (some dao, before ++ after)
    | none => (none, t)
  else (none, t)

/-- Thousandths of a minute. -/
def ofDecimalDigit (c : Char) : Quantity :=
  .ofNat (Text.digitValue c) * .scaled 1 3 / 60

/-- Ninety-firsts of a hundredth of a minute. -/
def ofBase91Digit (c : Char) : Quantity :=
  .ofNat ((Base91.decode [c]).toOption.getD 0) / 91 * .scaled 1 2 / 60

/-- A capital letter announces decimal digits and a small one digits to the base 91. Other datums
name the map only. -/
def offsets (dao : Dao) : Quantity × Quantity :=
  if dao.datum = 'W' ∧ dao.latitude.isDigit ∧ dao.longitude.isDigit then
    (ofDecimalDigit dao.latitude, ofDecimalDigit dao.longitude)
  else if dao.datum = 'w' ∧ dao.latitude ≠ ' ' ∧ dao.longitude ≠ ' ' then
    (ofBase91Digit dao.latitude, ofBase91Digit dao.longitude)
  else (0, 0)

/-- Digits go on where the coordinates were cut off, so they point away from zero. -/
def refine (dao : Dao) (latitude longitude : Quantity) : Quantity × Quantity :=
  (.outward latitude dao.offsets.1, .outward longitude dao.offsets.2)

end Dao

end Aprs
