import Aprs.Text

/-!
JSON documents.
-/

namespace Aprs

/-- A number as it is written: an integer without needless zeros, digits after the point, of which
there may be none, and an exponent. -/
structure JsonNumber where
  negative : Bool := false
  whole : Nat
  fraction : Text := []
  exponent : Option Int := none
  deriving DecidableEq, Repr, Inhabited

namespace JsonNumber

/-- Numbers without point and exponent are integers, minus zero excepted. -/
def toInt? (n : JsonNumber) : Option Int :=
  if n.fraction ≠ [] ∨ n.exponent ≠ none then none
  else if n.negative then if n.whole = 0 then none else some (-(n.whole : Int))
  else some n.whole

end JsonNumber

inductive Json where
  | null
  | bool (value : Bool)
  | number (value : JsonNumber)
  | string (value : Text)
  /-- A string with half of a surrogate pair, or an object with such a name: no text stands for it,
  but a document can hold it. -/
  | unreadable
  | array (items : List Json)
  /-- Members in the order in which they are written; names can be repeated. -/
  | object (members : List (Text × Json))
  deriving Repr, Inhabited

namespace Json

def ofInt (i : Int) : Json := number { negative := decide (i < 0), whole := i.natAbs }

def ofOption (f : α → Json) (o : Option α) : Json := o.elim null f

end Json

end Aprs
