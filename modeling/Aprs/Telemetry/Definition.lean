import Aprs.Error
import Aprs.Layout
import Aprs.Record

/-!
Messages that define telemetry channels: names, units, equations, and the sense of the bits with a
title.
-/

namespace Aprs.TelemetryDefs

/-- Five analog and eight digital channels. -/
def channelCount : Nat := 13

def longestName : Nat := 20

def longestTitle : Nat := 23

/-- Names past the last channel are left out, and missing ones are empty. -/
def channelNames (kind : DefinitionKind) (values : Text) : Except DefinitionError (List Text) :=
  let given := (values.splitOn ',').take channelCount
  if given.all fun name => decide (name.length ≤ longestName) then
    .ok (given ++ List.replicate (channelCount - given.length) [])
  else .error (.nameTooLong kind)

/-- Coefficients from the `place`-th on; an empty one is not given. -/
def coefficients : Nat → List Text → Except DefinitionError (List (Option Quantity))
  | _, [] => .ok []
  | place, [] :: rest => (coefficients (place + 1) rest).map (none :: ·)
  | place, value :: rest =>
    match Decimal.parse? value with
    | some d => (coefficients (place + 1) rest).map (some (.decimal d) :: ·)
    | none => .error (.notANumber place)

/-- The equation that changes nothing. -/
def identity : Vector Quantity 3 := #v[0, 1, 0]

def equations (values : Text) : Except DefinitionError (Vector (Vector Quantity 3) 5) :=
  (coefficients 1 ((values.splitOn ',').take 15)).map fun given =>
    Vector.ofFn fun i => Vector.ofFn fun j => (given.getD (3 * i + j) none).getD identity[j]

def bitsLayout : Layout := Layout.columns 8 (fun c => c == '0' || c == '1') ++ Layout.exactly ','

def bits (values : Text) : Except DefinitionError (Text × Text) :=
  match bitsLayout.take? values with
  | some (field, title) =>
    if title.length ≤ longestTitle ∧ Text.isSingleLine title then
      .ok (field.take 8, Text.trimSpaces title)
    else .error .invalidBits
  | none => .error .invalidBits

/-- The kind of definition at the start of a message, and what follows the point after it. -/
def kind? (t : Text) : Option (DefinitionKind × Text) :=
  if Text.isSingleLine t then
    DefinitionKind.all.findSome? fun kind =>
      (Text.dropPrefix? (kind.tag.toList ++ ['.']) t).map fun values => (kind, values)
  else none

/-- Nothing for a message that defines nothing. -/
def decode? (t : Text) : Except DefinitionError (Option (TelemetryDefs Quantity)) :=
  match kind? t with
  | none => .ok none
  | some (kind, values) =>
    let values := Text.trimEndSpaces values
    match kind with
    | .parm => (channelNames kind values).map fun ns => some { parmNames := some ns }
    | .unit => (channelNames kind values).map fun ns => some { unitNames := some ns }
    | .eqns => (equations values).map fun rows => some { eqns := some rows }
    | .bits => (bits values).map fun (mask, title) =>
        some { bitsMask := some mask, title := some title }

end Aprs.TelemetryDefs
