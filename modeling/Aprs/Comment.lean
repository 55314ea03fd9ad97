import Aprs.Altitude
import Aprs.Dao
import Aprs.Extension
import Aprs.Telemetry

/-!
Comments of position reports. Tags are taken out one kind after the other, and what is left is the
text.
-/

namespace Aprs

structure Comment where
  extension : Option Extension
  /-- Feet. -/
  altitude : Option Int
  telemetry : Option Telemetry
  dao : Option Dao
  text : Text
  deriving DecidableEq, Repr

namespace Comment

/-- A slash divides a data extension from the text. -/
def dropSlash : Text → Text
  | '/' :: t => t
  | t => t

def read (t : Text) : Comment :=
  let (extension, t) := Extension.split t
  let (altitude, t) := Altitude.split t
  let (telemetry, t) := Telemetry.split t
  let (dao, t) := Dao.split t
  ⟨extension, altitude, telemetry, dao, Text.trimSpaces (dropSlash t)⟩

end Comment

end Aprs
