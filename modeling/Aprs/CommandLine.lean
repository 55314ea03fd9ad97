import Aprs.CommandLine.Arguments
import Aprs.Json.Number
import Aprs.Json.Writer
import Aprs.Line
import Aprs.Options.File
import Aprs.Packet.Document
import Aprs.Text.Utf8

/-!
The command line as a function: from arguments, files and input bytes to all that a run prints.
-/

namespace Aprs

namespace CommandLine

/-- A line of the input, without its end. -/
abbrev Bytes := List UInt8

/-- A carriage return belongs to the line feed after it. -/
def dropReturn (reversed : Bytes) : Bytes :=
  match reversed with
  | 13 :: line => line.reverse
  | line => line.reverse

/-- Collects lines, the latest first; what follows the last line feed is a line if there is any. -/
def linesFrom : Bytes → Bytes → List Bytes → List Bytes
  | [], [], found => found.reverse
  | [], current, found => (current.reverse :: found).reverse
  | b :: rest, current, found =>
    if b = 10 then linesFrom rest [] (dropReturn current :: found)
    else linesFrom rest (b :: current) found

def lines (input : Bytes) : List Bytes := linesFrom input [] []

/-- How packets are decoded and written. -/
structure Settings where
  options : Options
  pretty : Bool
  now : Int

inductive LineResult where
  | skipped
  | decoded (document : Text)
  | rejected (error : DecodeError)
  /-- The line is no text. -/
  | unreadable
  deriving Repr

/-- Servers send blank lines and comments between packets. -/
def isSkipped (line : Text) : Bool := Text.allBlank line || line.head? == some '#'

def document (pretty : Bool) (packet : Packet Quantity) : Text :=
  let json := (packet.map Quantity.toFloat).toJson Json.ofFloat
  (if pretty then json.pretty 0 else json.compact) ++ ['\n']

def readLine (settings : Settings) (line : Bytes) : LineResult :=
  match Text.ofBytes? line with
  | none => .unreadable
  | some text =>
    if isSkipped text then .skipped
    else
      match decode settings.options settings.now text with
      | .ok packet => .decoded (document settings.pretty packet)
      | .error failure => .rejected failure.error

/-- What was printed so far, the latest first. -/
structure Progress where
  lineCount : Nat := 0
  documents : List Text := []
  failures : List (Nat × String) := []
  isBroken : Bool := false

namespace Progress

def decodedCount (p : Progress) : Nat := p.documents.length

def failedCount (p : Progress) : Nat := p.failures.length

/-- Lines are counted from one. Nothing happens after an unreadable line. -/
def step (settings : Settings) (p : Progress) (line : Bytes) : Progress :=
  if p.isBroken then p
  else
    let number := p.lineCount + 1
    let p := { p with lineCount := number }
    match readLine settings line with
    | .skipped => p
    | .decoded document => { p with documents := document :: p.documents }
    | .rejected error => { p with failures := (number, error.message) :: p.failures }
    | .unreadable => { p with isBroken := true }

end Progress

/-- How many lines were decoded and how many rejected. -/
structure Summary where
  decoded : Nat
  failed : Nat
  deriving DecidableEq, Repr

namespace Summary

def text (s : Summary) : String :=
  "decoded=" ++ toString s.decoded ++ " failed=" ++ toString s.failed

end Summary

/-- All that a run leaves behind. -/
structure Outcome where
  exitCode : UInt32
  output : Text := []
  failures : List (Nat × String) := []
  /-- Only a run that reaches the end of its input has one. -/
  summary : Option Summary := none
  deriving DecidableEq, Repr

def Progress.outcome (p : Progress) : Outcome where
  exitCode := if p.isBroken then 1 else 0
  output := p.documents.reverse.flatten
  failures := p.failures.reverse
  summary := if p.isBroken then none else some ⟨p.decodedCount, p.failedCount⟩

def runLines (settings : Settings) (input : Bytes) : Outcome :=
  ((lines input).foldl (Progress.step settings) {}).outcome

/-- The files and the standard input of a run, and the instant at which it runs. -/
structure Environment where
  contents : Text → Option Bytes
  standardInput : Bytes
  now : Int

def loadOptions (environment : Environment) : Option Text → Option Options
  | none => some {}
  | some path => do Options.parse? (← Text.ofBytes? (← environment.contents path))

def loadInput (environment : Environment) : Option Text → Option Bytes
  | none => some environment.standardInput
  | some path => environment.contents path

/-- Options on the command line go before those in the file. -/
def runWith (environment : Environment) (arguments : Arguments) : Outcome :=
  match loadOptions environment arguments.config, loadInput environment arguments.input with
  | some options, some input =>
    let options :=
      { options with
        acceptAnyDestination := options.acceptAnyDestination || arguments.noDestinationValidation }
    runLines ⟨options, arguments.pretty, environment.now⟩ input
  | _, _ => { exitCode := 1 }

def run (environment : Environment) (words : List Text) : Outcome :=
  match Invocation.ofWords words with
  | .run arguments => runWith environment arguments
  | .help => { exitCode := 0 }
  | .wrong => { exitCode := 2 }

def usage : String :=
  "Decode APRS packets, one per line, and print them as JSON.\n\n" ++
    "Usage: aprs [--config FILE] [--no-destination-validation] [--pretty] [INPUT]\n"

end CommandLine

end Aprs
