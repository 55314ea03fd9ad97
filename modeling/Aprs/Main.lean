import Aprs.CommandLine
import Std.Time.DateTime.Timestamp

/-!
The program: reads the input and prints packets, and on standard error the failures and a summary.
-/

namespace Aprs.Main

open CommandLine

partial def readAll (stream : IO.FS.Stream) (found : ByteArray) : IO ByteArray := do
  let chunk ← stream.read 65536
  if chunk.isEmpty then return found else readAll stream (found ++ chunk)

def readFile? (path : Text) : IO (Option Bytes) := do
  try
    return some (← IO.FS.readBinFile (String.ofList path)).toList
  catch _ => return none

/-- Reads only what the arguments ask for. -/
def environmentFor (arguments : Arguments) : IO Environment := do
  let paths := arguments.config.toList ++ arguments.input.toList
  let files ← paths.mapM fun path => do return (path, ← readFile? path)
  let standardInput ←
    if arguments.input.isSome then pure ByteArray.empty else readAll (← IO.getStdin) .empty
  let now ← Std.Time.Timestamp.now
  return {
    contents := fun path => (files.lookup path).join
    standardInput := standardInput.toList
    now := now.toSecondsSinceUnixEpoch.val }

def report (outcome : Outcome) : IO Unit := do
  (← IO.getStdout).putStr (String.ofList outcome.output)
  for (line, message) in outcome.failures do
    IO.eprintln ("line " ++ toString line ++ ": " ++ message)
  if let some summary := outcome.summary then IO.eprintln summary.text

end Aprs.Main

def main (words : List String) : IO UInt32 := do
  match Aprs.Invocation.ofWords (words.map String.toList) with
  | .help =>
    IO.println Aprs.CommandLine.usage
    return 0
  | .wrong =>
    IO.eprintln Aprs.CommandLine.usage
    return 2
  | .run arguments =>
    let outcome := Aprs.CommandLine.runWith (← Aprs.Main.environmentFor arguments) arguments
    Aprs.Main.report outcome
    return outcome.exitCode
