import Aprs.Text

/-!
Arguments of the command line.
-/

namespace Aprs

structure Arguments where
  config : Option Text := none
  noDestinationValidation : Bool := false
  pretty : Bool := false
  input : Option Text := none
  deriving DecidableEq, Repr

/-- Arguments may be wrong, or ask for help instead of a run. -/
inductive Invocation where
  | run (arguments : Arguments)
  | help
  | wrong
  deriving DecidableEq, Repr

namespace Arguments

def configName : Text := "--config".toList

def noDestinationName : Text := "--no-destination-validation".toList

def prettyName : Text := "--pretty".toList

/-- A hyphen with something after it begins an option; a hyphen alone is a value. -/
def isOption : Text → Bool
  | '-' :: _ :: _ => true
  | _ => false

/-- Of options with one hyphen, which are read letter by letter, only the one for help is known. -/
def isHelp (word : Text) : Bool :=
  word == "--help".toList || (Text.dropPrefix? ['-', 'h'] word).isSome

/-- No option may be given twice, and no path may be empty. -/
def withConfig? (a : Arguments) (path : Text) : Option Arguments :=
  if a.config.isSome || path.isEmpty then none else some { a with config := some path }

def withInput? (a : Arguments) (path : Text) : Option Arguments :=
  if a.input.isSome || path.isEmpty then none else some { a with input := some path }

/-- Everything after two hyphens is an input. -/
def withInputs? (a : Arguments) (paths : List Text) : Option Arguments := paths.foldlM withInput? a

def ofOption (a? : Option Arguments) : Invocation := a?.elim .wrong .run

/-- Reads arguments from left to right, until one is wrong or asks for help. -/
def read : Arguments → List Text → Invocation
  | a, [] => .run a
  | a, word :: words =>
    if word = ['-', '-'] then ofOption (a.withInputs? words)
    else if isHelp word then .help
    else if word = noDestinationName then
      if a.noDestinationValidation then .wrong
      else read { a with noDestinationValidation := true } words
    else if word = prettyName then
      if a.pretty then .wrong else read { a with pretty := true } words
    else if word = configName then
      match words with
      | path :: words =>
        if isOption path then .wrong
        else
          match a.withConfig? path with
          | some a => read a words
          | none => .wrong
      | [] => .wrong
    else
      match Text.dropPrefix? (configName ++ ['=']) word with
      | some path =>
        match a.withConfig? path with
        | some a => read a words
        | none => .wrong
      | none =>
        if isOption word then .wrong
        else
          match a.withInput? word with
          | some a => read a words
          | none => .wrong

end Arguments

def Invocation.ofWords (words : List Text) : Invocation := Arguments.read {} words

end Aprs
