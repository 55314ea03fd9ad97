import Aprs.Text
import Aprs.Text.Unprintable

/-!
A character in single quotes, as error messages show it.
-/

namespace Aprs.Text

/-- Five controls and signs have an escape of their own, other characters that cannot be seen show
their code point in hexadecimal, and all else stands for itself. -/
def escape (c : Char) : Text :=
  match c with
  | '\x00' => ['\\', '0']
  | '\t' => ['\\', 't']
  | '\r' => ['\\', 'r']
  | '\n' => ['\\', 'n']
  | '\'' => ['\\', '\'']
  | '\\' => ['\\', '\\']
  | c =>
    if isUnprintable c then ['\\', 'u', '\x7b'] ++ Nat.toDigits 16 c.toNat ++ ['\x7d']
    else [c]

def quoteChar (c : Char) : Text := '\'' :: escape c ++ ['\'']

end Aprs.Text
