import Aprs.Text

/-!
White space: the characters that make a field or a line count as blank.
-/

namespace Aprs.Text

/-- The twenty-five characters with the Unicode property White_Space. -/
def isBlank (c : Char) : Bool :=
  between '\t' '\r' c || c == ' ' || c == '\u0085' || c == '\u00a0' || c == '\u1680' ||
    between '\u2000' '\u200a' c || c == '\u2028' || c == '\u2029' || c == '\u202f' ||
    c == '\u205f' || c == '\u3000'

def allBlank (t : Text) : Bool := t.all isBlank

end Aprs.Text
