import PatternAction.Text.Category

namespace PatternAction.Text

-- Lower-case hexadecimal digits without leading zeros.
def hexadecimal (n : Nat) : String := String.ofList (Nat.toDigits 16 n)

-- Whether a character beyond ASCII shows as itself: it is assigned, is no mark that joins its
-- neighbour, and is neither a blank nor invisible.
def isVisible (c : Char) : Bool :=
  match Category.ofChar c with
  | .control | .format | .surrogate | .privateUse | .unassigned
  | .spaceSeparator | .lineSeparator | .paragraphSeparator
  | .nonspacingMark | .enclosingMark => false
  | _ => true

def escaped (c : Char) : String :=
  match c with
  | '"' => "\\\""
  | '\\' => "\\\\"
  | '\n' => "\\n"
  | '\r' => "\\r"
  | '\t' => "\\t"
  | '\x00' => "\\0"
  | c =>
    if (32 ≤ c.toNat && c.toNat < 127) || (127 < c.toNat && isVisible c) then c.toString
    else "\\u\x7b" ++ hexadecimal c.toNat ++ "\x7d"

def quoted (s : String) : String :=
  "\"" ++ String.join (s.toList.map escaped) ++ "\""

end PatternAction.Text
