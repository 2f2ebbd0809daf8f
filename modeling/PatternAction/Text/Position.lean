import PatternAction.Number

namespace PatternAction.Text

def indexOf? (needle : List Char) : List Char → Option Nat
  | [] => if needle.isEmpty then some 0 else none
  | c :: cs =>
    if needle.isPrefixOf (c :: cs) then some 0 else (indexOf? needle cs).map (· + 1)

-- A number as a position: its whole part, or zero if it is negative.
def position (n : Number) : Nat := (n.toIntWithin 0 (2 ^ 64 - 1)).toNat

-- The characters from `start` on, up to the position `start + length` if there is a length. A start
-- before the text counts as its beginning.
def substring (cs : List Char) (start : Number) (length : Option Number) : List Char :=
  let start := if start.isNan || start.isNegative then .zero else start
  let first := min (position start) cs.length
  let last := match length with
    | none => cs.length
    | some n =>
      if n.isNan || n.isNegative || n.isZero then first
      else max first (min (position (start.add n)) cs.length)
  (cs.drop first).take (last - first)

end PatternAction.Text
