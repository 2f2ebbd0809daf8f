import PatternAction.Pieces

namespace PatternAction

-- The text that a replacement stands for: an ampersand is the matched text, unless a backslash
-- before it takes its meaning away.
def expandReplacement (matched : List Char) : List Char → List Char
  | [] => []
  | '\\' :: '&' :: cs => '&' :: expandReplacement matched cs
  | '&' :: cs => matched ++ expandReplacement matched cs
  | c :: cs => c :: expandReplacement matched cs

-- Replaces the first match in a text, or all of them, and counts all matches.
def substitute (q : Matcher) (replacement text : List Char) (all : Bool) : List Char × Nat :=
  let pieces := q.pieces text
  let expand := fun matched => expandReplacement matched replacement
  (if all then pieces.mapMarked expand else pieces.mapFirst expand, pieces.tail.length)

end PatternAction
