import PatternAction.Pieces
import PatternAction.Text.WhiteSpace

namespace PatternAction

inductive Separator
  -- Runs of white space; white space around the text does not count.
  | blanks
  -- Nothing: every character is a field.
  | nothing
  | char (c : Char)
  -- Non-empty matches of a pattern.
  | pattern (q : Matcher)

namespace Separator

def ofString? [Patterns] (s : String) : Option Separator :=
  match s.toList with
  | [] => some .nothing
  | [c] => some (if c = ' ' then .blanks else .char c)
  | _ => (Patterns.matcher? s).map .pattern

-- The fields of a text that is not empty, and what stands between them.
def split (sep : Separator) (cs : List Char) : List (List Char) × List (List Char) :=
  match sep with
  | .nothing => (cs.map ([·]), [])
  | .blanks =>
    let p := Pieces.ofMarks Text.isBlank true cs
    (p.plain, p.marked)
  | .char c =>
    let p := Pieces.ofMarks (· = c) false cs
    (p.plain, p.marked)
  | .pattern q =>
    let text := cs.toArray
    let p := Pieces.ofSpans text 0 ((q.spans text).filter fun (s, e) => s ≠ e)
    (p.plain, p.marked)

end Separator

-- The fields of a text and the separators between them. An empty text has none, whatever the
-- separator; otherwise a separator that should be a pattern and is not gives nothing.
def splitText? [Patterns] (text sep : String) : Option (List String × List String) :=
  let cs := if sep = " " then Text.trimList Text.isBlank text.toList else text.toList
  if cs = [] then some ([], [])
  else (Separator.ofString? sep).map fun s =>
    let (fields, separators) := s.split cs
    (fields.map String.ofList, separators.map String.ofList)

end PatternAction
