import PatternAction.Matcher

namespace PatternAction

-- A plain stretch, then marked and plain stretches by turns.
structure Pieces where
  head : List Char
  tail : List (List Char × List Char)
deriving DecidableEq

namespace Pieces

def plain (p : Pieces) : List (List Char) := p.head :: p.tail.map Prod.snd

def marked (p : Pieces) : List (List Char) := p.tail.map Prod.fst

-- The whole text, with each marked stretch changed by `f`.
def mapMarked (f : List Char → List Char) (p : Pieces) : List Char :=
  p.head ++ p.tail.flatMap fun (m, t) => f m ++ t

def join (p : Pieces) : List Char := p.mapMarked id

-- The text with the first marked stretch changed by `f`.
def mapFirst (f : List Char → List Char) (p : Pieces) : List Char :=
  match p.tail with
  | [] => p.head
  | (m, t) :: rest => p.head ++ f m ++ join ⟨t, rest⟩

def cons (c : Char) (p : Pieces) : Pieces := ⟨c :: p.head, p.tail⟩

-- Cuts a text, of which the part before position `i` is left out, at spans of positions.
def ofSpans (text : Array Char) : Nat → List (Nat × Nat) → Pieces
  | i, [] => ⟨(text.extract i text.size).toList, []⟩
  | i, (s, e) :: rest =>
    let p := ofSpans text e rest
    ⟨(text.extract i s).toList, ((text.extract s e).toList, p.head) :: p.tail⟩

-- Marks each character that satisfies `isMark`; next to one another they form one stretch if `runs`
-- is set.
def ofMarks (isMark : Char → Bool) (runs : Bool) : List Char → Pieces
  | [] => ⟨[], []⟩
  | c :: cs =>
    let p := ofMarks isMark runs cs
    if isMark c then
      match runs, p with
      | true, ⟨[], (m, t) :: rest⟩ => ⟨[], (c :: m, t) :: rest⟩
      | _, p => ⟨[], ([c], p.head) :: p.tail⟩
    else p.cons c

end Pieces

def Matcher.pieces (q : Matcher) (cs : List Char) : Pieces :=
  .ofSpans cs.toArray 0 (q.spans cs.toArray)

end PatternAction
