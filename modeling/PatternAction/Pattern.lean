namespace PatternAction

abbrev CharSet := Char → Bool

inductive Pattern
  | empty
  | one (s : CharSet)
  -- Nothing, between two characters that suit; there is none before a text or after it.
  | look (holds : Option Char → Option Char → Bool)
  | seq (first second : Pattern)
  | alt (left right : Pattern)
  -- At least `min` rounds, and at most `max` if there is a bound.
  | repeated (min : Nat) (max : Option Nat) (greedy : Bool) (body : Pattern)

namespace Pattern

def distinct (ps : List Nat) : List Nat := go 0 ps
where
  -- The bits of `seen` tell the numbers met before.
  go (seen : Nat) : List Nat → List Nat
    | [] => []
    | p :: ps => if seen.testBit p then go seen ps else p :: go (seen ||| 1 <<< p) ps

def times (step : Nat → List Nat) : Nat → Nat → List Nat
  | 0, i => [i]
  | n + 1, i => distinct ((step i).flatMap (times step n))

def atMost (step : Nat → List Nat) (greedy : Bool) : Nat → Nat → List Nat
  | 0, i => [i]
  | n + 1, i =>
    let more := (step i).flatMap (atMost step greedy n)
    distinct (if greedy then more ++ [i] else i :: more)

-- Adds to `found`, worst first, the positions after one round or more begun at `i`. No round is
-- begun twice at one position; the bits of the second component tell where rounds have begun. The
-- number bounds the rounds in a row.
def rounds (step : Nat → List Nat) (greedy : Bool) : Nat → List Nat × Nat → Nat → List Nat × Nat
  | 0, state, _ => state
  | n + 1, (found, begun), i =>
    if begun.testBit i then (found, begun)
    else (step i).foldl (fun state j =>
      if greedy then
        let (found, begun) := rounds step greedy n state j
        (j :: found, begun)
      else rounds step greedy n (j :: state.1, state.2) j) (found, begun ||| 1 <<< i)

-- The positions after one round or more, in a text of the given size.
def oneOrMore (step : Nat → List Nat) (greedy : Bool) (size i : Nat) : List Nat :=
  distinct (rounds step greedy (size + 2) ([], 0) i).1.reverse

-- Where a match begun at a position can end, best first: the left alternative before the right one,
-- more rounds of a greedy repetition before fewer.
def ends (text : Array Char) : Pattern → Nat → List Nat
  | empty, i => [i]
  | one s, i => if text[i]?.any s then [i + 1] else []
  | look holds, i =>
    let before := if i = 0 then none else text[i - 1]?
    if holds before text[i]? then [i] else []
  | seq p q, i => distinct ((ends text p i).flatMap (ends text q))
  | alt p q, i => distinct (ends text p i ++ ends text q i)
  | repeated 0 none greedy p, i =>
    let more := oneOrMore (ends text p) greedy text.size i
    distinct (if greedy then more ++ [i] else i :: more)
  | repeated (n + 1) none greedy p, i =>
    distinct ((times (ends text p) n i).flatMap (oneOrMore (ends text p) greedy text.size))
  | repeated n (some m) greedy p, i =>
    distinct ((times (ends text p) n i).flatMap (atMost (ends text p) greedy (m - n)))

def search (p : Pattern) (text : Array Char) : Nat → Nat → Option (Nat × Nat)
  | 0, _ => none
  | n + 1, i =>
    match ends text p i with
    | j :: _ => some (i, j)
    | [] => search p text n (i + 1)

def findFrom (p : Pattern) (text : Array Char) (i : Nat) : Option (Nat × Nat) :=
  p.search text (text.size + 1 - i) i

-- The successive matches from `i` on, of which there are at most `n`. An empty match right at the
-- end of the one before, which was at `i` if `again` is set, does not count.
def spansFrom (p : Pattern) (text : Array Char) : Nat → Bool → Nat → List (Nat × Nat)
  | 0, _, _ => []
  | n + 1, again, i =>
    let found := match p.findFrom text i with
      | some (s, e) => if again ∧ s = e ∧ e = i then p.findFrom text (i + 1) else some (s, e)
      | none => none
    match found with
    | some (s, e) => (s, e) :: spansFrom p text n true e
    | none => []

def spans (p : Pattern) (text : Array Char) : List (Nat × Nat) :=
  p.spansFrom text (text.size + 2) false 0

def find? (p : Pattern) (text : Array Char) : Option (Nat × Nat) := p.findFrom text 0

end Pattern

end PatternAction
