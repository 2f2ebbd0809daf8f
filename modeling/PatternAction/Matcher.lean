namespace PatternAction

-- Spans of a text of some size that are in order from a position on, and apart from one another.
inductive Successive (size : Nat) : Nat → List (Nat × Nat) → Prop
  | nil  : Successive size i []
  | cons : i ≤ s → s ≤ e → e ≤ size → Successive size e rest → Successive size i ((s, e) :: rest)

-- Where something is found in texts: all its matches, from left to right, and the first of them.
-- Positions count characters.
structure Matcher where
  spans      : Array Char → List (Nat × Nat)
  find?      : Array Char → Option (Nat × Nat)
  successive : ∀ text, Successive text.size 0 (spans text)
  find?_eq   : ∀ text, find? text = (spans text).head?

def Matcher.isFound (q : Matcher) (text : Array Char) : Bool := (q.find? text).isSome

-- Which texts are patterns, and where these are found. What a program does depends on no more of
-- its patterns than this.
class Patterns where
  matcher? : String → Option Matcher

end PatternAction
