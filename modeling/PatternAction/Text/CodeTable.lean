namespace PatternAction.Text

-- The decimal numbers written in a text, in order; any other character ends a number.
def numbers (text : String) : Array Nat :=
  let finish (found : Array Nat) (pending : Option Nat) : Array Nat :=
    match pending with
    | some n => found.push n
    | none => found
  let (found, pending) := text.foldl (fun (found, pending) c =>
    if c.isDigit then (found, some (pending.getD 0 * 10 + (c.toNat - '0'.toNat)))
    else (finish found pending, none)) (#[], none)
  finish found pending

-- How many of the rising `bounds` with index in `[lo, hi)` are at most `x`, plus `lo`.
def rank (bounds : Array Nat) (x lo hi : Nat) : Nat :=
  if lo < hi then
    let mid := (lo + hi) / 2
    if (bounds.getD mid 0) ≤ x then rank bounds x (mid + 1) hi else rank bounds x lo mid
  else lo
termination_by hi - lo

-- A set of characters, as the rising code points at which membership changes.
structure CodeSet where
  bounds : Array Nat

namespace CodeSet

-- The set whose runs of non-members and members alternate with the written lengths.
def ofRuns (text : String) : CodeSet where
  bounds := ((numbers text).foldl (fun (bounds, last) n => (bounds.push (last + n), last + n))
    (#[], 0)).1

-- A character belongs when an odd number of changes lies at or before it.
def contains (s : CodeSet) (c : Char) : Bool :=
  rank s.bounds c.toNat 0 s.bounds.size % 2 == 1

end CodeSet

-- Sends `first + i * step` to `image + i * step` for each `i < count`.
structure Shift where
  first : Nat
  image : Nat
  count : Nat
  step : Nat

namespace Shift

def ofText (text : String) : List Shift :=
  go (numbers text).toList
where
  go : List Nat → List Shift
    | first :: image :: count :: step :: rest => ⟨first, image, count, step⟩ :: go rest
    | _ => []

def image? (s : Shift) (n : Nat) : Option Nat :=
  if s.first ≤ n ∧ (n - s.first) % s.step = 0 ∧ (n - s.first) / s.step < s.count then
    some (s.image + (n - s.first))
  else none

-- The code point that the shift sends to `n`.
def source? (s : Shift) (n : Nat) : Option Nat :=
  image? ⟨s.image, s.first, s.count, s.step⟩ n

end Shift

end PatternAction.Text
