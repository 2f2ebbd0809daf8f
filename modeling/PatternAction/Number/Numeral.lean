import PatternAction.Number
import PatternAction.Text.WhiteSpace

namespace PatternAction

-- A decimal fraction: `digits * 10 ^ scale`, with a sign that zero has too.
structure Numeral where
  negative : Bool
  digits : Nat
  scale : Int
deriving DecidableEq

namespace Numeral

def natOfDigits (cs : List Char) : Nat :=
  cs.foldl (fun n c => 10 * n + (c.toNat - '0'.toNat)) 0

def sign : List Char → Bool × List Char
  | '-' :: cs => (true, cs)
  | '+' :: cs => (false, cs)
  | cs => (false, cs)

def exponent? : List Char → Option Int
  | [] => some 0
  | c :: cs =>
    let (negative, digits) := sign cs
    if (c = 'e' ∨ c = 'E') ∧ digits ≠ [] ∧ digits.all Char.isDigit then
      some (if negative then -(natOfDigits digits : Int) else natOfDigits digits)
    else none

-- The fraction digits after a point, and the text after them.
def fraction : List Char → List Char × List Char
  | '.' :: cs => (cs.takeWhile Char.isDigit, cs.dropWhile Char.isDigit)
  | cs => ([], cs)

def ofChars? (cs : List Char) : Option Numeral :=
  let (negative, body) := sign cs
  let whole := body.takeWhile Char.isDigit
  let (places, rest) := fraction (body.dropWhile Char.isDigit)
  if whole = [] ∧ places = [] then none
  else (exponent? rest).map fun e =>
    ⟨negative, natOfDigits (whole ++ places), e - places.length⟩

-- The number nearest to the numeral. Very large and very small ones are told by the size of their
-- scale alone.
def toNumber (n : Numeral) : Number :=
  if n.digits = 0 then .ofUnits n.negative 0
  else match n.scale with
    | .ofNat s =>
      if s < 400 then .ofUnits n.negative (n.digits * 10 ^ s * Number.one)
      else .infinite n.negative
    | .negSucc s =>
      if 3 * s < n.digits.log2 + 2000 then
        .ofRatio n.negative (n.digits * Number.one) (10 ^ (s + 1))
      else .ofUnits n.negative 0

end Numeral

-- The number that a text reads as, if all of it but surrounding white space is a numeral.
def Number.ofString? (s : String) : Option Number :=
  (Numeral.ofChars? (Text.trimList Text.isBlank s.toList)).map Numeral.toNumber

end PatternAction
