import PatternAction.Number

namespace PatternAction.Number

def digits (base n : Nat) : List Char := Nat.toDigits base n

def paddedDigits (width n : Nat) : List Char :=
  let ds := digits 10 n
  List.replicate (width - ds.length) '0' ++ ds

-- A whole number of units of 10 to the minus `places`, with a point if there are places.
def pointed (places n : Nat) : List Char :=
  if places = 0 then digits 10 n
  else digits 10 (n / 10 ^ places) ++ '.' :: paddedDigits places (n % 10 ^ places)

-- Removes the zeros that end a fraction, and the point if nothing is left after it.
def trimFraction (cs : List Char) : List Char :=
  if cs.contains '.' then
    ((cs.reverse.dropWhile (· = '0')).dropWhile (· = '.')).reverse
  else cs

-- A size in whole multiples of 10 to the minus `places`, rounded.
def scaled (places units : Nat) : Nat := roundQuotient (units * 10 ^ places) one

def fixed (places units : Nat) : List Char := pointed places (scaled places units)

-- The greatest `e` with `10 ^ e` at most the size, which is not zero. No size is below `10 ^ -400`.
def decimalExponent (units : Nat) : Int :=
  (digits 10 (units * 10 ^ 400 / one)).length - 401

-- A size rounded to `places + 1` significant digits: the digits as a whole number, and the decimal
-- exponent of the first.
def significant (places units : Nat) : Nat × Int :=
  if units = 0 then (0, 0)
  else
    let e := decimalExponent units
    let m := match (places : Int) - e with
      | .ofNat s => roundQuotient (units * 10 ^ s) one
      | .negSucc s => roundQuotient units (one * 10 ^ (s + 1))
    if m = 10 ^ (places + 1) then (10 ^ places, e + 1) else (m, e)

-- The exponent part of scientific notation: a sign and at least two digits.
def exponentText (mark : Char) (e : Int) : List Char :=
  mark :: (if e < 0 then '-' else '+') :: paddedDigits 2 e.natAbs

-- Five places after the point at most, without superfluous zeros; zero has no sign.
def canonical : Number → String
  | nan => "nan"
  | infinite negative => if negative then "-inf" else "inf"
  | finite negative size =>
    let n := scaled 5 size.units
    let body := trimFraction (pointed 5 n)
    String.ofList (if negative && n ≠ 0 then '-' :: body else body)

end PatternAction.Number
