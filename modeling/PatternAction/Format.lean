import PatternAction.Value

namespace PatternAction

-- The part of a directive before its conversion.
structure Directive where
  left : Bool := false
  plus : Bool := false
  space : Bool := false
  alternate : Bool := false
  zero : Bool := false
  width : Nat := 0
  precision : Option Nat := none
deriving DecidableEq

namespace Directive

def flag? (d : Directive) : Char → Option Directive
  | '-' => some { d with left := true }
  | '+' => some { d with plus := true }
  | ' ' => some { d with space := true }
  | '#' => some { d with alternate := true }
  | '0' => some { d with zero := true }
  | _ => none

def flags (d : Directive) : List Char → Directive × List Char
  | [] => (d, [])
  | c :: cs =>
    match d.flag? c with
    | some d' => d'.flags cs
    | none => (d, c :: cs)

-- A count written in digits; zero if there are none or it does not fit 64 bits.
def count (cs : List Char) : Nat :=
  let n := Numeral.natOfDigits cs
  if n < 2 ^ 64 then n else 0

def scan (cs : List Char) : Directive × List Char :=
  let (d, cs) := flags {} cs
  let d := { d with width := count (cs.takeWhile Char.isDigit) }
  match cs.dropWhile Char.isDigit with
  | '.' :: cs =>
    ({ d with precision := some (count (cs.takeWhile Char.isDigit)) }, cs.dropWhile Char.isDigit)
  | cs => (d, cs)

theorem length_flags (d : Directive) (cs : List Char) : (d.flags cs).2.length ≤ cs.length := by
  fun_induction flags d cs with
  | case1 => simp
  | case2 d c cs d' _ ih => exact Nat.le_succ_of_le ih
  | case3 => simp

theorem length_scan (cs : List Char) : (scan cs).2.length ≤ cs.length := by
  have flags := length_flags {} cs
  have width := (List.dropWhile_suffix Char.isDigit (l := (Directive.flags {} cs).2)).length_le
  unfold scan
  simp only
  split
  · rename_i rest h
    rw [h] at width
    have places := (List.dropWhile_suffix Char.isDigit (l := rest)).length_le
    simp only [List.length_cons] at width ⊢
    omega
  · exact Nat.le_trans width flags

def sign (d : Directive) (n : Number) : List Char :=
  if n.isNegative then ['-'] else if d.plus then ['+'] else if d.space then [' '] else []

-- Fills up to the width: with spaces after the text, with zeros after its sign if it is numeric, or
-- with spaces before it.
def pad (d : Directive) (numeric : Bool) (cs : List Char) : List Char :=
  let fill := d.width - cs.length
  if d.left then cs ++ List.replicate fill ' '
  else if d.zero && numeric then
    match cs with
    | c :: rest =>
      if c = '-' ∨ c = '+' ∨ c = ' ' then c :: (List.replicate fill '0' ++ rest)
      else List.replicate fill '0' ++ c :: rest
    | [] => List.replicate fill '0'
  else List.replicate fill ' ' ++ cs

def fixed (places : Nat) : Number → List Char
  | .nan => "NaN".toList
  | .infinite _ => "inf".toList
  | .finite _ size => Number.fixed places size.units

def scientific (places : Nat) (mark : Char) : Number → List Char
  | .nan => "NaN".toList ++ Number.exponentText mark 0
  | .infinite _ => "inf".toList ++ Number.exponentText mark 0
  | .finite _ size =>
    let (m, e) := Number.significant places size.units
    Number.pointed places m ++ Number.exponentText mark e

-- A size with `precision` significant digits, in the notation that suits its exponent. Zeros that
-- end the fraction are kept only in the alternate form.
def general (precision : Nat) (alternate : Bool) (mark : Char) : Number → List Char
  | .finite negative size =>
    let trim := if alternate then id else Number.trimFraction
    let (m, e) := Number.significant (precision - 1) size.units
    if e < -4 ∨ precision ≤ e then
      trim (Number.pointed (precision - 1) m) ++ Number.exponentText mark e
    else trim (fixed (precision - 1 - e).toNat (.finite negative size))
  | n => fixed 0 n

def based (d : Directive) (base : Nat) (mark : String) (upper : Bool) (n : Number) : List Char :=
  let whole := (n.toIntWithin (-2 ^ 63) (2 ^ 63 - 1) % 2 ^ 64).toNat
  let ds := Number.digits base whole
  let ds := if upper then ds.map Char.toUpper else ds
  if d.alternate ∧ whole ≠ 0 then mark.toList ++ ds else ds

def charOfCode (n : Number) : List Char :=
  let code := (n.toIntWithin 0 (2 ^ 32 - 1)).toNat
  if Nat.isValidChar code then [Char.ofNat code] else []

def render (d : Directive) (conversion : Char) (v : Value) : List Char :=
  let n := v.number
  match conversion with
  | 's' =>
    d.pad false (match d.precision with
      | some p => v.text.toList.take p
      | none => v.text.toList)
  | 'c' =>
    d.pad false (match v.number? with
      | some n => charOfCode n
      | none => v.text.toList.take 1)
  | 'd' | 'i' =>
    let n := n.trunc
    d.pad true (d.sign n ++ Number.digits 10 (n.abs.toIntWithin 0 (2 ^ 63 - 1)).toNat)
  | 'o' => d.pad true (d.based 8 "0" false n)
  | 'x' => d.pad true (d.based 16 "0x" false n)
  | 'X' => d.pad true (d.based 16 "0X" true n)
  | 'f' | 'F' => d.pad true (d.sign n ++ fixed (d.precision.getD 6) n.abs)
  | 'e' => d.pad true (d.sign n ++ scientific (d.precision.getD 6) 'e' n.abs)
  | 'E' => d.pad true (d.sign n ++ scientific (d.precision.getD 6) 'E' n.abs)
  | 'g' => d.pad true (d.sign n ++ general (max 1 (d.precision.getD 6)) d.alternate 'e' n.abs)
  | 'G' => d.pad true (d.sign n ++ general (max 1 (d.precision.getD 6)) d.alternate 'E' n.abs)
  | other => ['%', other]

end Directive

-- The text of a format with its arguments; a missing one counts as empty. A percent sign whose
-- directive breaks off stands for itself and ends the text.
def formatChars : List Char → List Value → List Char
  | [], _ => []
  | c :: cs, args =>
    if c ≠ '%' then c :: formatChars cs args
    else if cs.head? = some '%' then '%' :: formatChars cs.tail args
    else match _h : Directive.scan cs with
      | (_, []) => ['%']
      | (d, conversion :: rest) =>
        d.render conversion (args.headD .empty) ++ formatChars rest args.tail
termination_by cs => cs.length
decreasing_by
  · simp
  · simp only [List.length_tail, List.length_cons]
    omega
  · have := Directive.length_scan cs
    rw [_h] at this
    simp only [List.length_cons] at this ⊢
    omega

def format (s : String) (args : List Value) : String :=
  String.ofList (formatChars s.toList args)

end PatternAction
