import PatternAction.Number.Decimal
import PatternAction.Number.Numeral

namespace PatternAction

-- A text, which counts as a number when it reads as one.
structure Value where
  text : String
deriving DecidableEq

namespace Value

instance : Inhabited Value := ⟨⟨""⟩⟩

def empty : Value := ⟨""⟩

-- What a name or an element that was never stored reads as.
def unset : Value := ⟨"0"⟩

def ofNumber (n : Number) : Value := ⟨n.canonical⟩

def ofNat (n : Nat) : Value := ofNumber (.ofNat n)

def ofBool (b : Bool) : Value := ⟨if b then "1" else "0"⟩

def number? (v : Value) : Option Number := Number.ofString? v.text

def number (v : Value) : Number := v.number?.getD .zero

-- Every value is true but those that read as zero.
def isTrue (v : Value) : Bool := !(v.number?.any Number.isZero)

def compareText (a b : String) : Ordering :=
  if a < b then .lt else if a = b then .eq else .gt

-- Two values that both read as numbers are ordered as numbers, any others as texts.
def compare (a b : Value) : Ordering :=
  match a.number?, b.number? with
  | some x, some y => (x.compare? y).getD .eq
  | _, _ => compareText a.text b.text

end Value

end PatternAction
