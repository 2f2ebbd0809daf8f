import PatternAction.Pattern
import PatternAction.Text.Category
import PatternAction.Text.Property
import PatternAction.Text.Script

namespace PatternAction

namespace CharSet

def range (lo hi : Char) : CharSet := fun c => lo ≤ c && c ≤ hi

def single (c : Char) : CharSet := fun d => d = c

def union (a b : CharSet) : CharSet := fun c => a c || b c

def inter (a b : CharSet) : CharSet := fun c => a c && b c

def diff (a b : CharSet) : CharSet := fun c => a c && !b c

def symmDiff (a b : CharSet) : CharSet := fun c => a c != b c

def compl (a : CharSet) : CharSet := fun c => !a c

def folded (a : CharSet) : CharSet := fun c => (Text.caseRelatives c).any a

-- The ASCII letters that differ from a member in case alone, and the members.
def foldedAscii (a : CharSet) : CharSet := fun c => a c || a c.toLower || a c.toUpper

def digit : CharSet := fun c =>
  if c.toNat < 128 then c.isDigit else Text.Category.ofChar c = .decimalNumber

-- The characters of words: letters, marks, decimal digits, connectors and the two joiners.
def word : CharSet := fun c =>
  if c.toNat < 128 then c.isAlphanum || c = '_'
  else Text.isAlphabetic c || c = '\u200c' || c = '\u200d' ||
    match Text.Category.ofChar c with
    | .nonspacingMark | .spacingMark | .enclosingMark | .decimalNumber
    | .connectorPunctuation => true
    | _ => false

def asciiWord : CharSet := fun c => c.isAlphanum || c = '_'

def asciiBlank : CharSet := fun c => (9 ≤ c.toNat && c.toNat ≤ 13) || c = ' '

def posix? : String → Option CharSet
  | "alnum" => some Char.isAlphanum
  | "alpha" => some Char.isAlpha
  | "ascii" => some fun c => c.toNat < 128
  | "blank" => some fun c => c = ' ' || c = '\t'
  | "cntrl" => some fun c => c.toNat < 32 || c.toNat = 127
  | "digit" => some Char.isDigit
  | "graph" => some (range '!' '~')
  | "lower" => some Char.isLower
  | "print" => some (range ' ' '~')
  | "punct" => some fun c => range '!' '~' c && !c.isAlphanum
  | "space" => some asciiBlank
  | "upper" => some Char.isUpper
  | "word" => some asciiWord
  | "xdigit" => some fun c => c.isDigit || range 'a' 'f' c || range 'A' 'F' c
  | _ => none

-- A name in small letters, without the word breaks and the leading `is` that do not tell names
-- apart.
def looseName (name : String) : String :=
  let loose (cs : List Char) : String := String.ofList
    ((cs.filter fun c => !(c = ' ' || c = '_' || c = '-') && c.toNat < 128).map Char.toLower)
  match name.toList with
  | a :: b :: rest =>
    if a.toLower = 'i' ∧ b.toLower = 's' then
      if loose rest = "c" then "isc" else loose rest
    else loose (a :: b :: rest)
  | cs => loose cs

def category? (name : String) : Option CharSet :=
  let group? := match name with
    | "c" | "other" => some "C"
    | "l" | "letter" => some "L"
    | "m" | "mark" | "combiningmark" => some "M"
    | "n" | "number" => some "N"
    | "p" | "punctuation" | "punct" => some "P"
    | "s" | "symbol" => some "S"
    | "z" | "separator" => some "Z"
    | _ => none
  match group?, name with
  | some major, _ => some fun c => (Text.Category.ofChar c).major == major
  | none, "any" => some fun _ => true
  | none, "assigned" => some fun c => Text.Category.ofChar c ≠ .unassigned
  | none, "ascii" => some fun c => c.toNat < 128
  | none, "lc" | none, "casedletter" => some fun c =>
    match Text.Category.ofChar c with
    | .uppercaseLetter | .lowercaseLetter | .titlecaseLetter => true
    | _ => false
  | none, "digit" => some fun c => Text.Category.ofChar c = .decimalNumber
  | none, "cntrl" => some fun c => Text.Category.ofChar c = .control
  | none, name =>
    (Text.Category.all.find? fun g =>
      looseName g.abbreviation == name || looseName g.fullName == name).map
      fun g c => Text.Category.ofChar c = g

def script? (name : String) : Option CharSet :=
  (Text.Script.find? (looseName · == name)).map fun i c => Text.Script.ofChar c = i

def named? (name : String) : Option CharSet :=
  let name := looseName name
  (Text.property? name).or ((category? name).or (script? name))

-- Of the properties with values only categories and scripts are known, and script extensions are
-- read as scripts.
def valued? (property value : String) : Option CharSet :=
  match looseName property with
  | "gc" | "generalcategory" => category? (looseName value)
  | "sc" | "script" | "scx" | "scriptextensions" => script? (looseName value)
  | _ => none

end CharSet

end PatternAction
