namespace PatternAction

inductive Builtin
  | print | printf | getline | next | nextfile | exit | gsub | sub | match | index | length
  | split | substr | tolower | toupper
deriving DecidableEq

namespace Builtin

def all : List Builtin :=
  [.print, .printf, .getline, .next, .nextfile, .exit, .gsub, .sub, .match, .index, .length,
   .split, .substr, .tolower, .toupper]

def name : Builtin → String
  | .print => "print"
  | .printf => "printf"
  | .getline => "getline"
  | .next => "next"
  | .nextfile => "nextfile"
  | .exit => "exit"
  | .gsub => "gsub"
  | .sub => "sub"
  | .match => "match"
  | .index => "index"
  | .length => "length"
  | .split => "split"
  | .substr => "substr"
  | .tolower => "tolower"
  | .toupper => "toupper"

def ofName? (name : String) : Option Builtin := all.find? (·.name == name)

def params : Builtin → List String
  | .print | .getline | .next | .nextfile => []
  | .printf => ["format"]
  | .exit => ["code"]
  | .gsub | .sub => ["regexp", "replacement", "target"]
  | .match => ["string", "regexp"]
  | .index => ["in", "find"]
  | .length | .tolower | .toupper => ["string"]
  | .split => ["string", "array", "fieldsep", "seps"]
  | .substr => ["string", "start", "length"]

def required : Builtin → Nat
  | .exit | .length => 0
  | .tolower | .toupper | .printf => 1
  | .gsub | .sub | .split | .substr => 2
  | b => b.params.length

def isVariadic : Builtin → Bool
  | .print | .printf => true
  | _ => false

def accepts (b : Builtin) (count : Nat) : Bool :=
  b.required ≤ count && (b.isVariadic || count ≤ b.params.length)

end Builtin

end PatternAction
