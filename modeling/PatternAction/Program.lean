import PatternAction.Location

namespace PatternAction

inductive Arithmetic
  | add | sub | mul | div | mod | pow
deriving DecidableEq

inductive Comparison
  | lt | le | gt | ge | eq | ne
deriving DecidableEq

inductive BinaryOp
  | arithmetic (op : Arithmetic)
  | comparison (op : Comparison)
  | and | or | concat
deriving DecidableEq

inductive UnaryOp
  | neg | pos | not
deriving DecidableEq

-- The four operators that move a target by one. The first two yield its new value, the others its
-- old one.
inductive Step
  | preIncrement | preDecrement | postIncrement | postDecrement
deriving DecidableEq

inductive Expr
  -- A number or string literal, kept as its text.
  | constant (text : String) (location : Location)
  | pattern (source : String) (location : Location)
  | name (name : String) (location : Location)
  | element (array : String) (index : Expr) (location : Location)
  | field (index : Expr) (location : Location)
  | binary (op : BinaryOp) (left right : Expr) (location : Location)
  | unary (op : UnaryOp) (operand : Expr) (location : Location)
  | assign (target value : Expr) (location : Location)
  | step (op : Step) (target : Expr) (location : Location)
  | conditional (condition yes no : Expr) (location : Location)
  | call (function : String) (args : List Expr) (location : Location)
  | member (key array : Expr) (location : Location)
  -- Whether a pattern is found in a text, or is not.
  | search (subject : Expr) (pattern : String) (negated : Bool) (location : Location)

namespace Expr

def location : Expr → Location
  | constant _ l | pattern _ l | name _ l | element _ _ l | field _ l | binary _ _ _ l
  | unary _ _ l | assign _ _ l | step _ _ l | conditional _ _ _ l | call _ _ l | member _ _ l
  | search _ _ _ l => l

def plainName? : Expr → Option String
  | name n _ => some n
  | _ => none

-- Whether a value can be stored here.
def isTarget : Expr → Bool
  | name _ _ | element _ _ _ | field _ _ => true
  | _ => false

end Expr

mutual

inductive Stmt
  | expr (e : Expr)
  | if (b : Branch)
  | while (condition : Expr) (body : Block) (location : Location)
  | doWhile (body : Block) (condition : Expr) (location : Location)
  | for (init condition update : Option Expr) (body : Block) (location : Location)
  | forIn (var array : String) (body : Block) (location : Location)
  | break (location : Location)
  | continue (location : Location)
  | return (value : Option Expr) (location : Location)
  | delete (array : String) (index : Option Expr) (location : Location)

inductive Branch
  | mk (condition : Expr) (action : Block) (otherwise : Otherwise) (location : Location)

inductive Otherwise
  | nothing
  | block (b : Block)
  | branch (b : Branch)

inductive Block
  | mk (statements : List Stmt) (location : Location)

end

namespace Block

def statements : Block → List Stmt
  | mk statements _ => statements

def location : Block → Location
  | mk _ location => location

end Block

structure Rule where
  condition : Option Expr
  action : Block

-- A function. Its parameters are expressions; a call refuses all but plain names.
structure Function where
  name : String
  params : List Expr
  body : Block
  location : Location

structure Program where
  begins : List Block := []
  ends : List Block := []
  rules : List Rule := []
  functions : List Function := []

namespace Program

-- Of two functions of one name the later one counts.
def function? (p : Program) (name : String) : Option Function :=
  p.functions.findRev? (·.name == name)

theorem mem_of_function? {p : Program} {name : String} {f : Function}
    (h : p.function? name = some f) : f ∈ p.functions := by
  rw [function?, List.findRev?_eq_find?_reverse] at h
  exact List.mem_reverse.mp (List.mem_of_find?_eq_some h)

end Program

end PatternAction
