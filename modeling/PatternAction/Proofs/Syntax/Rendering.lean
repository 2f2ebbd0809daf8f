import PatternAction.Program.Level
import PatternAction.Proofs.Syntax.Tree

namespace PatternAction

namespace Level

def rank : Level → Nat
  | assignment     => 0
  | conditional    => 1
  | disjunction    => 2
  | conjunction    => 3
  | membership     => 4
  | matching       => 5
  | comparison     => 6
  | concatenation  => 7
  | additive       => 8
  | multiplicative => 9
  | power          => 10
  | unary          => 11
  | suffix         => 12
  | field          => 13
  | primary        => 14

end Level

namespace BinaryOp

def level : BinaryOp → Level
  | or                                                   => .disjunction
  | and                                                  => .conjunction
  | comparison _                                         => .comparison
  | concat                                               => .concatenation
  | arithmetic .add | arithmetic .sub                    => .additive
  | arithmetic .mul | arithmetic .div | arithmetic .mod  => .multiplicative
  | arithmetic .pow                                      => .power

-- Comparisons do not group, and powers group to the right.
def leftLevel (op : BinaryOp) : Level :=
  match op.level with
  | .comparison | .power => op.level.tighter
  | l                    => l

def rightLevel (op : BinaryOp) : Level :=
  match op.level with
  | .power => .power
  | l      => l.tighter

-- The operands of a concatenation stand side by side.
def symbol? : BinaryOp → Option Symbol
  | or              => some .or
  | and             => some .and
  | comparison .lt  => some .less
  | comparison .le  => some .lessEqual
  | comparison .gt  => some .greater
  | comparison .ge  => some .greaterEqual
  | comparison .eq  => some .equal
  | comparison .ne  => some .notEqual
  | arithmetic .add => some .plus
  | arithmetic .sub => some .minus
  | arithmetic .mul => some .star
  | arithmetic .div => some .slash
  | arithmetic .mod => some .percent
  | arithmetic .pow => some .caret
  | concat          => none

end BinaryOp

def UnaryOp.symbol : UnaryOp → Symbol
  | not => .not
  | neg => .minus
  | pos => .plus

namespace Step

def symbol : Step → Symbol
  | preIncrement | postIncrement => .increment
  | preDecrement | postDecrement => .decrement

def isBefore : Step → Bool
  | preIncrement | preDecrement   => true
  | postIncrement | postDecrement => false

end Step

namespace Keyword

-- The keyword that calls a function, if its calls are not written with a word.
def calling? : String → Option Keyword
  | "print"    => some .print
  | "printf"   => some .printf
  | "getline"  => some .getline
  | "next"     => some .next
  | "nextfile" => some .nextfile
  | "exit"     => some .exit
  | _          => none

end Keyword

namespace Expr

-- The level of the outermost construct of an expression.
def level : Expr → Level
  | constant .. | pattern .. | name .. | element .. | call .. => .primary
  | field ..         => .field
  | step op ..       => if op.isBefore then .unary else .suffix
  | unary ..         => .unary
  | binary op ..     => op.level
  | search ..        => .matching
  | member ..        => .membership
  | conditional ..   => .conditional
  | assign ..        => .assignment

def isExit : Expr → Bool
  | call function .. => function = "exit"
  | _                => false

def isJoin : Expr → Bool
  | binary .concat .. => true
  | _                 => false

-- Whether an expression stands without parentheses where a level is asked for. An `exit` takes
-- all that follows it for its argument, so it never does.
def fits (e : Expr) (l : Level) : Bool :=
  !e.isExit && l.rank ≤ e.level.rank

end Expr

namespace Kind

def enclosed (ks : List Kind) : List Kind :=
  symbol .leftParen :: (ks ++ [symbol .rightParen])

def placed (fits : Bool) (ks : List Kind) : List Kind :=
  if fits then ks else enclosed ks

end Kind

namespace Expr

open Kind (placed enclosed)

-- Which constants are written as numbers makes no difference to the reader of the tokens.
variable (numeral : String → Bool)

mutual

-- The tokens of an expression where nothing asks for parentheses around it.
def tokens : Expr → List Kind
  | constant text _ => [if numeral text then .number text else .string text]
  | pattern source _ => [.pattern source]
  | name x _ => [.word x]
  | element array index _ =>
    .word array :: .symbol .leftBracket ::
      (placed (index.fits .assignment) index.tokens ++ [.symbol .rightBracket])
  | field index _ => .symbol .dollar :: placed (index.fits .field) index.tokens
  | binary op left right _ =>
    match op.symbol? with
    | some s =>
      placed (left.fits op.leftLevel) left.tokens ++
        .symbol s :: placed (right.fits op.rightLevel) right.tokens
    | none => placed left.isJoin left.tokens ++ enclosed right.tokens
  | unary op operand _ => .symbol op.symbol :: placed (operand.fits .unary) operand.tokens
  | assign target value _ =>
    placed (target.fits .conditional) target.tokens ++
      .symbol .assign :: placed (value.fits .assignment) value.tokens
  | step op target _ =>
    if op.isBefore then .symbol op.symbol :: placed (target.fits .unary) target.tokens
    else placed (target.fits .field) target.tokens ++ [.symbol op.symbol]
  | conditional test yes no _ =>
    placed (test.fits .disjunction) test.tokens ++
      .symbol .question :: (placed (yes.fits .assignment) yes.tokens ++
        .symbol .colon :: placed (no.fits .conditional) no.tokens)
  | call function args _ =>
    match Keyword.calling? function with
    | some k => .keyword k :: listTokens args
    | none   => .word function :: .symbol .leftParen :: (listTokens args ++ [.symbol .rightParen])
  | member key array _ =>
    placed (key.fits .membership) key.tokens ++
      .keyword .in :: placed (array.fits .primary) array.tokens
  | search subject source negated _ =>
    placed (subject.fits .comparison) subject.tokens ++
      [.symbol (if negated then .notMatches else .matches), .pattern source]

def listTokens : List Expr → List Kind
  | []        => []
  | [e]       => placed (e.fits .assignment) e.tokens
  | e :: rest => placed (e.fits .assignment) e.tokens ++ .symbol .comma :: listTokens rest

end

-- The tokens of an expression where a level is asked for.
def tokensAt (l : Level) (e : Expr) : List Kind :=
  placed (e.fits l) (e.tokens numeral)

def rendering (e : Expr) : List Kind :=
  e.tokensAt numeral .assignment

-- The calls and names that have tokens of their own: a call with a keyword takes the arguments
-- that the keyword does, and `length` alone is a call.
def isRegular : Expr → Bool
  | name x _ => x ≠ "length"
  | call function args _ =>
    match Keyword.calling? function with
    | none                  => true
    | some .print           => false
    | some .printf          => false
    | some .exit            => args.length ≤ 1
    | some _                => args.isEmpty
  | step op target _ => op.isBefore || target.isTarget
  | _ => true

def isWritable (e : Expr) : Bool :=
  e.all isRegular

end Expr

end PatternAction
