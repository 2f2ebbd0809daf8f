import PatternAction.Program.Level

namespace PatternAction

inductive Expected
  | expression | functionName | parenAfterFunctionName | endOfParameters | endOfBlock
  | parenAfterIf | parenAfterIfCondition | parenAfterWhile | parenAfterWhileCondition
  | parenAfterFor | arrayAfterIn | parenAfterForIn | separatorAfterInit
  | separatorAfterForCondition | parenAfterForHeader | whileAfterDo | arrayAfterDelete
  | endOfDeleteIndex | endOfArguments | colon | endOfParentheses | endOfIndex
deriving DecidableEq

def Expected.text : Expected → String
  | .expression => "expression"
  | .functionName => "function name"
  | .parenAfterFunctionName => "'(' after function name"
  | .endOfParameters => "')' to close the parameter list"
  | .endOfBlock => "'\x7d' to close the block"
  | .parenAfterIf => "'(' after 'if'"
  | .parenAfterIfCondition => "')' after the if condition"
  | .parenAfterWhile => "'(' after 'while'"
  | .parenAfterWhileCondition => "')' after the while condition"
  | .parenAfterFor => "'(' after 'for'"
  | .arrayAfterIn => "array name after 'in'"
  | .parenAfterForIn => "')' after the for-in header"
  | .separatorAfterInit => "';' after the for initializer"
  | .separatorAfterForCondition => "';' after the for condition"
  | .parenAfterForHeader => "')' after the for header"
  | .whileAfterDo => "'while' after the do body"
  | .arrayAfterDelete => "array name after 'delete'"
  | .endOfDeleteIndex => "']' after the delete index"
  | .endOfArguments => "')' to close the argument list"
  | .colon => "':' in conditional expression"
  | .endOfParentheses => "')' to close the parenthesized expression"
  | .endOfIndex => "']' after the array index"

inductive SyntacticCause
  | expected (what : Expected) (found : Kind)
  | missingStatement
  | redefined (function : String)
  | patternNeeded
  | formatNeeded
  | unfinishedPrint (found : Kind)
  | tooDeep
deriving DecidableEq

def SyntacticCause.message : SyntacticCause → String
  | .expected what found => "expected " ++ what.text ++ ", found " ++ found.description
  | .missingStatement => "missing statement in block"
  | .redefined function => "function '" ++ function ++ "' is already defined"
  | .patternNeeded => "expected a pattern literal on the right of a match operator"
  | .formatNeeded => "printf requires a format argument"
  | .unfinishedPrint found =>
    "expected end of statement after print arguments, found " ++ found.description
  | .tooDeep => "nesting is too deep"

structure SyntacticError where
  cause : SyntacticCause
  location : Location
deriving DecidableEq

-- A step of the parser: it takes tokens from the front of a list or fails.
abbrev Parse := StateT (List Token) (Except SyntacticError)

namespace Parse

def fail {α : Type} (cause : SyntacticCause) (location : Location) : Parse α :=
  throw ⟨cause, location⟩

-- The kind of the first token; a list that has run out counts as the end of the input.
def kindOf : List Token → Kind
  | [] => .eof
  | t :: _ => t.kind

def locationOf (ending : Location) : List Token → Location
  | [] => ending
  | t :: _ => t.location

def peek : Parse Kind := do return kindOf (← get)

def here (ending : Location) : Parse Location := do return locationOf ending (← get)

def skip : Parse Unit := modify List.tail

def skipSeparators : Parse Unit :=
  modify (List.dropWhile (·.kind == .separator))

def accept (k : Kind) : Parse Bool := do
  if (← peek) = k then
    skip
    return true
  else return false

def expect (ending : Location) (k : Kind) (what : Expected) : Parse Unit := do
  let found ← peek
  if found = k then skip
  else fail (.expected what found) (← here ending)

def expectWord (ending : Location) (what : Expected) : Parse String := do
  match ← peek with
  | .word text =>
    skip
    return text
  | found => fail (.expected what found) (← here ending)

def endsStatement : Kind → Bool
  | .separator | .symbol .rightBrace | .eof => true
  | _ => false

mutual

-- An expression of the given level or a tighter one.
def expression (ending : Location) : Nat → Level → Parse Expr
  | 0, _ => do fail .tooDeep (← here ending)
  | n + 1, .assignment => do
    let target ← expression ending n .conditional
    let location ← here ending
    match (← peek).assignment? with
    | none => return target
    | some compound =>
      skip
      let value ← expression ending n .assignment
      match compound with
      | none => return .assign target value location
      | some op =>
        return .assign target (.binary (.arithmetic op) target value location) location
  | n + 1, .conditional => do
    let condition ← expression ending n .disjunction
    let location ← here ending
    if ← accept (.symbol .question) then
      let yes ← expression ending n .assignment
      expect ending (.symbol .colon) .colon
      let no ← expression ending n .conditional
      return .conditional condition yes no location
    else return condition
  | n + 1, .membership => do
    let key ← expression ending n .matching
    members ending n key
  | n + 1, .matching => do
    let subject ← expression ending n .comparison
    let location ← here ending
    match (← peek).matching? with
    | none => return subject
    | some negated =>
      skip
      match ← expression ending n .comparison with
      | .pattern source _ => return .search subject source negated location
      | other => fail .patternNeeded other.location
  | n + 1, .comparison => do
    let left ← expression ending n .concatenation
    let location ← here ending
    match Level.operator? .comparison (← peek) with
    | none => return left
    | some op =>
      skip
      let right ← expression ending n .concatenation
      return .binary op left right location
  | n + 1, .concatenation => do
    let left ← expression ending n .additive
    joins ending n left
  | n + 1, .power => do
    let left ← expression ending n .unary
    let location ← here ending
    match Level.operator? .power (← peek) with
    | none => return left
    | some op =>
      skip
      let right ← expression ending n .power
      return .binary op left right location
  | n + 1, .unary => do
    let location ← here ending
    let first ← peek
    match first.unary?, first.stepBefore? with
    | some op, _ =>
      skip
      return .unary op (← expression ending n .unary) location
    | none, some op =>
      skip
      return .step op (← expression ending n .unary) location
    | none, none => expression ending n .suffix
  | n + 1, .suffix => do
    let target ← expression ending n .field
    let location ← here ending
    match (← peek).stepAfter? with
    | some op =>
      if target.isTarget then
        skip
        return .step op target location
      else return target
    | none => return target
  | n + 1, .field => do
    let location ← here ending
    if ← accept (.symbol .dollar) then
      return .field (← expression ending n .field) location
    else expression ending n .primary
  | n + 1, .primary => primary ending n
  -- disjunction, conjunction, additive and multiplicative group to the left
  | n + 1, level => do
    let left ← expression ending n level.tighter
    chain ending n level left

def chain (ending : Location) : Nat → Level → Expr → Parse Expr
  | 0, _, _ => do fail .tooDeep (← here ending)
  | n + 1, level, left => do
    let location ← here ending
    match level.operator? (← peek) with
    | none => return left
    | some op =>
      skip
      let right ← expression ending n level.tighter
      chain ending n level (.binary op left right location)

def members (ending : Location) : Nat → Expr → Parse Expr
  | 0, _ => do fail .tooDeep (← here ending)
  | n + 1, key => do
    let location ← here ending
    if ← accept (.keyword .in) then
      let array ← primary ending n
      members ending n (.member key array location)
    else return key

-- The further operands of a concatenation, which no operator announces.
def joins (ending : Location) : Nat → Expr → Parse Expr
  | 0, _ => do fail .tooDeep (← here ending)
  | n + 1, left => do
    if (← peek).startsOperand then
      let right ← expression ending n .additive
      joins ending n (.binary .concat left right left.location)
    else return left

def primary (ending : Location) : Nat → Parse Expr
  | 0 => do fail .tooDeep (← here ending)
  | n + 1 => do
    let location ← here ending
    match ← peek with
    | .number text | .string text =>
      skip
      return .constant text location
    | .pattern source =>
      skip
      return .pattern source location
    | .word text =>
      skip
      named ending n text location
    | .symbol .leftParen =>
      skip
      let inner ← expression ending n .assignment
      expect ending (.symbol .rightParen) .endOfParentheses
      return inner
    | .keyword .print =>
      skip
      return .call "print" (← printArguments ending n) location
    | .keyword .printf =>
      skip
      let args ← printArguments ending n
      if args.isEmpty then fail .formatNeeded location
      else return .call "printf" args location
    | .keyword .exit =>
      skip
      if (← peek).startsExpression then
        return .call "exit" [← expression ending n .assignment] location
      else return .call "exit" [] location
    | .keyword .getline =>
      skip
      return .call "getline" [] location
    | .keyword .next =>
      skip
      return .call "next" [] location
    | .keyword .nextfile =>
      skip
      return .call "nextfile" [] location
    | found => fail (.expected .expression found) location

-- What a word stands for, by the token after it: a call, an element or a plain name. The word
-- `length` alone measures the record.
def named (ending : Location) : Nat → String → Location → Parse Expr
  | 0, _, _ => do fail .tooDeep (← here ending)
  | n + 1, text, location => do
    match ← peek with
    | .symbol .leftParen =>
      skip
      let args ← arguments ending n
      return .call text args location
    | .symbol .leftBracket =>
      skip
      let index ← expression ending n .assignment
      expect ending (.symbol .rightBracket) .endOfIndex
      return .element text index location
    | _ =>
      if text = "length" then return .call text [] location
      else return .name text location

def arguments (ending : Location) : Nat → Parse (List Expr)
  | 0 => do fail .tooDeep (← here ending)
  | n + 1 => do
    let args ← if (← peek) = .symbol .rightParen then pure [] else expressions ending n
    expect ending (.symbol .rightParen) .endOfArguments
    return args

def expressions (ending : Location) : Nat → Parse (List Expr)
  | 0 => do fail .tooDeep (← here ending)
  | n + 1 => do
    let first ← expression ending n .assignment
    if ← accept (.symbol .comma) then
      return first :: (← expressions ending n)
    else return [first]

-- The arguments of a print statement. Parentheses enclose the whole list only if the statement ends
-- right after them; otherwise they belong to the first argument, and the list runs to the end of
-- the statement. Nowhere else does the parser go back after a success.
def printArguments (ending : Location) : Nat → Parse (List Expr)
  | 0 => do fail .tooDeep (← here ending)
  | n + 1 => do
    let tokens ← get
    if ← accept (.symbol .leftParen) then
      let args ← arguments ending n
      if endsStatement (← peek) then return args
      else
        set tokens
        openArguments ending n
    else openArguments ending n

def openArguments (ending : Location) : Nat → Parse (List Expr)
  | 0 => do fail .tooDeep (← here ending)
  | n + 1 => do
    if endsStatement (← peek) then return []
    else
      let args ← expressions ending n
      let found ← peek
      if endsStatement found || found = .keyword .else then return args
      else fail (.unfinishedPrint found) (← here ending)

end

def optional (ending : Location) (n : Nat) (stop : Kind) : Parse (Option Expr) := do
  if (← peek) = stop then return none
  else return some (← expression ending n .assignment)

def condition (ending : Location) (n : Nat) (opening closing : Expected) : Parse Expr := do
  expect ending (.symbol .leftParen) opening
  let e ← expression ending n .assignment
  expect ending (.symbol .rightParen) closing
  return e

mutual

def statement (ending : Location) : Nat → Parse Stmt
  | 0 => do fail .tooDeep (← here ending)
  | n + 1 => do
    let location ← here ending
    match ← peek with
    | .keyword .continue =>
      skip
      return .continue location
    | .keyword .break =>
      skip
      return .break location
    | .keyword .if =>
      skip
      return .if (← branch ending n location)
    | .keyword .for =>
      skip
      forLoop ending n location
    | .keyword .delete =>
      skip
      let array ← expectWord ending .arrayAfterDelete
      if ← accept (.symbol .leftBracket) then
        let index ← expression ending n .assignment
        expect ending (.symbol .rightBracket) .endOfDeleteIndex
        return .delete array (some index) location
      else return .delete array none location
    | .keyword .while =>
      skip
      let e ← condition ending n .parenAfterWhile .parenAfterWhileCondition
      return .while e (← block ending n) location
    | .keyword .do =>
      skip
      let body ← block ending n
      skipSeparators
      expect ending (.keyword .while) .whileAfterDo
      let e ← condition ending n .parenAfterWhile .parenAfterWhileCondition
      return .doWhile body e location
    | .keyword .return =>
      skip
      if (← peek).startsExpression then
        return .return (some (← expression ending n .assignment)) location
      else return .return none location
    | _ => return .expr (← expression ending n .assignment)

-- A conditional statement after its `if`. An `else` may stand on a later line.
def branch (ending : Location) : Nat → Location → Parse Branch
  | 0, _ => do fail .tooDeep (← here ending)
  | n + 1, location => do
    let e ← condition ending n .parenAfterIf .parenAfterIfCondition
    let action ← block ending n
    let tokens ← get
    skipSeparators
    if ← accept (.keyword .else) then
      skipSeparators
      let elseLocation ← here ending
      if ← accept (.keyword .if) then
        return .mk e action (.branch (← branch ending n elseLocation)) location
      else return .mk e action (.block (← block ending n)) location
    else
      set tokens
      return .mk e action .nothing location

-- A loop after its `for`: over the keys of an array if a word and `in` follow, else counting.
def forLoop (ending : Location) : Nat → Location → Parse Stmt
  | 0, _ => do fail .tooDeep (← here ending)
  | n + 1, location => do
    expect ending (.symbol .leftParen) .parenAfterFor
    match kindOf (← get), kindOf (← get).tail with
    | .word var, .keyword .in =>
      skip
      skip
      let array ← expectWord ending .arrayAfterIn
      expect ending (.symbol .rightParen) .parenAfterForIn
      return .forIn var array (← block ending n) location
    | _, _ =>
      let init ← optional ending n .separator
      expect ending .separator .separatorAfterInit
      let e ← optional ending n .separator
      expect ending .separator .separatorAfterForCondition
      let update ← optional ending n (.symbol .rightParen)
      expect ending (.symbol .rightParen) .parenAfterForHeader
      return .for init e update (← block ending n) location

def block (ending : Location) : Nat → Parse Block
  | 0 => do fail .tooDeep (← here ending)
  | n + 1 => do
    skipSeparators
    let location ← here ending
    match ← peek with
    | .symbol .leftBrace =>
      skip
      skipSeparators
      let body ← statements ending n
      expect ending (.symbol .rightBrace) .endOfBlock
      return .mk body location
    | .symbol .rightBrace | .eof => fail .missingStatement location
    | _ => return .mk [← statement ending n] location

def statements (ending : Location) : Nat → Parse (List Stmt)
  | 0 => do fail .tooDeep (← here ending)
  | n + 1 => do
    match ← peek with
    | .symbol .rightBrace | .eof => return []
    | _ =>
      let first ← statement ending n
      skipSeparators
      return first :: (← statements ending n)

end

def function (ending : Location) (n : Nat) (location : Location) : Parse Function := do
  let name ← expectWord ending .functionName
  expect ending (.symbol .leftParen) .parenAfterFunctionName
  let params ← if (← peek) = .symbol .rightParen then pure [] else expressions ending n
  expect ending (.symbol .rightParen) .endOfParameters
  return { name, params, body := ← block ending n, location }

def item (ending : Location) (n : Nat) (p : Program) : Parse Program := do
  let location ← here ending
  match ← peek with
  | .keyword .function =>
    skip
    let f ← function ending n location
    if p.functions.any (·.name == f.name) then fail (.redefined f.name) location
    else return { p with functions := p.functions ++ [f] }
  | .keyword .begin =>
    skip
    return { p with begins := p.begins ++ [← block ending n] }
  | .keyword .finish =>
    skip
    return { p with ends := p.ends ++ [← block ending n] }
  | _ =>
    let condition ← optional ending n (.symbol .leftBrace)
    return { p with rules := p.rules ++ [⟨condition, ← block ending n⟩] }

def items (ending : Location) : Nat → Program → Parse Program
  | 0, _ => do fail .tooDeep (← here ending)
  | n + 1, p => do
    if (← peek) = .eof then return p
    else
      let p ← item ending n p
      skipSeparators
      items ending n p

def program (ending : Location) (n : Nat) : Parse Program := do
  skipSeparators
  items ending n {}

-- A depth that no list of this many tokens exceeds: between two tokens the parser descends through
-- fewer than 32 constructs.
def depthBound (tokens : Nat) : Nat := 32 * (tokens + 1)

end Parse

-- The program that tokens make up. Errors at the end of a list that lacks its end marker are
-- reported at the last token.
def parse (tokens : List Token) : Except SyntacticError Program :=
  let ending := (tokens.getLast?.map Token.location).getD default
  ((Parse.program ending (Parse.depthBound tokens.length)).run tokens).map Prod.fst

end PatternAction
