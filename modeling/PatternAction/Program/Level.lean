import PatternAction.Program
import PatternAction.Token

namespace PatternAction

-- From the loosest construct to the tightest.
inductive Level
  | assignment | conditional | disjunction | conjunction | membership | matching | comparison
  | concatenation | additive | multiplicative | power | unary | suffix | field | primary
deriving DecidableEq

namespace Level

def tighter : Level → Level
  | .assignment => .conditional
  | .conditional => .disjunction
  | .disjunction => .conjunction
  | .conjunction => .membership
  | .membership => .matching
  | .matching => .comparison
  | .comparison => .concatenation
  | .concatenation => .additive
  | .additive => .multiplicative
  | .multiplicative => .power
  | .power => .unary
  | .unary => .suffix
  | .suffix => .field
  | .field => .primary
  | .primary => .primary

def operator? : Level → Kind → Option BinaryOp
  | .disjunction, .symbol .or => some .or
  | .conjunction, .symbol .and => some .and
  | .comparison, .symbol .less => some (.comparison .lt)
  | .comparison, .symbol .lessEqual => some (.comparison .le)
  | .comparison, .symbol .greater => some (.comparison .gt)
  | .comparison, .symbol .greaterEqual => some (.comparison .ge)
  | .comparison, .symbol .equal => some (.comparison .eq)
  | .comparison, .symbol .notEqual => some (.comparison .ne)
  | .additive, .symbol .plus => some (.arithmetic .add)
  | .additive, .symbol .minus => some (.arithmetic .sub)
  | .multiplicative, .symbol .star => some (.arithmetic .mul)
  | .multiplicative, .symbol .slash => some (.arithmetic .div)
  | .multiplicative, .symbol .percent => some (.arithmetic .mod)
  | .power, .symbol .caret => some (.arithmetic .pow)
  | _, _ => none

end Level

-- What an assignment token does: `some none` stores a value, `some (some op)` first combines it
-- with the old one.
def Kind.assignment? : Kind → Option (Option Arithmetic)
  | .symbol .assign => some none
  | .symbol .plusAssign => some (some .add)
  | .symbol .minusAssign => some (some .sub)
  | .symbol .starAssign => some (some .mul)
  | .symbol .slashAssign => some (some .div)
  | .symbol .percentAssign => some (some .mod)
  | .symbol .caretAssign => some (some .pow)
  | _ => none

def Kind.unary? : Kind → Option UnaryOp
  | .symbol .not => some .not
  | .symbol .minus => some .neg
  | .symbol .plus => some .pos
  | _ => none

def Kind.stepBefore? : Kind → Option Step
  | .symbol .increment => some .preIncrement
  | .symbol .decrement => some .preDecrement
  | _ => none

def Kind.stepAfter? : Kind → Option Step
  | .symbol .increment => some .postIncrement
  | .symbol .decrement => some .postDecrement
  | _ => none

def Kind.matching? : Kind → Option Bool
  | .symbol .matches => some false
  | .symbol .notMatches => some true
  | _ => none

end PatternAction
