import PatternAction.Location
import PatternAction.Number.Decimal

namespace PatternAction

inductive Fault
  | arrayAsScalar (name : String)
  | scalarOverArray (name : String)
  | scalarAsArray (name : String)
  | notArray (name : String)
  | unboundArray (name : String)
  | deleteFromScalar (name : String)
  | badField (index : Number)
  | divisionByZero
  | remainderByZero
  | strayPattern
  | badTarget
  | arrayNeeded
  | arrayArgumentNeeded (function : String)
  | undefinedFunction (name : String)
  | wrongCount (function : String) (given : Nat)
  | wrongArity (function : String) (expected given : Nat)
  | badParameter (function : String)
  | missingArgument (function : String)
deriving DecidableEq

namespace Fault

def message : Fault → String
  | .arrayAsScalar name => "attempt to use array '" ++ name ++ "' in a scalar context"
  | .scalarOverArray name => "cannot assign a scalar to array '" ++ name ++ "'"
  | .scalarAsArray name => "attempt to use scalar '" ++ name ++ "' as an array"
  | .notArray name => "'" ++ name ++ "' is not an array"
  | .unboundArray name => "'" ++ name ++ "' is not an initialized array"
  | .deleteFromScalar name => "cannot delete from scalar '" ++ name ++ "'"
  | .badField index => "attempt to access field " ++ index.canonical
  | .divisionByZero => "division by zero"
  | .remainderByZero => "division by zero in %"
  | .strayPattern => "pattern used outside a match context"
  | .badTarget => "invalid assignment target"
  | .arrayNeeded => "right side of 'in' must be an array name"
  | .arrayArgumentNeeded function => function ++ "() needs an array name here"
  | .undefinedFunction name => "call to undefined function '" ++ name ++ "'"
  | .wrongCount function given =>
    "wrong number of arguments to " ++ function ++ "(): got " ++ toString given
  | .wrongArity function expected given =>
    "function '" ++ function ++ "' expects " ++ toString expected ++ " arguments, got " ++
      toString given
  | .badParameter function => "parameters of function '" ++ function ++ "' must be plain names"
  | .missingArgument function => "an argument of " ++ function ++ "() is missing"

end Fault

-- Why a run stops: a fault, with its place unless it lies in the record variables, a text that
-- should be a pattern and is none, or the end of the steps allowed.
inductive Failure
  | fault (cause : Fault) (location : Option Location)
  | badPattern
  | outOfSteps
deriving DecidableEq

end PatternAction
