import PatternAction.Machine.Run
import PatternAction.Program.Parser
import PatternAction.Token.Lexer

namespace PatternAction

inductive FileProblem
  | missing
  | directory
  | notText
  | other (text : String)
deriving DecidableEq

def FileProblem.message : FileProblem → String
  | .missing => "No such file or directory (os error 2)"
  | .directory => "Is a directory (os error 21)"
  | .notText => "stream did not contain valid UTF-8"
  | .other text => text

inductive Error
  | lexical (e : LexicalError)
  | syntactic (e : SyntacticError)
  | failure (f : Failure)
  | file (problem : FileProblem)
deriving DecidableEq

namespace Error

def message : Error → String
  | .lexical e => "lex error at " ++ e.location.text ++ ": " ++ e.cause.message
  | .syntactic e => "syntax error at " ++ e.location.text ++ ": " ++ e.cause.message
  | .failure (.fault cause none) => "runtime error: " ++ cause.message
  | .failure (.fault cause (some l)) => "runtime error at " ++ l.text ++ ": " ++ cause.message
  | .failure .badPattern => "regex error"
  | .failure .outOfSteps => "runtime error: out of steps"
  | .file problem => "I/O error: " ++ problem.message

end Error

def compile (source : String) : Except Error Program := do
  let tokens ← (tokenize source).mapError Error.lexical
  (parse tokens).mapError Error.syntactic

end PatternAction
