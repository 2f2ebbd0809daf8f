import PatternAction.Location
import PatternAction.Text.Quoted

namespace PatternAction

inductive Keyword
  | begin | finish | if | else | while | do | for | in | break | continue | function | return
  | delete | exit | next | nextfile | getline | print | printf
deriving DecidableEq

namespace Keyword

def all : List Keyword :=
  [.begin, .finish, .if, .else, .while, .do, .for, .in, .break, .continue, .function, .return,
   .delete, .exit, .next, .nextfile, .getline, .print, .printf]

def spelling : Keyword → String
  | .begin => "BEGIN"
  | .finish => "END"
  | .if => "if"
  | .else => "else"
  | .while => "while"
  | .do => "do"
  | .for => "for"
  | .in => "in"
  | .break => "break"
  | .continue => "continue"
  | .function => "function"
  | .return => "return"
  | .delete => "delete"
  | .exit => "exit"
  | .next => "next"
  | .nextfile => "nextfile"
  | .getline => "getline"
  | .print => "print"
  | .printf => "printf"

def label : Keyword → String
  | .begin => "Begin"
  | .finish => "End"
  | .if => "If"
  | .else => "Else"
  | .while => "While"
  | .do => "Do"
  | .for => "For"
  | .in => "In"
  | .break => "Break"
  | .continue => "Continue"
  | .function => "Function"
  | .return => "Return"
  | .delete => "Delete"
  | .exit => "Exit"
  | .next => "Next"
  | .nextfile => "Nextfile"
  | .getline => "Getline"
  | .print => "Print"
  | .printf => "Printf"

def ofSpelling? (word : String) : Option Keyword :=
  all.find? (·.spelling == word)

theorem spelling_of_ofSpelling? {word : String} {k : Keyword} (h : ofSpelling? word = some k) :
    k.spelling = word := by
  simpa using List.find?_some h

end Keyword

inductive Symbol
  | plus | minus | star | slash | percent | caret
  | less | lessEqual | greater | greaterEqual | equal | notEqual
  | and | or | not
  | matches | notMatches
  | assign | plusAssign | minusAssign | starAssign | slashAssign | percentAssign | caretAssign
  | increment | decrement
  | dollar | question | colon | pipe | append
  | leftParen | rightParen | leftBrace | rightBrace | leftBracket | rightBracket | comma
deriving DecidableEq

namespace Symbol

def single? : Char → Option Symbol
  | '+' => some .plus
  | '-' => some .minus
  | '*' => some .star
  | '/' => some .slash
  | '%' => some .percent
  | '^' => some .caret
  | '<' => some .less
  | '>' => some .greater
  | '=' => some .assign
  | '!' => some .not
  | '|' => some .pipe
  | '~' => some .matches
  | '$' => some .dollar
  | '?' => some .question
  | ':' => some .colon
  | '(' => some .leftParen
  | ')' => some .rightParen
  | '\x7b' => some .leftBrace
  | '\x7d' => some .rightBrace
  | '[' => some .leftBracket
  | ']' => some .rightBracket
  | ',' => some .comma
  | _ => none

def pair? : Char → Char → Option Symbol
  | '+', '+' => some .increment
  | '+', '=' => some .plusAssign
  | '-', '-' => some .decrement
  | '-', '=' => some .minusAssign
  | '*', '=' => some .starAssign
  | '/', '=' => some .slashAssign
  | '%', '=' => some .percentAssign
  | '^', '=' => some .caretAssign
  | '<', '=' => some .lessEqual
  | '>', '=' => some .greaterEqual
  | '>', '>' => some .append
  | '=', '=' => some .equal
  | '!', '=' => some .notEqual
  | '!', '~' => some .notMatches
  | '|', '|' => some .or
  | '&', '&' => some .and
  | _, _ => none

def spelling : Symbol → String
  | .plus => "+"
  | .minus => "-"
  | .star => "*"
  | .slash => "/"
  | .percent => "%"
  | .caret => "^"
  | .less => "<"
  | .lessEqual => "<="
  | .greater => ">"
  | .greaterEqual => ">="
  | .equal => "=="
  | .notEqual => "!="
  | .and => "&&"
  | .or => "||"
  | .not => "!"
  | .matches => "~"
  | .notMatches => "!~"
  | .assign => "="
  | .plusAssign => "+="
  | .minusAssign => "-="
  | .starAssign => "*="
  | .slashAssign => "/="
  | .percentAssign => "%="
  | .caretAssign => "^="
  | .increment => "++"
  | .decrement => "--"
  | .dollar => "$"
  | .question => "?"
  | .colon => ":"
  | .pipe => "|"
  | .append => ">>"
  | .leftParen => "("
  | .rightParen => ")"
  | .leftBrace => "\x7b"
  | .rightBrace => "\x7d"
  | .leftBracket => "["
  | .rightBracket => "]"
  | .comma => ","

def label : Symbol → String
  | .plus => "Plus"
  | .minus => "Minus"
  | .star => "Star"
  | .slash => "Slash"
  | .percent => "Percent"
  | .caret => "Caret"
  | .less => "Less"
  | .lessEqual => "LessEqual"
  | .greater => "Greater"
  | .greaterEqual => "GreaterEqual"
  | .equal => "Equal"
  | .notEqual => "NotEqual"
  | .and => "And"
  | .or => "Or"
  | .not => "Not"
  | .matches => "Match"
  | .notMatches => "NotMatch"
  | .assign => "Assign"
  | .plusAssign => "PlusAssign"
  | .minusAssign => "MinusAssign"
  | .starAssign => "StarAssign"
  | .slashAssign => "SlashAssign"
  | .percentAssign => "PercentAssign"
  | .caretAssign => "CaretAssign"
  | .increment => "Increment"
  | .decrement => "Decrement"
  | .dollar => "Dollar"
  | .question => "Question"
  | .colon => "Colon"
  | .pipe => "Pipe"
  | .append => "Append"
  | .leftParen => "LeftParen"
  | .rightParen => "RightParen"
  | .leftBrace => "LeftBrace"
  | .rightBrace => "RightBrace"
  | .leftBracket => "LeftBracket"
  | .rightBracket => "RightBracket"
  | .comma => "Comma"

theorem spelling_of_single? {c : Char} {s : Symbol} (h : single? c = some s) :
    s.spelling = String.ofList [c] := by
  unfold single? at h
  split at h <;> simp_all <;> subst h <;> rfl

theorem spelling_of_pair? {c d : Char} {s : Symbol} (h : pair? c d = some s) :
    s.spelling = String.ofList [c, d] := by
  unfold pair? at h
  split at h <;> simp_all <;> subst h <;> rfl

end Symbol

-- The two literals that are written between delimiters.
inductive Quotation
  | string | pattern
deriving DecidableEq

namespace Quotation

def delimiter : Quotation → Char
  | .string => '"'
  | .pattern => '\x60'

def label : Quotation → String
  | .string => "String"
  | .pattern => "Pattern"

def noun : Quotation → String
  | .string => "string"
  | .pattern => "pattern"

-- Writes a text so that its delimiters do not end the literal.
def encode (q : Quotation) : List Char → List Char
  | [] => []
  | c :: cs => if c = q.delimiter then '\\' :: c :: q.encode cs else c :: q.encode cs

end Quotation

-- What a token is. A literal or a word carries its text.
inductive Kind
  | number (text : String)
  | quoted (q : Quotation) (text : String)
  | word (text : String)
  | keyword (k : Keyword)
  | symbol (s : Symbol)
  | separator
  | eof
deriving DecidableEq

namespace Kind

@[match_pattern] abbrev string (text : String) : Kind := .quoted .string text
@[match_pattern] abbrev pattern (text : String) : Kind := .quoted .pattern text

-- Source text that reads back as this kind.
def spelling : Kind → String
  | .number text => text
  | .quoted q text =>
    String.ofList (q.delimiter :: (q.encode text.toList ++ [q.delimiter]))
  | .word text => text
  | .keyword k => k.spelling
  | .symbol s => s.spelling
  | .separator => "\n"
  | .eof => ""

def label : Kind → String
  | .number text => "Number(" ++ Text.quoted text ++ ")"
  | .quoted q text => q.label ++ "(" ++ Text.quoted text ++ ")"
  | .word text => "Word(" ++ Text.quoted text ++ ")"
  | .keyword k => k.label
  | .symbol s => s.label
  | .separator => "Separator"
  | .eof => "Eof"

def startsExpression : Kind → Bool
  | .number _ | .quoted _ _ | .word _ => true
  | .symbol .leftParen | .symbol .dollar | .symbol .not | .symbol .plus | .symbol .minus
  | .symbol .increment | .symbol .decrement => true
  | .keyword .print | .keyword .printf | .keyword .getline | .keyword .next
  | .keyword .nextfile | .keyword .exit => true
  | _ => false

-- Whether a further operand of a concatenation can begin with this kind. A sign is read as a binary
-- operator there, and a pattern never joins.
def startsOperand : Kind → Bool
  | .number _ | .string _ | .word _ => true
  | .symbol .dollar | .symbol .leftParen | .symbol .not | .symbol .increment
  | .symbol .decrement => true
  | _ => false

def description : Kind → String
  | .eof => "end of input"
  | .separator => "end of statement"
  | k => "'" ++ k.spelling ++ "'"

end Kind

structure Token where
  kind : Kind
  location : Location
deriving DecidableEq

namespace Token

def listing (t : Token) : String :=
  toString t.location.line ++ ":" ++ toString t.location.column ++ " " ++ t.kind.label

end Token

end PatternAction
