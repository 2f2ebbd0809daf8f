import PatternAction.Token
import PatternAction.Text.Alphabetic

namespace PatternAction

inductive LexicalCause
  | unexpected (c : Char)
  | loneAmpersand
  | unterminated (q : Quotation)
  | secondPoint
  | letterAfterDigits (c : Char)
deriving DecidableEq

namespace LexicalCause

def message : LexicalCause → String
  | .unexpected c => "unexpected character '" ++ c.toString ++ "'"
  | .loneAmpersand => "unexpected '&', did you mean '&&'?"
  | .unterminated q => "unterminated " ++ q.noun
  | .secondPoint => "malformed number: more than one decimal point"
  | .letterAfterDigits c => "malformed number: unexpected '" ++ c.toString ++ "' after digits"

-- A malformed number is reported where it goes wrong, any other error where the lexeme begins.
def reportedAtEnd : LexicalCause → Bool
  | .secondPoint | .letterAfterDigits _ => true
  | _ => false

end LexicalCause

structure LexicalError where
  cause : LexicalCause
  location : Location
deriving DecidableEq

-- The outcome of reading at the head of a text: the characters taken, and those left.
structure Scan where
  result : Except LexicalCause Kind
  taken : List Char
  rest : List Char

namespace Scan

def cons (c : Char) (s : Scan) : Scan := { s with taken := c :: s.taken }

end Scan

namespace Lexer

def isGapBlank (c : Char) : Bool := c = ' ' || c = '\t' || c = '\r'

-- Splits off the gap at the head of a text; `comment` says whether a comment is open, which runs to
-- just before the end of the line.
def gap (comment : Bool) : List Char → List Char × List Char
  | [] => ([], [])
  | c :: cs =>
    if comment && c ≠ '\n' then
      let (g, rest) := gap true cs
      (c :: g, rest)
    else if isGapBlank c then
      let (g, rest) := gap false cs
      (c :: g, rest)
    else if c = '#' then
      let (g, rest) := gap true cs
      (c :: g, rest)
    else ([], c :: cs)

-- Reads a literal up to its closing delimiter; `text` holds the characters before, last first. A
-- backslash hides the delimiter after it, and is kept before any other character.
def quotation (q : Quotation) (text : List Char) : List Char → Scan
  | [] => ⟨.error (.unterminated q), [], []⟩
  | c :: cs =>
    if c = q.delimiter then ⟨.ok (.quoted q (String.ofList text.reverse)), [c], cs⟩
    else match cs with
      | d :: ds =>
        if c = '\\' ∧ d = q.delimiter then ((quotation q (d :: text) ds).cons d).cons c
        else (quotation q (c :: text) (d :: ds)).cons c
      | [] => (quotation q (c :: text) []).cons c

-- Reads the digits and the point of a number; `text` holds the characters before, last first, and
-- `point` says whether a point is among them.
def number (point : Bool) (text : List Char) : List Char → Scan
  | [] => ⟨.ok (.number (String.ofList text.reverse)), [], []⟩
  | c :: cs =>
    if c.isDigit then (number point (c :: text) cs).cons c
    else if c = '.' then
      if point then ⟨.error .secondPoint, [], c :: cs⟩
      else (number true (c :: text) cs).cons c
    else if Text.isAlphabetic c then ⟨.error (.letterAfterDigits c), [], c :: cs⟩
    else ⟨.ok (.number (String.ofList text.reverse)), [], c :: cs⟩

def isWordChar (c : Char) : Bool := c.isAlphanum || c = '_'

def word (cs : List Char) : Scan :=
  let text := String.ofList (cs.takeWhile isWordChar)
  { result := .ok (((Keyword.ofSpelling? text).map Kind.keyword).getD (.word text))
    taken := cs.takeWhile isWordChar
    rest := cs.dropWhile isWordChar }

-- Reads an operator or delimiter, two characters before one.
def symbol (c : Char) (cs : List Char) : Scan :=
  match cs.head?.bind (Symbol.pair? c) with
  | some s => ⟨.ok (.symbol s), c :: cs.take 1, cs.drop 1⟩
  | none =>
    match Symbol.single? c with
    | some s => ⟨.ok (.symbol s), [c], cs⟩
    | none =>
      if c = '&' then ⟨.error .loneAmpersand, [c], cs⟩ else ⟨.error (.unexpected c), [], c :: cs⟩

def lexeme : List Char → Scan
  | [] => ⟨.ok .eof, [], []⟩
  | c :: cs =>
    if c = '\n' ∨ c = ';' then ⟨.ok .separator, [c], cs⟩
    else if c = Quotation.string.delimiter then (quotation .string [] cs).cons c
    else if c = Quotation.pattern.delimiter then (quotation .pattern [] cs).cons c
    else if c.isDigit ∨ (c = '.' ∧ cs.head?.any Char.isDigit) then number false [] (c :: cs)
    else if c.isAlpha then word (c :: cs)
    else symbol c cs

end Lexer

-- Reading in progress: the text still to be read, and where it begins.
structure Lexer where
  rest : List Char
  location : Location
deriving DecidableEq

namespace Lexer

def ofString (source : String) : Lexer := ⟨source.toList, .start⟩

-- One reading step: a token or an error, and the reading after it.
def next (l : Lexer) : Except LexicalError Token × Lexer :=
  let (gap, text) := gap false l.rest
  let start := l.location.after gap
  let scan := lexeme text
  let stop := start.after scan.taken
  let result := match scan.result with
    | .ok kind => .ok ⟨kind, start⟩
    | .error cause => .error ⟨cause, if cause.reportedAtEnd then stop else start⟩
  (result, ⟨scan.rest, stop⟩)

theorem gap_append (comment : Bool) (cs : List Char) :
    (gap comment cs).1 ++ (gap comment cs).2 = cs := by
  fun_induction gap comment cs <;> simp_all

theorem quotation_append (q : Quotation) (text cs : List Char) :
    (quotation q text cs).taken ++ (quotation q text cs).rest = cs := by
  fun_induction quotation q text cs <;> simp_all [Scan.cons]

theorem number_append (point : Bool) (text cs : List Char) :
    (number point text cs).taken ++ (number point text cs).rest = cs := by
  fun_induction number point text cs <;> simp_all [Scan.cons]

theorem word_append (cs : List Char) : (word cs).taken ++ (word cs).rest = cs :=
  List.takeWhile_append_dropWhile

theorem symbol_append (c : Char) (cs : List Char) :
    (symbol c cs).taken ++ (symbol c cs).rest = c :: cs := by
  unfold symbol
  split
  · exact congrArg (c :: ·) (List.take_append_drop 1 cs)
  · split
    · rfl
    · split <;> rfl

-- A lexeme and what follows it make up the text, also when it is in error.
theorem lexeme_append (cs : List Char) : (lexeme cs).taken ++ (lexeme cs).rest = cs := by
  cases cs with
  | nil => rfl
  | cons c cs =>
    simp only [lexeme]
    split
    · rfl
    split
    · simp [Scan.cons, quotation_append]
    split
    · simp [Scan.cons, quotation_append]
    split
    · exact number_append _ _ _
    split
    · exact word_append _
    · exact symbol_append _ _

theorem number_taken_ne_nil {c : Char} {cs : List Char} (h : c.isDigit ∨ c = '.') :
    (number false [] (c :: cs)).taken ≠ [] := by
  unfold number
  split
  · simp [Scan.cons]
  · simp_all [Scan.cons]

theorem lexeme_taken_ne_nil {cs : List Char} {k : Kind} (h : (lexeme cs).result = .ok k)
    (hk : k ≠ .eof) : (lexeme cs).taken ≠ [] := by
  cases cs with
  | nil => simp [lexeme] at h; exact absurd h.symm hk
  | cons c cs =>
    revert h
    simp only [lexeme]
    split
    · simp
    split
    · simp [Scan.cons]
    split
    · simp [Scan.cons]
    split
    · rename_i h4
      exact fun _ => number_taken_ne_nil (h4.imp_right And.left)
    split
    · rename_i h5
      simp [word, isWordChar, Char.isAlphanum, h5]
    · unfold symbol
      split
      · simp
      split
      · simp
      split <;> simp

theorem length_next_lt {l : Lexer} {t : Token} (h : l.next.1 = .ok t) (ht : t.kind ≠ .eof) :
    l.next.2.rest.length < l.rest.length := by
  simp only [next] at h ⊢
  split at h
  · rename_i k hk
    injection h with h
    subst h
    have taken := List.length_pos_iff.2 (lexeme_taken_ne_nil hk ht)
    have text := congrArg List.length (lexeme_append (gap false l.rest).2)
    have all := congrArg List.length (gap_append false l.rest)
    simp only [List.length_append] at text all
    omega
  · cases h

-- The tokens of the rest of a text, up to and including the end.
def tokens (l : Lexer) : Except LexicalError (List Token) :=
  match _h : l.next with
  | (.error e, _) => .error e
  | (.ok t, l') =>
    if _ht : t.kind = .eof then .ok [t] else l'.tokens.map (t :: ·)
termination_by l.rest.length
decreasing_by
  have := length_next_lt (l := l) (t := t) (by rw [_h]) _ht
  rwa [_h] at this

end Lexer

def tokenize (source : String) : Except LexicalError (List Token) :=
  (Lexer.ofString source).tokens

end PatternAction
