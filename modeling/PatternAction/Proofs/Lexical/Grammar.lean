import Mathlib.Data.List.Induction
import PatternAction.Token.Lexer

namespace PatternAction

namespace Location

-- The place after some characters of a text: lines and columns counted from one.
def following (cs : List Char) : Location :=
  ⟨1 + cs.count '\n', 1 + (cs.reverse.takeWhile (· ≠ '\n')).length⟩

theorem after_start (cs : List Char) : start.after cs = following cs := by
  induction cs using List.reverseRecOn
  case nil => rfl
  case append_singleton cs c ih =>
    rw [after_append, ih, after_cons, after_nil, next]
    split
    case isTrue hc => simp [following, hc, Nat.add_assoc]
    case isFalse hc => simp [following, hc, Nat.add_comm]

theorem following_append (cs ds : List Char) : following (cs ++ ds) = (following cs).after ds := by
  rw [← after_start, after_append, after_start]

end Location

-- A gap before some text: blanks, and a comment that goes on to the end of the line.
inductive Gap (rest : List Char) : List Char → Prop
  | done    : (∀ c ∈ rest.head?, Lexer.isGapBlank c = false ∧ c ≠ '#') → Gap rest []
  | blank   : Lexer.isGapBlank c → Gap rest gap → Gap rest (c :: gap)
  | comment : '\n' ∉ body → (∀ c ∈ rest.head?, c = '\n') → Gap rest ('#' :: body)

namespace Quotation

variable (q : Quotation)

-- What stands between the delimiters of a literal: the second of them is the first one after the
-- opening that has no backslash right before it.
structure IsBody (body : List Char) : Prop where
  hidden : (q.delimiter :: body).IsChain fun c d => d = q.delimiter → c = '\\'
  closed : (q.delimiter :: body).getLast? ≠ some '\\'

-- The text that a literal stands for.
def decode : List Char → List Char
  | []           => []
  | [c]          => [c]
  | c :: d :: cs =>
    if c = '\\' ∧ d = q.delimiter then d :: decode cs else c :: decode (d :: cs)

end Quotation

-- Letters, digits and underscores, of which a letter comes first.
structure IsWord (cs : List Char) : Prop where
  chars  : ∀ c ∈ cs, Lexer.isWordChar c
  begins : ∃ c ds, cs = c :: ds ∧ c.isAlpha

-- Digits and at most one point, which has a digit after it if it comes first.
structure IsNumeral (cs : List Char) : Prop where
  chars  : ∀ c ∈ cs, c.isDigit ∨ c = '.'
  points : cs.count '.' ≤ 1
  begins : (∃ c ds, cs = c :: ds ∧ c.isDigit) ∨ ∃ c ds, cs = '.' :: c :: ds ∧ c.isDigit

theorem IsWord.concat {cs : List Char} {c : Char} (h : IsWord cs) (hc : Lexer.isWordChar c) :
    IsWord (cs ++ [c]) where
  chars := by
    simp only [List.mem_append, List.mem_singleton]
    rintro d (hd | rfl)
    · exact h.chars d hd
    · exact hc
  begins := by
    have ⟨d, ds, hd, ha⟩ := h.begins
    exact ⟨d, ds ++ [c], by simp [hd], ha⟩

theorem IsNumeral.concat {cs : List Char} {c : Char} (h : IsNumeral cs) (hc : c.isDigit) :
    IsNumeral (cs ++ [c]) where
  chars := by
    simp only [List.mem_append, List.mem_singleton]
    rintro d (hd | rfl)
    · exact h.chars d hd
    · exact .inl hc
  points := by
    have hn : c ≠ '.' := by
      rintro rfl
      cases hc
    simpa [List.count_singleton, hn] using h.points
  begins := by
    rcases h.begins with ⟨d, ds, hd, ha⟩ | ⟨d, ds, hd, ha⟩
    · exact .inl ⟨d, ds ++ [c], by simp [hd], ha⟩
    · exact .inr ⟨d, ds ++ [c], by simp [hd], ha⟩

-- The texts of the grammar, with the kinds of token that they are.
inductive Lexeme : Kind → List Char → Prop
  | separator : c = '\n' ∨ c = ';' → Lexeme .separator [c]
  | keyword   : (k : Keyword) → Lexeme (.keyword k) k.spelling.toList
  | word      : IsWord cs → (∀ k : Keyword, k.spelling ≠ String.ofList cs) →
                  Lexeme (.word (.ofList cs)) cs
  | number    : IsNumeral cs → Lexeme (.number (.ofList cs)) cs
  | quoted    : q.IsBody body → Lexeme (.quoted q (.ofList (q.decode body)))
                  (q.delimiter :: (body ++ [q.delimiter]))
  | symbol    : (s : Symbol) → Lexeme (.symbol s) s.spelling.toList

-- A lexeme where some text follows it.
structure Longest (k : Kind) (cs rest : List Char) : Prop where
  lexeme  : Lexeme k cs
  longest : ∀ k' ds, Lexeme k' ds → ds <+: cs ++ rest → ds.length ≤ cs.length
  number  : ∀ text, k = .number text → ∀ c ∈ rest.head?, c ≠ '.' ∧ Text.isAlphabetic c = false

-- The tokens of a text that has some text before it.
inductive Analysis : List Char → List Char → List Token → Prop
  | done  : Gap [] gap → Analysis before gap [⟨.eof, .following (before ++ gap)⟩]
  | token : Gap (cs ++ rest) gap → Longest k cs rest → Analysis (before ++ gap ++ cs) rest ts →
              Analysis before (gap ++ cs ++ rest) (⟨k, .following (before ++ gap)⟩ :: ts)

end PatternAction
