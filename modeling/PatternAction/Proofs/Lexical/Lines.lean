import PatternAction.Proofs.Lexical.Spelling

namespace PatternAction

-- The same column, some lines further down.
def Location.down (lines : Nat) (l : Location) : Location := ⟨l.line + lines, l.column⟩

def Token.down (lines : Nat) (t : Token) : Token := { t with location := t.location.down lines }

def LexicalError.down (lines : Nat) (e : LexicalError) : LexicalError :=
  { e with location := e.location.down lines }

namespace Location

variable {lines : Nat}

theorem next_down (l : Location) (c : Char) : (l.down lines).next c = (l.next c).down lines := by
  unfold next
  split
  case isTrue => simp [down, Nat.add_right_comm]
  case isFalse => rfl

theorem after_down (l : Location) (cs : List Char) :
    (l.down lines).after cs = (l.after cs).down lines := by
  induction cs generalizing l
  case nil => rfl
  case cons c cs ih => rw [after_cons, next_down, ih, after_cons]

theorem next_following (cs : List Char) :
    (following cs).next '\n' = start.down (1 + cs.count '\n') := by
  simp only [next, following, down, start, if_pos]
  rw [Nat.add_comm 1, Nat.add_comm 1]

end Location

namespace Lexer

def down (lines : Nat) (l : Lexer) : Lexer := { l with location := l.location.down lines }

def extend (l : Lexer) (cs : List Char) : Lexer := { l with rest := l.rest ++ cs }

section Down

variable {lines : Nat} {l l' : Lexer} {t : Token} {e : LexicalError}

theorem next_down_ok (h : l.next = (.ok t, l')) :
    (l.down lines).next = (.ok (t.down lines), l'.down lines) := by
  simp only [next] at h
  split at h
  case h_2 => cases h
  case h_1 hk =>
    cases h
    simp only [next, down, Location.after_down, hk]
    rfl

theorem next_down_error (h : l.next = (.error e, l')) :
    (l.down lines).next = (.error (e.down lines), l'.down lines) := by
  simp only [next] at h
  split at h
  case h_1 => cases h
  case h_2 cause hk =>
    cases h
    simp only [next, down, Location.after_down, hk, LexicalError.down]
    split <;> rfl

theorem tokens_down (l : Lexer) : (l.down lines).tokens =
    (l.tokens.map (List.map (Token.down lines))).mapError (LexicalError.down lines) := by
  fun_induction tokens l
  case case1 hn => rw [tokens_of_next_error (next_down_error hn)]; rfl
  case case2 hn hk =>
    rw [tokens_of_next (next_down_ok hn), if_pos (by exact hk)]
    rfl
  case case3 l t l' hn hk ih =>
    rw [tokens_of_next (next_down_ok hn), if_neg (by exact hk), ih]
    cases l'.tokens <;> rfl

end Down

section Newlines

variable {l l' : Lexer} {t : Token} {ts : List Token} {k : Kind} {cs ds rest : List Char}

theorem gap_append_newline (comment : Bool) (cs ds : List Char) :
    gap comment (cs ++ '\n' :: ds) = ((gap comment cs).1, (gap comment cs).2 ++ '\n' :: ds) := by
  fun_induction gap comment cs <;> simp_all [gap, isGapBlank]

theorem complete_append_newline (h : Complete k cs rest) (hcs : cs ≠ []) (ds : List Char) :
    Complete k cs (rest ++ '\n' :: ds) := by
  cases rest
  case cons => exact ⟨h.lexeme, h.next, h.number⟩
  case nil =>
    refine ⟨h.lexeme, ?_, ?_⟩
    · rintro c ⟨⟩ k' hl
      have := hl.eq_newline (.inr rfl) List.getLast?_concat
      exact hcs (List.append_eq_singleton_iff.mp this |>.resolve_right (by simp)).1
    · rintro _ _ c ⟨⟩
      decide

theorem lexeme_append_newline (hcs : cs ≠ []) (h : (lexeme cs).result = .ok k) (ds : List Char) :
    lexeme (cs ++ '\n' :: ds) = ⟨.ok k, (lexeme cs).taken, (lexeme cs).rest ++ '\n' :: ds⟩ := by
  have hc := complete_of_longest (longest_of_lexeme hcs h)
  have := lexeme_of_complete (complete_append_newline hc hc.lexeme.ne_nil ds)
  rwa [← List.append_assoc, lexeme_append] at this

theorem next_extend (h : l.next = (.ok t, l')) (hk : t.kind ≠ .eof) (ds : List Char) :
    (l.extend ('\n' :: ds)).next = (.ok t, l'.extend ('\n' :: ds)) := by
  simp only [next] at h
  split at h
  case h_2 => cases h
  case h_1 k hx =>
    cases h
    have hcs : (gap false l.rest).2 ≠ [] := by
      intro hcs
      rw [hcs] at hx
      exact hk (Except.ok.inj hx).symm
    simp only [next, extend, gap_append_newline, lexeme_append_newline hcs hx]

theorem next_extend_eof (h : l.next = (.ok t, l')) (hk : t.kind = .eof) (ds : List Char) :
    t = ⟨.eof, l.location.after l.rest⟩ ∧ (l.extend ('\n' :: ds)).next =
      (.ok ⟨.separator, t.location⟩, ⟨ds, t.location.next '\n'⟩) := by
  simp only [next] at h
  split at h
  case h_2 => cases h
  case h_1 k hx =>
    cases h
    obtain rfl : k = .eof := hk
    have hcs : (gap false l.rest).2 = [] := by
      by_contra hcs
      cases (longest_of_lexeme hcs hx).lexeme
    have hg := gap_append false l.rest
    rw [hcs, List.append_nil] at hg
    refine ⟨by rw [hg], ?_⟩
    simp only [next, extend, gap_append_newline, hcs, hg]
    rfl

theorem after_rest_next (l : Lexer) :
    l.next.2.location.after l.next.2.rest = l.location.after l.rest := by
  simp only [next]
  rw [← Location.after_append, lexeme_append, ← Location.after_append, gap_append]

theorem tokens_extend (h : l.tokens = .ok ts) (ds : List Char) :
    let stop := l.location.after l.rest
    ∃ before, ts = before ++ [⟨.eof, stop⟩] ∧ (l.extend ('\n' :: ds)).tokens =
      (⟨ds, stop.next '\n'⟩ : Lexer).tokens.map (before ++ ⟨.separator, stop⟩ :: ·) := by
  intro stop
  fun_induction tokens l generalizing ts
  case case1 => cases h
  case case2 l t l' hn hk =>
    obtain ⟨ht, hs⟩ := next_extend_eof hn hk ds
    cases h
    refine ⟨[], congrArg (fun t => [t]) ht, ?_⟩
    rw [tokens_of_next hs, if_neg (by simp), ht]
    rfl
  case case3 l t l' hn hk ih =>
    have hl : l'.location.after l'.rest = l.location.after l.rest := by
      rw [← after_rest_next l, hn]
    cases hts : l'.tokens
    all_goals rw [hts] at h
    all_goals cases h
    case ok ts =>
    obtain ⟨before, rfl, hb⟩ := ih hts
    refine ⟨t :: before, by rw [hl]; rfl, ?_⟩
    rw [tokens_of_next (next_extend hn hk ds), if_neg hk, hb, hl]
    cases (⟨ds, stop.next '\n'⟩ : Lexer).tokens <;> rfl

end Newlines

end Lexer

-- A source with a line end and a further source after it has the tokens of the first without its
-- end, a separator where that end was, and the tokens of the second, as many lines further down as
-- there are before it. An error of the second is reported as many lines further down.
theorem tokenize_lines {a : String} {ts : List Token} (h : tokenize a = .ok ts) (b : String) :
    let lines := 1 + a.toList.count '\n'
    ∃ before stop, ts = before ++ [⟨.eof, stop⟩] ∧
      (∀ ts', tokenize b = .ok ts' → tokenize (a ++ "\n" ++ b) =
        .ok (before ++ ⟨.separator, stop⟩ :: ts'.map (·.down lines))) ∧
      ∀ e, tokenize b = .error e → tokenize (a ++ "\n" ++ b) = .error (e.down lines) := by
  intro lines
  obtain ⟨before, hts, hb⟩ := Lexer.tokens_extend h b.toList
  have hs : (Lexer.ofString a).extend ('\n' :: b.toList) = .ofString (a ++ "\n" ++ b) := by
    simp [Lexer.ofString, Lexer.extend]
  have hl : (⟨b.toList, (Location.start.after a.toList).next '\n'⟩ : Lexer) =
      (Lexer.ofString b).down lines := by
    rw [Location.after_start, Location.next_following]
    rfl
  have hb : tokenize (a ++ "\n" ++ b) = ((Lexer.ofString b).down lines).tokens.map
      (before ++ ⟨.separator, Location.start.after a.toList⟩ :: ·) := by
    rw [← hl, tokenize, ← hs]
    exact hb
  rw [Lexer.tokens_down] at hb
  refine ⟨before, _, hts, fun ts' h' => ?_, fun e h' => ?_⟩
  all_goals
    rw [tokenize] at h'
    rw [hb, h']
    rfl

-- The first source ends in a comment, and one that may come after it in the middle of a literal.
theorem tokenize_lines_comment :
    tokenize "x # \"" = .ok [⟨.word "x", ⟨1, 1⟩⟩, ⟨.eof, ⟨1, 6⟩⟩] ∧
    tokenize "y" = .ok [⟨.word "y", ⟨1, 1⟩⟩, ⟨.eof, ⟨1, 2⟩⟩] ∧
    tokenize ("x # \"" ++ "\n" ++ "y") = .ok [⟨.word "x", ⟨1, 1⟩⟩, ⟨.separator, ⟨1, 6⟩⟩,
      ⟨.word "y", ⟨2, 1⟩⟩, ⟨.eof, ⟨2, 2⟩⟩] ∧
    tokenize "y `z" = .error ⟨.unterminated .pattern, ⟨1, 3⟩⟩ ∧
    tokenize ("x # \"" ++ "\n" ++ "y `z") = .error ⟨.unterminated .pattern, ⟨2, 3⟩⟩ := by
  have hx : tokenize "x # \"" = .ok [⟨.word "x", ⟨1, 1⟩⟩, ⟨.eof, ⟨1, 6⟩⟩] := by decide +kernel
  have hy : tokenize "y" = .ok [⟨.word "y", ⟨1, 1⟩⟩, ⟨.eof, ⟨1, 2⟩⟩] := by decide +kernel
  have hz : tokenize "y `z" = .error ⟨.unterminated .pattern, ⟨1, 3⟩⟩ := by decide +kernel
  obtain ⟨before, stop, hts, ho, _⟩ := tokenize_lines hx "y"
  obtain ⟨_, _, _, _, he⟩ := tokenize_lines hx "y `z"
  have ht : [⟨.word "x", ⟨1, 1⟩⟩] ++ [⟨.eof, ⟨1, 6⟩⟩] = before ++ [⟨.eof, stop⟩] := hts
  obtain ⟨rfl, hs⟩ := List.append_inj' ht rfl
  cases hs
  exact ⟨hx, hy, ho _ hy, hz, he _ hz⟩

end PatternAction
