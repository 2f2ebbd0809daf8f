import Mathlib.Logic.Function.Iterate
import PatternAction.Proofs.Lexical.Scanning

namespace PatternAction

theorem Gap.head {cs rest : List Char} (h : Gap rest cs) :
    ∀ c ∈ rest.head?, Lexer.isGapBlank c = false ∧ c ≠ '#' := by
  induction h
  case done h => exact h
  case blank ih => exact ih
  case comment h =>
    intro c hc
    rw [h c hc]
    decide

namespace Scan

-- There is more to come: this is not the end of the text, and something begins here.
def isPiece (s : Scan) : Bool :=
  match s.result with
  | .ok .eof | .error (.unexpected _) => false
  | _                                 => true

-- What reading at the head of a text can come to.
inductive Outcome : List Char → Scan → Prop
  | done  : Outcome [] ⟨.ok .eof, [], []⟩
  | stop  : Outcome (c :: cs) ⟨.error (.unexpected c), [], c :: cs⟩
  | piece : s.isPiece → s.taken ≠ [] → Outcome cs s

end Scan

namespace Lexer

section Scans

theorem isPiece_quotation (q : Quotation) (text cs : List Char) :
    (quotation q text cs).isPiece := by
  fun_induction quotation q text cs <;> simp_all [Scan.isPiece, Scan.cons]

theorem isPiece_number (point : Bool) (text cs : List Char) : (number point text cs).isPiece := by
  fun_induction number point text cs <;> simp_all [Scan.isPiece, Scan.cons]

theorem isPiece_word (cs : List Char) : (word cs).isPiece := by
  rw [Scan.isPiece, word]
  cases Keyword.ofSpelling? (.ofList (cs.takeWhile isWordChar)) <;> rfl

theorem outcome_symbol (c : Char) (cs : List Char) : Scan.Outcome (c :: cs) (symbol c cs) := by
  unfold symbol
  split
  case h_1 => exact .piece rfl (by simp)
  case h_2 =>
    split
    case h_1 => exact .piece rfl (by simp)
    case h_2 =>
      split
      case isTrue => exact .piece rfl (by simp)
      case isFalse => exact .stop

theorem outcome_lexeme (cs : List Char) : Scan.Outcome cs (lexeme cs) := by
  cases cs
  case nil => exact .done
  case cons c cs =>
    rw [lexeme]
    split
    case isTrue => exact .piece rfl (by simp)
    split
    case isTrue => exact .piece (isPiece_quotation _ _ _) (by simp [Scan.cons])
    split
    case isTrue => exact .piece (isPiece_quotation _ _ _) (by simp [Scan.cons])
    split
    case isTrue h =>
      exact .piece (isPiece_number _ _ _) (number_taken_ne_nil (h.imp_right And.left))
    split
    case isTrue h =>
      exact .piece (isPiece_word _) (by simp [word, isWordChar, Char.isAlphanum, h])
    case isFalse => exact outcome_symbol c cs

end Scans

-- What a step skips, and what it takes after that.
def skipped (l : Lexer) : List Char := (gap false l.rest).1

def taken (l : Lexer) : List Char := (lexeme (gap false l.rest).2).taken

section Next

variable {l : Lexer}

theorem rest_next (l : Lexer) : l.skipped ++ l.taken ++ l.next.2.rest = l.rest := by
  rw [List.append_assoc]
  simp only [skipped, taken, next, lexeme_append, gap_append]

theorem location_next (l : Lexer) :
    l.next.2.location = l.location.after (l.skipped ++ l.taken) := by
  rw [Location.after_append]
  rfl

theorem gap_skipped (l : Lexer) : Gap (l.taken ++ l.next.2.rest) l.skipped := by
  have h := gap_of_gap l.rest
  rwa [← lexeme_append (gap false l.rest).2] at h

-- What a step can come to.
inductive Progress (l : Lexer) : Prop
  | done  : l.next.1 = .ok ⟨.eof, l.next.2.location⟩ → l.taken = [] → l.next.2.rest = [] →
              Progress l
  | stop  : l.next.1 = .error ⟨.unexpected c, l.next.2.location⟩ → l.taken = [] →
              l.next.2.rest = c :: cs → Progress l
  | piece : (∀ t, l.next.1 = .ok t → t.kind ≠ .eof) →
              (∀ e, l.next.1 = .error e → ∀ c, e.cause ≠ .unexpected c) → l.taken ≠ [] →
              Progress l

theorem progress (l : Lexer) : Progress l := by
  have ho := outcome_lexeme (gap false l.rest).2
  generalize hs : lexeme (gap false l.rest).2 = s at ho
  generalize (gap false l.rest).2 = text at ho
  have ht : l.taken = s.taken := congrArg Scan.taken hs
  cases ho
  case done => exact .done (by simp [next, hs]) ht (by simp [next, hs])
  case stop c cs =>
    have hr : l.next.2.rest = c :: cs := by simp [next, hs]
    exact .stop (by simp [next, hs, LexicalCause.reportedAtEnd]) ht hr
  case piece hp hn =>
    refine .piece (fun t h => ?_) (fun e h => ?_) (ht ▸ hn)
    all_goals
      simp only [next, hs] at h
      split at h <;> cases h
    case h_1 k hk =>
      rintro rfl
      simp [Scan.isPiece, hk] at hp
    case h_2 cause hk =>
      rintro c rfl
      simp [Scan.isPiece, hk] at hp

theorem end_of_eof {t : Token} (h : l.next.1 = .ok t) (hk : t.kind = .eof) :
    l.taken = [] ∧ l.next.2.rest = [] := by
  cases l.progress
  case done _ ht hr => exact ⟨ht, hr⟩
  case stop ha _ _ => cases h.symm.trans ha
  case piece hn _ _ => exact absurd hk (hn t h)

theorem stop_of_unexpected {c : Char} {place : Location}
    (h : l.next.1 = .error ⟨.unexpected c, place⟩) :
    l.taken = [] ∧ l.next.2.rest.head? = some c ∧ l.next.2.location = place := by
  cases l.progress
  case done ha _ _ => cases h.symm.trans ha
  case stop ha ht hr =>
    cases h.symm.trans ha
    exact ⟨ht, congrArg List.head? hr, rfl⟩
  case piece _ hn _ => exact absurd rfl (hn _ h c)

theorem taken_ne_nil (ht : ∀ t, l.next.1 = .ok t → t.kind ≠ .eof)
    (he : ∀ e, l.next.1 = .error e → ∀ c, e.cause ≠ .unexpected c) : l.taken ≠ [] := by
  cases l.progress
  case done ha _ _ => exact absurd rfl (ht _ ha)
  case stop c _ ha _ _ => exact absurd rfl (he _ ha c)
  case piece hn => exact hn

theorem next_of_taken_eq_nil (h : l.taken = []) : l.next.2.next = l.next := by
  have hr : (lexeme (gap false l.rest).2).rest = (gap false l.rest).2 := by
    have ha := lexeme_append (gap false l.rest).2
    rwa [show (lexeme (gap false l.rest).2).taken = [] from h] at ha
  have hg : gap false (gap false l.rest).2 = ([], (gap false l.rest).2) :=
    gap_eq_of_gap (.done (gap_of_gap l.rest).head)
  have ht : (lexeme (gap false l.rest).2).taken = [] := h
  simp only [next, hr, hg, ht, Location.after_nil]

end Next

def steps (n : Nat) (l : Lexer) : Lexer := (fun l => l.next.2)^[n] l

section Standing

variable {l : Lexer} {n : Nat}

theorem steps_succ (n : Nat) (l : Lexer) : l.steps (n + 1) = (l.steps n).next.2 :=
  Function.iterate_succ_apply' _ n l

theorem steps_next (n : Nat) (l : Lexer) : l.steps (n + 1) = l.next.2.steps n :=
  Function.iterate_succ_apply _ n l

theorem steps_add (m n : Nat) (l : Lexer) : l.steps (n + m) = (l.steps n).steps m := by
  rw [Nat.add_comm]
  exact Function.iterate_add_apply _ m n l

theorem steps_of_taken_eq_nil (h : l.taken = []) (n : Nat) : l.next.2.steps n = l.next.2 :=
  Function.iterate_fixed (congrArg Prod.snd (next_of_taken_eq_nil h)) n

theorem next_steps_of_taken_eq_nil (h : l.taken = []) : (n : Nat) → (l.steps n).next = l.next
  | 0     => rfl
  | n + 1 => by rw [steps_next, steps_of_taken_eq_nil h, next_of_taken_eq_nil h]

-- Every other step leaves less to read, so that this comes after as many steps as there are
-- characters at the latest.
theorem exists_taken_eq_nil (l : Lexer) : ∃ n ≤ l.rest.length, (l.steps n).taken = [] := by
  by_cases h : l.taken = []
  case pos => exact ⟨0, Nat.zero_le _, h⟩
  case neg =>
    have hl : l.next.2.rest.length < l.rest.length := by
      have := List.length_pos_iff.mpr h
      rw [← rest_next l]
      simp only [List.length_append]
      omega
    obtain ⟨n, hn, ht⟩ := exists_taken_eq_nil l.next.2
    exact ⟨n + 1, by omega, by rwa [steps_next]⟩
termination_by l.rest.length

theorem next_steps_of_length_le (h : l.rest.length ≤ n) :
    (l.steps n).next = (l.steps l.rest.length).next := by
  obtain ⟨m, hm, ht⟩ := exists_taken_eq_nil l
  have hs {k : Nat} (hk : l.rest.length ≤ k) : (l.steps k).next = (l.steps m).next := by
    rw [← Nat.add_sub_cancel' (Nat.le_trans hm hk), steps_add]
    exact next_steps_of_taken_eq_nil ht _
  rw [hs h, hs (Nat.le_refl _)]

theorem tokens_of_stop (h : ∀ t, l.next.1 = .ok t → t.kind = .eof) :
    l.tokens = (List.range 1).mapM fun i => (l.steps i).next.1 := by
  change _ = (do let t ← l.next.1; pure [t])
  cases ha : l.next.1
  case error e => exact tokens_of_next_error (Prod.ext ha rfl)
  case ok t => rw [tokens_of_next (Prod.ext ha rfl), if_pos (h t ha)]; rfl

theorem tokens_of_piece {t : Token} (ha : l.next.1 = .ok t) (hk : t.kind ≠ .eof)
    (h : l.next.2.tokens = (List.range n).mapM fun i => (l.next.2.steps i).next.1) :
    l.tokens = (List.range (n + 1)).mapM fun i => (l.steps i).next.1 := by
  have hs : (fun i => (l.steps i).next.1) ∘ Nat.succ = fun i => (l.next.2.steps i).next.1 :=
    funext fun i => congrArg (·.next.1) (steps_next i l)
  rw [tokens_of_next (Prod.ext ha rfl), if_neg hk, h, List.range_succ_eq_map, List.mapM_cons,
    List.mapM_map, hs]
  change _ = (do let t ← l.next.1; let ts ← _; pure (t :: ts))
  rw [ha]
  cases (List.range n).mapM fun i => (l.next.2.steps i).next.1 <;> rfl

theorem exists_tokens_eq (l : Lexer) : ∃ n ≤ l.rest.length,
    (∀ i < n, ∃ t, (l.steps i).next.1 = .ok t ∧ t.kind ≠ .eof) ∧
    (∀ t, (l.steps n).next.1 = .ok t → t.kind = .eof) ∧
    l.tokens = (List.range (n + 1)).mapM fun i => (l.steps i).next.1 := by
  by_cases h : ∀ t, l.next.1 = .ok t → t.kind = .eof
  case pos =>
    exact ⟨0, Nat.zero_le _, fun i hi => absurd hi (Nat.not_lt_zero i), h, tokens_of_stop h⟩
  case neg =>
    push Not at h
    obtain ⟨t, ha, hk⟩ := h
    have hl := length_next_lt ha hk
    obtain ⟨n, hn, hi, he, hm⟩ := exists_tokens_eq l.next.2
    refine ⟨n + 1, by omega, fun i hin => ?_, by rwa [steps_next], tokens_of_piece ha hk hm⟩
    cases i
    case zero => exact ⟨t, ha, hk⟩
    case succ i =>
      rw [steps_next]
      exact hi i (Nat.lt_of_succ_lt_succ hin)
termination_by l.rest.length

end Standing

-- A source after some steps, whatever they yield, and what the next one yields.
def reading (source : String) (n : Nat) : Lexer := (ofString source).steps n

def answer (source : String) (n : Nat) : Except LexicalError Token := (reading source n).next.1

section Reading

variable {source : String} {n : Nat}

theorem reading_succ (source : String) (n : Nat) :
    reading source (n + 1) = (reading source n).next.2 :=
  steps_succ n _

theorem reading_add (source : String) (n k : Nat) :
    reading source (n + k) = (reading source n).steps k :=
  steps_add k n _

theorem answer_add (h : (reading source n).taken = []) (k : Nat) :
    answer source (n + k) = answer source n := by
  rw [answer, reading_add, next_steps_of_taken_eq_nil h, answer]

theorem reading_add_succ (h : (reading source n).taken = []) (k : Nat) :
    reading source (n + 1 + k) = reading source (n + 1) := by
  rw [reading_add, reading_succ, steps_of_taken_eq_nil h]

theorem exists_before (source : String) (n : Nat) : ∃ before,
    before ++ (reading source n).rest = source.toList ∧
    (reading source n).location = .following before := by
  induction n
  case zero => exact ⟨[], rfl, rfl⟩
  case succ n ih =>
    obtain ⟨before, hr, hl⟩ := ih
    let l := reading source n
    refine ⟨before ++ (l.skipped ++ l.taken), ?_, ?_⟩
    · rw [reading_succ, List.append_assoc, rest_next, hr]
    · rw [reading_succ, location_next, hl, Location.following_append]

end Reading

-- However many steps are taken, after errors too, the place is that after the characters read so
-- far. A step that comes to the end leaves nothing, and one that comes to a character that
-- nothing begins with stays before it; either is the answer of all further steps. Every other
-- step takes at least one character after the gap that it skips. So there are at most as many
-- other steps as there are characters, and reading all tokens ends with the first step that gives
-- an error or the end.
theorem reading_progresses (source : String) :
    (∀ n, ∃ before, before ++ (reading source n).rest = source.toList ∧
      (reading source n).location = .following before) ∧
    (∀ n t, answer source n = .ok t → t.kind = .eof →
      (reading source (n + 1)).rest = [] ∧ ∀ k, answer source (n + k) = .ok t) ∧
    (∀ n c l, answer source n = .error ⟨.unexpected c, l⟩ →
      (reading source (n + 1)).rest.head? = some c ∧ (reading source (n + 1)).location = l ∧
      ∀ k, answer source (n + k) = .error ⟨.unexpected c, l⟩ ∧
        reading source (n + 1 + k) = reading source (n + 1)) ∧
    (∀ n, (∀ t, answer source n = .ok t → t.kind ≠ .eof) →
      (∀ e, answer source n = .error e → ∀ c, e.cause ≠ .unexpected c) →
      ∃ gap taken, gap ++ taken ++ (reading source (n + 1)).rest = (reading source n).rest ∧
        Gap (taken ++ (reading source (n + 1)).rest) gap ∧ taken ≠ []) ∧
    (∀ n ≥ source.length, answer source n = answer source source.length) ∧
    ∃ n ≤ source.length, (∀ i < n, ∃ t, answer source i = .ok t ∧ t.kind ≠ .eof) ∧
      (∀ t, answer source n = .ok t → t.kind = .eof) ∧
      tokenize source = (List.range (n + 1)).mapM (answer source) := by
  refine ⟨exists_before source, fun n t ht hk => ?_, fun n c l he => ?_, fun n ht he => ?_,
    fun n hn => ?_, (ofString source).exists_tokens_eq⟩
  · obtain ⟨hn, hr⟩ := end_of_eof ht hk
    exact ⟨by rw [reading_succ, hr], fun k => (answer_add hn k).trans ht⟩
  · obtain ⟨hn, hr, hl⟩ := stop_of_unexpected he
    refine ⟨by rw [reading_succ, hr], by rw [reading_succ, hl], fun k => ?_⟩
    exact ⟨(answer_add hn k).trans he, reading_add_succ hn k⟩
  · rw [reading_succ]
    exact ⟨_, _, (reading source n).rest_next, (reading source n).gap_skipped,
      taken_ne_nil ht he⟩
  · exact congrArg Prod.fst (next_steps_of_length_le hn)

-- A lone ampersand, a number with two points, and a character that nothing begins with.
theorem reading_progresses_stuck :
    answer "& 1.2.3@" 0 = .error ⟨.loneAmpersand, ⟨1, 1⟩⟩ ∧
    answer "& 1.2.3@" 1 = .error ⟨.secondPoint, ⟨1, 6⟩⟩ ∧
    (∃ gap taken, gap ++ taken ++ (reading "& 1.2.3@" 2).rest = (reading "& 1.2.3@" 1).rest ∧
      Gap (taken ++ (reading "& 1.2.3@" 2).rest) gap ∧ taken ≠ []) ∧
    answer "& 1.2.3@" 2 = .ok ⟨.number ".3", ⟨1, 6⟩⟩ ∧
    (∀ k, answer "& 1.2.3@" (3 + k) = .error ⟨.unexpected '@', ⟨1, 8⟩⟩) ∧
    ∀ k, answer "x" (1 + k) = .ok ⟨.eof, ⟨1, 2⟩⟩ := by
  have hx : answer "x" 1 = .ok ⟨.eof, ⟨1, 2⟩⟩ := by decide +kernel
  have h₁ : answer "& 1.2.3@" 1 = .error ⟨.secondPoint, ⟨1, 6⟩⟩ := by decide +kernel
  have h₃ : answer "& 1.2.3@" 3 = .error ⟨.unexpected '@', ⟨1, 8⟩⟩ := by decide +kernel
  obtain ⟨_, _, hstop, hpiece, _⟩ := reading_progresses "& 1.2.3@"
  obtain ⟨_, hend, _⟩ := reading_progresses "x"
  refine ⟨by decide +kernel, h₁, hpiece 1 ?_ ?_, by decide +kernel, fun k => ?_, fun k => ?_⟩
  · intro t ht
    cases h₁.symm.trans ht
  · intro e he c hc
    cases h₁.symm.trans he
    cases hc
  · exact ((hstop 3 _ _ h₃).2.2 k).1
  · exact (hend 1 _ hx rfl).2 k

end Lexer

end PatternAction
