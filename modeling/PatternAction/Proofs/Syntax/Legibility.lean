import PatternAction.Proofs.Syntax.Ladder

namespace PatternAction

open Parse Kind

variable {numeral : String → Bool} {ending : Location} {n : Nat} {l : Level} {e : Expr}
  {k : Kind} {ks : List Kind}

def Expr.Alike (e e' : Expr) : Prop :=
  e'.unplaced = e.unplaced

-- The first token of an expression of a level begins an expression, and is none that a looser
-- level would keep to itself.
def Begins (ks : List Kind) (l : Level) : Prop :=
  ∃ k ks', ks = k :: ks' ∧ k.startsExpression ∧ ∀ l' : Level, l'.rank < l.rank → l'.opens k = false

namespace Begins

theorem append {ks'} : Begins ks l → Begins (ks ++ ks') l
  | ⟨k, _, h, hk⟩ => ⟨k, _, by rw [h, List.cons_append], hk⟩

theorem looser {u : Level} (hl : l.rank ≤ u.rank) : Begins ks u → Begins ks l
  | ⟨k, _, h, hk, ho⟩ => ⟨k, _, h, hk, fun l' h' => ho l' (by omega)⟩

theorem enclosed : Begins (enclosed ks) l :=
  ⟨_, _, rfl, rfl, fun l' _ => by cases l' <;> rfl⟩

theorem of_loose {u : Level} (hl : l.rank < Level.unary.rank) : Begins ks u → Begins ks l
  | ⟨k, _, h, hk, _⟩ => by
    refine ⟨k, _, h, hk, fun l' h' => ?_⟩
    cases l' <;> first | rfl | (exfalso; revert hl h'; simp only [Level.rank]; omega)

theorem placed {fits : Bool} {u : Level} (h : Begins ks u) (hl : fits → l.rank ≤ u.rank) :
    Begins (placed fits ks) l := by
  cases fits
  case false => exact .enclosed
  case true  => exact h.looser (hl rfl)

end Begins

theorem Expr.rank_le_of_fits (h : e.fits l) : l.rank ≤ e.level.rank := by
  simp only [fits, Bool.and_eq_true, decide_eq_true_eq] at h
  exact h.2

theorem Begins.tokensAt (h : Begins (e.tokens numeral) e.level) : Begins (e.tokensAt numeral l) l :=
  h.placed Expr.rank_le_of_fits

theorem BinaryOp.rank_level_lt (op : BinaryOp) : op.level.rank < Level.unary.rank := by
  rcases op with ⟨⟨⟩⟩ | ⟨⟨⟩⟩ | _ | _ | _ <;> decide

variable (numeral) in
theorem begins_tokens : (e : Expr) → Begins (e.tokens numeral) e.level
  | .constant text _ => by
    refine ⟨_, _, by rw [Expr.tokens], ?_, fun l' _ => ?_⟩ <;> split
    case refine_2.isTrue | refine_2.isFalse => cases l' <;> rfl
    all_goals rfl
  | .pattern .. | .name .. | .element .. =>
    ⟨_, _, by rw [Expr.tokens], rfl, fun l' _ => by cases l' <;> rfl⟩
  | .field .. =>
    ⟨_, _, by rw [Expr.tokens], rfl, fun l' h => by
      cases l' <;> first | rfl | simp [Expr.level, Level.rank] at h⟩
  | .binary op left right _ => by
    rw [Expr.tokens, Expr.level]
    split
    case h_1 => exact Begins.of_loose op.rank_level_lt (begins_tokens left).tokensAt.append
    case h_2 =>
      refine Begins.of_loose op.rank_level_lt (Begins.append (l := left.level) ?_)
      exact (begins_tokens left).placed fun _ => Nat.le_refl _
  | .unary op _ _ => by
    refine ⟨_, _, by rw [Expr.tokens], ?_, fun l' h => ?_⟩
    · cases op <;> rfl
    · cases l' <;> first | rfl | simp [Expr.level, Level.rank] at h
  | .step op target _ => by
    rw [Expr.tokens, Expr.level]
    split
    case isTrue =>
      refine ⟨_, _, rfl, ?_, fun l' h => ?_⟩
      · cases op <;> rfl
      · cases l' <;> first | rfl | simp [Level.rank] at h
    case isFalse => exact ((begins_tokens target).tokensAt.append).looser (by decide)
  | .assign target _ _ => by
    rw [Expr.tokens, Expr.level]
    exact Begins.of_loose (by decide) (begins_tokens target).tokensAt.append
  | .conditional test _ _ _ => by
    rw [Expr.tokens, Expr.level]
    exact Begins.of_loose (by decide) (begins_tokens test).tokensAt.append
  | .member key _ _ => by
    rw [Expr.tokens, Expr.level]
    exact Begins.of_loose (by decide) (begins_tokens key).tokensAt.append
  | .search subject _ _ _ => by
    rw [Expr.tokens, Expr.level]
    exact Begins.of_loose (by decide) (begins_tokens subject).tokensAt.append
  | .call function _ _ => by
    rw [Expr.tokens]
    split
    case h_1 k hk =>
      refine ⟨_, _, rfl, ?_, fun l' _ => by cases l' <;> rfl⟩
      unfold Keyword.calling? at hk
      split at hk <;> cases hk <;> rfl
    case h_2 => exact ⟨_, _, rfl, rfl, fun l' _ => by cases l' <;> rfl⟩

-- An expression can be read off its tokens wherever a level is asked for.
def Readable (numeral : String → Bool) (e : Expr) : Prop :=
  ∀ ending l n, Enough n (e.tokensAt numeral l) l →
    Reads (expression ending n l) (e.tokensAt numeral l) l.Stops e.Alike

-- What may follow the tokens of an expression that has no parentheses around it.
def Expr.Ends (e : Expr) (k : Kind) : Prop :=
  if e.isExit then k = .symbol .rightParen else e.level.Stops k

-- An expression can be read off its tokens at its own level.
def Legible (numeral : String → Bool) (e : Expr) : Prop :=
  ∀ ending n, Enough n (e.tokens numeral) e.level →
    Reads (expression ending n e.level) (e.tokens numeral) e.Ends e.Alike

theorem stops_rightParen : l.Stops (.symbol .rightParen) := by
  intro l' _
  cases l' <;> rfl

theorem reads_enclosed {P : Expr → Prop} (hn : Enough n (enclosed ks) l)
    (h : ∀ n, Enough n ks .assignment →
      Reads (expression ending n .assignment) ks (· = .symbol .rightParen) P) :
    Reads (expression ending n l) (enclosed ks) (l.StopsUpTo .primary) P := by
  refine reads_of_looser l.rank_le_primary (fun n hn => ?_) (fun _ hk => hk)
    (fun l' _ => by cases l' <;> rfl) hn
  simp only [Enough, List.length_cons, List.length_append, Level.rank] at hn
  obtain ⟨m, rfl⟩ : ∃ m, n = m + 2 := ⟨n - 2, by omega⟩
  rw [expression, primary]
  refine .here fun _ => .peek_cons (.skip ?_)
  refine (h m ?_).bind (fun _ _ => rfl) fun _ he => .expect (.pure he)
  simp only [Enough, Level.rank]
  omega

theorem Legible.enclosed (h : Legible numeral e) (hn : Enough n (enclosed (e.tokens numeral)) l) :
    Reads (expression ending n l) (enclosed (e.tokens numeral)) (l.StopsUpTo .primary) e.Alike := by
  refine reads_enclosed hn fun n hn => ?_
  have ⟨k, ks, hk, _, ho⟩ := begins_tokens numeral e
  rw [hk] at hn ⊢
  refine reads_of_looser (Nat.zero_le _) (fun n hn => ?_) ?_ ho hn
  · rw [← hk] at hn ⊢
    refine (h ending n hn).stop_of fun k hk => ?_
    rw [Expr.Ends]
    split
    · exact hk
    · exact hk ▸ stops_rightParen
  · rintro k rfl
    exact stops_rightParen.upTo

theorem Legible.readable (h : Legible numeral e) : Readable numeral e := by
  intro ending l n hn
  by_cases hf : e.fits l
  case pos =>
    have ⟨k, ks, hk, _, ho⟩ := begins_tokens numeral e
    have hl := Expr.rank_le_of_fits hf
    have he : e.isExit = false := by
      simp only [Expr.fits, Bool.and_eq_true, Bool.not_eq_true'] at hf
      exact hf.1
    simp only [Expr.tokensAt, placed, hf, if_true, hk] at hn ⊢
    refine reads_of_looser hl (fun n hn => ?_) (fun _ hk => hk.upTo) ho hn
    rw [← hk] at hn ⊢
    refine (h ending n hn).stop_of fun k hk => ?_
    rw [Expr.Ends, if_neg (by simp [he])]
    exact hk.mono hl
  case neg =>
    simp only [Expr.tokensAt, placed, hf] at hn ⊢
    exact (h.enclosed hn).stop_of fun _ hk => hk.upTo

-- The tokens of the left operand of an operator that groups to the left.
def Expr.leftTokens (numeral : String → Bool) (l : Level) (e : Expr) : List Kind :=
  if l = .concatenation then placed e.isJoin (e.tokens numeral) else e.tokensAt numeral l

-- What may follow a left operand. One of a concatenation ends with a parenthesis.
def Level.Lets (l : Level) (k : Kind) : Prop :=
  if l = .concatenation then Level.additive.StopsUpTo .primary k else l.tighter.Stops k

-- A left operand is read as the beginning of whatever the loop at its level goes on with. The
-- fuel left is what the tokens of the operand did not need.
def Leads (numeral : String → Bool) (l : Level) (e : Expr) : Prop :=
  ∀ ending n ks stop (P : Expr → Prop), Enough (n + 1) (e.leftTokens numeral l) l →
    (∀ k, stop k → l.Lets (headKind ks k)) →
    (∀ m e', n + 32 ≤ m + 32 * (e.leftTokens numeral l).length → e.Alike e' →
      Reads (loop ending m l e') ks stop P) →
    Reads (expression ending (n + 1) l) (e.leftTokens numeral l ++ ks) stop P

theorem Expr.isJoin_iff : e.isJoin ↔ e.level = .concatenation := by
  cases e <;> try simp [isJoin, level]
  case binary op _ _ _ => rcases op with ⟨⟨⟩⟩ | ⟨⟨⟩⟩ | _ | _ | _ <;> simp [BinaryOp.level]
  case step op _ _     => cases op <;> simp [Step.isBefore]

theorem Level.Stops.lets (h : l.Stops k) (hp : l ≠ .primary) : l.Lets k := by
  have ht := rank_tighter hp
  rw [Lets]
  split
  case isTrue hc =>
    subst hc
    exact (h.mono (by decide)).upTo
  case isFalse => exact h.mono (by omega)

theorem Begins.length_pos : Begins ks l → 0 < ks.length
  | ⟨_, _, h, _⟩ => by simp [h]

theorem Legible.leads (h : Legible numeral e) (hl : l.isLoop) (he : e.level ≠ l) :
    Leads numeral l e := by
  intro ending n ks stop P hn hs hk
  rw [expression_loop hl]
  have ht := Level.rank_tighter (l := l) (by rintro rfl; cases hl)
  by_cases hc : l = .concatenation
  case pos =>
    subst hc
    have hj : e.isJoin = false := by simpa using mt Expr.isJoin_iff.mp he
    have hp := (@Begins.enclosed .concatenation (e.tokens numeral)).length_pos
    simp only [Expr.leftTokens, Level.Lets, if_pos, hj, placed, Bool.false_eq_true, if_false]
      at hn hs hk ⊢
    refine (h.enclosed ?_).bind hs fun e' he' => hk n e' (by omega) he'
    simp only [Enough, Level.rank, Level.tighter] at hn ⊢
    omega
  case neg =>
    have hf : e.fits l = e.fits l.tighter := by
      have : e.level.rank ≠ l.rank := mt Level.eq_of_rank_eq he
      simp only [Expr.fits, ht]
      congr 1
      rw [decide_eq_decide]
      omega
    have hp := (begins_tokens numeral e).tokensAt (l := l) |>.length_pos
    simp only [Expr.leftTokens, Level.Lets, if_neg hc] at hn hs hk ⊢
    have hr := h.readable ending l.tighter n
    simp only [Expr.tokensAt, ← hf] at hn hk hp hr ⊢
    refine (hr ?_).bind hs fun e' he' => hk n e' ?_ he'
    · simp only [Enough, ht] at hn ⊢
      omega
    · omega

variable (numeral) in
theorem Expr.leftTokens_level (e : Expr) (hl : e.level.isLoop) :
    e.leftTokens numeral e.level = e.tokens numeral := by
  have hx : e.isExit = false := by
    cases e <;> first | rfl | cases hl
  rw [leftTokens]
  split
  case isTrue hc => rw [isJoin_iff.mpr hc, placed, if_pos rfl]
  case isFalse   => simp [tokensAt, fits, hx, placed]

theorem Leads.legible (h : Leads numeral e.level e) (hl : e.level.isLoop) : Legible numeral e := by
  intro ending n hn
  have hx : e.isExit = false := by
    cases e <;> first | rfl | cases hl
  have hs : e.Ends = e.level.Stops := by
    funext k
    simp [Expr.Ends, hx]
  have hp := (begins_tokens numeral e).length_pos
  have hr := e.level.rank_le
  rw [Enough] at hn
  obtain ⟨m, rfl⟩ : ∃ m, n = m + 1 := ⟨n - 1, by omega⟩
  have hm := h ending m [] e.level.Stops e.Alike
  rw [e.leftTokens_level numeral hl, List.append_nil] at hm
  rw [hs]
  refine hm hn (fun k hk => hk.lets (by rintro h; rw [h] at hl; cases hl)) fun m' e' hm' he' => ?_
  obtain ⟨m', rfl⟩ : ∃ i, m' = i + 1 := ⟨m' - 1, by omega⟩
  exact reads_loop_nil hl (fun _ hk => hk.takes) he'

end PatternAction
