import PatternAction.Proofs.Syntax.Reading
import PatternAction.Proofs.Syntax.Rendering

namespace PatternAction

open Parse

namespace Level

-- The tokens that carry an expression of a level on.
def takes : Level → Kind → Bool
  | assignment, k    => k.assignment?.isSome
  | conditional, k   => k = .symbol .question
  | membership, k    => k = .keyword .in
  | matching, k      => k.matching?.isSome
  | concatenation, k => k.startsOperand
  | suffix, k        => k.stepAfter?.isSome
  | primary, k       => k = .symbol .leftParen || k = .symbol .leftBracket
  | l, k             => (l.operator? k).isSome

-- The tokens that only an expression of a level begins with.
def opens : Level → Kind → Bool
  | unary, k => k.unary?.isSome || k.stepBefore?.isSome
  | field, k => k = .symbol .dollar
  | _, _     => false

-- A token ends expressions of a level if no level from there on takes it.
def Stops (l : Level) (k : Kind) : Prop :=
  ∀ l' : Level, l.rank ≤ l'.rank → l'.takes k = false

-- A token that the levels from one up to another do not take.
def StopsUpTo (l u : Level) (k : Kind) : Prop :=
  ∀ l' : Level, l.rank ≤ l'.rank → l'.rank < u.rank → l'.takes k = false

variable {l l' u : Level} {k : Kind}

theorem rank_le (l : Level) : l.rank ≤ 14 := by
  cases l <;> decide

theorem rank_le_primary (l : Level) : l.rank ≤ primary.rank :=
  l.rank_le

theorem rank_tighter (h : l ≠ primary) : l.tighter.rank = l.rank + 1 := by
  cases l <;> first | rfl | exact absurd rfl h

theorem eq_of_rank_eq (h : l.rank = l'.rank) : l = l' := by
  cases l <;> cases l' <;> first | rfl | cases h

theorem Stops.mono (h : l.Stops k) (hl : l.rank ≤ l'.rank) : l'.Stops k :=
  fun _ h' => h _ (Nat.le_trans hl h')

theorem Stops.upTo (h : l.Stops k) : l.StopsUpTo u k :=
  fun _ h' _ => h _ h'

theorem Stops.takes (h : l.Stops k) : l.takes k = false :=
  h l (Nat.le_refl _)

theorem StopsUpTo.takes (h : l.StopsUpTo u k) (hl : l.rank < u.rank) : l.takes k = false :=
  h l (Nat.le_refl _) hl

theorem StopsUpTo.tighter (h : l.StopsUpTo u k) : l.tighter.StopsUpTo u k := by
  intro l' h' hu
  by_cases hp : l = primary
  · subst hp
    exact h l' h' hu
  · rw [rank_tighter hp] at h'
    exact h l' (by omega) hu

end Level

variable {l : Level} {k : Kind} {ks : List Kind} {stop : Kind → Prop} {P : Expr → Prop}
  {ending : Location} {n : Nat} {e : Expr} {ts rest : List Token}

-- The levels whose operators group to the left.
def Level.isLoop : Level → Bool
  | .disjunction | .conjunction | .membership | .concatenation | .additive | .multiplicative =>
    true
  | _ => false

-- What the parser does after the first operand at a level whose operators group to the left.
def Parse.loop (ending : Location) (n : Nat) : Level → Expr → Parse Expr
  | .membership, e    => members ending n e
  | .concatenation, e => joins ending n e
  | l, e              => chain ending n l e

theorem expression_loop (h : l.isLoop) :
    expression ending (n + 1) l = expression ending n l.tighter >>= loop ending n l := by
  cases l <;> first | rfl | cases h

theorem run_loop_nil (h : l.isLoop) (hs : l.takes (kindOf ts) = false) :
    (loop ending (n + 1) l e).run ts = .ok (e, ts) := by
  cases l <;> try cases h
  case membership =>
    rw [loop, members, run_here, run_not_accept (of_decide_eq_false hs)]
    rfl
  case concatenation =>
    have hk : (kindOf ts).startsOperand = false := hs
    rw [loop, joins, run_peek, if_neg (Bool.eq_false_iff.mp hk)]
    rfl
  all_goals
    simp only [Level.takes, Option.isSome_eq_false_iff, Option.isNone_iff_eq_none] at hs
    simp only [loop]
    rw [chain, run_here, run_peek, hs]
    rfl

theorem run_of_tighter (hl : l ≠ .primary) (ho : l.opens (kindOf ts) = false)
    (hs : l.takes (kindOf rest) = false)
    (h : (expression ending (n + 1) l.tighter).run ts = .ok (e, rest)) :
    (expression ending (n + 2) l).run ts = .ok (e, rest) := by
  by_cases hi : l.isLoop
  · rw [expression_loop hi, run_bind h]
    exact run_loop_nil hi hs
  cases l <;> first | exact absurd rfl hi | exact absurd rfl hl | rw [expression]
  all_goals rw [Level.tighter] at h
  case conditional =>
    rw [run_bind h, run_here, run_not_accept (of_decide_eq_false hs)]
    rfl
  case unary =>
    simp only [Level.opens, Bool.or_eq_false_iff, Option.isSome_eq_false_iff,
      Option.isNone_iff_eq_none] at ho
    rw [run_here, run_peek, ho.1, ho.2]
    exact h
  case field =>
    rw [run_here, run_not_accept (of_decide_eq_false ho)]
    exact h
  -- the other levels look at the token after an operand, and return the operand
  all_goals
    simp only [Level.takes, Option.isSome_eq_false_iff, Option.isNone_iff_eq_none] at hs
    rw [run_bind h, run_here, run_peek, hs]
    rfl

theorem run_of_looser {u : Level} {d : Nat} (hd : u.rank = l.rank + d)
    (ho : ∀ l' : Level, l'.rank < u.rank → l'.opens (kindOf ts) = false)
    (hs : l.StopsUpTo u (kindOf rest))
    (h : (expression ending (n + 1) u).run ts = .ok (e, rest)) :
    (expression ending (n + d + 1) l).run ts = .ok (e, rest) := by
  induction d generalizing l
  case zero =>
    cases Level.eq_of_rank_eq hd
    exact h
  case succ d ih =>
    have hp : l ≠ .primary := by
      have := u.rank_le_primary
      rintro rfl
      omega
    have ht := Level.rank_tighter hp
    exact run_of_tighter hp (ho l (by omega)) (hs.takes (by omega)) (ih (by omega) hs.tighter)

theorem run_number {numeral : String} {location : Location} (hs : l.Stops (kindOf ts))
    (hn : 16 ≤ n + l.rank) :
    (expression ending n l).run (⟨.number numeral, location⟩ :: ts) =
      .ok (.constant numeral location, ts) := by
  obtain ⟨d, hd⟩ := Nat.exists_eq_add_of_le l.rank_le_primary
  have hp : 14 = l.rank + d := hd
  obtain ⟨m, rfl⟩ : ∃ m, n = m + 1 + d + 1 := ⟨n - d - 2, by omega⟩
  refine run_of_looser hd (fun l' _ => ?_) hs.upTo rfl
  cases l' <;> rfl

theorem reads_loop_nil (h : l.isLoop) (hs : ∀ k, stop k → l.takes k = false) (he : P e) :
    Reads (loop ending (n + 1) l e) [] stop P := by
  intro ts rest hts hrest
  cases List.map_eq_nil_iff.mp hts
  exact ⟨e, run_loop_nil h (hs _ hrest), he⟩

-- Fuel for some tokens at a level. Each token lets the parser go down and up the whole ladder.
def Enough (n : Nat) (ks : List Kind) (l : Level) : Prop :=
  32 * ks.length ≤ n + l.rank

theorem reads_of_looser {u : Level} (hl : l.rank ≤ u.rank)
    (h : ∀ n, Enough n (k :: ks) u → Reads (expression ending n u) (k :: ks) stop P)
    (hs : ∀ k, stop k → l.StopsUpTo u k)
    (ho : ∀ l' : Level, l'.rank < u.rank → l'.opens k = false)
    (hn : Enough n (k :: ks) l) : Reads (expression ending n l) (k :: ks) stop P := by
  intro ts rest hts hrest
  obtain ⟨d, hd⟩ := Nat.exists_eq_add_of_le hl
  have hr := u.rank_le
  simp only [Enough, List.length_cons] at hn
  obtain ⟨m, rfl⟩ : ∃ m, n = m + d + 1 := ⟨n - d - 1, by omega⟩
  have hm : Enough (m + 1) (k :: ks) u := by
    simp only [Enough, List.length_cons]
    omega
  obtain ⟨e, he, hp⟩ := h _ hm ts rest hts hrest
  have hk : kindOf (ts ++ rest) = k := by rw [kindOf_append, hts, headKind_cons]
  exact ⟨e, run_of_looser hd (by rwa [hk]) (hs _ hrest) he, hp⟩

end PatternAction
