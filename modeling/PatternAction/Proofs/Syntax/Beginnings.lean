import PatternAction.Proofs.Syntax.Consumption

namespace PatternAction.Parse

variable {α β : Type} {x : Parse α} {f : α → Parse β} {k c : Kind} {ts : List Token} {e : Expr}
  {rest : List Token} {ending : Location} {n : Nat}

section Misses

-- A step that fails on the spot for want of an expression, where the next token is of a kind.
def Misses (ending : Location) (k : Kind) (x : Parse α) : Prop :=
  ∀ ts, kindOf ts = k → x.run ts = .error ⟨.expected .expression k, locationOf ending ts⟩

namespace Misses

theorem bind (h : Misses ending k x) : Misses ending k (x >>= f) := by
  intro ts hk
  rw [StateT.run_bind, h ts hk]
  rfl

theorem peek {w : Kind → Parse β} (h : Misses ending k (w k)) : Misses ending k (peek >>= w) := by
  rintro ts rfl
  exact h ts rfl

theorem accept {w : Bool → Parse β} (hc : k ≠ c) (h : Misses ending k (w false)) :
    Misses ending k (accept c >>= w) := by
  rw [Reads.accept_bind]
  refine peek ?_
  rwa [if_neg hc]

theorem here {w : Location → Parse β} (h : ∀ l, Misses ending k (w l)) :
    Misses ending k (here ending >>= w) :=
  fun ts hk => h _ ts hk

theorem look {w : Location → Kind → Parse β}
    (h : ∀ l, w l k = fail (.expected .expression k) l) :
    Misses ending k (Parse.here ending >>= fun l => Parse.peek >>= w l) := by
  rintro ts rfl
  change (w (locationOf ending ts) (kindOf ts)).run ts = _
  rw [h]
  rfl

end Misses

theorem misses_primary (hk : k.startsExpression = false) :
    Misses ending k (primary ending (n + 1)) := by
  refine .look fun l => ?_
  split <;> first | rfl | cases hk

-- All levels go down to the tightest one without taking a token.
theorem misses_expression (hk : k.startsExpression = false) (level : Level)
    (hn : descents level ≤ n) : Misses ending k (expression ending n level) := by
  have hu := not_prefix hk
  induction n generalizing level
  case zero => cases level <;> cases hn
  case succ n ih =>
    cases level
    case unary =>
      refine .here fun _ => .peek ?_
      rw [hu.1, hu.2.1]
      exact ih .suffix (Nat.le_of_succ_le_succ hn)
    case field =>
      exact .here fun _ => .accept hu.2.2 (ih .primary (Nat.le_of_succ_le_succ hn))
    case primary =>
      have hn : 1 ≤ n := Nat.le_of_succ_le_succ hn
      obtain ⟨n, rfl⟩ := Nat.exists_eq_add_of_le' hn
      exact misses_primary hk
    all_goals
      refine (ih _ ?_).bind
      exact Nat.le_of_succ_le_succ hn

end Misses

section Begins

-- Some tokens that make up an expression, and perhaps more, begin with this kind.
def Begins (ending : Location) (k : Kind) : Prop :=
  ∃ ts e rest, kindOf ts = k ∧
    ∀ n, depthBound ts.length ≤ n → (expression ending n .assignment).run ts = .ok (e, rest)

theorem begins_of_run (h : (expression ending n .assignment).run ts = .ok (e, rest)) :
    Begins ending (kindOf ts) :=
  ⟨ts, e, rest, rfl, fun _ hn => (advancing_expression .assignment).run_eq_ok h hn⟩

-- What an expression can go on with after its first token.
def continuation : Kind → List Kind
  | .word _                      => [.symbol .leftParen, .symbol .rightParen]
  | .symbol .leftParen           => [.number "1", .symbol .rightParen]
  | .symbol _ | .keyword .printf => [.number "1"]
  | _                            => []

theorem begins_of_startsExpression (hk : k.startsExpression) : Begins ending k := by
  let ts : List Token := ⟨k, default⟩ :: (continuation k).map (⟨·, default⟩)
  suffices h : ∃ e rest, (expression ending 64 .assignment).run ts = .ok (e, rest) by
    obtain ⟨e, rest, h⟩ := h
    exact begins_of_run h
  cases k
  case number | word => exact ⟨_, _, rfl⟩
  case quoted q _ => cases q <;> exact ⟨_, _, rfl⟩
  case symbol s => cases s <;> first | exact ⟨_, _, rfl⟩ | cases hk
  case keyword w => cases w <;> first | exact ⟨_, _, rfl⟩ | cases hk
  all_goals cases hk

theorem begins_iff : Begins ending k ↔ k.startsExpression := by
  refine ⟨fun h => ?_, begins_of_startsExpression⟩
  obtain ⟨ts, e, rest, rfl, h⟩ := h
  by_contra hk
  have hd : descents .assignment ≤ depthBound ts.length := by
    unfold depthBound
    exact Nat.le_trans (descents_le _) (Nat.le_mul_of_pos_right 32 (Nat.succ_pos _))
  have hm : Misses ending (kindOf ts) (expression ending _ .assignment) :=
    misses_expression (Bool.eq_false_iff.mpr hk) .assignment hd
  have hm := hm ts rfl
  cases (h _ (Nat.le_refl _)).symm.trans hm

theorem startsExpression_of_startsOperand (h : k.startsOperand) : k.startsExpression := by
  cases k
  case number | quoted | word => rfl
  case symbol s => cases s <;> first | rfl | cases h
  all_goals cases h

end Begins

section Values

variable {l : Location} {us : List Token} {a : α} {g : Expr → α}

theorem run_value :
    (do
      if (← peek).startsExpression then return g (← expression ending n .assignment)
      else return a : Parse α).run us =
    if (kindOf us).startsExpression then
      ((expression ending n .assignment).run us).map fun r => (g r.1, r.2)
    else .ok (a, us) := by
  change (if (kindOf us).startsExpression then _ else _ : Parse α).run us = _
  split
  case isTrue =>
    rw [StateT.run_bind]
    cases (expression ending n .assignment).run us <;> rfl
  case isFalse => rfl

theorem run_return : (statement ending (n + 1)).run (⟨.keyword .return, l⟩ :: us) =
    if (kindOf us).startsExpression then
      ((expression ending n .assignment).run us).map fun r => (.return (some r.1) l, r.2)
    else .ok (.return none l, us) :=
  run_value

theorem run_exit : (primary ending (n + 1)).run (⟨.keyword .exit, l⟩ :: us) =
    if (kindOf us).startsExpression then
      ((expression ending n .assignment).run us).map fun r => (.call "exit" [r.1] l, r.2)
    else .ok (.call "exit" [] l, us) :=
  run_value

end Values

theorem message_expected_expression (found : Kind) :
    (SyntacticCause.expected .expression found).message
      = "expected expression, found " ++ found.description := by
  have h : "expected " ++ "expression" ++ ", found " = "expected expression, found " := by decide
  exact congrArg (· ++ found.description) h

-- The kinds by which the parser tells that an expression begins are those that some expression
-- does begin with. At any other one the parser fails on the spot, whatever the level and whatever
-- comes after. A step that fails leaves no tokens behind, so that no token is taken shows only in
-- the error, which is about the first token and at its place. A concatenation goes on at some of
-- the kinds only, and a value is read after `return` and `exit` just if an expression can follow.
theorem beginnings_agree (ending : Location) :
    (∀ ts, (kindOf ts).startsExpression = false → ∀ level n, descents level ≤ n →
      (expression ending n level).run ts =
        .error ⟨.expected .expression (kindOf ts), locationOf ending ts⟩) ∧
    (∀ found, (SyntacticCause.expected .expression found).message
      = "expected expression, found " ++ found.description) ∧
    (∀ k, Begins ending k ↔ k.startsExpression) ∧
    (∀ k : Kind, k.startsOperand → k.startsExpression) ∧
    (∀ n l us,
      (Begins ending (kindOf us) → (statement ending (n + 1)).run (⟨.keyword .return, l⟩ :: us) =
        ((expression ending n .assignment).run us).map fun r => (.return (some r.1) l, r.2)) ∧
      (¬Begins ending (kindOf us) → (statement ending (n + 1)).run (⟨.keyword .return, l⟩ :: us) =
        .ok (.return none l, us))) ∧
    ∀ n l us,
      (Begins ending (kindOf us) → (primary ending (n + 1)).run (⟨.keyword .exit, l⟩ :: us) =
        ((expression ending n .assignment).run us).map fun r => (.call "exit" [r.1] l, r.2)) ∧
      (¬Begins ending (kindOf us) → (primary ending (n + 1)).run (⟨.keyword .exit, l⟩ :: us) =
        .ok (.call "exit" [] l, us)) := by
  refine ⟨fun ts hk level n hn => misses_expression hk level hn ts rfl,
    message_expected_expression, fun _ => begins_iff, fun _ => startsExpression_of_startsOperand,
    fun n l us => ?_, fun n l us => ?_⟩
  case refine_1 =>
    rw [run_return, begins_iff]
    exact ⟨fun h => if_pos h, fun h => if_neg h⟩
  case refine_2 =>
    rw [run_exit, begins_iff]
    exact ⟨fun h => if_pos h, fun h => if_neg h⟩

-- A pattern begins an expression but does not join one; a star does neither, so that a `return`
-- before it has no value.
theorem beginnings_agree_star :
    let ts : List Token := [⟨.symbol .star, ⟨3, 8⟩⟩, ⟨.number "1", ⟨3, 10⟩⟩]
    (kindOf ts).startsExpression = false ∧ descents .assignment ≤ 16 ∧
    (expression ⟨4, 1⟩ 16 .assignment).run ts =
      .error ⟨.expected .expression (.symbol .star), ⟨3, 8⟩⟩ ∧
    Begins ⟨4, 1⟩ (.pattern "x") ∧ (Kind.pattern "x").startsOperand = false ∧
    ¬Begins ⟨4, 1⟩ (kindOf ts) ∧
    (statement ⟨4, 1⟩ 1).run (⟨.keyword .return, ⟨3, 1⟩⟩ :: ts) =
      .ok (.return none ⟨3, 1⟩, ts) := by
  intro ts
  obtain ⟨hm, -, hb, -, hr, -⟩ := beginnings_agree ⟨4, 1⟩
  have hn : ¬Begins ⟨4, 1⟩ (kindOf ts) := fun h => by cases (hb _).mp h
  exact ⟨rfl, by decide, hm ts rfl .assignment 16 (by decide), (hb _).mpr rfl, rfl, hn,
    (hr 0 ⟨3, 1⟩ ts).2 hn⟩

end PatternAction.Parse
