import PatternAction.Pattern.Matching
import PatternAction.Proofs.Run.Aftermath
import PatternAction.Proofs.Run.Clauses

namespace PatternAction

namespace Run

variable [Patterns]

-- What the parts of the evaluator do about the end of the phase, up to some number of nested steps.
structure Stops (p : Program) (n : Nat) : Prop where
  statement  : ∀ s m, Ends (statement p n s) m
  branch     : ∀ c b m, c.isIndex = false → Ends (branch p n c b) m
  otherwise  : ∀ b, Follows (Run.branch p n .otherwise b)
  block      : ∀ b, Heeds (block p n b)
  statements : ∀ ss, Heeds (statements p n ss)
  whileLoop  : ∀ e b, Heeds (whileLoop p n e b)
  doLoop     : ∀ b e, Heeds (doLoop p n b e)
  forLoop    : ∀ test update b, Heeds (forLoop p n test update b)
  forEach    : ∀ x keys b l, Heeds (forEach p n x keys b l)

namespace Stops

variable {p : Program} {n : Nat}

theorem zero : Stops p 0 := by
  have h {α : Type} : Heeds (throw .outOfSteps : Run α) := .throw rfl
  constructor
  case statement => exact fun _ => h.ends
  case branch => exact fun _ _ m _ => h.ends m
  case otherwise => exact fun _ => h.follows
  case block | statements => exact fun _ => h
  case whileLoop | doLoop => exact fun _ _ => h
  case forLoop => exact fun _ _ _ => h
  case forEach => exact fun _ _ _ _ => h

section

variable (h : Stops p n)
include h

theorem statement_succ (s : Stmt) (m : Machine) : Ends (Run.statement p (n + 1) s) m := by
  have he {c : Clause} {e : Expr} (hc : c.isIndex = false) :
      Ends (clause c (eval p n e)) m := .clause (keeps_eval e) hc
  cases s
  case expr => exact (he rfl).bind fun _ => .pure
  case «if» => exact h.branch _ _ _ rfl
  case «while» => exact (h.whileLoop _ _).ends m
  case doWhile => exact (h.doLoop _ _).ends m
  case «for» init test update b _ =>
    have hl := h.forLoop test update b
    cases init
    case none => exact hl.ends m
    case some => exact (he rfl).bind fun _ => hl.follows
  case forIn => exact (Ends.of_holds .keys).bind fun _ => (h.forEach _ _ _ _).follows
  case «break» | «continue» => exact .pure
  case «return» e _ =>
    cases e
    case none => exact .pure
    case some => exact (he rfl).bind fun _ => .pure
  case delete index _ =>
    cases index
    case none => exact .of_holds (Logic.Holds.bind (.delete trivial) fun _ => .pure)
    case some => exact .clause_bind (keeps_eval _) fun _ _ => .delete

theorem follows_branch {yes : Bool} {b : Block} {o : Otherwise} :
    Follows (if yes then Run.block p n b else match o with
      | .nothing  => return .normal
      | .block b  => Run.block p n b
      | .branch b => Run.branch p n .otherwise b) := by
  cases yes
  case true => exact (h.block b).follows
  case false =>
    cases o
    case nothing => exact .pure
    case block => exact (h.block _).follows
    case branch => exact h.otherwise _

theorem branch_succ (c : Clause) (b : Branch) (m : Machine) (hc : c.isIndex = false) :
    Ends (Run.branch p (n + 1) c b) m := by
  obtain ⟨condition, _, _, _⟩ := b
  exact (Ends.clause (keeps_eval condition) hc).bind fun _ => h.follows_branch

theorem otherwise_succ (b : Branch) : Follows (Run.branch p (n + 1) .otherwise b) := by
  obtain ⟨condition, _, _, _⟩ := b
  exact .clause_bind (keeps_eval condition) rfl fun _ => h.follows_branch

theorem statements_succ (ss : List Stmt) : Heeds (Run.statements p (n + 1) ss) := by
  cases ss
  case nil => exact .pure
  case cons s rest =>
    refine .guard fun m => (h.statement s m).bind fun signal => ?_
    cases signal
    case normal => exact (h.statements rest).follows
    all_goals exact .pure

theorem whileLoop_succ (e : Expr) (b : Block) : Heeds (Run.whileLoop p (n + 1) e b) := by
  refine .guard fun m => (Ends.clause (keeps_eval e) rfl).bind fun _ => ?_
  split
  case isFalse => exact .pure
  case isTrue =>
    refine .bind (h.block b) fun signal => ?_
    cases signal
    case normal | «continue» => exact (h.whileLoop e b).follows
    case «break» | «return» => exact .pure

theorem doLoop_succ (b : Block) (e : Expr) : Heeds (Run.doLoop p (n + 1) b e) := by
  refine .bind (h.block b) fun signal => ?_
  cases signal
  case «break» | «return» => exact .pure
  case normal | «continue» =>
    refine .guard fun m => (Ends.clause (keeps_eval e) rfl).bind fun _ => ?_
    split
    case isFalse => exact .pure
    case isTrue => exact (h.doLoop b e).follows

-- What a counting loop does once its condition is known. The update is evaluated without asking
-- whether the body ended the phase.
theorem follows_round {g : Bool} {test update : Option Expr} {b : Block} :
    Follows (if g then do
      match ← Run.block p n b with
      | .normal | .continue =>
        if let some e := update then
          let _ ← clause .update (Run.eval p n e)
        Run.forLoop p n test update b
      | .break => return .normal
      | .return v => return .return v
    else return .normal) := by
  have hl := (h.forLoop test update b).follows
  cases g
  case false => exact .pure
  case true =>
    refine .bind (h.block b) fun signal => ?_
    cases signal
    case «break» | «return» => exact .pure
    case normal | «continue» =>
      cases update
      case none => exact hl
      case some e => exact .clause_bind (keeps_eval e) rfl fun _ => hl

theorem forLoop_succ (test update : Option Expr) (b : Block) :
    Heeds (Run.forLoop p (n + 1) test update b) := by
  refine .guard fun m => ?_
  cases test
  case none => exact (h.follows_round (g := true)).ends m
  case some e =>
    refine (Ends.clause (keeps_eval e) rfl).bind fun _ => ?_
    rw [pure_bind]
    exact h.follows_round

theorem forEach_succ (x : String) (keys : List String) (b : Block) (l : Location) :
    Heeds (Run.forEach p (n + 1) x keys b l) := by
  cases keys
  case nil => exact .pure
  case cons key rest =>
    refine .guard fun m => (Ends.of_holds (.setScalar trivial)).bind fun _ => ?_
    refine .bind (h.block b) fun signal => ?_
    cases signal
    case normal | «continue» => exact (h.forEach x rest b l).follows
    case «break» | «return» => exact .pure

end

end Stops

theorem stops (p : Program) : (n : Nat) → Stops p n
  | 0     => .zero
  | n + 1 =>
    have h := stops p n
    { statement  := h.statement_succ
      branch     := h.branch_succ
      otherwise  := h.otherwise_succ
      block      := fun b => h.statements b.statements
      statements := h.statements_succ
      whileLoop  := h.whileLoop_succ
      doLoop     := h.doLoop_succ
      forLoop    := h.forLoop_succ
      forEach    := h.forEach_succ }

end Run

-- When an expression of a statement ends the phase, the statement goes on only with what it does
-- without asking: updates of counting loops, conditions of branches that others lead to, and the
-- deletion that the expression is the index of. All is left as it is just when none of these comes,
-- so always when the statement has no such parts.
theorem still_after_halting_iff [Patterns] (p : Program) (n : Nat) (s : Stmt) (m : Machine)
    {past later : List Event} {c : Clause} {r : Except Failure Value} {s₁ s₂ : State}
    (ht : ((Run.statement p n s).on m).2.history.get =
      m.history.get ++ (past ++ .evaluated c r s₁ s₂ :: later))
    (hd : s₁.depth = m.depth) (h₁ : s₁.halted = false) (h₂ : s₂.halted = true) :
    Late m.depth later ∧
    (Still s₂ later ((Run.statement p n s).on m).2.toState ↔
      ¬Straggles m.depth later ∧
        ∀ array key, c = .index array → r = .ok key →
          s₂.environment.hasElement array key.text ≠ .ok true) ∧
    ((∀ c ∈ s.clauses, c.isUnguarded = false ∧ c.isIndex = false) →
      Still s₂ later ((Run.statement p n s).on m).2.toState) := by
  have ⟨_, t, hh, hs⟩ := (Run.stops p n).statement s m
  have ⟨_, u, hu, hc⟩ := (Run.owns s.clauses p n).statement s m (List.Subset.refl _)
  cases List.append_cancel_left (hh.symm.trans ht)
  cases List.append_cancel_left (hu.symm.trans ht)
  have ⟨_, hl, hs⟩ := hs past c r s₁ s₂ later rfl hd h₁ h₂
  have hiff : Still s₂ later ((Run.statement p n s).on m).2.toState ↔
      ¬Straggles m.depth later ∧ c.settled r s₂ = s₂ := by
    constructor
    case mp =>
      rintro ⟨hn, hq⟩
      have hg : ¬Straggles m.depth later := fun ⟨c, r, q, q', he, _⟩ => hn c r q q' he
      exact ⟨hg, (hs.resolve_left hg).2.symm.trans hq⟩
    case mpr =>
      rintro ⟨hg, hr⟩
      have ⟨hn, hs⟩ := hs.resolve_left hg
      exact ⟨hn, hs.trans hr⟩
  refine ⟨hl, ?_, fun hn => hiff.mpr ⟨?_, ?_⟩⟩
  case refine_1 => exact hiff.trans (and_congr_right' Clause.settled_eq_self_iff)
  case refine_2 =>
    rintro ⟨c', r', q, q', he, hq, hg⟩
    have hc' := hc c' r' q q' (List.mem_append_right _ (.tail _ he)) hq
    cases hg.symm.trans (hn c' hc').1
  case refine_3 =>
    have hc' := hc c r s₁ s₂ (List.mem_append_right _ (.head _)) hd
    exact Clause.settled_of_not_isIndex (hn c hc').2

section Loops

def exits : Block := .mk [.expr (.call "exit" [] .start)] .start

-- A loop whose body ends the phase asks before it goes on,
theorem still_after_halting_in_loop :
    ((Run.statement {} 7 (.for none none none exits .start)).on {}).2.toState =
      { halted := true } := by
  let s : State := { halted := true }
  have hm : ((Run.statement {} 7 (.for none none none exits .start)).on {}).2 =
      (({} : Machine).become s).note (.evaluated .whole (.ok .empty) {} s) := rfl
  have ht : ((Run.statement {} 7 (.for none none none exits .start)).on {}).2.history.get =
      ({} : Machine).history.get ++ ([.became s] ++ [.evaluated .whole (.ok .empty) {} s]) := by
    simp [hm]
  exact ((still_after_halting_iff {} 7 _ {} ht rfl rfl rfl).2.2 (by decide)).2

-- but not before its update.
theorem not_still_after_halting :
    ¬∀ (p : Program) (n : Nat) (s : Stmt) (m : Machine) (past later : List Event) (c : Clause)
      (r : Except Failure Value) (s₁ s₂ : State),
      ((Run.statement p n s).on m).2.history.get =
        m.history.get ++ (past ++ .evaluated c r s₁ s₂ :: later) →
      s₁.depth = m.depth → s₁.halted = false → s₂.halted = true →
      Still s₂ later ((Run.statement p n s).on m).2.toState := by
  intro h
  let s₂ : State := { halted := true }
  let s₃ : State := { s₂ with environment := s₂.environment.store "x" (.scalar ⟨"5"⟩) }
  let loop : Stmt :=
    .for none none (some (.assign (.name "x" .start) (.constant "5" .start) .start)) exits .start
  have hm : ((Run.statement {} 7 loop).on {}).2 =
      (((({} : Machine).become s₂).note (.evaluated .whole (.ok .empty) {} s₂)).become s₃).note
        (.evaluated .update (.ok ⟨"5"⟩) s₂ s₃) := rfl
  have ht : ((Run.statement {} 7 loop).on {}).2.history.get =
      ({} : Machine).history.get ++ ([.became s₂] ++ .evaluated .whole (.ok .empty) {} s₂ ::
        [.became s₃, .evaluated .update (.ok ⟨"5"⟩) s₂ s₃]) := by
    simp [hm]
  exact (h _ _ _ _ _ _ _ _ _ _ ht rfl rfl rfl).1 _ _ _ _ (.tail _ (.head _))

end Loops

end PatternAction
