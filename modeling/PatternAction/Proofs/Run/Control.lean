import PatternAction.Machine.Eval

namespace PatternAction.Run

-- A property that the steps which control a run keep.
structure Closed (K : (α : Type) → Run α → Prop) : Prop where
  pure     : ∀ {α : Type} {a : α}, K α (pure a)
  bind     : ∀ {α β : Type} {x : Run α} {f : α → Run β}, K α x → (∀ a, K β (f a)) → K β (x >>= f)
  isHalted : K Bool isHalted

namespace Closed

variable {K : (α : Type) → Run α → Prop} (h : Closed K)
variable {p : Program} {n : Nat} {e : Expr} {b : Block}
include h

theorem guard {α : Type} {x : Run α} {a : α} (hx : K α x) :
    K α (do if ← Run.isHalted then return a else x) := by
  refine h.bind h.isHalted fun halted => ?_
  cases halted
  case true => exact h.pure
  case false => exact hx

variable [Patterns]

theorem branch {c : Clause} {o : Otherwise} {l : Location} (ht : K _ (clause c (eval p n e)))
    (hb : K _ (block p n b)) (ho : ∀ b, o = .block b → K _ (block p n b))
    (hc : ∀ b, o = .branch b → K _ (Run.branch p n .otherwise b)) :
    K _ (Run.branch p (n + 1) c (.mk e b o l)) := by
  refine h.bind ht fun _ => ?_
  split
  case isTrue => exact hb
  case isFalse =>
    cases o
    case nothing => exact h.pure
    case block => exact ho _ rfl
    case branch => exact hc _ rfl

theorem statements {s : Stmt} {rest : List Stmt} (hs : K _ (statement p n s))
    (hr : K _ (Run.statements p n rest)) : K _ (Run.statements p (n + 1) (s :: rest)) := by
  refine h.guard (h.bind hs fun signal => ?_)
  cases signal
  case normal => exact hr
  all_goals exact h.pure

theorem whileLoop (ht : K _ (clause .condition (eval p n e))) (hb : K _ (block p n b))
    (hl : K _ (Run.whileLoop p n e b)) : K _ (Run.whileLoop p (n + 1) e b) := by
  refine h.guard (h.bind ht fun _ => ?_)
  split
  case isFalse => exact h.pure
  case isTrue =>
    refine h.bind hb fun signal => ?_
    cases signal
    case normal | «continue» => exact hl
    case «break» | «return» => exact h.pure

theorem doLoop (hb : K _ (block p n b)) (ht : K _ (clause .condition (eval p n e)))
    (hl : K _ (Run.doLoop p n b e)) : K _ (Run.doLoop p (n + 1) b e) := by
  refine h.bind hb fun signal => ?_
  cases signal
  case «break» | «return» => exact h.pure
  case normal | «continue» =>
    refine h.guard (h.bind ht fun _ => ?_)
    split
    case isFalse => exact h.pure
    case isTrue => exact hl

theorem round {g : Bool} {test update : Option Expr}
    (hu : ∀ e, update = some e → K _ (clause .update (eval p n e))) (hb : K _ (block p n b))
    (hl : K _ (Run.forLoop p n test update b)) :
    K _ (if g then do
      match ← block p n b with
      | .normal | .continue =>
        if let some e := update then
          let _ ← clause .update (eval p n e)
        Run.forLoop p n test update b
      | .break => return .normal
      | .return v => return .return v
    else return .normal) := by
  cases g
  case false => exact h.pure
  case true =>
    refine h.bind hb fun signal => ?_
    cases signal
    case «break» | «return» => exact h.pure
    case normal | «continue» =>
      cases update
      case none => exact hl
      case some e => exact h.bind (hu e rfl) fun _ => hl

theorem forLoop {test update : Option Expr}
    (ht : ∀ e, test = some e → K _ (clause .condition (eval p n e)))
    (hu : ∀ e, update = some e → K _ (clause .update (eval p n e))) (hb : K _ (block p n b))
    (hl : K _ (Run.forLoop p n test update b)) : K _ (Run.forLoop p (n + 1) test update b) := by
  refine h.guard ?_
  cases test
  case none => exact h.round (g := true) hu hb hl
  case some e =>
    refine h.bind (ht e rfl) fun _ => ?_
    rw [pure_bind]
    exact h.round hu hb hl

theorem forEach {x key : String} {rest : List String} {l : Location}
    (hx : K _ (setScalar x ⟨key⟩ l)) (hb : K _ (block p n b))
    (hl : K _ (Run.forEach p n x rest b l)) :
    K _ (Run.forEach p (n + 1) x (key :: rest) b l) := by
  refine h.guard (h.bind hx fun _ => h.bind hb fun signal => ?_)
  cases signal
  case normal | «continue» => exact hl
  case «break» | «return» => exact h.pure

end Closed

end PatternAction.Run
