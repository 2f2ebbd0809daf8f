import PatternAction.Proofs.Number.Counting
import PatternAction.Proofs.Run.Inspection
import PatternAction.Proofs.Run.Mirror
import PatternAction.Proofs.Syntax.Ladder

namespace PatternAction

namespace Expr

mutual

def depth : Expr → Nat
  | constant .. | pattern .. | name ..                                       => 0
  | element _ e _ | field e _ | unary _ e _ | step _ e _ | search e _ _ _    => e.depth + 1
  | binary _ left right _ | assign left right _ | member left right _        =>
    max left.depth right.depth + 1
  | conditional test yes no _                                                =>
    max test.depth (max yes.depth no.depth) + 1
  | call _ args _                                                            => everyDepth args + 1

def everyDepth : List Expr → Nat
  | []        => 0
  | e :: rest => max e.depth (everyDepth rest)

end

-- A target without an index, or with one that only looks at what there is.
def IsSteady (environment : Environment) : Expr → Prop
  | element _ index _ | field index _ =>
    index.isReadOnly ∧ ∀ x, index.Indexes x → (environment.lookup x).isSome
  | _                                 => True

-- A compound assignment of one, as it is read: `l` is the place of the operator.
def compoundOne (op : Arithmetic) (target : Expr) (l one : Location) : Expr :=
  .assign target (.binary (.arithmetic op) target (.constant "1" one) l) l

end Expr

theorem Parse.run_compoundOne {ending l one : Location} {n : Nat} {s : Symbol} {op : Arithmetic}
    {target : Expr} {ts rest : List Token} (hs : (Kind.symbol s).assignment? = some (some op))
    (ht : (expression ending n .conditional).run ts =
      .ok (target, ⟨.symbol s, l⟩ :: ⟨.number "1", one⟩ :: rest))
    (hr : Level.assignment.Stops (kindOf rest)) (hn : 16 ≤ n) :
    (expression ending (n + 1) .assignment).run ts = .ok (.compoundOne op target l one, rest) := by
  have ho : (expression ending n .assignment).run (⟨.number "1", one⟩ :: rest) =
      .ok (.constant "1" one, rest) := run_number hr hn
  have hk : (kindOf (⟨.symbol s, l⟩ :: ⟨.number "1", one⟩ :: rest)).assignment? = some (some op) :=
    hs
  rw [expression, run_bind ht, run_here, run_peek, hk]
  dsimp only
  rw [run_skip, run_bind ho]
  rfl

-- The failure, wherever it is reported.
def Failure.unplaced : Failure → Failure
  | .fault cause _ => .fault cause none
  | failure        => failure

namespace Run

-- Two steps give related values or fail for the same cause, and end in the same state.
structure Coincide {α β : Type} (R : α → β → Prop) (o : Except Failure α × Machine)
    (o' : Except Failure β × Machine) : Prop where
  result : Agree Failure.unplaced R o.1 o'.1
  state  : o'.2.toState = o.2.toState

namespace Coincide

variable {α β γ : Type} {R : β → γ → Prop} {x x' : Run α} {m m' : Machine} {o q : Option Location}

theorem ok {b : β} {c : γ} (hr : R b c) (h : m'.toState = m.toState) :
    Coincide R (.ok b, m) (.ok c, m') :=
  ⟨.ok hr, h⟩

theorem error {g g' : Failure} (hg : g.unplaced = g'.unplaced) (h : m'.toState = m.toState) :
    Coincide R (.error g, m) (.error g', m') :=
  ⟨.error hg, h⟩

theorem bind {f : α → Run β} {f' : α → Run γ} (hx : Coincide Eq (x.on m) (x'.on m'))
    (hf : ∀ a n n', (x.on m).1 = .ok a → n'.toState = n.toState →
      Coincide R ((f a).on n) ((f' a).on n')) :
    Coincide R ((x >>= f).on m) ((x' >>= f').on m') := by
  obtain ⟨hr, hs⟩ := hx
  rcases ho : x.on m with ⟨r, n⟩
  rcases ho' : x'.on m' with ⟨r', n'⟩
  rw [ho, ho'] at hr hs
  cases hr
  case ok h =>
    subst h
    rw [on_bind_ok ho, on_bind_ok ho']
    exact hf _ n n' (by rw [ho]) hs
  case error h =>
    rw [on_bind_error ho, on_bind_error ho']
    exact error h hs

theorem eq_ok {o o' : Except Failure α × Machine} {a : α} (h : Coincide Eq o o')
    (ha : o.1 = .ok a) : o'.1 = .ok a := by
  have hr := h.result
  rw [ha] at hr
  generalize o'.1 = r at hr
  cases hr
  case ok h => rw [h]

theorem inspect {f : Environment → Except Fault α} (h : m'.toState = m.toState) :
    Coincide Eq ((inspect o f).on m) ((inspect q f).on m') := by
  rw [inspect_on, inspect_on, congrArg State.environment h]
  cases f m.environment
  case error => exact error rfl h
  case ok => exact ok rfl h

theorem operate {f : Environment → Except Fault (α × Environment)} (h : m'.toState = m.toState) :
    Coincide Eq ((operate o f).on m) ((operate q f).on m') := by
  cases hf : f m.environment
  all_goals have hf' := (congrArg (fun s : State => f s.environment) h).trans hf
  case error =>
    rw [operate_on_error hf, operate_on_error hf']
    exact error rfl h
  case ok q =>
    rw [operate_on_ok hf, operate_on_ok hf']
    exact ok rfl (congrArg (fun s => { s with environment := q.2 }) h)

theorem readTarget {u : Target} {l l' : Location} (h : m'.toState = m.toState) :
    Coincide Eq ((readTarget l u).on m) ((readTarget l' u).on m') := by
  cases u
  case name => exact inspect h
  case element => exact operate h
  case field x => exact inspect (o := none) (q := none) (f := fun e => .ok (e.field x)) h

theorem writeTarget {u : Target} {v : Value} {l l' : Location} (h : m'.toState = m.toState) :
    Coincide Eq ((writeTarget v l u).on m) ((writeTarget v l' u).on m') := by
  cases u
  all_goals simp only [Run.writeTarget]
  case name =>
    rw [setScalar_eq, setScalar_eq]
    exact operate h
  case element =>
    rw [setElement_eq, setElement_eq]
    exact operate h
  case field x =>
    exact operate (o := none) (q := none) (f := fun e => .ok ((), e.setGlobal x v)) h

end Coincide

-- A step that does not run out of further steps.
def Finishes {α : Type} (x : Run α) : Prop := ∀ m, (x.on m).1 ≠ .error .outOfSteps

namespace Finishes

variable {α β : Type} {x : Run α} {f : α → Run β} {o : Option Location} {l : Location}

theorem total (h : ∀ m, ∃ a, (x.on m).1 = .ok a) : Finishes x := by
  intro m hm
  obtain ⟨a, ha⟩ := h m
  cases ha.symm.trans hm

theorem pure {a : α} : Finishes (pure a : Run α) := total fun _ => ⟨a, rfl⟩

theorem environment : Finishes environment := total fun _ => ⟨_, rfl⟩

theorem setEnvironment {e : Environment} : Finishes (setEnvironment e) := total fun _ => ⟨_, rfl⟩

theorem throw {g : Failure} (hg : g ≠ .outOfSteps) : Finishes (throw g : Run α) :=
  fun _ h => hg (Except.error.inj h)

theorem fail {cause : Fault} : Finishes (fail cause l : Run α) := throw Failure.noConfusion

theorem bind (hx : Finishes x) (hf : ∀ a, Finishes (f a)) : Finishes (x >>= f) := by
  intro m
  have hm := hx m
  rcases ho : x.on m with ⟨g | a, m₁⟩
  case error =>
    rw [ho] at hm
    rw [on_bind_error ho]
    exact fun h => hm (congrArg Except.error (Except.error.inj h))
  case ok =>
    rw [on_bind_ok ho]
    exact hf a m₁

theorem check {r : Except Fault α} : Finishes (check o r) := by
  cases r
  case error => exact throw Failure.noConfusion
  case ok => exact pure

theorem inspect {g : Environment → Except Fault α} : Finishes (inspect o g) :=
  bind environment fun _ => check

theorem operate {g : Environment → Except Fault (α × Environment)} : Finishes (operate o g) :=
  bind environment fun _ => bind check fun _ => bind setEnvironment fun _ => pure

theorem field {y : String} : Finishes (field y) := bind environment fun _ => pure

theorem pattern [Patterns] {source : String} : Finishes (pattern source) := by
  unfold Run.pattern
  split
  case h_1 => exact pure
  case h_2 => exact throw Failure.noConfusion

theorem arithmetic {op : Arithmetic} {a b : Number} : Finishes (arithmetic op a b l) := by
  unfold Run.arithmetic
  split
  case h_4 | h_5 =>
    split
    case isTrue => exact fail
    case isFalse => exact pure
  all_goals exact pure

theorem readTarget {u : Target} : Finishes (readTarget l u) := by
  cases u
  case name => exact inspect
  case element => exact operate
  case field => exact field

theorem writeTarget {u : Target} {v : Value} : Finishes (writeTarget v l u) := by
  cases u
  case name =>
    rw [Run.writeTarget, setScalar_eq]
    exact operate
  case element =>
    rw [Run.writeTarget, setElement_eq]
    exact operate
  case field => exact total fun _ => ⟨_, rfl⟩

end Finishes

section Targets

variable [Patterns] {p : Program} {n k : Nat} {e t : Expr}

theorem eval_steps (he : e.isReadOnly) (hn : e.depth < n) (hk : e.depth < k) :
    eval p n e = eval p k e := by
  induction n generalizing k e
  case zero => cases hn
  case succ n ih =>
    cases k
    case zero => cases hk
    case succ k =>
      cases e
      case assign | step | call => simp [Expr.isReadOnly, Expr.all] at he
      case constant | pattern | name => rfl
      all_goals
        simp only [Expr.isReadOnly, Expr.all, Bool.and_eq_true, Bool.true_and] at he
        rw [Expr.depth] at hn hk
      case element | field | unary | search =>
        simp only [eval]
        rw [ih he (k := k) (by omega) (by omega)]
      case binary op left right _ =>
        have hl := ih he.1 (k := k) (by omega) (by omega)
        have hr := ih he.2 (k := k) (by omega) (by omega)
        cases op
        all_goals simp only [eval, hl, hr]
      case conditional =>
        simp only [eval]
        rw [ih he.1.1 (k := k) (by omega) (by omega), ih he.1.2 (k := k) (by omega) (by omega),
          ih he.2 (k := k) (by omega) (by omega)]
      case member =>
        simp only [eval]
        rw [ih he.1 (k := k) (by omega) (by omega)]

theorem finishes_eval (he : e.isReadOnly) (hn : e.depth < n) : Finishes (eval p n e) := by
  induction n generalizing e
  case zero => cases hn
  case succ n ih =>
    cases e
    case assign | step | call => simp [Expr.isReadOnly, Expr.all] at he
    case constant => exact .pure
    case pattern => exact .fail
    case name => exact .inspect
    all_goals
      simp only [Expr.isReadOnly, Expr.all, Bool.and_eq_true, Bool.true_and] at he
      rw [Expr.depth] at hn
    case element => exact (ih he (by omega)).bind fun _ => .operate
    case field => exact (ih he (by omega)).bind fun _ => .bind .check fun _ => .field
    case binary op left right _ =>
      have hl := ih he.1 (by omega)
      have hr := ih he.2 (by omega)
      cases op
      case and | or =>
        refine hl.bind fun _ => ?_
        split
        all_goals first
          | exact .pure
          | exact hr.bind fun _ => .pure
      case concat | comparison => exact hl.bind fun _ => hr.bind fun _ => .pure
      case arithmetic => exact hl.bind fun _ => hr.bind fun _ => .bind .arithmetic fun _ => .pure
    case unary => exact (ih he (by omega)).bind fun _ => .pure
    case conditional =>
      refine (ih he.1.1 (by omega)).bind fun _ => ?_
      split
      case isTrue => exact ih he.1.2 (by omega)
      case isFalse => exact ih he.2 (by omega)
    case member =>
      rw [eval]
      split
      case h_1 => exact .fail
      case h_2 => exact (ih he.1 (by omega)).bind fun _ => .bind .inspect fun _ => .pure
    case search => exact (ih he (by omega)).bind fun _ => .bind .pattern fun _ => .pure

variable {environment : Environment}

theorem evalTarget_steps (ht : t.IsSteady environment) (hn : t.depth < n) (hk : t.depth < k) :
    evalTarget p n t = evalTarget p k t := by
  obtain ⟨n, rfl⟩ := Nat.exists_eq_succ_of_ne_zero (Nat.ne_zero_of_lt hn)
  obtain ⟨k, rfl⟩ := Nat.exists_eq_succ_of_ne_zero (Nat.ne_zero_of_lt hk)
  cases t
  case element | field =>
    rw [Expr.depth] at hn hk
    simp only [evalTarget]
    rw [eval_steps ht.1 (k := k) (by omega) (by omega)]
  all_goals rfl

theorem eval_eq_evalTarget (ht : t.isTarget) :
    eval p (n + 1) t = evalTarget p (n + 1) t >>= readTarget t.location := by
  cases t
  case name => rfl
  case element | field =>
    simp only [eval, evalTarget, bind_assoc, pure_bind, readTarget, Expr.location]
  all_goals cases ht

theorem evalTarget_of_not_isTarget (ht : t.isTarget = false) :
    evalTarget p (n + 1) t = fail .badTarget t.location := by
  cases t
  case name | element | field => cases ht
  all_goals rfl

theorem looks_evalTarget (ht : t.IsSteady environment) :
    Looks (fun x => (environment.lookup x).isSome) (evalTarget p n t) := by
  cases n
  case zero => exact .throw
  case succ n =>
    cases t
    case name => exact .pure
    case element _ index _ =>
      refine (looks_eval ht.1 ?_).bind fun _ => .pure
      exact fun q hq hu => ht.2 _ (index.permits_indexes q hq hu)
    case field index _ =>
      refine (looks_eval ht.1 ?_).bind fun _ => .bind .fieldName fun _ => .pure
      exact fun q hq hu => ht.2 _ (index.permits_indexes q hq hu)
    all_goals exact .throw

theorem finishes_evalTarget (ht : t.IsSteady environment) (hn : t.depth < n) :
    Finishes (evalTarget p n t) := by
  cases n
  case zero => cases hn
  case succ n =>
    cases t
    case name => exact .pure
    case element =>
      rw [Expr.depth] at hn
      exact (finishes_eval ht.1 (by omega)).bind fun _ => .pure
    case field =>
      rw [Expr.depth] at hn
      exact (finishes_eval ht.1 (by omega)).bind fun _ => .bind .check fun _ => .pure
    all_goals exact .fail

end Targets

section Forms

variable [Patterns] {p : Program} {n : Nat} {t : Expr} {op : Step} {l one : Location} {m : Machine}

theorem eval_step : eval p (n + 1) (.step op t l) = (do
    let u ← evalTarget p n t
    let v ← readTarget l u
    writeTarget (.ofNumber (stepped op v.number).1) l u
    return .ofNumber (stepped op v.number).2) := rfl

theorem eval_compoundOne {op : Arithmetic} {f : Number → Number}
    (hf : ∀ x, arithmetic op x (.ofNat 1) l = pure (f x)) :
    eval p (n + 3) (.compoundOne op t l one) = (do
      let u ← evalTarget p (n + 2) t
      let v ← eval p (n + 1) t
      writeTarget (.ofNumber (f v.number)) l u
      return .ofNumber (f v.number)) := by
  have ho : (⟨"1"⟩ : Value).number = .ofNat 1 := Value.number_toString 1
  simp only [Expr.compoundOne, eval, bind_assoc, pure_bind, ho, hf]

theorem evalTarget_again {u : Target} {m₁ : Machine} (ht : t.IsSteady m.environment)
    (ho : (evalTarget p n t).on m = (.ok u, m₁)) :
    m₁.toState = m.toState ∧
      ∃ m₂, (evalTarget p n t).on m₁ = (.ok u, m₂) ∧ m₂.toState = m₁.toState := by
  have hl : Looks _ (evalTarget p n t) := looks_evalTarget ht
  obtain ⟨hs, hr⟩ := hl.again fun _ => id
  rw [ho] at hs hr
  refine ⟨hs, ((evalTarget p n t).on m₁).2, Prod.ext hr rfl, ?_⟩
  have he := congrArg State.environment hs
  exact (hl.again (m := m₁) fun _ h => by rwa [he]).1

theorem isTarget_of_evalTarget {u : Target} {m₁ : Machine}
    (ho : (evalTarget p n t).on m = (.ok u, m₁)) : t.isTarget := by
  cases n
  case zero => cases ho
  case succ =>
    cases ht : t.isTarget
    case true => rfl
    case false =>
      rw [evalTarget_of_not_isTarget ht] at ho
      cases ho

theorem step_compoundOne {op : Step} {sum : Arithmetic} (ht : t.IsSteady m.environment)
    (hn : t.depth ≤ n) {l' : Location}
    (hf : ∀ x, arithmetic sum x (.ofNat 1) l' = pure (stepped op x).1)
    (hop : ∀ x, (stepped op x).2 = (stepped op x).1) :
    Coincide Eq ((eval p (n + 3) (.step op t l)).on m)
      ((eval p (n + 3) (.compoundOne sum t l' one)).on m) := by
  rw [eval_step, eval_compoundOne hf]
  rcases ho : (evalTarget p (n + 2) t).on m with ⟨g | u, m₁⟩
  case error =>
    rw [on_bind_error ho, on_bind_error ho]
    exact .error rfl rfl
  case ok =>
    obtain ⟨_, m₂, ho₂, hs⟩ := evalTarget_again ht ho
    rw [on_bind_ok ho, on_bind_ok ho, eval_eq_evalTarget (isTarget_of_evalTarget ho),
      evalTarget_steps ht (k := n + 2) (by omega) (by omega), bind_assoc, on_bind_ok ho₂]
    refine (Coincide.readTarget hs).bind fun v _ _ _ h => ?_
    refine (Coincide.writeTarget h).bind fun _ _ _ _ h => ?_
    exact .ok (congrArg _ (hop _)) h

theorem step_after {op op' : Step} (ht : t.IsSteady m.environment) (hn : t.depth ≤ n)
    {l' : Location} (hm : ∀ x, (stepped op' x).1 = (stepped op x).1)
    (hop : ∀ x, (stepped op' x).2 = x) :
    Coincide (fun v _ => ∃ u, ((eval p (n + 3) t).on m).1 = .ok u ∧ v = .ofNumber u.number)
      ((eval p (n + 3) (.step op' t l')).on m) ((eval p (n + 3) (.step op t l)).on m) := by
  rw [eval_step, eval_step]
  rcases ho : (evalTarget p (n + 2) t).on m with ⟨g | u, m₁⟩
  case error =>
    rw [on_bind_error ho, on_bind_error ho]
    exact .error rfl rfl
  case ok =>
    have he : eval p (n + 3) t = evalTarget p (n + 2) t >>= readTarget t.location := by
      rw [eval_eq_evalTarget (isTarget_of_evalTarget ho),
        evalTarget_steps ht (k := n + 2) (by omega) (by omega)]
    rw [on_bind_ok ho, on_bind_ok ho, he, on_bind_ok ho]
    refine (Coincide.readTarget rfl).bind fun v _ _ hv h => ?_
    rw [hm]
    refine (Coincide.writeTarget h).bind fun _ _ _ _ h => ?_
    exact .ok ⟨v, (Coincide.readTarget rfl).eq_ok hv, congrArg _ (hop _)⟩ h

theorem finishes_step (ht : t.IsSteady m.environment) (hn : t.depth ≤ n) :
    Finishes (eval p (n + 3) (.step op t l)) := by
  rw [eval_step]
  exact (finishes_evalTarget ht (by omega)).bind fun _ => .bind .readTarget fun _ =>
    .bind .writeTarget fun _ => .pure

end Forms

end Run

-- To move a target by one is to add one to it or to take one from it, if its index only looks at
-- what there is: both fail for the same cause, or both give the same value, in the same state. A
-- step after the target differs in its value, which is the number that was there.
theorem step_coincides_with_assignment [Patterns] {m : Machine} {t : Expr}
    (ht : t.IsSteady m.environment) (p : Program) {n : Nat} (hn : t.depth + 3 ≤ n)
    (l l' one : Location) :
    let run (e : Expr) := (Run.eval p n e).on m
    let old (v _ : Value) := ∃ u, (run t).1 = .ok u ∧ v = .ofNumber u.number
    (∀ op, (run (.step op t l)).1 ≠ .error .outOfSteps) ∧
    Run.Coincide Eq (run (.step .preIncrement t l)) (run (.compoundOne .add t l' one)) ∧
    Run.Coincide Eq (run (.step .preDecrement t l)) (run (.compoundOne .sub t l' one)) ∧
    Run.Coincide old (run (.step .postIncrement t l')) (run (.step .preIncrement t l)) ∧
    Run.Coincide old (run (.step .postDecrement t l')) (run (.step .preDecrement t l)) := by
  intro run old
  obtain ⟨k, rfl⟩ := Nat.exists_eq_add_of_le' (Nat.le_trans (Nat.le_add_left 3 _) hn)
  have hk : t.depth ≤ k := Nat.le_of_add_le_add_right hn
  refine ⟨fun _ => Run.finishes_step ht hk m, ?_, ?_, ?_, ?_⟩
  · exact Run.step_compoundOne ht hk (fun _ => rfl) fun _ => rfl
  · exact Run.step_compoundOne ht hk (fun _ => rfl) fun _ => rfl
  · exact Run.step_after ht hk (fun _ => rfl) fun _ => rfl
  · exact Run.step_after ht hk (fun _ => rfl) fun _ => rfl

-- The index is an element of an array that is there.
theorem step_coincides_with_assignment_element :
    let m : Machine := { environment := { globals := .ofList [
      ("x", .array (.ofList [("a", ⟨"41"⟩)])), ("y", .array (.ofList [("1", ⟨"a"⟩)]))] } }
    let t : Expr := .element "x" (.element "y" (.constant "1" .start) .start) .start
    let o := (Run.eval {} 5 (.step .preIncrement t .start)).on m
    let o' := (Run.eval {} 5 (.compoundOne .add t .start .start)).on m
    (t.IsSteady m.environment ∧ t.depth + 3 ≤ 5) ∧
      ((Run.eval {} 5 t).on m).1 = .ok ⟨"41"⟩ ∧ o.1 = .ok ⟨"42"⟩ ∧ Run.Coincide Eq o o' := by
  intro m t
  have ht : t.IsSteady m.environment := by
    refine ⟨rfl, fun x hx => ?_⟩
    cases List.mem_singleton.mp hx
    rfl
  refine ⟨⟨ht, by decide⟩, rfl, ?_, ?_⟩
  · exact congrArg Except.ok (Value.ofNumber_count (n := 41) (by decide))
  · exact (step_coincides_with_assignment ht {} (by decide) .start .start .start).2.1

end PatternAction
