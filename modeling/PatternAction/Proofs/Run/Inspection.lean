import PatternAction.Proofs.Run.Rereading
import PatternAction.Proofs.Run.Splitting

namespace PatternAction

namespace Expr

-- No value is stored and nothing is called.
def isReadOnly (e : Expr) : Bool :=
  e.all fun
    | assign .. | step .. | call .. => false
    | _                             => true

-- An element is taken of the array with a name.
def Indexes (e : Expr) (x : String) : Prop := (.indexed, x) ∈ e.uses {}

instance (e : Expr) (x : String) : Decidable (e.Indexes x) :=
  inferInstanceAs (Decidable (_ ∈ _))

end Expr

namespace Environment

theorem Aligned.resolve_of_lookup_eq_none {e : Environment} {x : String} (h : e.Aligned)
    (hl : e.lookup x = none) : e.resolve x = ⟨.globals, x⟩ := by
  have hn : ¬(e.cell? (e.resolve x)).isSome := by
    rw [← lookup, hl]
    exact Bool.false_ne_true
  rcases e.resolve_cases x with hr | ⟨f, hf, _, ha | ⟨hr, hx⟩⟩
  · exact hr
  · exact absurd (h _ f x _ hf ha).2.bound hn
  · rw [hr] at hn
    exact absurd (cell?_frame_eq_some_iff.mpr ⟨f, hf, hx⟩) hn

-- Empty arrays are made, one after the other, for some names that nothing is bound to.
inductive Opens (may : String → Prop) (e : Environment) : Environment → Prop
  | done : Opens may e e
  | more : Opens may e e' → may x → e'.lookup x = none → Opens may e (e'.store x (.array .empty))

namespace Opens

variable {may : String → Prop} {e e' e'' : Environment} {r : Reference} {c : Cell} {x : String}

theorem trans (h : e.Opens may e') (h' : e'.Opens may e'') : e.Opens may e'' := by
  induction h'
  case done => exact h
  case more hx hl ih => exact .more ih hx hl

theorem cell?_eq (h : e.Opens may e') (hc : e.cell? r = some c) : e'.cell? r = some c := by
  induction h
  case done => exact hc
  case more e' x _ _ hl ih =>
    have hr : r ≠ e'.resolve x := by
      rintro rfl
      rw [lookup, ih] at hl
      cases hl
    exact (cell?_setCell_of_ne hr).trans ih

theorem eq_of_bound (h : e.Opens may e') (hb : ∀ x, may x → (e.lookup x).isSome) : e' = e := by
  induction h
  case done => rfl
  case more hx hl ih =>
    subst ih
    have hb := hb _ hx
    rw [hl] at hb
    cases hb

theorem element {key : String} {v : Value} (hx : may x) (h : e.element x key = .ok (v, e')) :
    e.Opens may e' := by
  rw [Environment.element, array] at h
  rcases hl : e.lookup x with _ | (_ | _)
  all_goals
    rw [hl] at h
    cases h
  case none => exact .more .done hx hl
  case some.array => exact .done

theorem lookup_eq_none (h : e.Opens may e') (hf : e'.frames = e.frames)
    (hl : e'.lookup x = none) : e.lookup x = none := by
  have hr : e'.resolve x = e.resolve x := (Alike.of_frames_eq hf).resolve x
  rw [lookup, hr] at hl
  cases hc : e.lookup x
  case none => rfl
  case some => cases hl.symm.trans (h.cell?_eq hc)

theorem sound (h : e.Opens may e') (he : e.Aligned) :
    e'.Aligned ∧ e'.frames = e.frames ∧
      ∀ x, e'.globals.get? x = e.globals.get? x ∨
        may x ∧ e.lookup x = none ∧ e'.globals.get? x = some (.array .empty) := by
  induction h
  case done => exact ⟨he, rfl, fun _ => .inl rfl⟩
  case more e' x h hx hl ih =>
    obtain ⟨ha, hf, hg⟩ := ih
    have hs : e'.store x (.array .empty) = e'.setCell ⟨.globals, x⟩ (.array .empty) := by
      rw [store, ha.resolve_of_lookup_eq_none hl]
    refine ⟨ha.setArray, by rw [hs]; exact hf, fun y => ?_⟩
    rw [hs]
    change (e'.globals.insert x _).get? y = _ ∨ _ ∧ _ ∧ (e'.globals.insert x _).get? y = _
    rw [Table.get?_insert]
    split
    case isTrue hy =>
      subst hy
      exact .inr ⟨hx, h.lookup_eq_none hf hl, rfl⟩
    case isFalse => exact hg y

end Opens

end Environment

-- What a state keeps while an expression looks at it,
structure State.Undisturbed (s s' : State) : Prop where
  output   : s'.output = s.output
  records  : s'.records = s.records
  cursor   : s'.cursor = s.cursor
  halted   : s'.halted = s.halted
  exitCode : s'.exitCode = s.exitCode
  bound    : ∀ r c, s.environment.cell? r = some c → s'.environment.cell? r = some c

-- and all that becomes of its environment.
structure Environment.Gains (may : String → Prop) (e e' : Environment) : Prop where
  frames  : e'.frames = e.frames
  globals : ∀ x, e'.globals.get? x = e.globals.get? x ∨
              may x ∧ e.lookup x = none ∧ e'.globals.get? x = some (.array .empty)

namespace Run

-- A step that does no more than to make arrays, and depends on the environment alone.
structure Looks (may : String → Prop) {α : Type} (x : Run α) : Prop where
  opens : ∀ m : Machine, m.environment.Opens may (x.on m).2.environment
  rest  : ∀ m : Machine,
            (x.on m).2.toState = { m.toState with environment := (x.on m).2.environment }
  same  : ∀ m m' : Machine, m'.environment = m.environment →
            (x.on m').1 = (x.on m).1 ∧ (x.on m').2.environment = (x.on m).2.environment

namespace Looks

variable {may : String → Prop} {α β : Type} {x : Run α} {f : α → Run β} {y key : String}
  {l : Location} {o : Option Location}

theorem pure {a : α} : Looks may (pure a : Run α) where
  opens _ := .done
  rest _ := rfl
  same _ _ h := ⟨rfl, h⟩

theorem throw {g : Failure} : Looks may (throw g : Run α) where
  opens _ := .done
  rest _ := rfl
  same _ _ h := ⟨rfl, h⟩

theorem bind (hx : Looks may x) (hf : ∀ a, Looks may (f a)) : Looks may (x >>= f) := by
  constructor
  case opens =>
    intro m
    have hm := hx.opens m
    rcases ho : x.on m with ⟨g | a, m₁⟩
    all_goals rw [ho] at hm
    case error => rwa [on_bind_error ho]
    case ok =>
      rw [on_bind_ok ho]
      exact hm.trans ((hf a).opens m₁)
  case rest =>
    intro m
    have hm := hx.rest m
    rcases ho : x.on m with ⟨g | a, m₁⟩
    all_goals rw [ho] at hm
    case error => rwa [on_bind_error ho]
    case ok =>
      rw [on_bind_ok ho, (hf a).rest m₁, hm]
  case same =>
    intro m m' h
    obtain ⟨hr, he⟩ := hx.same m m' h
    rcases ho : x.on m with ⟨g | a, m₁⟩
    all_goals
      rcases ho' : x.on m' with ⟨r', m₁'⟩
      rw [ho, ho'] at hr he
      cases hr
    case error =>
      rw [on_bind_error ho, on_bind_error ho']
      exact ⟨rfl, he⟩
    case ok =>
      rw [on_bind_ok ho, on_bind_ok ho']
      exact (hf a).same m₁ m₁' he

theorem inspect {f : Environment → Except Fault α} : Looks may (inspect o f) where
  opens m := by
    rw [inspect_on]
    exact .done
  rest m := by rw [inspect_on]
  same m m' h := by
    rw [inspect_on, inspect_on, h]
    exact ⟨rfl, rfl⟩

theorem check {r : Except Fault α} : Looks may (check o r) := by
  cases r
  case error => exact throw
  case ok => exact pure

theorem scalar : Looks may (scalar y l) := inspect

theorem hasElement : Looks may (hasElement y key l) := inspect

theorem field : Looks may (field y) := inspect (o := none) (f := fun e => .ok (e.field y))

theorem pattern [Patterns] {source : String} : Looks may (pattern source) := by
  unfold Run.pattern
  split
  case h_1 => exact pure
  case h_2 => exact throw

theorem arithmetic {op : Arithmetic} {a b : Number} : Looks may (arithmetic op a b l) := by
  unfold Run.arithmetic
  split
  case h_4 | h_5 =>
    split
    case isTrue => exact throw
    case isFalse => exact pure
  all_goals exact pure

theorem operate {f : Environment → Except Fault (α × Environment)}
    (hf : ∀ e a e', f e = .ok (a, e') → e.Opens may e') : Looks may (operate o f) := by
  constructor
  case opens =>
    intro m
    cases hr : f m.environment
    case error =>
      rw [operate_on_error hr]
      exact .done
    case ok q =>
      rw [operate_on_ok hr]
      exact hf _ _ _ hr
  case rest =>
    intro m
    cases hr : f m.environment
    case error => rw [operate_on_error hr]
    case ok q =>
      rw [operate_on_ok hr]
      rfl
  case same =>
    intro m m' h
    cases hr : f m.environment
    all_goals have hr' := (congrArg f h).trans hr
    case error =>
      rw [operate_on_error hr, operate_on_error hr']
      exact ⟨rfl, h⟩
    case ok q =>
      rw [operate_on_ok hr, operate_on_ok hr']
      exact ⟨rfl, rfl⟩

theorem element (hy : may y) : Looks may (element y key l) :=
  operate fun _ _ _ => .element hy

theorem fieldName {v : Value} : Looks may (fieldName v l) := check

end Looks

variable {may : String → Prop} {p : Program} {n : Nat} {e : Expr}

theorem looks_eval [Patterns] (he : e.isReadOnly)
    (hu : Permits (fun u x => u = .indexed → may x) (e.uses {})) : Looks may (eval p n e) := by
  induction n generalizing e
  case zero => exact .throw
  case succ n ih =>
    cases e
    case assign | step | call => simp [Expr.isReadOnly, Expr.all] at he
    all_goals
      simp only [Expr.isReadOnly, Expr.all, Bool.and_eq_true, Bool.true_and] at he
      simp only [Expr.uses, permits_append, permits_cons] at hu
    case constant => exact .pure
    case pattern => exact .throw
    case name => exact .scalar
    case element => exact (ih he hu.2).bind fun _ => .element (hu.1 trivial)
    case field => exact (ih he hu).bind fun _ => .bind .fieldName fun _ => .field
    case binary op left right _ =>
      obtain ⟨hl, hr⟩ := he
      cases op
      case and | or =>
        refine (ih hl hu.1).bind fun _ => ?_
        split
        all_goals first
          | exact .pure
          | exact (ih hr hu.2).bind fun _ => .pure
      case concat | comparison =>
        exact (ih hl hu.1).bind fun _ => (ih hr hu.2).bind fun _ => .pure
      case arithmetic =>
        refine (ih hl hu.1).bind fun _ => (ih hr hu.2).bind fun _ => ?_
        exact .bind .arithmetic fun _ => .pure
    case unary => exact (ih he hu).bind fun _ => .pure
    case conditional =>
      refine (ih he.1.1 hu.1.1).bind fun _ => ?_
      split
      case isTrue => exact ih he.1.2 hu.1.2
      case isFalse => exact ih he.2 hu.2
    case member =>
      rw [eval]
      split
      case h_1 => exact .throw
      case h_2 => exact (ih he.1 hu.1).bind fun _ => .bind .hasElement fun _ => .pure
    case search => exact (ih he hu).bind fun _ => .bind .pattern fun _ => .pure

theorem Looks.again {α : Type} {x : Run α} {m : Machine} (hx : Looks may x)
    (hb : ∀ x, may x → (m.environment.lookup x).isSome) :
    (x.on m).2.toState = m.toState ∧ (x.on (x.on m).2).1 = (x.on m).1 := by
  have he := (hx.opens m).eq_of_bound hb
  refine ⟨?_, (hx.same m _ he).1⟩
  rw [hx.rest m, he]

end Run

theorem Expr.permits_indexes (e : Expr) :
    Permits (fun u x => u = .indexed → e.Indexes x) (e.uses {}) := by
  rintro ⟨u, x⟩ hq rfl
  exact hq

-- An expression that stores nothing and calls nothing leaves everything as it was, whatever it
-- gives, but for the arrays that it takes elements of and nothing is bound to: at any point of a
-- run these become globals. If there are no such arrays it leaves the very same state, and gives
-- the same again.
theorem undisturbed_by_readOnly [Patterns] {e : Expr} (he : e.isReadOnly) (p : Program) (n : Nat)
    (m : Machine) :
    m.toState.Undisturbed ((Run.eval p n e).on m).2.toState ∧
    (m.toState.Reachable →
      m.environment.Gains e.Indexes ((Run.eval p n e).on m).2.environment) ∧
    ((∀ x, e.Indexes x → (m.environment.lookup x).isSome) →
      ((Run.eval p n e).on m).2.toState = m.toState ∧
      ((Run.eval p n e).on ((Run.eval p n e).on m).2).1 = ((Run.eval p n e).on m).1) := by
  have hx : Run.Looks e.Indexes (Run.eval p n e) := Run.looks_eval he e.permits_indexes
  have ho := hx.opens m
  refine ⟨?_, fun hm => ?_, hx.again⟩
  · have hr := hx.rest m
    constructor
    case bound => exact fun r c => ho.cell?_eq
    all_goals rw [hr]
  · obtain ⟨_, hf, hg⟩ := ho.sound hm.aligned
    exact ⟨hf, hg⟩

-- One array is there and another one is not.
theorem undisturbed_by_readOnly_opening :
    let m : Machine := { environment := { globals := .ofList [("x", .array (.ofList []))] } }
    let e : Expr := .binary .concat (.element "x" (.constant "1" .start) .start)
      (.element "y" (.constant "1" .start) .start) .start
    (e.isReadOnly ∧ e.Indexes "x" ∧ e.Indexes "y") ∧
      (((Run.eval {} 3 e).on m).1 = .ok ⟨"00"⟩ ∧
        ((Run.eval {} 3 e).on m).2.environment.globals.contains "y") ∧
      m.environment.Gains e.Indexes ((Run.eval {} 3 e).on m).2.environment := by
  refine ⟨⟨rfl, by decide, by decide⟩, ⟨?_, ?_⟩, ?_⟩
  · rfl
  · rfl
  · exact (undisturbed_by_readOnly rfl {} 3 _).2.1 (.between rfl)

end PatternAction
