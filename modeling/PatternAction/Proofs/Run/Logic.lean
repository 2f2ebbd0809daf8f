import PatternAction.Proofs.Run.Control
import PatternAction.Proofs.Run.Operations

namespace PatternAction

namespace Run

-- How the frame of a call is made: parameter by parameter, from the values of arguments and from
-- names that are bound to arrays.
inductive Binds (may : Use → String → Prop) (K : Run Value → Prop) : Frame → Run Frame → Prop
  | done  {frame : Frame} : Binds may K frame (pure frame)
  | fail  {frame : Frame} {f : Failure} : f.isStuck = false → Binds may K frame (throw f)
  | value {frame : Frame} {x : String} {a : Run Value} {g : Value → Run Frame} : K a →
      (∀ v, Binds may K { frame with locals := frame.locals.insert x (.scalar v) } (g v)) →
      Binds may K frame (a >>= g)
  | name  {frame : Frame} {x y : String} {f : Reference → Run Frame} {b : Run Frame} :
      may .passed y →
      (∀ r, Binds may K { frame with aliases := frame.aliases.insert x r } (f r)) →
      Binds may K frame b →
      Binds may K frame (do
        let e ← environment
        if e.isArray (e.resolve y) then f (e.resolve y) else b)

end Run

open Run

variable [Patterns]

-- A property of the steps that belong to expressions, `Holds 1`, and to statements, `Holds 0`, of a
-- program that uses variables in some ways.
structure Logic where
  may               : Use → String → Prop
  Holds             : Nat → {α : Type} → Run α → Prop
  holds_pure        : ∀ {k} {α : Type} {a : α}, Holds k (pure a : Run α)
  holds_throw       : ∀ {k f} {α : Type}, f.isStuck = false → Holds k (throw f : Run α)
  holds_bind        : ∀ {k} {α β : Type} {x : Run α} {f : α → Run β} {Q : α → Prop}, Holds k x →
                        x.Gives Q → (∀ a, Q a → Holds k (f a)) → Holds k (x >>= f)
  holds_lower       : ∀ {α : Type} {x : Run α}, Holds 1 x → Holds 0 x
  holds_clause      : ∀ {x : Run Value} {c}, Holds 1 x → Holds 0 (clause c x)
  holds_call        : ∀ {α : Type} {x : Run Frame} {body : Run α}, Binds may (Holds 1) {} x →
                        Holds 0 body → Holds 1 (x >>= fun frame => withFrame frame body)
  holds_inspect     : ∀ {k o} {α : Type} {f : Environment → Except Fault α},
                        (∀ e, Meets (f e) fun _ => True) → Holds k (inspect o f)
  holds_operate     : ∀ {k o} {α : Type} {f : Environment → Except Fault (α × Environment)},
                        (∀ e, Meets (f e) fun (_, e') => e.Write may e') → Holds k (operate o f)
  holds_isHalted    : ∀ {k}, Holds k isHalted
  holds_write       : ∀ {k text}, Holds k (write text)
  holds_halt        : ∀ {k}, Holds k halt
  holds_exit        : ∀ {k code}, Holds k (do setExitCode code; halt)
  holds_loadRecord  : ∀ {k}, Holds k loadRecord
  holds_skipRecords : ∀ {k}, Holds k skipRecords

namespace Logic.Holds

variable {L : Logic} {k : Nat} {α β : Type} {x : Run α} {f : α → Run β} {Q : α → Prop}
  {y key : String} {v : Value} {l : Location} {t : Target}

theorem pure {a : α} : L.Holds k (pure a : Run α) := L.holds_pure

theorem throw {g : Failure} (h : g.isStuck = false) : L.Holds k (throw g : Run α) := L.holds_throw h

theorem bind_of (hx : L.Holds k x) (hq : x.Gives Q) (hf : ∀ a, Q a → L.Holds k (f a)) :
    L.Holds k (x >>= f) :=
  L.holds_bind hx hq hf

theorem bind (hx : L.Holds k x) (hf : ∀ a, L.Holds k (f a)) : L.Holds k (x >>= f) :=
  L.holds_bind hx .any fun a _ => hf a

theorem pure_bind {a : α} (h : L.Holds k (f a)) : L.Holds k (Pure.pure a >>= f) := by
  rwa [LawfulMonad.pure_bind]

theorem map {g : α → β} (hx : L.Holds k x) : L.Holds k (g <$> x) := by
  rw [← bind_pure_comp]
  exact hx.bind fun _ => pure

theorem clause {x : Run Value} {c : Clause} (h : L.Holds 1 x) : L.Holds 0 (clause c x) :=
  L.holds_clause h

theorem lower (h : L.Holds 1 x) : L.Holds 0 x := L.holds_lower h

section Operations

theorem scalar : L.Holds k (scalar y l) := L.holds_inspect fun _ => Environment.meets_scalar

theorem hasElement : L.Holds k (hasElement y key l) :=
  L.holds_inspect fun _ => Environment.meets_hasElement

theorem keys : L.Holds k (keys y l) := L.holds_inspect fun _ => Environment.meets_keys

theorem global : L.Holds k (global y) := by
  refine L.holds_inspect fun e => ?_
  cases h : e.global y
  case error => exact Environment.isStuck_of_global h
  case ok => trivial

theorem field : L.Holds k (field y) :=
  L.holds_inspect (o := none) (f := fun e => .ok (e.field y)) fun _ => trivial

theorem setScalar (hy : L.may .assigned y) : L.Holds k (setScalar y v l) := by
  rw [setScalar_eq]
  exact L.holds_operate fun _ => (Environment.meets_setScalar hy).map fun _ h => h

theorem setElement (hy : L.may .indexed y) : L.Holds k (setElement y key v l) := by
  rw [setElement_eq]
  exact L.holds_operate fun _ => (Environment.meets_setElement hy).map fun _ h => h

theorem delete {key : Option String} (hy : L.may .indexed y) : L.Holds k (delete y key l) := by
  rw [delete_eq]
  exact L.holds_operate fun _ => (Environment.meets_delete hy).map fun _ h => h

theorem element (hy : L.may .indexed y) : L.Holds k (element y key l) :=
  L.holds_operate fun _ => Environment.meets_element hy

theorem setArray {t : Table Value} (hy : L.may .split y) : L.Holds k (setArray y t) :=
  L.holds_operate (o := none) (f := fun e => .ok ((), e.setArray y t)) fun _ => .split hy

theorem setField (hy : Environment.isFieldName y) : L.Holds k (setField y v) :=
  L.holds_operate (o := none) (f := fun e => .ok ((), e.setGlobal y v)) fun _ => .field hy

theorem check {o : Option Location} {r : Except Fault α} (h : Meets r Q) :
    L.Holds k (check o r) := by
  cases r
  case error => exact throw h
  case ok => exact pure

theorem fieldName : L.Holds k (fieldName v l) := check Environment.meets_fieldName

theorem pattern {source : String} : L.Holds k (pattern source) := by
  unfold Run.pattern
  split
  case h_1 => exact pure
  case h_2 => exact throw rfl

theorem split {text sep : String} : L.Holds k (split text sep) := by
  unfold Run.split
  split
  case h_1 => exact pure
  case h_2 => exact throw rfl

theorem arithmetic {op : Arithmetic} {a b : Number} : L.Holds k (arithmetic op a b l) := by
  unfold Run.arithmetic
  split
  case h_4 | h_5 =>
    split
    case isTrue => exact throw rfl
    case isFalse => exact pure
  all_goals exact pure

theorem arrayName {function : String} {e : Expr} : L.Holds k (arrayName function e) := by
  unfold Run.arrayName
  split
  case h_1 => exact pure
  case h_2 => exact throw rfl

end Operations

theorem closed : Closed fun α => L.Holds k (α := α) := ⟨pure, bind, L.holds_isHalted⟩

end Logic.Holds

end PatternAction
