import PatternAction.Proofs.Run.Correspondence
import PatternAction.Proofs.Run.Outcomes

namespace PatternAction

-- What went wrong, whatever the variables are called.
def Fault.unnamed : Fault → Fault
  | .arrayAsScalar _    => .arrayAsScalar ""
  | .scalarOverArray _  => .scalarOverArray ""
  | .scalarAsArray _    => .scalarAsArray ""
  | .notArray _         => .notArray ""
  | .unboundArray _     => .unboundArray ""
  | .deleteFromScalar _ => .deleteFromScalar ""
  | cause               => cause

def Failure.unnamed : Failure → Failure
  | .fault cause l => .fault cause.unnamed l
  | failure        => failure

-- Two outcomes are related results, or errors that `u` does not tell apart.
inductive Agree {ε α β : Type} (u : ε → ε) (R : α → β → Prop) : Except ε α → Except ε β → Prop
  | ok    : R a b → Agree u R (.ok a) (.ok b)
  | error : u f = u g → Agree u R (.error f) (.error g)

namespace Agree

variable {ε α β γ δ : Type} {u : ε → ε} {R : α → β → Prop} {S : γ → δ → Prop}
variable {r : Except ε α} {r' : Except ε β}

theorem mono {S : α → β → Prop} (h : Agree u R r r') (hs : ∀ a b, R a b → S a b) :
    Agree u S r r' := by
  cases h
  case ok h => exact .ok (hs _ _ h)
  case error h => exact .error h

theorem bind {f : α → Except ε γ} {f' : β → Except ε δ} (h : Agree u R r r')
    (hf : ∀ a b, R a b → Agree u S (f a) (f' b)) : Agree u S (r >>= f) (r' >>= f') := by
  cases h
  case ok h => exact hf _ _ h
  case error h => exact .error h

theorem mapError_eq {r r' : Except ε α} (h : Agree u Eq r r') :
    r'.mapError u = r.mapError u := by
  cases h
  case ok h => rw [h]
  case error h => exact congrArg Except.error h.symm

end Agree

open Renaming

namespace Environment.Renamed

variable {φ : List Renaming} {e e' : Environment} {x key : String} {v : Value}

section Operations

variable (h : Renamed φ e e') (hx : (top φ).domain x)
include h hx

theorem scalar : Agree Fault.unnamed Eq (e.scalar x) (e'.scalar ((top φ).map x)) := by
  rw [Environment.scalar, Environment.scalar, h.lookup hx]
  rcases e.lookup x with _ | _ | _
  case none | some.scalar => exact .ok rfl
  case some.array => exact .error rfl

theorem setScalar :
    Agree Fault.unnamed (Renamed φ) (e.setScalar x v) (e'.setScalar ((top φ).map x) v) := by
  rw [Environment.setScalar, Environment.setScalar, h.lookup hx]
  rcases e.lookup x with _ | _ | _
  case none | some.scalar => exact .ok (h.store hx)
  case some.array => exact .error rfl

theorem array : Agree Fault.unnamed (fun (t, e) (t', e') => t = t' ∧ Renamed φ e e')
    (e.array x) (e'.array ((top φ).map x)) := by
  rw [Environment.array, Environment.array, h.lookup hx]
  rcases e.lookup x with _ | _ | _
  case none => exact .ok ⟨rfl, h.store hx⟩
  case some.scalar => exact .error rfl
  case some.array => exact .ok ⟨rfl, h⟩

theorem element : Agree Fault.unnamed (fun (v, e) (v', e') => v = v' ∧ Renamed φ e e')
    (e.element x key) (e'.element ((top φ).map x) key) :=
  (h.array hx).bind fun (_, _) (_, _) ⟨ht, he⟩ => .ok ⟨by rw [ht], he⟩

theorem setElement : Agree Fault.unnamed (Renamed φ) (e.setElement x key v)
    (e'.setElement ((top φ).map x) key v) :=
  (h.array hx).bind fun (_, _) (_, _) ⟨ht, he⟩ => .ok (ht ▸ he.store hx)

theorem hasElement :
    Agree Fault.unnamed Eq (e.hasElement x key) (e'.hasElement ((top φ).map x) key) := by
  rw [Environment.hasElement, Environment.hasElement, h.lookup hx]
  rcases e.lookup x with _ | _ | _
  case none | some.scalar => exact .error rfl
  case some.array => exact .ok rfl

theorem keys : Agree Fault.unnamed Eq (e.keys x) (e'.keys ((top φ).map x)) := by
  rw [Environment.keys, Environment.keys, h.lookup hx]
  rcases e.lookup x with _ | _ | _
  case none | some.array => exact .ok rfl
  case some.scalar => exact .error rfl

theorem delete {key : Option String} : Agree Fault.unnamed (Renamed φ) (e.delete x key)
    (e'.delete ((top φ).map x) key) := by
  rw [Environment.delete, Environment.delete, h.lookup hx]
  rcases e.lookup x with _ | _ | _
  case none => exact .ok h
  case some.scalar => exact .error rfl
  case some.array => exact .ok (h.store hx)

end Operations

theorem global (h : Renamed φ e e') : e'.global x = e.global x := by
  rw [Environment.global, h.globals, Environment.global]

theorem field (h : Renamed φ e e') : e'.field x = e.field x := by
  rw [Environment.field, h.globals, Environment.field]

theorem setFields {record : String} {fs : List String} (h : Renamed φ e e') :
    Renamed φ (e.setFields record fs) (e'.setFields record fs) := by
  have hf (l : List (String × Nat)) {e e' : Environment} (h : Renamed φ e e') :
      Renamed φ (l.foldl (fun e q => e.setGlobal ("$" ++ toString (q.2 + 1)) ⟨q.1⟩) e)
        (l.foldl (fun e q => e.setGlobal ("$" ++ toString (q.2 + 1)) ⟨q.1⟩) e') := by
    induction l generalizing e e'
    case nil => exact h
    case cons ih => exact ih h.setGlobal
  exact (hf _ h.setGlobal).setGlobal

end Environment.Renamed

-- The states of a run and of the same run with other names.
structure State.Renamed (φ : List Renaming) (s s' : State) : Prop where
  environment : s.environment.Renamed φ s'.environment
  rest        : s' = { s with environment := s'.environment }

namespace State.Renamed

variable {φ ψ : List Renaming} {σ : Renaming} {s s' : State} {e e' : Environment} {f f' : Frame}

theorem withEnvironment (h : s.Renamed φ s') (he : e.Renamed ψ e') :
    State.Renamed ψ { s with environment := e } { s' with environment := e' } :=
  ⟨he, by rw [h.rest]⟩

theorem push (h : s.Renamed φ s') (hf : f.Renamed φ φ.length σ f') (hc : f.Covers σ) :
    (s.push f).Renamed (σ :: φ) (s'.push f') :=
  h.withEnvironment (h.environment.push hf hc)

theorem pop (h : s.Renamed (σ :: φ) s') : s.pop.Renamed φ s'.pop :=
  h.withEnvironment h.environment.pop

theorem halted (h : s.Renamed φ s') : s'.halted = s.halted := by rw [h.rest]

theorem exitCode (h : s.Renamed φ s') : s'.exitCode = s.exitCode := by rw [h.rest]

theorem nil_iff : s.Renamed [] s' ↔ s.environment.frames = #[] ∧ s' = s := by
  constructor
  case mp =>
    intro h
    have ⟨hf, he⟩ := Environment.Renamed.nil_iff.mp h.environment
    exact ⟨hf, by rw [h.rest, he]⟩
  case mpr =>
    rintro ⟨hf, rfl⟩
    exact ⟨Environment.Renamed.nil_iff.mpr ⟨hf, rfl⟩, rfl⟩

end State.Renamed

namespace Run

variable {φ : List Renaming} {α β γ δ : Type} {R : α → β → Prop} {S : γ → δ → Prop}

-- A step does the same as another one under other names, and ends under the same names.
def Mirrors (φ : List Renaming) (R : α → β → Prop) (x : Run α) (x' : Run β) : Prop :=
  ∀ m m' : Machine, m.toState.Renamed φ m'.toState →
    Agree Failure.unnamed R (x.on m).1 (x'.on m').1 ∧
      (x.on m).2.toState.Renamed φ (x'.on m').2.toState

namespace Mirrors

theorem pure {a : α} {b : β} (h : R a b) : Mirrors φ R (pure a) (pure b) :=
  fun _ _ hm => ⟨.ok h, hm⟩

theorem throw {f g : Failure} (h : f.unnamed = g.unnamed) :
    Mirrors φ R (throw f : Run α) (throw g : Run β) :=
  fun _ _ hm => ⟨.error h, hm⟩

theorem mono {S : α → β → Prop} {x : Run α} {x' : Run β} (h : Mirrors φ R x x')
    (hs : ∀ a b, R a b → S a b) : Mirrors φ S x x' :=
  fun m m' hm => ⟨(h m m' hm).1.mono hs, (h m m' hm).2⟩

theorem bind {x : Run α} {x' : Run β} {f : α → Run γ} {f' : β → Run δ} (h : Mirrors φ R x x')
    (hf : ∀ a b, R a b → Mirrors φ S (f a) (f' b)) : Mirrors φ S (x >>= f) (x' >>= f') := by
  intro m m' hm
  have ⟨ha, hs⟩ := h m m' hm
  rcases ho : x.on m with ⟨r, n⟩
  rcases ho' : x'.on m' with ⟨r', n'⟩
  rw [ho, ho'] at ha hs
  cases ha
  case ok hr =>
    rw [on_bind_ok ho, on_bind_ok ho']
    exact hf _ _ hr n n' hs
  case error he =>
    rw [on_bind_error ho, on_bind_error ho']
    exact ⟨.error he, hs⟩

theorem andThen {x x' : Run α} {f : α → Run γ} {f' : α → Run δ} (h : Mirrors φ Eq x x')
    (hf : ∀ a, Mirrors φ S (f a) (f' a)) : Mirrors φ S (x >>= f) (x' >>= f') :=
  h.bind fun a _ hab => hab ▸ hf a

theorem pure_bind {f : α → Run γ} {f' : β → Run δ} {a : α} {b : β}
    (h : Mirrors φ S (f a) (f' b)) : Mirrors φ S (Pure.pure a >>= f) (Pure.pure b >>= f') := by
  rwa [LawfulMonad.pure_bind, LawfulMonad.pure_bind]

theorem some {x : Run α} {x' : Run β} (h : Mirrors φ R x x') :
    Mirrors φ (fun o o' => ∃ a b, o = some a ∧ o' = some b ∧ R a b) (some <$> x) (some <$> x') := by
  rw [← bind_pure_comp, ← bind_pure_comp]
  exact h.bind fun a b hab => .pure ⟨a, b, rfl, rfl, hab⟩

theorem get : Mirrors φ (fun m m' => m.toState.Renamed φ m'.toState) (get : Run Machine) get :=
  fun _ _ hm => ⟨.ok hm, hm⟩

theorem environment : Mirrors φ (Environment.Renamed φ) environment environment :=
  get.bind fun _ _ hm => .pure hm.environment

theorem isHalted : Mirrors φ Eq isHalted isHalted := get.bind fun _ _ hm => .pure hm.halted.symm

theorem change {g : State → State}
    (hg : ∀ s e, g { s with environment := e } = { g s with environment := e }) :
    Mirrors φ Eq (change g) (change g) := by
  intro m m' hm
  have he : (g m.toState).environment = m.environment := by
    rw [show g m.toState = _ from hg m.toState m.environment]
  have he' : g m'.toState = { g m.toState with environment := m'.environment } :=
    (congrArg g hm.rest).trans (hg _ _)
  refine ⟨.ok rfl, ?_⟩
  change (g m.toState).Renamed φ (g m'.toState)
  rw [he']
  exact ⟨he ▸ hm.environment, rfl⟩

theorem halt : Mirrors φ Eq halt halt := change fun _ _ => rfl

theorem setExitCode {code : Int} : Mirrors φ Eq (setExitCode code) (setExitCode code) :=
  change fun _ _ => rfl

theorem write {text : String} : Mirrors φ Eq (write text) (write text) := change fun _ _ => rfl

theorem input {i : Input} : Mirrors φ Eq (input i) (input i) := fun _ _ hm => ⟨.ok rfl, hm⟩

theorem skipRecords : Mirrors φ Eq skipRecords skipRecords :=
  input.andThen fun _ => change fun _ _ => rfl

theorem setEnvironment {e e' : Environment} (h : e.Renamed φ e') :
    Mirrors φ Eq (setEnvironment e) (setEnvironment e') :=
  fun _ _ hm => ⟨.ok rfl, hm.withEnvironment h⟩

theorem check {l : Option Location} {r : Except Fault α} {r' : Except Fault β}
    (h : Agree Fault.unnamed R r r') : Mirrors φ R (check l r) (check l r') := by
  cases h
  case ok h => exact pure h
  case error h => exact throw (congrArg (Failure.fault · l) h)

theorem clause {x x' : Run Value} {c c' : Clause} (h : Mirrors φ Eq x x') :
    Mirrors φ Eq (clause c x) (clause c' x') := h

theorem withFrame {σ : Renaming} {f f' : Frame} {x : Run α} {x' : Run β}
    (hf : f.Renamed φ φ.length σ f') (hc : f.Covers σ) (h : Mirrors (σ :: φ) R x x') :
    Mirrors φ R (withFrame f x) (withFrame f' x') := by
  intro m m' hm
  have ⟨ha, hs⟩ := h (m.become (m.push f)) (m'.become (m'.push f')) (hm.push hf hc)
  exact ⟨ha, hs.pop⟩

section Named

variable {x key : String} {v : Value} {l : Location} (hx : (top φ).domain x)
include hx

theorem scalar : Mirrors φ Eq (scalar x l) (scalar ((top φ).map x) l) :=
  environment.bind fun _ _ h => check (h.scalar hx)

theorem setScalar : Mirrors φ Eq (setScalar x v l) (setScalar ((top φ).map x) v l) :=
  environment.bind fun _ _ h => (check (h.setScalar hx)).bind fun _ _ => setEnvironment

theorem element : Mirrors φ Eq (element x key l) (element ((top φ).map x) key l) :=
  environment.bind fun _ _ h => (check (h.element hx)).bind fun (_, _) (_, _) ⟨hv, he⟩ =>
    (setEnvironment he).andThen fun _ => pure hv

theorem setElement :
    Mirrors φ Eq (setElement x key v l) (setElement ((top φ).map x) key v l) :=
  environment.bind fun _ _ h => (check (h.setElement hx)).bind fun _ _ => setEnvironment

theorem setArray {t : Table Value} : Mirrors φ Eq (setArray x t) (setArray ((top φ).map x) t) :=
  environment.bind fun _ _ h => setEnvironment (h.store hx)

theorem hasElement : Mirrors φ Eq (hasElement x key l) (hasElement ((top φ).map x) key l) :=
  environment.bind fun _ _ h => check (h.hasElement hx)

theorem keys : Mirrors φ Eq (keys x l) (keys ((top φ).map x) l) :=
  environment.bind fun _ _ h => check (h.keys hx)

theorem delete {key : Option String} :
    Mirrors φ Eq (delete x key l) (delete ((top φ).map x) key l) :=
  environment.bind fun _ _ h => (check (h.delete hx)).bind fun _ _ => setEnvironment

end Named

-- Fields and record variables are global, and so the same on both sides.
section Global

variable {x : String} {v : Value} {l : Location}

theorem fieldName : Mirrors φ Eq (fieldName v l) (fieldName v l) := by
  unfold Run.fieldName
  cases Environment.fieldName v
  case ok => exact pure rfl
  case error => exact throw rfl

theorem field : Mirrors φ Eq (field x) (field x) :=
  environment.bind fun _ _ h => pure h.field.symm

theorem setField : Mirrors φ Eq (setField x v) (setField x v) :=
  environment.bind fun _ _ h => setEnvironment h.setGlobal

theorem global : Mirrors φ Eq (global x) (global x) := by
  refine environment.bind fun e _ h => ?_
  rw [h.global]
  cases e.global x
  case ok => exact pure rfl
  case error => exact throw rfl

theorem pattern [Patterns] {source : String} : Mirrors φ Eq (pattern source) (pattern source) := by
  unfold Run.pattern
  split
  case h_1 => exact pure rfl
  case h_2 => exact throw rfl

theorem split [Patterns] {text sep : String} : Mirrors φ Eq (split text sep) (split text sep) := by
  unfold Run.split
  split
  case h_1 => exact pure rfl
  case h_2 => exact throw rfl

theorem arithmetic {op : Arithmetic} {a b : Number} :
    Mirrors φ Eq (arithmetic op a b l) (arithmetic op a b l) := by
  unfold Run.arithmetic
  split
  case h_4 | h_5 =>
    split
    case isTrue => exact throw rfl
    case isFalse => exact pure rfl
  all_goals exact pure rfl

theorem setRecord [Patterns] {record : String} :
    Mirrors φ Eq (setRecord record) (setRecord record) := by
  refine environment.bind fun _ _ h => (setEnvironment h.dropFields).andThen fun _ => ?_
  refine global.andThen fun _ => split.andThen fun (_, _) => ?_
  exact environment.bind fun _ _ h => setEnvironment h.setFields

theorem loadRecord [Patterns] : Mirrors φ Eq loadRecord loadRecord := by
  refine get.bind fun m m' hm => ?_
  rw [hm.rest]
  dsimp only
  refine input.andThen fun _ => ?_
  split
  case h_1 => exact pure rfl
  case h_2 =>
    refine (change fun _ _ => rfl).andThen fun _ => global.andThen fun _ => ?_
    refine global.andThen fun _ => setRecord.andThen fun _ => input.andThen fun _ => ?_
    refine environment.bind fun _ _ h => ?_
    exact (setEnvironment h.setGlobal.setGlobal).andThen fun _ => pure rfl

end Global

end Mirrors

end Run

end PatternAction
