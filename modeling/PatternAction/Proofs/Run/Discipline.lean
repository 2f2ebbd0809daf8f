import PatternAction.Proofs.Run.History
import PatternAction.Proofs.Run.Phases

namespace PatternAction

namespace Machine

variable {m : Machine}

@[simp] theorem history_withEnvironment {e : Environment} :
    (m.withEnvironment e).history.get =
      m.history.get ++ [.became { m.toState with environment := e }] :=
  history_become

@[simp] theorem history_take {record : String} :
    (m.take record).history.get = m.history.get ++
      [.input (.sought (some record)), .became { m.toState with cursor := m.cursor + 1 }] := by
  simp [take]

end Machine

-- A condition on environments that every step keeps, when calls are begun with frames that
-- satisfy another one. A frame is made binding by binding, and goes on to satisfy the condition
-- while further arguments are evaluated.
structure Discipline where
  may    : Use → String → Prop
  Sound  : Environment → Prop
  Handed : Environment → Frame → Prop
  step   : ∀ {e e'}, Sound e → Environment.Step may Handed e e' → Sound e'
  empty  : ∀ {e}, Handed e {}
  scalar : ∀ {e f x v}, Handed e f → Handed e { f with locals := f.locals.insert x (.scalar v) }
  array  : ∀ {e f x y}, Sound e → may .passed y → e.isArray (e.resolve y) → Handed e f →
             Handed e { f with aliases := f.aliases.insert x (e.resolve y) }
  stable : ∀ {s s' : State} {k t f}, Sound s.environment →
             Passage (State.Step may Handed) k s t s' →
             Handed s.environment f → Handed s'.environment f

-- What a step of a run does to a machine, with the steps of a relation.
structure Yields {α : Type} (R : State → State → Prop) (k : Nat) (m : Machine)
    (o : Except Failure α × Machine) : Prop where
  passage : ∃ t, o.2.history.get = m.history.get ++ t ∧ Passage R k m.toState t o.2.toState
  failure : ∀ f, o.1 = .error f → f.isStuck = false

namespace Yields

variable {α : Type} {R : State → State → Prop} {k : Nat} {m m' : Machine}

theorem ok {a : α} {t : List Event} (ht : m'.history.get = m.history.get ++ t)
    (hp : Passage R k m.toState t m'.toState) : Yields R k m (.ok a, m') :=
  ⟨⟨t, ht, hp⟩, fun _ h => nomatch h⟩

theorem error {f : Failure} (hf : f.isStuck = false) {t : List Event}
    (ht : m'.history.get = m.history.get ++ t) (hp : Passage R k m.toState t m'.toState) :
    Yields (α := α) R k m (.error f, m') :=
  ⟨⟨t, ht, hp⟩, fun _ h => Except.error.inj h ▸ hf⟩

end Yields

namespace Discipline

variable {D : Discipline} {s s' : State} {t : List Event}

theorem sound_of_path (hs : D.Sound s.environment)
    (h : Path (State.Moves D.may D.Handed) s t s') :
    D.Sound s'.environment ∧ ∀ s ∈ points t, D.Sound s.environment :=
  h.keeps (P := fun s => D.Sound s.environment) (fun _ _ h hs => D.step hs h) hs

abbrev Allows {α : Type} (D : Discipline) (k : Nat) (m : Machine)
    (o : Except Failure α × Machine) : Prop :=
  Yields (State.Step D.may D.Handed) k m o

theorem Allows.sound {α : Type} {k : Nat} {m : Machine} {o : Except Failure α × Machine}
    (h : D.Allows k m o) (hs : D.Sound m.environment) : D.Sound o.2.environment :=
  have ⟨_, _, hp⟩ := h.passage
  (sound_of_path hs (hp.path.mono fun _ _ => State.Step.moves)).1

end Discipline

namespace Run

theorem history_clause {m : Machine} {y : Run Value} {c : Clause} {t : List Event}
    (ht : (y.on m).2.history.get = m.history.get ++ t) :
    ((clause c y).on m).2.history.get = m.history.get ++
      (t ++ [.evaluated c (y.on m).1 m.toState (y.on m).2.toState]) := by
  rw [← List.append_assoc, ← ht]
  exact Machine.history_note

-- A step that respects a discipline wherever it starts.
def Keeps {α : Type} (D : Discipline) (k : Nat) (x : Run α) : Prop :=
  ∀ m : Machine, D.Sound m.environment → D.Allows k m (x.on m)

namespace Keeps

variable {D : Discipline} {k : Nat} {α β : Type} {x : Run α} {f : α → Run β} {m : Machine}

theorem mono {j : Nat} (h : Keeps D k x) (hk : j ≤ k) : Keeps D j x := fun m hm =>
  have ⟨⟨t, ht, hp⟩, hf⟩ := h m hm
  ⟨⟨t, ht, hp.mono hk⟩, hf⟩

theorem pure_on {a : α} : D.Allows k m ((pure a : Run α).on m) :=
  .ok (List.append_nil _).symm .done

theorem pure {a : α} : Keeps D k (pure a : Run α) := fun _ _ => pure_on

theorem throw_on {g : Failure} (hg : g.isStuck = false) : D.Allows k m ((throw g : Run α).on m) :=
  .error hg (List.append_nil _).symm .done

theorem throw {g : Failure} (hg : g.isStuck = false) : Keeps D k (throw g : Run α) :=
  fun _ _ => throw_on hg

theorem bind_on {R : State → State → Prop} (hx : Yields R k m (x.on m))
    (hf : ∀ a, (x.on m).1 = .ok a → Yields R k (x.on m).2 ((f a).on (x.on m).2)) :
    Yields R k m ((x >>= f).on m) := by
  rcases ho : x.on m with ⟨g | a, m'⟩
  all_goals rw [ho] at hx hf
  case error =>
    rw [on_bind_error ho]
    exact ⟨hx.passage, fun _ h => hx.failure _ (Except.error.inj h ▸ rfl)⟩
  case ok =>
    rw [on_bind_ok ho]
    have ⟨t, ht, hp⟩ := hx.passage
    have ⟨⟨u, hu, hq⟩, hf⟩ := hf a rfl
    refine ⟨⟨t ++ u, ?_, hp.trans hq⟩, hf⟩
    rw [hu, ht, List.append_assoc]

theorem bind_of {Q : α → Prop} (hx : Keeps D k x) (hq : x.Gives Q)
    (hf : ∀ a, Q a → Keeps D k (f a)) : Keeps D k (x >>= f) := fun m hm =>
  bind_on (hx m hm) fun a ha => hf a (hq m a ha) _ ((hx m hm).sound hm)

theorem clause {x : Run Value} {c : Clause} (h : Keeps D 1 x) : Keeps D 0 (clause c x) :=
  fun m hm =>
    have ⟨⟨_, ht, hp⟩, hf⟩ := h m hm
    ⟨⟨_, history_clause ht, hp.clause⟩, hf⟩

theorem get : Keeps D k (get : Run Machine) := fun _ _ => .ok (List.append_nil _).symm .done

theorem change {g : State → State} (hs : ∀ s : State, s.Step D.may D.Handed (g s))
    (hd : ∀ s, (g s).depth = s.depth) : Keeps D k (Run.change g) := fun _ _ =>
  .ok Machine.history_become (.became (hs _) (hd _))

theorem inspect {o : Option Location} {g : Environment → Except Fault α}
    (hg : ∀ e, Meets (g e) fun _ => True) : Keeps D k (inspect o g) := fun m _ => by
  rw [inspect_on]
  have h := hg m.environment
  cases hr : g m.environment
  all_goals rw [hr] at h
  case error => exact .error h (List.append_nil _).symm .done
  case ok => exact .ok (List.append_nil _).symm .done

theorem withEnvironment {e : Environment} (he : m.environment.Step D.may D.Handed e)
    (hd : e.depth = m.environment.depth) :
    Passage (State.Step D.may D.Handed) k m.toState [.became { m.toState with environment := e }]
      (m.withEnvironment e).toState :=
  .became (.environment he) hd

theorem operate {o : Option Location} {g : Environment → Except Fault (α × Environment)}
    (hg : ∀ e, Meets (g e) fun (_, e') => e.Write D.may e') : Keeps D k (operate o g) :=
  fun m _ => by
    have h := hg m.environment
    cases hr : g m.environment
    all_goals rw [hr] at h
    case error =>
      rw [operate_on_error hr]
      exact .error h (List.append_nil _).symm .done
    case ok =>
      rw [operate_on_ok hr]
      exact .ok Machine.history_become (withEnvironment (.write h) h.depth)

theorem exit {code : Int} : Keeps D k (do setExitCode code; halt) :=
  .bind_of (.change (fun _ => .exitCode) fun _ => rfl) .any fun _ _ =>
    .change (fun _ => .halt) fun _ => rfl

theorem input {i : Input} : Keeps D k (Run.input i) := fun _ _ =>
  .ok Machine.history_note .input

theorem skipRecords : Keeps D k skipRecords :=
  input.bind_of .any fun _ _ => .change (fun _ => .skip) fun _ => rfl

theorem take {record : String} (hr : m.records[m.cursor]? = some record) :
    Passage (State.Step D.may D.Handed) k m.toState
      [.input (.sought (some record)), .became { m.toState with cursor := m.cursor + 1 }]
      (m.take record).toState := by
  have ⟨hc, _⟩ := Array.getElem?_eq_some_iff.mp hr
  exact Passage.input.trans (.became (.take hc) rfl)

theorem isArray_counter {x record : String} {fs : List String} {v : Value}
    (hx : m.environment.global x = .ok v) (hp : Environment.IsPlain ⟨.globals, x⟩)
    (hn : ⟨.globals, x⟩ ≠ Environment.fieldCount) :
    (m.environment.dropFields.setFields record fs).isArray ⟨.globals, x⟩ = false := by
  rw [Environment.isArray, Environment.cell?_setFields hp hn, Environment.cell?_dropFields hp]
  have hm : Meets (m.environment.global x) _ := Environment.meets_global
  rwa [hx] at hm

end Keeps

section Calls

variable {D : Discipline} {m : Machine} {α : Type}

-- A step that makes a frame for a call from where it ends.
def Frames (D : Discipline) (m : Machine) (x : Run Frame) : Prop :=
  D.Allows 1 m (x.on m) ∧ ∀ f, (x.on m).1 = .ok f → D.Handed (x.on m).2.environment f

theorem Frames.bind {x : Run α} {f : α → Run Frame} (hx : D.Allows 1 m (x.on m))
    (hf : ∀ a, (x.on m).1 = .ok a → Frames D (x.on m).2 (f a)) : Frames D m (x >>= f) := by
  refine ⟨Keeps.bind_on hx fun a ha => (hf a ha).1, fun g hg => ?_⟩
  have ⟨a, m₁, hm, h⟩ := on_bind_eq_ok (Prod.ext hg rfl)
  rw [hm] at hf
  have hg := (hf a rfl).2 g
  rw [h] at hg
  exact hg rfl

theorem Binds.frames {frame : Frame} {x : Run Frame} (h : Binds D.may (Keeps D 1) frame x)
    {m : Machine} (hm : D.Sound m.environment) (hf : D.Handed m.environment frame) :
    Frames D m x := by
  induction h generalizing m
  case done => exact ⟨Keeps.pure_on, fun _ h => Except.ok.inj h ▸ hf⟩
  case fail hg => exact ⟨Keeps.throw_on hg, fun _ h => nomatch h⟩
  case value ha _ ih =>
    have ha := ha m hm
    have ⟨_, _, hp⟩ := ha.passage
    exact .bind ha fun v _ => ih v (ha.sound hm) (D.scalar (D.stable hm hp hf))
  case name y f b hy _ _ ihf ihb =>
    refine .bind (x := environment) Keeps.pure_on fun e he => ?_
    cases he
    split
    case isTrue ha => exact ihf _ hm (D.array hm hy ha hf)
    case isFalse => exact ihb hm hf

theorem Keeps.withFrame_on {x : Run α} {g : Frame} (hm : D.Sound m.environment)
    (hg : D.Handed m.environment g) (h : Keeps D 0 x) :
    D.Allows 1 m ((withFrame g x).on m) := by
  have ⟨⟨t, ht, hp⟩, hf⟩ := h (m.become (m.push g)) (D.step hm (.push hg))
  refine ⟨⟨_, ?_, hp.call hg⟩, hf⟩
  rw [List.append_cons, ← List.append_assoc]
  have hb : (m.become (m.push g)).history.get = m.history.get ++ [.became (m.push g)] :=
    Machine.history_become
  rw [← hb, ← ht]
  exact Machine.history_become

theorem Keeps.call {x : Run Frame} {body : Run α} (hx : Binds D.may (Keeps D 1) {} x)
    (hb : Keeps D 0 body) : Keeps D 1 (x >>= fun frame => withFrame frame body) := fun _ hm =>
  have h := hx.frames hm D.empty
  bind_on h.1 fun frame hf => withFrame_on (h.1.sound hm) (h.2 frame hf) hb

end Calls

section Tracks

variable {D : Discipline} {α β : Type} {x : Run α} {f : α → Run β}

-- A step that respects a discipline but may be more than one phase.
def Tracks (D : Discipline) (x : Run α) : Prop :=
  ∀ m : Machine, D.Sound m.environment → Yields (State.Moves D.may D.Handed) 0 m (x.on m)

namespace Tracks

theorem bind (hx : Tracks D x) (hf : ∀ a, Tracks D (f a)) : Tracks D (x >>= f) := fun m hm =>
  have ⟨_, _, hp⟩ := (hx m hm).passage
  Keeps.bind_on (hx m hm) fun a _ => hf a _ (Discipline.sound_of_path hm hp.path).1

theorem of_keeps (h : Keeps D 0 x) : Tracks D x := fun m hm =>
  have ⟨⟨t, ht, hp⟩, hf⟩ := h m hm
  ⟨⟨t, ht, hp.imp fun _ _ => State.Step.moves⟩, hf⟩

theorem change {g : State → State} (hg : ∀ s, (g s).environment = s.environment) :
    Tracks D (change g) := fun m _ => by
  refine .ok Machine.history_become (.became ?_ ?_)
  · rw [State.Moves, hg]
    exact .write .same
  · exact congrArg Environment.depth (hg _)

end Tracks

end Tracks

end Run

variable [Patterns]

theorem Run.Keeps.loadRecord {D : Discipline} {k : Nat} : Keeps D k loadRecord := fun m _ => by
  have hl := loads_loadRecord m
  generalize Run.loadRecord.on m = o at hl
  cases hl
  case none => exact .ok Machine.history_note .input
  case uncounted hr hf => exact .error hf Machine.history_take (take hr)
  case unsplit hr hf =>
    refine .error hf ?_ ((take hr).trans (withEnvironment .drop rfl))
    rw [Machine.history_withEnvironment, Machine.history_take, List.append_assoc]
  case loaded record _ _ e _ e' hr hn hf he he' =>
    have hd : e.depth = m.environment.dropFields.depth := by
      rw [he]
      exact congrArg Array.size Environment.frames_setFields
    have hfields : m.environment.dropFields.Step D.may D.Handed e := he ▸ .fields
    have hcount : e.Step D.may D.Handed e' := by
      rw [he']
      exact .count (he ▸ isArray_counter hn (fun _ => by decide) (by decide))
        (he ▸ isArray_counter hf (fun _ => by decide) (by decide))
    have hdrop := (take (D := D) (k := k) hr).trans (withEnvironment .drop rfl)
    have hload := (hdrop.trans (withEnvironment hfields hd)).trans (.input (i := .loaded record))
    refine .ok ?_ (hload.trans (withEnvironment hcount (he' ▸ rfl)))
    simp only [Machine.history_withEnvironment, Machine.history_note, Machine.history_take,
      List.append_assoc]
    rfl

namespace Discipline

def logic (D : Discipline) : Logic where
  may               := D.may
  Holds k _ x       := Run.Keeps D k x
  holds_pure        := .pure
  holds_throw       := .throw
  holds_bind        := .bind_of
  holds_lower h     := h.mono (Nat.zero_le 1)
  holds_clause      := .clause
  holds_call        := .call
  holds_inspect     := .inspect
  holds_operate     := .operate
  holds_isHalted    := fun _ _ => Run.Keeps.pure_on
  holds_write       := .change (fun _ => .write) fun _ => rfl
  holds_halt        := .change (fun _ => .halt) fun _ => rfl
  holds_exit        := .exit
  holds_loadRecord  := .loadRecord
  holds_skipRecords := .skipRecords

def free : Discipline where
  may _ _    := True
  Sound _    := True
  Handed _ _ := True
  step       := fun _ _ => trivial
  empty      := trivial
  scalar     := fun _ => trivial
  array      := fun _ _ _ _ => trivial
  stable     := fun _ _ _ => trivial

theorem permits_free {us : List (Use × String)} : free.logic.Permits us := fun _ _ => trivial

theorem covers_free (p : Program) (n : Nat) : free.logic.Covers p n := Logic.covers permits_free n

end Discipline

namespace Run

-- An expression evaluates statements only in calls.
theorem keeps_eval {p : Program} {n : Nat} (e : Expr) : Keeps .free 1 (eval p n e) :=
  (Discipline.covers_free p n).eval e Discipline.permits_free

theorem Tracks.program {D : Discipline} {p : Program} {n : Nat} (hp : D.logic.Permits p.uses)
    {records : List String} : Tracks D (program p n records) := by
  rw [program_eq]
  refine .bind (.change fun _ => rfl) fun _ => .bind (.of_keeps (Logic.holds_toEnd hp)) fun _ => ?_
  refine .bind (.change fun _ => rfl) fun _ => .bind (.of_keeps (Logic.holds_ends hp)) fun _ => ?_
  exact .bind (.of_keeps .get) fun _ => .of_keeps .pure

end Run

end PatternAction
