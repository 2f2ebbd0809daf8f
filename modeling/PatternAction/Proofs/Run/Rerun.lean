import PatternAction.Pattern.Matching
import PatternAction.Proofs.Run.Discipline

namespace PatternAction

namespace Machine

variable {m m' n n' k k' : Machine} {t : List Event}

-- Two machines that differ in nothing but their exit codes and what they remember.
def Agrees (m m' : Machine) : Prop := m'.toState = { m.toState with exitCode := m'.exitCode }

theorem Agrees.push (h : m.Agrees m') (f : Frame) :
    (m.become (m.push f)).Agrees (m'.become (m'.push f)) :=
  congrArg (State.push · f) h

theorem Agrees.pop (h : m.Agrees m') : (m.become m.pop).Agrees (m'.become m'.pop) :=
  congrArg State.pop h

-- Each of two machines keeps its exit code, or an exit gives both the same one and ends the phase.
def Codes (m m' n n' : Machine) : Prop :=
  ∃ t, n.history.get = m.history.get ++ t ∧
    (n.exitCode = m.exitCode ∧ n'.exitCode = m'.exitCode ∨
      n'.exitCode = n.exitCode ∧ ∃ s ∈ points t, s.halted = true)

theorem Codes.refl : Codes m m' m m' := ⟨[], (List.append_nil _).symm, .inl ⟨rfl, rfl⟩⟩

theorem Codes.trans (h : Codes m m' n n') (h' : Codes n n' k k') : Codes m m' k k' := by
  obtain ⟨t, ht, h⟩ := h
  obtain ⟨u, hu, h'⟩ := h'
  refine ⟨t ++ u, by rw [hu, ht, List.append_assoc], ?_⟩
  simp only [points_append, List.mem_append]
  rcases h' with ⟨hk, hk'⟩ | ⟨hk, s, hs, hh⟩
  · rw [hk, hk']
    exact h.imp_right fun ⟨hn, s, hs, hh⟩ => ⟨hn, s, .inl hs, hh⟩
  · exact .inr ⟨hk, s, .inr hs, hh⟩

theorem Codes.note {e e' : Event} : Codes m m' (m.note e) (m'.note e') :=
  ⟨[e], history_note, .inl ⟨rfl, rfl⟩⟩

theorem Codes.become {s s' : State} (h : s.exitCode = m.exitCode) (h' : s'.exitCode = m'.exitCode) :
    Codes m m' (m.become s) (m'.become s') :=
  ⟨[.became s], history_become, .inl ⟨h, h'⟩⟩

end Machine

namespace Run

open Machine

-- Two steps end alike.
structure Parallel {α : Type} (m m' : Machine) (o o' : Except Failure α × Machine) : Prop where
  result : o'.1 = o.1
  agrees : o.2.Agrees o'.2
  codes  : m.Codes m' o.2 o'.2

-- A step that does not depend on the exit code.
def Blind {α : Type} (x : Run α) : Prop :=
  ∀ m m' : Machine, m.Agrees m' → Parallel m m' (x.on m) (x.on m')

namespace Blind

variable {α β : Type} {x : Run α} {f : α → Run β}

theorem pure {a : α} : Blind (pure a : Run α) := fun _ _ h => ⟨rfl, h, .refl⟩

theorem throw {g : Failure} : Blind (throw g : Run α) := fun _ _ h => ⟨rfl, h, .refl⟩

theorem bind_of {Q : α → Prop} (hx : Blind x) (hq : x.Gives Q) (hf : ∀ a, Q a → Blind (f a)) :
    Blind (x >>= f) := fun m m' h => by
  have hp := hx m m' h
  have hq := hq m
  rcases ho : x.on m with ⟨g | a, n⟩
  all_goals
    rcases ho' : x.on m' with ⟨r, n'⟩
    rw [ho, ho'] at hp
    have hr : r = _ := hp.result
    subst hr
  case error =>
    rw [on_bind_error ho, on_bind_error ho']
    exact ⟨rfl, hp.agrees, hp.codes⟩
  case ok =>
    rw [on_bind_ok ho, on_bind_ok ho']
    have hf := hf a (hq a (by rw [ho])) n n' hp.agrees
    exact ⟨hf.result, hf.agrees, hp.codes.trans hf.codes⟩

theorem bind (hx : Blind x) (hf : ∀ a, Blind (f a)) : Blind (x >>= f) :=
  hx.bind_of .any fun a _ => hf a

theorem clause {x : Run Value} {c : Clause} (h : Blind x) : Blind (clause c x) := fun m m' hm =>
  have ⟨hr, ha, hc⟩ := h m m' hm
  ⟨hr, ha, hc.trans .note⟩

theorem change {g : State → State} (hg : ∀ s c, g { s with exitCode := c } =
    { g s with exitCode := c }) (hc : ∀ s, (g s).exitCode = s.exitCode) : Blind (change g) :=
  fun m m' h => by
    refine ⟨rfl, ?_, .become (hc _) (hc _)⟩
    change g m'.toState = { g m.toState with exitCode := (g m'.toState).exitCode }
    rw [hc, h, hg]

theorem input {i : Input} : Blind (input i) := fun _ _ h => ⟨rfl, h, .note⟩

theorem inspect {o : Option Location} {g : Environment → Except Fault α} :
    Blind (inspect o g) := fun m m' h => by
  have he : m'.environment = m.environment := by rw [h]
  rw [inspect_on, inspect_on, he]
  exact ⟨rfl, h, .refl⟩

theorem environment : Blind environment := inspect (o := none) (g := fun e => .ok e)

theorem setEnvironment {e : Environment} : Blind (setEnvironment e) :=
  change (fun _ _ => rfl) fun _ => rfl

theorem operate {o : Option Location} {g : Environment → Except Fault (α × Environment)} :
    Blind (operate o g) := by
  refine environment.bind fun e => ?_
  cases g e
  case error => exact throw
  case ok => exact setEnvironment.bind fun _ => pure

theorem exit {code : Int} : Blind (do setExitCode code; halt) := fun m m' h => by
  let s : State := { m.toState with exitCode := code, halted := true }
  refine ⟨rfl, ?_, [.became { m.toState with exitCode := code }, .became s], ?_,
    .inr ⟨rfl, s, .tail _ (.head _), rfl⟩⟩
  · change { m'.toState with exitCode := code, halted := true } = s
    rw [h]
  · have hn : ((do setExitCode code; halt : Run Unit).on m).2 =
        (m.become { m.toState with exitCode := code }).become s := rfl
    rw [hn, history_become, history_become, List.append_assoc]
    rfl

theorem isHalted : Blind isHalted := fun m m' h => by
  have hh : m'.halted = m.halted := by rw [h]
  exact ⟨congrArg Except.ok hh, h, .refl⟩

theorem global {y : String} : Blind (global y) := inspect

theorem split [Patterns] {text sep : String} : Blind (split text sep) := by
  unfold Run.split
  split
  case h_1 => exact pure
  case h_2 => exact throw

theorem setRecord [Patterns] {record : String} : Blind (setRecord record) := by
  refine environment.bind fun _ => setEnvironment.bind fun _ => global.bind fun _ => ?_
  exact split.bind fun (_, _) => environment.bind fun _ => setEnvironment

theorem loadRecord [Patterns] : Blind loadRecord := fun m m' h => by
  have hg (m : Machine) : (get : Run Machine).on m = (.ok m, m) := rfl
  have hr : m'.records[m'.cursor]? = m.records[m.cursor]? := by rw [h]
  rw [Run.loadRecord, on_bind_ok (hg m), on_bind_ok (hg m'), hr]
  generalize m.records[m.cursor]? = o
  refine input.bind (f := fun _ => _) (fun _ => ?_) m m' h
  cases o
  case none => exact pure
  case some record =>
    refine bind (change (fun _ _ => rfl) fun _ => rfl) fun _ => global.bind fun _ => ?_
    refine global.bind fun _ => setRecord.bind fun _ => input.bind fun _ => ?_
    exact environment.bind fun _ => setEnvironment.bind fun _ => pure

theorem skipRecords : Blind skipRecords :=
  input.bind fun _ => change (fun _ _ => rfl) fun _ => rfl

theorem withFrame {frame : Frame} (h : Blind x) : Blind (withFrame frame x) := fun m m' hm => by
  have hp : m.Codes m' (m.become (m.push frame)) (m'.become (m'.push frame)) := .become rfl rfl
  have ⟨hr, ha, hc⟩ := h (m.become (m.push frame)) (m'.become (m'.push frame)) (hm.push frame)
  exact ⟨hr, ha.pop, hp.trans (hc.trans (.become rfl rfl))⟩

theorem of_binds {may : Use → String → Prop} {frame : Frame} {x : Run Frame}
    (h : Binds may Blind frame x) : Blind x := by
  induction h
  case done => exact pure
  case fail => exact throw
  case value ha _ ih => exact ha.bind ih
  case name ihf ihb =>
    refine environment.bind fun e => ?_
    split
    case isTrue => exact ihf _
    case isFalse => exact ihb

-- No program depends on the exit code.
def logic [Patterns] : Logic where
  may _ _             := True
  Holds _ _ x         := Blind x
  holds_pure          := pure
  holds_throw _       := throw
  holds_bind          := bind_of
  holds_lower         := id
  holds_clause        := clause
  holds_call hx hb    := (of_binds hx).bind fun _ => hb.withFrame
  holds_inspect _     := inspect
  holds_operate _     := operate
  holds_isHalted      := isHalted
  holds_write         := change (fun _ _ => rfl) fun _ => rfl
  holds_halt          := change (fun _ _ => rfl) fun _ => rfl
  holds_exit          := exit
  holds_loadRecord    := loadRecord
  holds_skipRecords   := skipRecords

theorem permits_logic [Patterns] {us : List (Use × String)} : logic.Permits us := fun _ _ => trivial

end Blind

section Halted

variable [Patterns] {p : Program} {n : Nat} {m : Machine}

theorem block_of_halted (hm : m.halted = true) (b : Block) :
    (block p (n + 2) b).on m = (.ok .normal, m) := by
  obtain ⟨ss, _⟩ := b
  cases ss
  case nil => rfl
  case cons => exact guard_on.trans (if_pos hm)

theorem toEnd_of_halted (hm : m.halted = true) (k : Nat) :
    (toEnd p (n + 2) k).on m = (.ok (), m) := by
  have hg (x : Run Unit) : (do if ← isHalted then return () else x : Run Unit).on m = (.ok (), m) :=
    guard_on.trans (if_pos hm)
  have hb (bs : List Block) : (blocks p (n + 2) bs).on m = (.ok (), m) := by
    cases bs
    case nil => rfl
    case cons b rest => exact (on_bind_ok (block_of_halted hm b)).trans (hg _)
  exact (on_bind_ok (hb p.begins)).trans (hg _)

end Halted

end Run

namespace Machine

variable {m m' : Machine} {p : Program} {records : List String}

theorem Agrees.start (h : m.Agrees m') (records : List String) :
    (m.start records).Agrees (m'.start records) := by
  change { m'.toState with records := records.toArray, cursor := 0 } =
    { m.toState with records := records.toArray, cursor := 0, exitCode := m'.exitCode }
  rw [h]

theorem run_of_halted [Patterns] (hm : m.halted = true) :
    m.run p records = Run.report ((Run.fromEnd p stepLimit).on (m.start records)) := by
  have hs : stepLimit = (2 ^ 62 - 2) + 2 := by decide
  have ht : (Run.toEnd p stepLimit records.length).on (m.start records) =
      (.ok (), m.start records) := by
    rw [hs]
    exact Run.toEnd_of_halted (m := m.start records) hm _
  rw [run_eq, Run.on_bind_ok ht]

theorem Agrees.parallel_run [Patterns] (h : m.Agrees m') (p : Program) (records : List String) :
    Run.Parallel m m'
      ((do Run.toEnd p stepLimit records.length; Run.fromEnd p stepLimit : Run Unit).on
        (m.start records))
      ((do Run.toEnd p stepLimit records.length; Run.fromEnd p stepLimit : Run Unit).on
        (m'.start records)) := by
  have hb : Run.Blind (do Run.toEnd p stepLimit records.length; Run.fromEnd p stepLimit) := by
    refine .bind (Logic.holds_toEnd Run.Blind.permits_logic) fun _ => ?_
    refine .bind (.change (fun _ _ => rfl) fun _ => rfl) fun _ => ?_
    exact Logic.holds_ends Run.Blind.permits_logic
  have ⟨hr, ha, hc⟩ := hb _ _ (h.start records)
  have hm : m.Codes m' (m.start records) (m'.start records) := .become rfl rfl
  exact ⟨hr, ha, hm.trans hc⟩

end Machine

-- What a run takes over when nothing else differs. A phase that is to end goes straight to the last
-- phase. Otherwise the run is the same, and so is its exit code if an exit sets one; without it the
-- code is the one there was.
theorem run_of_agreeing [Patterns] (p : Program) (records : List String) (m m' : Machine)
    (h : m'.toState = { m.toState with halted := m'.halted, exitCode := m'.exitCode }) :
    (m'.halted = m.halted →
      (∃ r : Except Failure Unit,
        (m.run p records).1 = r.map (fun _ => (m.run p records).2.exitCode) ∧
        (m'.run p records).1 = r.map (fun _ => (m'.run p records).2.exitCode)) ∧
      (m.run p records).2.Agrees (m'.run p records).2 ∧
      m.Codes m' (m.run p records).2 (m'.run p records).2) ∧
    (m.halted = true →
      m.run p records = Run.report ((Run.fromEnd p Machine.stepLimit).on (m.start records))) := by
  refine ⟨fun hh => ?_, Machine.run_of_halted⟩
  have ha : m.Agrees m' := by
    rw [hh] at h
    exact h
  have ⟨hr, ha, hc⟩ := ha.parallel_run p records
  rw [Machine.run_eq, Machine.run_eq]
  refine ⟨⟨_, rfl, ?_⟩, ha, hc⟩
  rw [← hr]
  rfl

section Sessions

def printing : Program where
  begins := [.mk [.expr (.call "print" [.constant "1" .start] .start)] .start]

-- The exit of an earlier run gives its code to a run without any,
theorem run_of_agreeing_printing :
    (({} : Machine).run printing []).2.Agrees (({ exitCode := 3 } : Machine).run printing []).2 ∧
      ({} : Machine).Codes { exitCode := 3 } (({} : Machine).run printing []).2
        (({ exitCode := 3 } : Machine).run printing []).2 ∧
      ({ halted := true, exitCode := 3 } : Machine).run printing [] =
        Run.report ((Run.fromEnd printing Machine.stepLimit).on
          (({ halted := true, exitCode := 3 } : Machine).start [])) := by
  have h := (run_of_agreeing printing [] {} { exitCode := 3 } rfl).1 rfl
  have h' := (run_of_agreeing printing [] { halted := true, exitCode := 3 } {} rfl).2 rfl
  exact ⟨h.2.1, h.2.2, h'⟩

-- and an exit in its last phase keeps a later run from its first.
theorem not_run_independent :
    ¬∀ (p : Program) (records : List String) (m m' : Machine), m.environment.frames = #[] →
      m'.toState = { m.toState with halted := m'.halted, exitCode := m'.exitCode } →
      (m.run p records).1 = (m'.run p records).1 ∧
      (m.run p records).2.output = (m'.run p records).2.output ∧
      (m.run p records).2.environment.globals = (m'.run p records).2.environment.globals := by
  intro h
  have hout := (h printing [] {} { halted := true } rfl rfl).2.1
  have hn : (({} : Machine).run printing []).2.output = "1\n" := by decide +kernel
  have hn' : (({ halted := true } : Machine).run printing []).2.output = "" := by decide +kernel
  rw [hn, hn'] at hout
  exact absurd hout (by decide)

end Sessions

end PatternAction
