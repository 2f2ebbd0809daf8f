import PatternAction.Pattern.Matching
import PatternAction.Proofs.Run.Discipline

namespace PatternAction

namespace Machine

variable {more : Array String} {m m' : Machine}

-- Another machine has the same state, but for further records.
def Leads (more : Array String) (m m' : Machine) : Prop :=
  m'.toState = { m.toState with records := m.records ++ more }

theorem Leads.push (h : m.Leads more m') (f : Frame) :
    (m.become (m.push f)).Leads more (m'.become (m'.push f)) :=
  congrArg (State.push · f) h

theorem Leads.pop (h : m.Leads more m') : (m.become m.pop).Leads more (m'.become m'.pop) :=
  congrArg State.pop h

end Machine

-- No record was missed and none was passed over.
structure Supplied (t : List Event) : Prop where
  found : .input (.sought none) ∉ t
  kept  : .input .skipped ∉ t

theorem supplied_append {t u : List Event} : Supplied (t ++ u) ↔ Supplied t ∧ Supplied u := by
  constructor
  case mp =>
    rintro ⟨hf, hk⟩
    simp only [List.mem_append, not_or] at hf hk
    exact ⟨⟨hf.1, hk.1⟩, ⟨hf.2, hk.2⟩⟩
  case mpr =>
    rintro ⟨⟨hf, hk⟩, ⟨hf', hk'⟩⟩
    exact ⟨by simp [hf, hf'], by simp [hk, hk']⟩

namespace Run

open Machine

section Judgements

variable {α : Type} (more : Array String)

-- A step comes to the same with further records, if it was supplied by those there are.
def UnawareAt (x : Run α) (m : Machine) : Prop :=
  ∃ t, (x.on m).2.history.get = m.history.get ++ t ∧
    (Supplied t → ∀ m', m.Leads more m' →
      (x.on m').1 = (x.on m).1 ∧ (x.on m).2.Leads more (x.on m').2)

def Unaware (x : Run α) : Prop := ∀ m, UnawareAt more x m

end Judgements

variable {α β : Type} {more : Array String} {x : Run α} {f : α → Run β} {m : Machine}

theorem UnawareAt.get {w : Machine → Run β} (hw : UnawareAt more (w m) m)
    (he : ∀ m', m.Leads more m' → w m' = w m) : UnawareAt more (MonadState.get >>= w) m := by
  obtain ⟨t, ht, h⟩ := hw
  refine ⟨t, ht, fun hs m' hm => ?_⟩
  have hg : (MonadState.get >>= w).on m' = (w m').on m' := rfl
  rw [hg, he m' hm]
  exact h hs m' hm

theorem UnawareAt.of_not_supplied {t : List Event}
    (ht : (x.on m).2.history.get = m.history.get ++ t) (hn : ¬Supplied t) : UnawareAt more x m :=
  ⟨t, ht, fun hs => absurd hs hn⟩

namespace Unaware

theorem of_still (h : ∀ m, (x.on m).2 = m)
    (hr : ∀ m m', m.Leads more m' → (x.on m').1 = (x.on m).1) : Unaware more x := fun m => by
  refine ⟨[], by rw [h, List.append_nil], fun _ m' hm => ⟨hr m m' hm, ?_⟩⟩
  rwa [h, h]

theorem pure {a : α} : Unaware more (pure a : Run α) := of_still (fun _ => rfl) fun _ _ _ => rfl

theorem throw {g : Failure} : Unaware more (throw g : Run α) :=
  of_still (fun _ => rfl) fun _ _ _ => rfl

theorem bind_of {Q : α → Prop} (hx : Unaware more x) (hq : x.Gives Q)
    (hf : ∀ a, Q a → Unaware more (f a)) : Unaware more (x >>= f) := fun m => by
  obtain ⟨t, ht, hx⟩ := hx m
  unfold UnawareAt
  rcases ho : x.on m with ⟨g | a, n⟩
  all_goals rw [ho] at ht hx
  case error =>
    rw [on_bind_error ho]
    refine ⟨t, ht, fun hs m' hm => ?_⟩
    obtain ⟨hr, hn⟩ := hx hs m' hm
    have ho' : x.on m' = (.error g, (x.on m').2) := Prod.ext hr rfl
    rw [on_bind_error ho']
    exact ⟨rfl, hn⟩
  case ok =>
    obtain ⟨u, hu, hf⟩ := hf a (hq m a (by rw [ho])) n
    rw [on_bind_ok ho]
    refine ⟨t ++ u, by rw [hu, ht, List.append_assoc], fun hs m' hm => ?_⟩
    obtain ⟨hs, hs'⟩ := supplied_append.mp hs
    obtain ⟨hr, hn⟩ := hx hs m' hm
    have ho' : x.on m' = (.ok a, (x.on m').2) := Prod.ext hr rfl
    rw [on_bind_ok ho']
    exact hf hs' _ hn

theorem bind (hx : Unaware more x) (hf : ∀ a, Unaware more (f a)) : Unaware more (x >>= f) :=
  hx.bind_of .any fun a _ => hf a

theorem clause {x : Run Value} {c : Clause} (h : Unaware more x) : Unaware more (clause c x) :=
  fun m => by
    obtain ⟨t, ht, h⟩ := h m
    exact ⟨_, history_clause ht, fun hs => h (supplied_append.mp hs).1⟩

theorem change {g : State → State} (hg : ∀ s, g { s with records := s.records ++ more } =
    { g s with records := (g s).records ++ more }) : Unaware more (change g) := fun m => by
  refine ⟨[.became (g m.toState)], history_become, fun _ m' hm => ⟨rfl, ?_⟩⟩
  change g m'.toState = _
  rw [hm, hg]
  rfl

theorem input {i : Input} : Unaware more (input i) :=
  fun _ => ⟨[.input i], history_note, fun _ _ hm => ⟨rfl, hm⟩⟩

theorem inspect {o : Option Location} {g : Environment → Except Fault α} :
    Unaware more (inspect o g) := by
  refine of_still (fun m => by rw [inspect_on]) fun m m' hm => ?_
  have he : m'.environment = m.environment := by rw [hm]
  rw [inspect_on, inspect_on, he]

theorem environment : Unaware more environment := inspect (o := none) (g := fun e => .ok e)

theorem setEnvironment {e : Environment} : Unaware more (setEnvironment e) :=
  change fun _ => rfl

theorem operate {o : Option Location} {g : Environment → Except Fault (α × Environment)} :
    Unaware more (operate o g) := by
  refine environment.bind fun e => ?_
  cases g e
  case error => exact throw
  case ok => exact setEnvironment.bind fun _ => pure

theorem isHalted : Unaware more isHalted := by
  refine of_still (fun _ => rfl) fun m m' hm => ?_
  have hh : m'.halted = m.halted := by rw [hm]
  exact congrArg Except.ok hh

theorem global {y : String} : Unaware more (global y) := inspect

theorem split [Patterns] {text sep : String} : Unaware more (split text sep) := by
  unfold Run.split
  split
  case h_1 => exact pure
  case h_2 => exact throw

theorem setRecord [Patterns] {record : String} : Unaware more (setRecord record) := by
  refine environment.bind fun _ => setEnvironment.bind fun _ => global.bind fun _ => ?_
  exact split.bind fun (_, _) => environment.bind fun _ => setEnvironment

theorem loadRecord [Patterns] : Unaware more loadRecord := fun m => by
  cases hr : m.records[m.cursor]?
  case none =>
    have hg : (get : Run Machine).on m = (.ok m, m) := rfl
    refine .of_not_supplied (t := [.input (.sought none)]) ?_ fun hs => hs.found (.head _)
    rw [Run.loadRecord, on_bind_ok hg, hr]
    exact history_note
  case some record =>
    refine .get ?_ fun m' hm => ?_
    · rw [hr]
      refine (input.bind fun _ => bind (change fun _ => rfl) fun _ => global.bind fun _ => ?_) m
      refine global.bind fun _ => setRecord.bind fun _ => input.bind fun _ => ?_
      exact environment.bind fun _ => setEnvironment.bind fun _ => pure
    · have hr' : m'.records[m'.cursor]? = some record := by
        rw [hm]
        have hc := (Array.getElem?_eq_some_iff.mp hr).1
        exact (Array.getElem?_append_left hc).trans hr
      simp only [hr, hr']

theorem skipRecords : Unaware more skipRecords := fun m => by
  let s : State := { m.toState with cursor := m.records.size }
  refine .of_not_supplied (t := [.input .skipped, .became s]) ?_ fun hs => hs.kept (.head _)
  have hm : (Run.skipRecords.on m).2 = (m.note (.input .skipped)).become s := rfl
  simp [hm]

theorem withFrame {frame : Frame} (h : Unaware more x) : Unaware more (withFrame frame x) :=
  fun m => by
    obtain ⟨t, ht, h⟩ := h (m.become (m.push frame))
    let n := (x.on (m.become (m.push frame))).2
    refine ⟨[.became (m.push frame)] ++ t ++ [.became n.pop], ?_, fun hs m' hm => ?_⟩
    · refine history_become.trans ?_
      rw [ht, history_become]
      simp only [List.append_assoc]
      rfl
    · have hs := (supplied_append.mp (supplied_append.mp hs).1).2
      obtain ⟨hr, hn⟩ := h hs _ (hm.push frame)
      exact ⟨hr, hn.pop⟩

theorem of_binds {may : Use → String → Prop} {frame : Frame} {x : Run Frame}
    (h : Binds may (Unaware more) frame x) : Unaware more x := by
  induction h
  case done => exact pure
  case fail => exact throw
  case value ha _ ih => exact ha.bind ih
  case name ihf ihb =>
    refine environment.bind fun e => ?_
    split
    case isTrue => exact ihf _
    case isFalse => exact ihb

-- No program knows of records that it was not in need of.
def logic [Patterns] (more : Array String) : Logic where
  may _ _             := True
  Holds _ _ x         := Unaware more x
  holds_pure          := pure
  holds_throw _       := throw
  holds_bind          := bind_of
  holds_lower         := id
  holds_clause        := clause
  holds_call hx hb    := (of_binds hx).bind fun _ => hb.withFrame
  holds_inspect _     := inspect
  holds_operate _     := operate
  holds_isHalted      := isHalted
  holds_write         := change fun _ => rfl
  holds_halt          := change fun _ => rfl
  holds_exit          := bind (change fun _ => rfl) fun _ => change fun _ => rfl
  holds_loadRecord    := loadRecord
  holds_skipRecords   := skipRecords

theorem permits_logic [Patterns] {us : List (Use × String)} : (logic more).Permits us :=
  fun _ _ => trivial

end Unaware

theorem supplied_loadRecord [Patterns] {record : String} (hr : m.records[m.cursor]? = some record) :
    ∃ t, (loadRecord.on m).2.history.get = m.history.get ++ t ∧ Supplied t := by
  have hl := loads_loadRecord m
  generalize loadRecord.on m = o at hl
  cases hl
  case none hn => cases hr.symm.trans hn
  case uncounted | unsplit | loaded =>
    simp only [history_withEnvironment, history_take, history_note, List.append_assoc]
    refine ⟨_, rfl, ?_⟩
    constructor <;> simp

theorem snd_on_bind_pure {g : α → β} : ((do return g (← x) : Run β).on m).2 = (x.on m).2 := by
  rcases ho : x.on m with ⟨_ | _, n⟩
  case error => rw [on_bind_error ho]
  case ok =>
    rw [on_bind_ok ho]
    rfl

end Run

-- A statement or a block does the same if there are further records, unless it misses one or passes
-- over those that are left.
theorem unread_unobserved [Patterns] (p : Program) (n : Nat) {x : Run Signal}
    (hx : (∃ s, x = Run.statement p n s) ∨ ∃ b, x = Run.block p n b)
    {m m' : Machine} {more : Array String}
    (hm : m'.toState = { m.toState with records := m.records ++ more }) :
    ∃ t, (x.on m).2.history.get = m.history.get ++ t ∧
      (.input (.sought none) ∉ t → .input .skipped ∉ t →
        (x.on m').1 = (x.on m).1 ∧
        (x.on m').2.toState =
          { (x.on m).2.toState with records := (x.on m).2.records ++ more }) := by
  have hc : (Run.Unaware.logic more).Covers p n := Logic.covers Run.Unaware.permits_logic n
  have hu : Run.Unaware more x := by
    rcases hx with ⟨s, rfl⟩ | ⟨b, rfl⟩
    · exact hc.statement s Run.Unaware.permits_logic
    · exact hc.block b Run.Unaware.permits_logic
  obtain ⟨t, ht, h⟩ := hu m
  exact ⟨t, ht, fun hf hs => h ⟨hf, hs⟩ m' hm⟩

-- A record is taken where there is just one, and where another one follows.
theorem unread_unobserved_getline :
    let x : Run Signal := Run.statement {} 4 (.expr (.call "getline" [] .start))
    let m : Machine := { records := #["a b"] }
    let m' : Machine := { records := #["a b", "c"] }
    (x.on m').1 = (x.on m).1 ∧
      (x.on m').2.toState =
        { (x.on m).2.toState with records := (x.on m).2.records ++ #["c"] } := by
  intro x m m'
  have hr : m.records[m.cursor]? = some "a b" := rfl
  obtain ⟨u, hu, hs⟩ := Run.supplied_loadRecord hr
  let y : Run Value := do return .ofBool (← Run.loadRecord)
  have hy : (y.on m).2.history.get = m.history.get ++ u := by rw [Run.snd_on_bind_pure, hu]
  have hx : x = do
      let _ ← Run.clause .whole y
      return .normal := rfl
  have hm : m'.toState = { m.toState with records := m.records ++ #["c"] } := rfl
  obtain ⟨t, ht, h⟩ := unread_unobserved {} 4 (x := x) (.inl ⟨_, rfl⟩) hm
  rw [hx, Run.snd_on_bind_pure, Run.history_clause hy, List.append_cancel_left_eq] at ht
  subst ht
  exact h (by simp [hs.found]) (by simp [hs.kept])

end PatternAction
