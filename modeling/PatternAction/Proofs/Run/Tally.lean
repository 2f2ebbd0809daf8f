import PatternAction.Proofs.Run.Counters
import PatternAction.Proofs.Run.Discipline

namespace PatternAction

section Inputs

variable {t u : List Event} {e : Event}

-- The records that were found,
def takes (t : List Event) : List String :=
  t.filterMap fun
    | .input (.sought record) => record
    | _                       => none

-- and those of them that were loaded.
def loads (t : List Event) : List String :=
  t.filterMap fun
    | .input (.loaded record) => some record
    | _                       => none

-- A record was found, and nothing happened to the input since.
def Loading (t : List Event) : Prop :=
  ∃ past record later, t = past ++ .input (.sought (some record)) :: later ∧ ∀ i, .input i ∉ later

@[simp] theorem takes_append : takes (t ++ u) = takes t ++ takes u := List.filterMap_append

@[simp] theorem loads_append : loads (t ++ u) = loads t ++ loads u := List.filterMap_append

def Event.isInput : Event → Bool
  | .input _ => true
  | _        => false

theorem takes_concat (he : e.isInput = false) : takes (t ++ [e]) = takes t := by
  cases e
  case input => cases he
  all_goals simp [takes]

theorem loads_concat (he : e.isInput = false) : loads (t ++ [e]) = loads t := by
  cases e
  case input => cases he
  all_goals simp [loads]

theorem takes_eq_loads_concat (h : takes t = loads t) (he : e.isInput = false) :
    takes (t ++ [e]) = loads (t ++ [e]) := by
  rw [takes_concat he, loads_concat he, h]

theorem mem_concat_iff {i : Input} (he : e.isInput = false) :
    .input i ∈ t ++ [e] ↔ .input i ∈ t := by
  cases e
  case input => cases he
  all_goals simp

theorem Loading.concat (h : Loading t) (he : e.isInput = false) : Loading (t ++ [e]) := by
  obtain ⟨past, record, later, rfl, hl⟩ := h
  refine ⟨past, record, later ++ [e], by simp, fun i => ?_⟩
  rw [mem_concat_iff he]
  exact hl i

end Inputs

-- What the state of a run over some lines is after what happened so far: the records that were
-- taken are the first ones, in order, and the counters hold the number of those that were loaded.
structure Tally (lines : List String) (past : List Event) (s : State) : Prop where
  records : s.records = lines.toArray
  counted : s.environment.Counts (loads past).length
  bounded : s.cursor ≤ lines.length
  order   : takes past <+: lines
  -- The records up to the cursor have been taken, if none were passed over, and loaded, but for one
  -- that is being loaded.
  taken   : .input .skipped ∉ past → takes past = lines.take s.cursor
  loaded  : takes past = loads past ∨
              Loading past ∧ ∃ record, takes past = loads past ++ [record]
  -- When the others are passed over, none is left.
  skipped : ∀ before later, past = before ++ .input .skipped :: later →
              s.cursor = lines.length ∧ takes later = [] ∧ loads later = []

namespace Tally

variable {lines : List String} {t u : List Event} {s s' : State} {e : Event}

theorem update (h : Tally lines t s) (hr : s'.records = s.records) (hc : s'.cursor = s.cursor)
    (he : s'.environment.Counts (loads t).length) : Tally lines t s' where
  records := hr.trans h.records
  counted := he
  bounded := hc ▸ h.bounded
  order   := h.order
  taken   := hc ▸ h.taken
  loaded  := h.loaded
  skipped := hc ▸ h.skipped

theorem concat (h : Tally lines t s) (he : e.isInput = false) : Tally lines (t ++ [e]) s where
  records := h.records
  counted := by
    rw [loads_concat he]
    exact h.counted
  bounded := h.bounded
  order := by
    rw [takes_concat he]
    exact h.order
  taken hs := by
    rw [mem_concat_iff he] at hs
    rw [takes_concat he]
    exact h.taken hs
  loaded := by
    rw [takes_concat he, loads_concat he]
    exact h.loaded.imp_right fun ⟨hl, hr⟩ => ⟨hl.concat he, hr⟩
  skipped before later hs := by
    rcases split_concat hs with ⟨l, hl, rfl⟩ | ⟨_, rfl, _⟩
    · rw [takes_concat he, loads_concat he]
      exact h.skipped before l hl
    · cases he

theorem notMem_skipped (h : Tally lines t s) (hc : s.cursor < lines.length) :
    .input .skipped ∉ t := fun hm => by
  obtain ⟨before, later, ht⟩ := List.append_of_mem hm
  have := (h.skipped before later ht).1
  omega

theorem sought_none (h : Tally lines t s) (ht : takes t = loads t) :
    Tally lines (t ++ [.input (.sought none)]) s where
  records := h.records
  counted := by
    have hl : loads (t ++ [.input (.sought none)]) = loads t := by simp [loads]
    rw [hl]
    exact h.counted
  bounded := h.bounded
  order := by simpa [takes] using h.order
  taken hs := by
    have hs : .input .skipped ∉ t := fun hm => hs (List.mem_append_left _ hm)
    simpa [takes] using h.taken hs
  loaded := .inl (by simpa [takes, loads] using ht)
  skipped before later hs := by
    rcases split_concat hs with ⟨l, hl, rfl⟩ | ⟨_, ⟨⟩, _⟩
    have ⟨hc, htl, hll⟩ := h.skipped before l hl
    exact ⟨hc, by simpa [takes] using htl, by simpa [loads] using hll⟩

theorem take {record : String} (h : Tally lines t s) (ht : takes t = loads t)
    (hr : lines[s.cursor]? = some record) :
    Tally lines (t ++ [.input (.sought (some record))]) { s with cursor := s.cursor + 1 } := by
  have hc := (List.getElem?_eq_some_iff.mp hr).1
  have hn := h.notMem_skipped hc
  have hk : takes (t ++ [.input (.sought (some record))]) = lines.take (s.cursor + 1) := by
    rw [takes_append, h.taken hn, List.take_add_one, hr]
    rfl
  constructor
  case records => exact h.records
  case counted => simpa [loads] using h.counted
  case bounded => exact hc
  case order => exact hk ▸ List.take_prefix ..
  case taken => exact fun _ => hk
  case loaded =>
    refine .inr ⟨⟨t, record, [], rfl, fun _ h => nomatch h⟩, record, ?_⟩
    rw [takes_append, loads_append, ht]
    simp [takes, loads]
  case skipped =>
    intro before later hs
    have hm : .input .skipped ∈ t ++ [.input (.sought (some record))] := by simp [hs]
    simp [hn] at hm

theorem count {record : String} {e : Environment} (h : Tally lines t s)
    (hs : .input .skipped ∉ t) (ht : takes t = loads t ++ [record])
    (he : e.Counts ((loads t).length + 1)) :
    Tally lines (t ++ [.input (.loaded record)]) { s with environment := e } where
  records := h.records
  counted := by simpa [loads] using he
  bounded := h.bounded
  order := by simpa [takes] using h.order
  taken _ := by simpa [takes] using h.taken hs
  loaded := .inl (by simpa [takes, loads] using ht)
  skipped before later hb := by
    have hm : .input .skipped ∈ t ++ [.input (.loaded record)] := by simp [hb]
    simp [hs] at hm

theorem skip (h : Tally lines t s) (ht : takes t = loads t) :
    Tally lines (t ++ [.input .skipped]) { s with cursor := s.records.size } := by
  have hc : s.records.size = lines.length := by
    rw [h.records]
    exact List.size_toArray
  constructor
  case records => exact h.records
  case counted => simpa [loads] using h.counted
  case bounded => exact Nat.le_of_eq hc
  case order => simpa [takes] using h.order
  case taken => exact fun hs => absurd (List.mem_append_right t (.head [])) hs
  case loaded => exact .inl (by simpa [takes, loads] using ht)
  case skipped =>
    intro before later hs
    refine ⟨hc, ?_⟩
    rcases split_concat hs with ⟨l, hl, rfl⟩ | ⟨_, _, rfl⟩
    · have ⟨_, htl, hll⟩ := h.skipped before l hl
      exact ⟨by simpa [takes] using htl, by simpa [loads] using hll⟩
    · exact ⟨rfl, rfl⟩

theorem cursor_le (h : Tally lines t s) (h' : Tally lines (t ++ u) s') : s.cursor ≤ s'.cursor := by
  by_cases hs : .input .skipped ∈ t ++ u
  case pos =>
    obtain ⟨before, later, ht⟩ := List.append_of_mem hs
    rw [(h'.skipped before later ht).1]
    exact h.bounded
  case neg =>
    have ht := h.taken fun hm => hs (List.mem_append_left u hm)
    have ht' := h'.taken hs
    rw [takes_append, ht] at ht'
    have hl := congrArg List.length ht'
    have := h.bounded
    have := h'.bounded
    simp only [List.length_append, List.length_take] at hl
    omega

end Tally

-- What has to be true of an event after those before it.
def InOrder (lines : List String) (past : List Event) : Event → Prop
  | .became s           => Tally lines past s
  | .evaluated _ r _ _  => ∀ v, r = .ok v → takes past = loads past
  | .input _            => True

-- A machine and what happened to it since a run over some lines began.
structure Ledger (base : List Event) (lines : List String) (t : List Event) (m : Machine) :
    Prop where
  history : m.history.get = base ++ t
  past    : Throughout (InOrder lines) t
  present : Tally lines t m.toState
  halts   : m.halted = true → ∃ s ∈ points t, s.halted = true

namespace Ledger

variable {base t : List Event} {lines : List String} {m : Machine} {s : State}

theorem become (h : Ledger base lines t m) (hs : Tally lines t s) :
    Ledger base lines (t ++ [.became s]) (m.become s) where
  history := by rw [Machine.history_become, h.history, List.append_assoc]
  past := h.past.concat hs
  present := hs.concat rfl
  halts hh := ⟨s, by simp [points], hh⟩

theorem update (h : Ledger base lines t m) (hr : s.records = m.records) (hc : s.cursor = m.cursor)
    (he : s.environment.Counts (loads t).length) :
    Ledger base lines (t ++ [.became s]) (m.become s) :=
  h.become (h.present.update hr hc he)

theorem withEnvironment {e : Environment} (h : Ledger base lines t m)
    (he : e.Counts (loads t).length) :
    Ledger base lines (t ++ [.became { m.toState with environment := e }])
      (m.withEnvironment e) :=
  h.update rfl rfl he

theorem note {e : Event} (h : Ledger base lines t m) (he : InOrder lines t e)
    (hs : Tally lines (t ++ [e]) m.toState) : Ledger base lines (t ++ [e]) (m.note e) where
  history := by rw [Machine.history_note, h.history, List.append_assoc]
  past := h.past.concat he
  present := hs
  halts hh := by
    obtain ⟨s, hs, hh⟩ := h.halts hh
    rw [points_append]
    exact ⟨s, List.mem_append_left _ hs, hh⟩

theorem evaluated {c : Clause} {r : Except Failure Value} {s' : State}
    (h : Ledger base lines t m) (hr : ∀ v, r = .ok v → takes t = loads t) :
    Ledger base lines (t ++ [.evaluated c r s s']) (m.note (.evaluated c r s s')) :=
  h.note hr (h.present.concat rfl)

theorem input {i : Input} (h : Ledger base lines t m) (hs : Tally lines (t ++ [.input i]) s) :
    Ledger base lines (t ++ [.input i, .became s]) ((m.note (.input i)).become s) where
  history := by simp [h.history]
  past := by
    rw [List.append_cons]
    exact (h.past.concat (e := .input i) trivial).concat hs
  present := by
    rw [List.append_cons]
    exact hs.concat rfl
  halts hh := ⟨s, by simp [points], hh⟩

theorem sought_none (h : Ledger base lines t m) (ht : takes t = loads t) :
    Ledger base lines (t ++ [.input (.sought none)]) (m.note (.input (.sought none))) :=
  h.note trivial (h.present.sought_none ht)

theorem take {record : String} (h : Ledger base lines t m) (ht : takes t = loads t)
    (hr : lines[m.cursor]? = some record) :
    Ledger base lines (t ++ [.input (.sought (some record)),
      .became { m.toState with cursor := m.cursor + 1 }]) (m.take record) :=
  h.input (h.present.take ht hr)

theorem length_loads_lt (h : Ledger base lines t m) (ht : takes t = loads t)
    (hc : m.cursor < lines.length) : (loads t).length < lines.length := by
  rw [← ht, h.present.taken (h.present.notMem_skipped hc), List.length_take]
  omega

end Ledger

namespace Run

-- A step that keeps the tally, wherever it starts, and ends well only outside of loads and with
-- results of some kind.
def Tallies (base : List Event) (lines : List String) {α : Type} (Q : α → Prop) (x : Run α) :
    Prop :=
  ∀ t m, Ledger base lines t m → takes t = loads t →
    ∃ u, Ledger base lines (t ++ u) (x.on m).2 ∧
      ∀ a, (x.on m).1 = .ok a → takes (t ++ u) = loads (t ++ u) ∧ Q a

namespace Tallies

variable {base : List Event} {lines : List String} {α β : Type} {x : Run α} {f : α → Run β}
  {P : α → Prop} {Q : β → Prop}

theorem still (hx : ∀ m, (x.on m).2 = m) (ho : ∀ m a, (x.on m).1 = .ok a → P a) :
    Tallies base lines P x := fun t m h ht => by
  refine ⟨[], ?_⟩
  rw [hx, List.append_nil]
  exact ⟨h, fun a ha => ⟨ht, ho m a ha⟩⟩

theorem pure {a : α} (ha : P a) : Tallies base lines P (pure a) :=
  still (fun _ => rfl) fun _ _ h => Except.ok.inj h ▸ ha

theorem throw {g : Failure} : Tallies base lines P (throw g) :=
  still (fun _ => rfl) fun _ _ h => nomatch h

theorem ok {t : List Event} {m m' : Machine} {a : α} (hx : Tallies base lines P x)
    (h : Ledger base lines t m) (ht : takes t = loads t) (ho : x.on m = (.ok a, m')) :
    ∃ u, Ledger base lines (t ++ u) m' ∧ takes (t ++ u) = loads (t ++ u) ∧ P a := by
  obtain ⟨u, hu, hr⟩ := hx t m h ht
  rw [ho] at hu hr
  exact ⟨u, hu, hr a rfl⟩

theorem bind (hx : Tallies base lines P x) (hf : ∀ a, P a → Tallies base lines Q (f a)) :
    Tallies base lines Q (x >>= f) := fun t m h ht => by
  rcases ho : x.on m with ⟨g | a, n⟩
  case error =>
    obtain ⟨u, hu, _⟩ := hx t m h ht
    rw [ho] at hu
    rw [on_bind_error ho]
    exact ⟨u, hu, fun _ h => nomatch h⟩
  case ok =>
    obtain ⟨u, hu, hr, ha⟩ := hx.ok h ht ho
    obtain ⟨w, hw, hr⟩ := hf a ha (t ++ u) n hu hr
    rw [List.append_assoc] at hw hr
    rw [on_bind_ok ho]
    exact ⟨u ++ w, hw, hr⟩

theorem gives {R : α → Prop} (hx : Tallies base lines P x) (hr : x.Gives R) :
    Tallies base lines R x := fun t m h ht =>
  have ⟨u, hu, ha⟩ := hx t m h ht
  ⟨u, hu, fun a h => ⟨(ha a h).1, hr m a h⟩⟩

theorem clause {x : Run Value} {c : Clause} {P : Value → Prop} (hx : Tallies base lines P x) :
    Tallies base lines P (clause c x) := fun t m h ht => by
  obtain ⟨u, hu, hr⟩ := hx t m h ht
  refine ⟨u ++ [.evaluated c (x.on m).1 m.toState (x.on m).2.toState], ?_, fun a ha => ?_⟩
  · rw [← List.append_assoc]
    exact hu.evaluated fun v hv => (hr v hv).1
  · rw [← List.append_assoc]
    exact ⟨takes_eq_loads_concat (hr a ha).1 rfl, (hr a ha).2⟩

theorem change {g : State → State} (hr : ∀ s, (g s).records = s.records)
    (hc : ∀ s, (g s).cursor = s.cursor) (he : ∀ s, (g s).environment = s.environment) :
    Tallies base lines (fun _ => True) (change g) := fun t m h ht => by
  refine ⟨_, h.update (hr _) (hc _) ?_, fun _ _ => ⟨takes_eq_loads_concat ht rfl, trivial⟩⟩
  rw [he]
  exact h.present.counted

theorem inspect {o : Option Location} {g : Environment → Except Fault α} :
    Tallies base lines (fun _ => True) (inspect o g) :=
  still (fun _ => by rw [inspect_on]) fun _ _ _ => trivial

theorem operate {o : Option Location} {g : Environment → Except Fault (α × Environment)}
    (hg : ∀ e, Meets (g e) fun (_, e') => e.Write spares e') :
    Tallies base lines (fun _ => True) (operate o g) := fun t m h ht => by
  have hg := hg m.environment
  cases hr : g m.environment
  all_goals rw [hr] at hg
  case error =>
    refine ⟨[], ?_⟩
    rw [operate_on_error hr, List.append_nil]
    exact ⟨h, fun _ _ => ⟨ht, trivial⟩⟩
  case ok q =>
    rw [operate_on_ok hr]
    have hw := h.withEnvironment (h.present.counted.write hg)
    exact ⟨_, hw, fun _ _ => ⟨takes_eq_loads_concat ht rfl, trivial⟩⟩

theorem exit {code : Int} : Tallies base lines (fun _ => True) (do setExitCode code; halt) :=
  .bind (.change (fun _ => rfl) (fun _ => rfl) fun _ => rfl) fun _ _ =>
    .change (fun _ => rfl) (fun _ => rfl) fun _ => rfl

theorem withFrame {frame : Frame} (hf : Environment.Avoids frame) (hx : Tallies base lines P x) :
    Tallies base lines P (withFrame frame x) := fun t m h ht => by
  have hp := h.update (s := m.push frame) rfl rfl (h.present.counted.push hf)
  obtain ⟨u, hu, hr⟩ := hx _ _ hp (takes_eq_loads_concat ht rfl)
  rw [List.append_assoc] at hu hr
  have hl := hu.update (s := State.pop _) rfl rfl hu.present.counted.pop
  rw [List.append_assoc] at hl
  refine ⟨_, hl, fun a ha => ?_⟩
  rw [← List.append_assoc]
  exact ⟨takes_eq_loads_concat (hr a ha).1 rfl, (hr a ha).2⟩

-- Since no counter is an array, no call is handed one.
theorem of_binds {frame : Frame} {x : Run Frame}
    (h : Binds spares (Tallies base lines fun _ => True) frame x) (hf : Environment.Avoids frame) :
    Tallies base lines Environment.Avoids x := by
  induction h
  case done => exact pure hf
  case fail => exact throw
  case value ha _ ih => exact ha.bind fun v _ => ih v hf
  case name frame x y f b _ _ _ ihf ihb =>
    intro t m h ht
    have he : environment.on m = (.ok m.environment, m) := rfl
    rw [on_bind_ok he]
    split
    case isFalse => exact ihb hf t m h ht
    case isTrue ha =>
      refine ihf _ ?_ t m h ht
      intro z r hz
      rw [Table.get?_insert] at hz
      split at hz
      case isTrue =>
        cases hz
        exact h.present.counted.notMem_of_isArray ha
      case isFalse => exact hf z r hz

theorem skipRecords : Tallies base lines (fun _ => True) skipRecords := fun t m h ht => by
  refine ⟨_, h.input (h.present.skip ht), fun _ _ => ⟨?_, trivial⟩⟩
  simpa [takes, loads] using ht

theorem loadRecord [Patterns] (hlines : lines.length ≤ 2 ^ 53) :
    Tallies base lines (fun _ => True) loadRecord := fun t m h ht => by
  have hl := loads_loadRecord m
  have hline {record : String} (hr : m.records[m.cursor]? = some record) :
      lines[m.cursor]? = some record := by
    rw [h.present.records] at hr
    simpa using hr
  generalize Run.loadRecord.on m = o at hl
  cases hl
  case none =>
    refine ⟨[.input (.sought none)], h.sought_none ht, fun _ _ => ⟨?_, trivial⟩⟩
    simpa [takes, loads] using ht
  case uncounted hr _ => exact ⟨_, h.take ht (hline hr), fun _ h => nomatch h⟩
  case unsplit hr _ =>
    have h' := h.take ht (hline hr)
    have hd := h'.withEnvironment h'.present.counted.dropFields
    rw [List.append_assoc] at hd
    exact ⟨_, hd, fun _ h => nomatch h⟩
  case loaded record nr fnr e fs e' hr hn hf he he' =>
    have hc := (List.getElem?_eq_some_iff.mp (hline hr)).1
    have h' := h.take ht (hline hr)
    have hd := h'.withEnvironment h'.present.counted.dropFields
    have hg := hd.withEnvironment (e := e) (by
      rw [he]
      exact hd.present.counted.setFields)
    have hv : e'.Counts ((loads t).length + 1) := by
      have hk := Nat.lt_of_lt_of_le (h.length_loads_lt ht hc) hlines
      cases (h.present.counted.global (by decide)).symm.trans hn
      cases (h.present.counted.global (by decide)).symm.trans hf
      rw [he', he, Value.ofNumber_count hk]
      exact h.present.counted.dropFields.setFields.count rfl
    have hs : .input .skipped ∉ t := h.present.notMem_skipped hc
    have hk := hg.input (i := .loaded record) (hg.present.count (e := e') (by simpa using hs)
      (by simp only [takes_append, loads_append, ht]; simp [takes, loads])
      (by simpa [loads] using hv))
    simp only [List.append_assoc] at hk
    refine ⟨_, hk, fun _ _ => ⟨?_, trivial⟩⟩
    simp only [takes_append, loads_append, ht]
    simp [takes, loads]

end Tallies

end Run

end PatternAction
