import PatternAction.Proofs.Run.Discipline

namespace PatternAction

-- Whether an expression is evaluated without asking if the phase is to end.
def Clause.isUnguarded : Clause → Bool
  | .update | .otherwise => true
  | _                    => false

def Clause.isIndex : Clause → Bool
  | .index _ => true
  | _        => false

-- The state that a statement leaves behind an expression that ended the phase.
def Clause.settled (c : Clause) (r : Except Failure Value) (s : State) : State :=
  match c, r with
  | .index array, .ok key =>
    match s.environment.delete array (some key.text) with
    | .ok e    => { s with environment := e }
    | .error _ => s
  | _, _ => s

namespace Clause

variable {c : Clause} {r : Except Failure Value} {s : State}

theorem settled_of_not_isIndex (hc : c.isIndex = false) : c.settled r s = s := by
  cases c <;> first | rfl | cases hc

@[simp] theorem settled_error {g : Failure} : c.settled (.error g) s = s := by
  cases c <;> rfl

-- Only a deletion of an element that there is makes a difference.
theorem settled_eq_self_iff :
    c.settled r s = s ↔ ∀ array key, c = .index array → r = .ok key →
      s.environment.hasElement array key.text ≠ .ok true := by
  unfold settled
  split
  case h_2 hc =>
    exact iff_of_true rfl fun array key hi hr => absurd hr (hc array key hi)
  case h_1 array key =>
    have hd := s.environment.delete_eq_self_iff array key.text
    constructor
    case mp =>
      rintro h _ _ ⟨⟩ ⟨⟩
      refine hd.mp fun e he => ?_
      rw [he] at h
      exact congrArg State.environment h
    case mpr =>
      intro h
      have h := hd.mpr (h array key rfl rfl)
      split
      case h_1 he => rw [h _ he]
      case h_2 => rfl

@[simp] theorem halted_settled : (c.settled r s).halted = s.halted := by
  unfold settled
  split
  case h_1 => split <;> rfl
  case h_2 => rfl

@[simp] theorem depth_settled : (c.settled r s).depth = s.depth := by
  unfold settled
  split
  case h_1 =>
    split
    case h_1 h =>
      unfold Environment.delete at h
      split at h <;> cases h
      · exact Environment.depth_setCell
      · rfl
    case h_2 => rfl
  case h_2 => rfl

end Clause

-- With `d` calls under way, an expression is evaluated without asking,
def Straggles (d : Nat) (t : List Event) : Prop :=
  ∃ c r s s', .evaluated c r s s' ∈ t ∧ s.depth = d ∧ c.isUnguarded

-- or none is evaluated in any other way, nor before the phase has ended.
def Late (d : Nat) (t : List Event) : Prop :=
  ∀ c r s s', .evaluated c r s s' ∈ t → s.depth = d → s.halted = true ∧ c.isUnguarded

theorem Straggles.append {d : Nat} {t u : List Event} (h : Straggles d t ∨ Straggles d u) :
    Straggles d (t ++ u) := by
  rcases h with ⟨c, r, s, s', h, hs⟩ | ⟨c, r, s, s', h, hs⟩
  · exact ⟨c, r, s, s', List.mem_append_left u h, hs⟩
  · exact ⟨c, r, s, s', List.mem_append_right t h, hs⟩

theorem Late.nil {d : Nat} : Late d [] := fun _ _ _ _ h => nomatch h

theorem Late.append {d : Nat} {t u : List Event} (ht : Late d t) (hu : Late d u) :
    Late d (t ++ u) := fun c r s s' h =>
  (List.mem_append.mp h).elim (ht c r s s') (hu c r s s')

-- Nothing is evaluated any more, and the state stays as it is.
def Still (s : State) (later : List Event) (last : State) : Prop :=
  (∀ c r q q', .evaluated c r q q' ∉ later) ∧ last = s

-- What is left to do after an expression that ended the phase: some expressions that are evaluated
-- without asking, or none at all.
structure Aftermath (d : Nat) (c : Clause) (r : Except Failure Value) (s : State)
    (later : List Event) (last : State) : Prop where
  halted  : last.halted = true
  late    : Late d later
  settled : Straggles d later ∨ Still (c.settled r s) later last

theorem Aftermath.trans {d : Nat} {c : Clause} {r : Except Failure Value} {s last last' : State}
    {t u : List Event} (h : Aftermath d c r s t last) (hl : last'.halted = true) (hu : Late d u)
    (hq : u = [] ∧ last' = last ∨ Straggles d u) : Aftermath d c r s (t ++ u) last' := by
  refine ⟨hl, h.late.append hu, ?_⟩
  rcases h.settled, hq with ⟨hs | hs, ⟨rfl, rfl⟩ | hq⟩
  case inl.inl | inl.inr => exact .inl (.append (.inl hs))
  case inr.inl => exact .inr (by rwa [List.append_nil])
  case inr.inr => exact .inl (.append (.inr hq))

namespace Run

variable {α β : Type} {x : Run α} {f : α → Run β} {m : Machine} {c : Clause}

-- A step in which every expression that ends the phase is followed only by such an aftermath.
structure Ends (x : Run α) (m : Machine) : Prop where
  level : (x.on m).2.depth = m.depth
  stops : ∃ t, (x.on m).2.history.get = m.history.get ++ t ∧
            ∀ past c r s s' later, t = past ++ .evaluated c r s s' :: later →
              s.depth = m.depth → s.halted = false → s'.halted = true →
              Aftermath m.depth c r s' later (x.on m).2.toState

-- A step that begins when the phase has ended does nothing, or evaluates without asking.
structure Ceases (x : Run α) (m : Machine) : Prop where
  level  : (x.on m).2.depth = m.depth
  halted : (x.on m).2.halted = true
  stops  : ∃ t, (x.on m).2.history.get = m.history.get ++ t ∧ Late m.depth t ∧
             (t = [] ∧ (x.on m).2.toState = m.toState ∨ Straggles m.depth t)

def Idle (x : Run α) (m : Machine) : Prop := (x.on m).2 = m

theorem Idle.ceases (h : Idle x m) (hm : m.halted = true) : Ceases x m := by
  rw [Idle] at h
  refine ⟨?_, ?_, [], ?_, .nil, .inl ⟨rfl, ?_⟩⟩
  all_goals rw [h]
  · exact hm
  · exact (List.append_nil _).symm

theorem Idle.bind (hx : Idle x m) (hf : ∀ a, Idle (f a) m) : Idle (x >>= f) m := by
  rcases ho : x.on m with ⟨g | a, m'⟩
  all_goals
    rw [Idle, ho] at hx
    cases hx
  case error => rw [Idle, on_bind_error ho]
  case ok =>
    rw [Idle, on_bind_ok ho]
    exact hf a

theorem Idle.pure {a : α} : Idle (pure a) m := rfl

-- A step that leaves what its statement leaves behind an expression with a value.
structure Settles (c : Clause) (v : Value) (x : Run α) (m : Machine) : Prop where
  state : (x.on m).2.toState = c.settled (.ok v) m.toState
  quiet : ∃ u, (x.on m).2.history.get = m.history.get ++ u ∧ ∀ c r q q', .evaluated c r q q' ∉ u

theorem Settles.pure {v : Value} {a : α} (hc : c.isIndex = false) :
    Settles c v (pure a) m where
  state := (Clause.settled_of_not_isIndex hc).symm
  quiet := ⟨[], (List.append_nil _).symm, fun _ _ _ _ h => nomatch h⟩

-- A step for the time after one that may have ended the phase.
structure Follows (x : Run α) : Prop where
  ceases : ∀ m : Machine, m.halted = true → Ceases x m
  ends   : ∀ m, Ends x m

-- A step that asks first.
structure Heeds (x : Run α) : Prop where
  idle : ∀ m : Machine, m.halted = true → Idle x m
  ends : ∀ m, Ends x m

theorem Heeds.follows (h : Heeds x) : Follows x := ⟨fun m hm => (h.idle m hm).ceases hm, h.ends⟩

namespace Ends

theorem of_eq {y : Run α} (h : x.on m = y.on m) (hy : Ends y m) : Ends x m := by
  have ⟨hl, hs⟩ := hy
  rw [← h] at hl hs
  exact ⟨hl, hs⟩

theorem of_keeps (h : Keeps .free 1 x) : Ends x m := by
  have ⟨t, ht, hp⟩ := (h m trivial).passage
  refine ⟨hp.level, t, ht, ?_⟩
  rintro past c r s s' later rfl hd
  have := hp.clauses c r s s' (by simp)
  omega

theorem of_holds [Patterns] (h : Discipline.free.logic.Holds 1 x) : Ends x m := of_keeps h

theorem pure {a : α} : Ends (pure a) m := of_keeps .pure

theorem clause_bind {y : Run Value} {f : Value → Run β} (h : Keeps .free 1 y)
    (hf : ∀ v m, Settles c v (f v) m) : Ends (clause c y >>= f) m := by
  have ⟨t, ht, hp⟩ := (h m trivial).passage
  have hg := history_clause (c := c) ht
  have hl : ((Run.clause c y).on m).2.depth = m.depth := hp.level
  -- The history ends with the expression and what settles it.
  have ⟨u, hu, hn, hs⟩ : ∃ u, ((Run.clause c y >>= f).on m).2.history.get = m.history.get ++
      (t ++ .evaluated c (y.on m).1 m.toState (y.on m).2.toState :: u) ∧
      (∀ c r q q', .evaluated c r q q' ∉ u) ∧
      ((Run.clause c y >>= f).on m).2.toState = c.settled (y.on m).1 (y.on m).2.toState := by
    have hr : (y.on m).1 = ((Run.clause c y).on m).1 := rfl
    have hm : (y.on m).2.toState = ((Run.clause c y).on m).2.toState := rfl
    rcases ho : (Run.clause c y).on m with ⟨g | v, m'⟩
    all_goals
      rw [ho] at hr hm hg
      rw [hr, hm] at hg
    case error =>
      rw [on_bind_error ho, hr, hm]
      exact ⟨[], hg, (fun _ _ _ _ h => nomatch h), Clause.settled_error.symm⟩
    case ok =>
      rw [on_bind_ok ho, hr, hm]
      have ⟨hs, u, hu, hn⟩ := hf v m'
      refine ⟨u, ?_, hn, hs⟩
      rw [hu, hg, List.append_assoc, List.append_assoc]
      rfl
  refine ⟨?_, _, hu, fun past c' r s s' later he hd _ hh => ?_⟩
  · rw [State.depth, hs]
    exact Clause.depth_settled.trans hl
  · rcases split_append he with ⟨l, rfl, rfl⟩ | ⟨l, rfl, hl⟩
    case inl =>
      have := hp.clauses c' r s s' (by simp)
      omega
    case inr =>
      rcases List.cons_eq_append_iff.mp hl with ⟨rfl, hl⟩ | ⟨l, rfl, rfl⟩
      · cases hl
        refine ⟨?_, fun _ _ _ _ h => absurd h (hn _ _ _ _), .inr ⟨hn, hs⟩⟩
        rw [hs, Clause.halted_settled, hh]
      · exact absurd (List.mem_append_right l (.head _)) (hn c' r s s')

theorem clause {y : Run Value} (h : Keeps .free 1 y) (hc : c.isIndex = false) :
    Ends (clause c y) m := by
  rw [← bind_pure (Run.clause c y)]
  exact clause_bind h fun _ _ => .pure hc

theorem bind (hx : Ends x m) (hf : ∀ a, Follows (f a)) : Ends (x >>= f) m := by
  have ⟨hl, t, ht, hs⟩ := hx
  rcases ho : x.on m with ⟨g | a, m'⟩
  all_goals rw [ho] at hl ht hs
  case error =>
    refine ⟨?_, t, ?_, ?_⟩
    all_goals rw [on_bind_error ho]
    · exact hl
    · exact ht
    · exact hs
  case ok =>
    cases hh : m'.halted
    case true =>
      have ⟨hl', hh, u, hu, hn, hq⟩ := (hf a).ceases m' hh
      refine ⟨?_, t ++ u, ?_, fun past c r s s' later he hd h₁ h₂ => ?_⟩
      all_goals rw [on_bind_ok ho]
      · exact hl'.trans hl
      · rw [hu, ht, List.append_assoc]
      · rcases split_append he with ⟨l, hp, rfl⟩ | ⟨l, rfl, hp⟩
        · rw [hl] at hn hq
          exact (hs past c r s s' l hp hd h₁ h₂).trans hh hn hq
        · -- All expressions after the first step begin when the phase has ended.
          have := (hn c r s s' (by simp [hp]) (hd.trans hl.symm)).1
          cases this.symm.trans h₁
    case false =>
      have ⟨hl', u, hu, hs'⟩ := (hf a).ends m'
      refine ⟨?_, t ++ u, ?_, fun past c r s s' later he hd h₁ h₂ => ?_⟩
      all_goals rw [on_bind_ok ho]
      · exact hl'.trans hl
      · rw [hu, ht, List.append_assoc]
      · rcases split_append he with ⟨l, hp, rfl⟩ | ⟨l, rfl, hp⟩
        · -- The phase has not ended when the first step has, so no expression in it ended it.
          have hm : m'.halted = true := (hs past c r s s' l hp hd h₁ h₂).halted
          cases hm.symm.trans hh
        · rw [← hl] at hd ⊢
          exact hs' l c r s s' later hp hd h₁ h₂

end Ends

theorem Ceases.clause_bind {y : Run Value} {f : Value → Run β} (hm : m.halted = true)
    (h : Keeps .free 1 y) (hc : c.isUnguarded)
    (hf : ∀ v m', m'.halted = true → Ceases (f v) m') : Ceases (clause c y >>= f) m := by
  have ⟨t, ht, hp⟩ := (h m trivial).passage
  have hg := history_clause (c := c) ht
  have hh : ((clause c y).on m).2.halted = true :=
    (hp.path.keeps (P := fun s => s.halted = true) (fun _ _ => State.Step.halted) hm).1
  -- The only expression so far at this level is the clause itself.
  have hn : Late m.depth (t ++ [.evaluated c (y.on m).1 m.toState (y.on m).2.toState]) := by
    intro c' r s s' he hd
    rcases List.mem_append.mp he with he | he
    · have := hp.clauses c' r s s' he
      omega
    · cases List.mem_singleton.mp he
      exact ⟨hm, hc⟩
  have hs : Straggles m.depth (t ++ [.evaluated c (y.on m).1 m.toState (y.on m).2.toState]) :=
    ⟨c, _, _, _, List.mem_append_right _ (.head _), rfl, hc⟩
  have hl : ((clause c y).on m).2.depth = m.depth := hp.level
  rcases ho : (clause c y).on m with ⟨g | v, m'⟩
  all_goals rw [ho] at hg hl hh
  case error =>
    refine ⟨?_, ?_, _, ?_, hn, .inr hs⟩
    all_goals rw [on_bind_error ho]
    · exact hl
    · exact hh
    · exact hg
  case ok =>
    have ⟨hl', hh', u, hu, hn', _⟩ := hf v m' hh
    refine ⟨?_, ?_, _ ++ u, ?_, hn.append (hl ▸ hn'), .inr (.append (.inl hs))⟩
    all_goals rw [on_bind_ok ho]
    · exact hl'.trans hl
    · exact hh'
    · rw [hu, hg, List.append_assoc _ _ u]

namespace Follows

theorem pure {a : α} : Follows (pure a) := ⟨fun _ => Idle.pure.ceases, fun _ => .pure⟩

theorem bind (hx : Heeds x) (hf : ∀ a, Follows (f a)) : Follows (x >>= f) where
  ceases m hm := by
    have hi := hx.idle m hm
    rcases ho : x.on m with ⟨g | a, m'⟩
    all_goals
      rw [Idle, ho] at hi
      cases hi
    case error => exact Idle.ceases (by rw [Idle, on_bind_error ho]) hm
    case ok =>
      have ⟨hl, hh, hs⟩ := (hf a).ceases m' hm
      rw [← on_bind_ok ho] at hl hh hs
      exact ⟨hl, hh, hs⟩
  ends m := (hx.ends m).bind hf

theorem clause_bind {y : Run Value} {f : Value → Run β} (h : Keeps .free 1 y) (hc : c.isUnguarded)
    (hf : ∀ v, Follows (f v)) : Follows (clause c y >>= f) where
  ceases _ hm := .clause_bind hm h hc fun v => (hf v).ceases
  ends _ := by
    refine (Ends.clause h ?_).bind hf
    cases c <;> first | rfl | cases hc

end Follows

namespace Heeds

theorem pure {a : α} : Heeds (pure a) := ⟨fun _ _ => rfl, fun _ => .pure⟩

theorem throw {g : Failure} (hg : g.isStuck = false) : Heeds (throw g : Run α) :=
  ⟨fun _ _ => rfl, fun _ => .of_keeps (.throw hg)⟩

theorem bind (hx : Heeds x) (hf : ∀ a, Heeds (f a)) : Heeds (x >>= f) where
  idle m hm := (hx.idle m hm).bind fun a => (hf a).idle m hm
  ends m := (hx.ends m).bind fun a => (hf a).follows

theorem guard {a : α} (h : ∀ m, Ends x m) : Heeds (do if ← isHalted then return a else x) where
  idle m hm := by rw [Idle, guard_on, if_pos hm]
  ends m := by
    have ho : isHalted.on m = (.ok m.halted, m) := rfl
    refine .of_eq (on_bind_ok ho) ?_
    split
    case isTrue => exact .pure
    case isFalse => exact h m

end Heeds

section Delete

variable {array : String} {l : Location}

theorem on_delete (m : Machine) (key : Option String) :
    (delete array key l).on m =
      match m.environment.delete array key with
      | .ok e        => (.ok (), m.become { m.toState with environment := e })
      | .error cause => (.error (.fault cause (some l)), m) := by
  cases h : m.environment.delete array key
  all_goals
    change ((check (some l) (m.environment.delete array key)) >>= setEnvironment).on m = _
    rw [h]
    rfl

theorem Settles.delete {key : Value} :
    Settles (.index array) key (delete array (some key.text) l >>= fun _ => Pure.pure a) m := by
  have ho : (Run.delete array (some key.text) l).on m = _ := on_delete m _
  cases h : m.environment.delete array (some key.text)
  all_goals
    rw [h] at ho
    constructor
  case error.state => rw [on_bind_error ho, Clause.settled, h]
  case error.quiet =>
    rw [on_bind_error ho]
    exact ⟨[], (List.append_nil _).symm, fun _ _ _ _ h => nomatch h⟩
  case ok.state =>
    rw [on_bind_ok ho, Clause.settled, h]
    rfl
  case ok.quiet =>
    rw [on_bind_ok ho]
    exact ⟨[.became _], Machine.history_become, fun _ _ _ _ h => nomatch List.mem_singleton.mp h⟩

end Delete

end Run

end PatternAction
