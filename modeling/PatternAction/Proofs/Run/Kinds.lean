import PatternAction.Proofs.Run.Calls

namespace PatternAction

theorem Table.mem_of_get? {α : Type} {t : Table α} {k : String} {v : α} (h : t.get? k = some v) :
    (k, v) ∈ t.entries := by
  obtain ⟨es⟩ := t
  rw [get?] at h
  induction es
  case nil => cases h
  case cons q es ih =>
    rw [get?.go] at h
    split at h
    case isTrue hk =>
      cases h
      exact hk ▸ .head _
    case isFalse => exact .tail _ (ih h)

namespace Environment

variable {e e' : Environment} {r q : Reference} {c : Cell} {x : String} {v : Value} {p : Program}

def FieldsScalar (e : Environment) : Prop := ∀ x, isFieldName x → e.isArray ⟨.globals, x⟩ = false

-- What a step of a program can do to the kinds of cells.
structure KeepsKinds (p : Program) (e e' : Environment) : Prop where
  -- An array stays one, unless a record is loaded over it or its call ends.
  array  : ∀ r, e.isArray r → e'.isArray r ∨
             (r = fieldCount ∧ ∃ record fs, e' = e.setFields record fs) ∨
             (r.scope = .frame (e.depth - 1) ∧ e' = e.pop)
  -- An array is made of a scalar only where the program splits a text.
  scalar : ∀ r v, e.cell? r = some (.scalar v) → e'.isArray r →
             ∃ x t, (.split, x) ∈ p.uses ∧ e.resolve x = r ∧ e' = e.setArray x t

theorem isArray_of_cell?_eq (h : e'.cell? r = e.cell? r) : e'.isArray r = e.isArray r := by
  rw [isArray, h, isArray]

theorem isArray_setCell (hq : q.Below e.depth) :
    (e.setCell q c).isArray r = if r = q then c.isArray else e.isArray r := by
  split
  case isTrue h =>
    subst h
    rw [isArray, cell?_setCell_self hq, Option.any_some]
  case isFalse h => exact isArray_of_cell?_eq (cell?_setCell_of_ne h)

theorem isArray_setGlobal :
    (e.setGlobal x v).isArray r = if r = ⟨.globals, x⟩ then false else e.isArray r :=
  isArray_setCell .globals

theorem below_of_isArray (h : e.isArray r) : r.Below e.depth := by
  obtain ⟨_, hc, _⟩ := (Option.any_eq_true ..).mp h
  exact below_of_cell? hc

theorem isArray_of_setFields {record : String} {fs : List String}
    (h : (e.setFields record fs).isArray r) : e.isArray r := by
  refine setFields_induction (P := fun e' => e'.isArray r → e.isArray r) id ?_ h
  intro _ _ _ ih _ hr
  rw [isArray_setGlobal] at hr
  split at hr
  case isTrue => cases hr
  case isFalse => exact ih hr

theorem isPlain_of_isArray (h : e.FieldsScalar) (hr : e.isArray r) : IsPlain r := by
  obtain ⟨scope, x⟩ := r
  rintro ⟨⟩
  by_contra hx
  rw [Bool.not_eq_false] at hx
  cases hr.symm.trans (h x hx)

theorem isArray_of_dropFields (h : e.dropFields.isArray r) : e.isArray r := by
  obtain ⟨c, hc, ha⟩ := (Option.any_eq_true ..).mp h
  refine (Option.any_eq_true ..).mpr ⟨c, ?_, ha⟩
  obtain ⟨scope, x⟩ := r
  cases scope
  case globals =>
    simp only [cell?, dropFields, Table.get?_restrict, Option.ite_none_right_eq_some] at hc
    exact hc.2
  case frame => exact hc

theorem Step.isArray_cases (ha : e.Aligned) (h : e.Step (Discipline.alignment p).may Handed e')
    (hb : r.Below e.depth) (hr : e'.isArray r) :
    e.isArray r ∨ ∃ x t, isFieldName x = false ∧ e.resolve x = r ∧ e' = e.setArray x t ∧
      ∀ v, e.cell? r = some (.scalar v) → (.split, x) ∈ p.uses := by
  cases h
  case write h =>
    cases h
    case same => exact .inl hr
    case scalar x v _ _ =>
      rw [store, isArray_setCell (ha.below_resolve x)] at hr
      split at hr
      case isTrue => cases hr
      case isFalse => exact .inl hr
    case array x t hx hl =>
      rw [store, isArray_setCell (ha.below_resolve x)] at hr
      split at hr
      case isTrue h =>
        subst h
        exact .inr ⟨x, t, hx.2, rfl, rfl, fun v hv => absurd hv (hl v)⟩
      case isFalse => exact .inl hr
    case split x t hx =>
      rw [setArray, store, isArray_setCell (ha.below_resolve x)] at hr
      split at hr
      case isTrue h => exact .inr ⟨x, t, hx.2, h.symm, rfl, fun _ _ => hx.1⟩
      case isFalse => exact .inl hr
    case field =>
      rw [isArray_setGlobal] at hr
      split at hr
      case isTrue => cases hr
      case isFalse => exact .inl hr
  case drop => exact .inl (isArray_of_dropFields hr)
  case fields => exact .inl (isArray_of_setFields hr)
  case count =>
    rw [isArray_setGlobal, isArray_setGlobal] at hr
    split at hr
    case isTrue => cases hr
    case isFalse =>
      split at hr
      case isTrue => cases hr
      case isFalse => exact .inl hr
  case push => exact .inl (isArray_of_cell?_eq (cell?_push hb) ▸ hr)
  case pop =>
    have hb : r.Below (e.depth - 1) := depth_pop ▸ below_of_isArray hr
    exact .inl (isArray_of_cell?_eq (cell?_pop hb) ▸ hr)

theorem FieldsScalar.step (hf : e.FieldsScalar) (ha : e.Aligned)
    (h : e.Step (Discipline.alignment p).may Handed e') : e'.FieldsScalar := by
  intro x hx
  by_contra hr
  rw [Bool.not_eq_false] at hr
  rcases h.isArray_cases ha .globals hr with hr | ⟨y, _, hy, hr, _⟩
  · cases hr.symm.trans (hf x hx)
  · have hp := ha.plain_resolve hy
    rw [hr] at hp
    cases hx.symm.trans (hp rfl)

theorem Step.isArray_or (ha : e.Aligned) (hf : e.FieldsScalar)
    (h : e.Step (Discipline.alignment p).may Handed e') (hr : e.isArray r) :
    e'.isArray r ∨ (r = fieldCount ∧ ∃ record fs, e' = e.setFields record fs) ∨
      (r.scope = .frame (e.depth - 1) ∧ e' = e.pop) := by
  have hp := isPlain_of_isArray hf hr
  have hne {x : String} (hx : e.isArray ⟨.globals, x⟩ = false) : r ≠ ⟨.globals, x⟩ := by
    rintro rfl
    cases hr.symm.trans hx
  have hs (x : String) (t : Table Value) : (e.store x (.array t)).isArray r := by
    rw [store, isArray_setCell (ha.below_resolve x)]
    split
    case isTrue => rfl
    case isFalse => exact hr
  cases h
  case write h =>
    cases h
    case same => exact .inl hr
    case scalar x v _ hx =>
      rw [store, isArray_setCell (ha.below_resolve x), if_neg]
      · exact .inl hr
      · rintro rfl
        cases hr.symm.trans hx
    case array x t _ _ | split x t _ => exact .inl (hs x t)
    case field hx =>
      rw [isArray_setGlobal, if_neg (hp.ne_of_isFieldName hx)]
      exact .inl hr
  case drop => exact .inl ((isArray_of_cell?_eq (cell?_dropFields hp)).trans hr)
  case fields record fs =>
    by_cases hn : r = fieldCount
    case pos => exact .inr (.inl ⟨hn, record, fs, rfl⟩)
    case neg => exact .inl ((isArray_of_cell?_eq (cell?_setFields hp hn)).trans hr)
  case count hn hf =>
    rw [isArray_setGlobal, isArray_setGlobal, if_neg (hne hf), if_neg (hne hn)]
    exact .inl hr
  case push => exact .inl ((isArray_of_cell?_eq (cell?_push (below_of_isArray hr))).trans hr)
  case pop =>
    by_cases hb : r.Below (e.depth - 1)
    case pos => exact .inl ((isArray_of_cell?_eq (cell?_pop hb)).trans hr)
    case neg =>
      simp only [Reference.Below, not_forall] at hb
      obtain ⟨i, hi, hb⟩ := hb
      have hd := below_of_isArray hr i hi
      exact .inr (.inr ⟨hi.trans (congrArg Scope.frame (by omega)), rfl⟩)

theorem Step.keepsKinds (ha : e.Aligned) (hf : e.FieldsScalar)
    (h : e.Step (Discipline.alignment p).may Handed e') : KeepsKinds p e e' where
  array _ hr := h.isArray_or ha hf hr
  scalar r v hv hr := by
    rcases h.isArray_cases ha (below_of_cell? hv) hr with hr | ⟨x, t, _, hx, he, hs⟩
    · rw [isArray, hv] at hr
      cases hr
    · exact ⟨x, t, hs v hv, hx, he⟩

end Environment

namespace Run

-- An operation fails at some place and changes nothing.
def Refuses {α : Type} (x : Run α) (l : Location) (m : Machine) : Prop :=
  ∃ cause, x.on m = (.error (.fault cause (some l)), m)

section Refuses

variable {α : Type} {m : Machine} {l : Location} {x : String} {cause : Fault}

theorem refuses_inspect {f : Environment → Except Fault α} (h : f m.environment = .error cause) :
    (inspect (some l) f).Refuses l m :=
  ⟨cause, by rw [inspect_on, h]; rfl⟩

theorem refuses_operate {f : Environment → Except Fault (α × Environment)}
    (h : f m.environment = .error cause) : (operate (some l) f).Refuses l m :=
  ⟨cause, operate_on_error h⟩

theorem refuses_of_array {t : Table Value} (h : m.environment.lookup x = some (.array t)) :
    (scalar x l).Refuses l m ∧ ∀ v, (setScalar x v l).Refuses l m := by
  constructor
  · exact refuses_inspect (by rw [Environment.scalar, h])
  · intro v
    rw [setScalar_eq]
    exact refuses_operate (by rw [Environment.setScalar, h]; rfl)

theorem refuses_of_scalar {v : Value} (h : m.environment.lookup x = some (.scalar v)) :
    (∀ key, (element x key l).Refuses l m) ∧ (∀ key v, (setElement x key v l).Refuses l m) ∧
      (∀ key, (delete x key l).Refuses l m) ∧ (∀ key, (hasElement x key l).Refuses l m) ∧
      (keys x l).Refuses l m := by
  have ha : m.environment.array x = .error (.scalarAsArray x) := by rw [Environment.array, h]
  refine ⟨fun key => ?_, fun key v => ?_, fun key => ?_, fun key => ?_, ?_⟩
  case refine_1 => exact refuses_operate (by rw [Environment.element, ha]; rfl)
  case refine_2 =>
    rw [setElement_eq]
    exact refuses_operate (by rw [Environment.setElement, ha]; rfl)
  case refine_3 =>
    rw [delete_eq]
    exact refuses_operate (by rw [Environment.delete, h]; rfl)
  case refine_4 => exact refuses_inspect (by rw [Environment.hasElement, h])
  case refine_5 => exact refuses_inspect (by rw [Environment.keys, h])

end Refuses

end Run

-- A machine between two runs.
structure Machine.AtRest (m : Machine) : Prop where
  frames : m.environment.frames = #[]
  fields : m.environment.FieldsScalar

section Runs

variable {source : String} {p : Program} {r : Reference}

theorem isArray_of_isChain {s : State} {life : List State}
    (h : (s :: life).IsChain fun s s' => s.environment.KeepsKinds p s'.environment)
    (hr : s.environment.isArray r) (hn : r ≠ Environment.fieldCount)
    (hb : ∀ q ∈ life, r.Below q.depth) : ∀ q ∈ life, q.environment.isArray r := by
  induction life generalizing s
  case nil => exact fun _ h => nomatch h
  case cons q life ih =>
    obtain ⟨hk, h⟩ := List.isChain_cons_cons.mp h
    obtain ⟨hb, hl⟩ := List.forall_mem_cons.mp hb
    have hq : q.environment.isArray r := by
      rcases hk.array r hr with hq | ⟨hc, _⟩ | ⟨hi, hp⟩
      · exact hq
      · exact absurd hc hn
      · have hi := hb _ hi
        rw [State.depth, hp, Environment.depth_pop] at hi
        omega
    exact List.forall_mem_cons.mpr ⟨hq, ih h hq hl⟩

-- At every step of a run cells keep their kinds, so that an array stays one as long as there is its
-- cell, and no operation takes an array for a scalar or a scalar for an array.
theorem keepsKinds_of_run [Patterns] (hp : compile source = .ok p) (m : Machine)
    (hm : m.AtRest) (records : List String) :
    (∃ t, (m.run p records).2.history.get = m.history.get ++ t ∧
      (m.toState :: points t).getLast? = some (m.run p records).2.toState ∧
      (m.toState :: points t).IsChain (fun s s' => s.environment.KeepsKinds p s'.environment) ∧
      ∀ past s life later, m.toState :: points t = past ++ s :: (life ++ later) →
        ∀ r, s.environment.isArray r → r ≠ Environment.fieldCount →
          (∀ q ∈ life, r.Below q.depth) → ∀ q ∈ life, q.environment.isArray r) ∧
    (m.run p records).2.AtRest ∧
    ∀ (n : Machine) (x : String) (l : Location),
      (∀ t, n.environment.lookup x = some (.array t) →
        (Run.scalar x l).Refuses l n ∧ ∀ v, (Run.setScalar x v l).Refuses l n) ∧
      (∀ v, n.environment.lookup x = some (.scalar v) →
        (∀ key, (Run.element x key l).Refuses l n) ∧
        (∀ key v, (Run.setElement x key v l).Refuses l n) ∧
        (∀ key, (Run.delete x key l).Refuses l n) ∧
        (∀ key, (Run.hasElement x key l).Refuses l n) ∧ (Run.keys x l).Refuses l n) := by
  have ⟨t, ht, hr⟩ := (yields_run hp hm.frames records).passage
  let P (s : State) : Prop := s.environment.Aligned ∧ s.environment.FieldsScalar
  have hs : P m.toState := ⟨.of_frames_empty hm.frames, hm.fields⟩
  have hstep (s s' : State) (h : s.Moves (Discipline.alignment p).may Environment.Handed s') :
      P s → P s' ∧ s.environment.KeepsKinds p s'.environment := fun hs =>
    ⟨⟨hs.1.step h, hs.2.step hs.1 h⟩, Environment.Step.keepsKinds hs.1 hs.2 h⟩
  have hc := hr.path.isChain hstep hs
  refine ⟨⟨t, ht, hr.path.getLast?_points, hc, ?_⟩, ⟨?_, ?_⟩, fun n x l => ⟨?_, ?_⟩⟩
  case refine_1 =>
    intro past s life later hl r har hn hb
    rw [hl, ← List.cons_append, ← List.append_assoc] at hc
    exact isArray_of_isChain hc.left_of_append.right_of_append har hn hb
  case refine_2 =>
    have hd : m.depth = 0 := congrArg Array.size hm.frames
    exact Array.eq_empty_of_size_eq_zero (hr.level.trans hd)
  case refine_3 => exact (hr.path.keeps (fun s s' h hs => (hstep s s' h hs).1) hs).1.2
  case refine_4 => exact fun _ => Run.refuses_of_array
  case refine_5 => exact fun _ => Run.refuses_of_scalar

theorem Machine.atRest_initial : ({} : Machine).AtRest where
  frames := rfl
  fields x _ := by
    have hs : ∀ q ∈ Environment.initial.globals.entries, q.2.isArray = false := by decide
    exact (Option.any_eq_false ..).mpr fun c hc => by rw [hs (x, c) (Table.mem_of_get? hc)]

theorem Machine.AtRest.assign {m : Machine} (h : m.AtRest) (x value : String) :
    (m.assign x value).AtRest where
  frames := h.frames
  fields y hy := by
    rw [Machine.assign, Environment.isArray_setGlobal]
    split
    case isTrue => rfl
    case isFalse => exact h.fields y hy

-- A scalar is split into, and so is the number of fields, which a record then makes a scalar again.
theorem keepsKinds_of_run_split :
    (({} : Machine).assign "x" "1").AtRest ∧
    ∃ p, compile "BEGIN { split(12, x); split(3, NF) } { x[0] = NF }" = .ok p ∧
      ∃ t, ((({} : Machine).assign "x" "1").run p ["d e"]).2.history.get =
          (({} : Machine).assign "x" "1").history.get ++ t ∧
        ((({} : Machine).assign "x" "1").toState :: points t).IsChain
          (fun s s' => s.environment.KeepsKinds p s'.environment) := by
  have hm := Machine.atRest_initial.assign "x" "1"
  refine ⟨hm, exists_compile ?_ fun p hp => ?_⟩
  · decide +kernel
  · have ⟨⟨t, ht, _, hc, _⟩, _⟩ := keepsKinds_of_run hp _ hm ["d e"]
    exact ⟨t, ht, hc⟩

end Runs

end PatternAction
