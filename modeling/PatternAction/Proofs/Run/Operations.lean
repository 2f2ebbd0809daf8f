import PatternAction.Proofs.Run.Outcomes
import PatternAction.Proofs.Run.Step

namespace PatternAction

namespace Environment

variable {may : Use → String → Prop} {e : Environment} {x key : String} {v : Value}

theorem meets_scalar : Meets (e.scalar x) fun _ => True := by
  unfold scalar
  split
  case h_1 | h_3 => trivial
  case h_2 => rfl

theorem meets_setScalar (hx : may .assigned x) : Meets (e.setScalar x v) (e.Write may) := by
  unfold setScalar
  split
  case h_1 => rfl
  case h_2 hc =>
    refine .scalar hx ?_
    rw [← Bool.not_eq_true, isArray, Option.any_eq_true]
    rintro ⟨_ | t, hl, hc'⟩
    · cases hc'
    · exact hc t hl

theorem meets_array : Meets (e.array x) fun (_, e') =>
    (∀ v, e.lookup x ≠ some (.scalar v)) ∧ (e' = e ∨ e' = e.store x (.array .empty)) := by
  unfold array
  split
  case h_1 hl => exact ⟨by simp [hl], .inl rfl⟩
  case h_2 => rfl
  case h_3 hl => exact ⟨by simp [hl], .inr rfl⟩

theorem meets_element (hx : may .indexed x) :
    Meets (e.element x key) fun (_, e') => e.Write may e' := by
  refine meets_array.bind fun (_, e') ⟨hl, he⟩ => ?_
  rcases he with rfl | rfl
  · exact .same
  · exact .array hx hl

theorem meets_setElement (hx : may .indexed x) :
    Meets (e.setElement x key v) (e.Write may) := by
  refine meets_array.bind fun (t, e') ⟨hl, he⟩ => ?_
  have hs : e'.store x (.array (t.insert key v)) = e.store x (.array (t.insert key v)) := by
    rcases he with rfl | rfl
    · rfl
    · rw [store, resolve_store, store, setCell_setCell, store]
  change e.Write may (e'.store x _)
  exact hs ▸ .array hx hl

theorem meets_delete {key : Option String} (hx : may .indexed x) :
    Meets (e.delete x key) (e.Write may) := by
  unfold delete
  split
  case h_1 hl => exact .array hx (by simp [hl])
  case h_2 => rfl
  case h_3 => exact .same

theorem meets_hasElement : Meets (e.hasElement x key) fun _ => True := by
  unfold hasElement
  split
  case h_1 => trivial
  case h_2 | h_3 => rfl

theorem meets_keys : Meets (e.keys x) fun _ => True := by
  unfold keys
  split
  case h_1 | h_3 => trivial
  case h_2 => rfl

theorem global_dropFields (hx : isFieldName x = false) : e.dropFields.global x = e.global x := by
  have hc : e.dropFields.globals.get? x = e.globals.get? x := by
    rw [dropFields, Table.get?_restrict, hx]
    rfl
  rw [global, global, hc]

theorem meets_global : Meets (e.global x) fun _ => e.isArray ⟨.globals, x⟩ = false := by
  unfold global
  split
  case h_1 hl => simp [Meets, isArray, cell?, hl, Cell.isArray]
  case h_2 => rfl
  case h_3 hl => simp [Meets, isArray, cell?, hl]

theorem isStuck_of_global {c : Fault} (h : e.global x = .error c) : c.isStuck = false := by
  have hm : Meets (e.global x) _ := meets_global
  rwa [h] at hm

theorem meets_fieldName : Meets (fieldName v) fun x => isFieldName x := by
  unfold fieldName
  dsimp only
  split
  case isTrue => rfl
  case isFalse => simp [Meets, isFieldName]

end Environment

namespace Machine

def withEnvironment (m : Machine) (e : Environment) : Machine :=
  m.become { m.toState with environment := e }

def take (m : Machine) (record : String) : Machine :=
  (m.note (.input (.sought (some record)))).become { m.toState with cursor := m.cursor + 1 }

end Machine

namespace Run

section Operations

variable {α : Type} {x key : String} {v : Value} {l : Location} {o : Option Location}

-- An operation that looks at the environment,
def inspect (o : Option Location) (f : Environment → Except Fault α) : Run α := do
  check o (f (← environment))

-- and one that also makes a new one of it.
def operate (o : Option Location) (f : Environment → Except Fault (α × Environment)) : Run α := do
  let (a, e) ← check o (f (← environment))
  setEnvironment e
  return a

theorem inspect_on {f : Environment → Except Fault α} {m : Machine} :
    (inspect o f).on m = ((f m.environment).mapError (.fault · o), m) := by
  have he : environment.on m = (.ok m.environment, m) := rfl
  rw [inspect, on_bind_ok he]
  cases f m.environment <;> rfl

theorem operate_on_error {f : Environment → Except Fault (α × Environment)} {m : Machine}
    {cause : Fault} (h : f m.environment = .error cause) :
    (operate o f).on m = (.error (.fault cause o), m) := by
  have he : environment.on m = (.ok m.environment, m) := rfl
  rw [operate, on_bind_ok he, h]
  rfl

theorem operate_on_ok {f : Environment → Except Fault (α × Environment)} {m : Machine} {a : α}
    {e : Environment} (h : f m.environment = .ok (a, e)) :
    (operate o f).on m = (.ok a, m.withEnvironment e) := by
  have he : environment.on m = (.ok m.environment, m) := rfl
  rw [operate, on_bind_ok he, h]
  rfl

theorem update_eq {g : Environment → Except Fault Environment} :
    (do setEnvironment (← check o (g (← environment)))) = operate o fun e => ((), ·) <$> g e := by
  funext m
  change (environment >>= _).on m = (operate o _).on m
  have he : environment.on m = (.ok m.environment, m) := rfl
  rw [on_bind_ok he]
  cases hg : g m.environment
  case error c => exact (operate_on_error (by rw [hg]; rfl)).symm
  case ok e => exact (operate_on_ok (by rw [hg]; rfl)).symm

theorem setScalar_eq :
    setScalar x v l = operate (some l) fun e => ((), ·) <$> e.setScalar x v :=
  update_eq

theorem setElement_eq :
    setElement x key v l = operate (some l) fun e => ((), ·) <$> e.setElement x key v :=
  update_eq

theorem delete_eq {key : Option String} :
    delete x key l = operate (some l) fun e => ((), ·) <$> e.delete x key :=
  update_eq

end Operations

section Loading

variable {m : Machine}

-- What loading a record comes to: there is none; it is taken, but the counters or its fields cannot
-- be had; or it is loaded.
inductive Loads (m : Machine) : Except Failure Bool × Machine → Prop
  | none      : m.records[m.cursor]? = .none →
                  Loads m (.ok false, m.note (.input (.sought .none)))
  | uncounted : m.records[m.cursor]? = some record → f.isStuck = false →
                  Loads m (.error f, m.take record)
  | unsplit   : m.records[m.cursor]? = some record → f.isStuck = false →
                  Loads m (.error f, (m.take record).withEnvironment m.environment.dropFields)
  | loaded    : m.records[m.cursor]? = some record → m.environment.global "NR" = .ok nr →
                  m.environment.global "FNR" = .ok fnr →
                  e = m.environment.dropFields.setFields record fs →
                  e' = (e.setGlobal "NR" (.ofNumber (nr.number.add (.ofNat 1)))).setGlobal "FNR"
                    (.ofNumber (fnr.number.add (.ofNat 1))) →
                  Loads m (.ok true, ((((m.take record).withEnvironment
                    m.environment.dropFields).withEnvironment e).note
                    (.input (.loaded record))).withEnvironment e')

theorem global_on_error {x : String} {c : Fault} (h : m.environment.global x = .error c) :
    (global x).on m = (.error (.fault c none), m) := by
  rw [show global x = inspect none (·.global x) from rfl, inspect_on, h]
  rfl

theorem global_on_ok {x : String} {v : Value} (h : m.environment.global x = .ok v) :
    (global x).on m = (.ok v, m) := by
  rw [show global x = inspect none (·.global x) from rfl, inspect_on, h]
  rfl

variable [Patterns]

-- The fields there were are gone even if the new ones cannot be had.
theorem setRecord_cases (m : Machine) (record : String) :
    (∃ f, f.isStuck = false ∧ (setRecord record).on m
      = (.error f, m.withEnvironment m.environment.dropFields)) ∨
    ∃ fs fields separators, m.environment.global "FS" = .ok fs ∧
      splitText? record fs.text = some (fields, separators) ∧
      (setRecord record).on m = (.ok (),
        (m.withEnvironment m.environment.dropFields).withEnvironment
          (m.environment.dropFields.setFields record fields)) := by
  let n := m.withEnvironment m.environment.dropFields
  have hd : (setRecord record).on m = (do
      let fs ← global "FS"
      let pieces ← split record fs.text
      setEnvironment ((← environment).setFields record pieces.1) : Run Unit).on n := rfl
  rw [hd]
  cases hg : n.environment.global "FS"
  case error c =>
    exact .inl ⟨.fault c none, Environment.isStuck_of_global hg, on_bind_error (global_on_error hg)⟩
  case ok fs =>
    rw [on_bind_ok (global_on_ok hg)]
    cases hs : splitText? record fs.text
    case none =>
      refine .inl ⟨.badPattern, rfl, on_bind_error ?_⟩
      rw [split, hs]
      rfl
    case some r =>
      obtain ⟨fields, separators⟩ := r
      have hs' : (split record fs.text).on n = (.ok (fields, separators), n) := by
        rw [split, hs]
        rfl
      rw [on_bind_ok hs']
      have hg : m.environment.global "FS" = .ok fs :=
        (Environment.global_dropFields rfl).symm.trans hg
      exact .inr ⟨fs, fields, separators, hg, hs, rfl⟩

theorem loads_loadRecord (m : Machine) : Loads m (loadRecord.on m) := by
  have hg : (get : Run Machine).on m = (.ok m, m) := rfl
  have hi : (input (.sought m.records[m.cursor]?)).on m
      = (.ok (), m.note (.input (.sought m.records[m.cursor]?))) := rfl
  rw [loadRecord, on_bind_ok hg, on_bind_ok hi]
  cases hr : m.records[m.cursor]?
  case none => exact .none hr
  case some record =>
    have hc : (change fun s => { s with cursor := s.cursor + 1 }).on
        (m.note (.input (.sought (some record)))) = (.ok (), m.take record) := rfl
    rw [on_bind_ok hc]
    have hf {x : String} {c : Fault} (h : m.environment.global x = .error c) :
        (Failure.fault c none).isStuck = false :=
      Environment.isStuck_of_global h
    cases hn : m.environment.global "NR"
    case error c =>
      rw [on_bind_error (global_on_error (m := m.take record) hn)]
      exact .uncounted hr (hf hn)
    case ok nr =>
      rw [on_bind_ok (global_on_ok (m := m.take record) hn)]
      cases hfn : m.environment.global "FNR"
      case error c =>
        rw [on_bind_error (global_on_error (m := m.take record) hfn)]
        exact .uncounted hr (hf hfn)
      case ok fnr =>
        rw [on_bind_ok (global_on_ok (m := m.take record) hfn)]
        rcases setRecord_cases (m.take record) record with
          ⟨f, hf, ho⟩ | ⟨_, _, _, _, _, ho⟩
        · rw [on_bind_error ho]
          exact .unsplit hr hf
        · rw [on_bind_ok ho]
          exact .loaded hr hn hfn rfl rfl

end Loading

end Run

end PatternAction
