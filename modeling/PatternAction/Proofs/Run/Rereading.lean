import PatternAction.Proofs.Run.Calls

namespace PatternAction

namespace Environment

def elementValue (e : Environment) (x key : String) : Except Fault Value :=
  Prod.fst <$> e.element x key

-- How writes under one name are read under another one.
structure ReadsBack (e : Environment) : Prop where
  element   : ∀ x k v e', e.setElement x k v = .ok e' → ∀ y j, e'.elementValue y j =
                if e.resolve y = e.resolve x ∧ j = k then .ok v else e.elementValue y j
  scalar    : ∀ x v e', e.setScalar x v = .ok e' → ∀ y, e'.scalar y =
                if e.resolve y = e.resolve x then .ok v else e.scalar y
  deleteOne : ∀ x k e', e.delete x (some k) = .ok e' → (e.lookup x).isSome →
                ∀ y j, e'.hasElement y j =
                  if e.resolve y = e.resolve x ∧ j = k then .ok false else e.hasElement y j
  deleteAll : ∀ x e', e.delete x none = .ok e' → (e.lookup x).isSome →
                ∀ y j, e'.hasElement y j =
                  if e.resolve y = e.resolve x then .ok false else e.hasElement y j
  resolve   : ∀ x e', (∃ k v, e.setElement x k v = .ok e') ∨ (∃ v, e.setScalar x v = .ok e') ∨
                (∃ key, e.delete x key = .ok e') → ∀ y, e'.resolve y = e.resolve y

section Reads

variable {e e' : Environment} {x y key : String}

theorem scalar_congr (h : e'.lookup y = e.lookup y) : e'.scalar y = e.scalar y := by
  rw [scalar, scalar, h]

theorem hasElement_congr (h : e'.lookup y = e.lookup y) :
    e'.hasElement y key = e.hasElement y key := by
  rw [hasElement, hasElement, h]

theorem elementValue_eq : e.elementValue y key =
    match e.lookup y with
    | some (.array t)  => .ok ((t.get? key).getD .unset)
    | some (.scalar _) => .error (.scalarAsArray y)
    | none             => .ok .unset := by
  rw [elementValue, element, array]
  rcases e.lookup y with _ | (_ | _)
  all_goals rfl

theorem elementValue_congr (h : e'.lookup y = e.lookup y) :
    e'.elementValue y key = e.elementValue y key := by
  rw [elementValue_eq, elementValue_eq, h]

end Reads

section Writes

variable {e e' : Environment} {x y k : String} {v : Value} {c : Cell}

theorem lookup_congr (h : e.resolve y = e.resolve x) : e.lookup y = e.lookup x := by
  rw [lookup, lookup, h]

theorem Aligned.lookup_store (h : e.Aligned) :
    (e.store x c).lookup y = if e.resolve y = e.resolve x then some c else e.lookup y := by
  rw [lookup, h.alike_store.resolve, store]
  split
  case isTrue hy => rw [hy, cell?_setCell_self (h.below_resolve x)]
  case isFalse hy => exact cell?_setCell_of_ne hy

theorem setScalar_eq_ok (h : e.setScalar x v = .ok e') : e' = e.store x (.scalar v) := by
  rw [setScalar] at h
  split at h
  case h_1 => cases h
  case h_2 => exact (Except.ok.inj h).symm

theorem setElement_eq_ok (h : e.setElement x k v = .ok e') :
    ∃ t : Table Value, e' = e.store x (.array (t.insert k v)) ∧
      (e.lookup x = some (.array t) ∨ e.lookup x = none ∧ t = .empty) := by
  rw [setElement, array] at h
  rcases hl : e.lookup x with _ | (w | t)
  all_goals rw [hl] at h
  case none =>
    cases h
    refine ⟨.empty, ?_, .inr ⟨rfl, rfl⟩⟩
    rw [store, resolve_store, store, setCell_setCell, store]
  case some.scalar => cases h
  case some.array =>
    cases h
    exact ⟨t, rfl, .inl rfl⟩

theorem delete_eq_ok {key : Option String} (h : e.delete x key = .ok e') :
    (∃ t, e.lookup x = some (.array t) ∧ e' = e.store x (.array (key.elim .empty t.erase))) ∨
      e.lookup x = none ∧ e' = e := by
  rw [delete] at h
  split at h
  case h_1 t ht =>
    cases h
    refine .inl ⟨t, ht, ?_⟩
    cases key <;> rfl
  case h_2 => cases h
  case h_3 hl =>
    cases h
    exact .inr ⟨hl, rfl⟩

theorem delete_eq_ok_of_isSome {key : Option String} (h : e.delete x key = .ok e')
    (hx : (e.lookup x).isSome) :
    ∃ t, e.lookup x = some (.array t) ∧ e' = e.store x (.array (key.elim .empty t.erase)) := by
  rcases delete_eq_ok h with h | ⟨hl, _⟩
  · exact h
  · rw [hl] at hx
    cases hx

end Writes

theorem Aligned.readsBack {e : Environment} (h : e.Aligned) : e.ReadsBack where
  element x k v e' he y j := by
    obtain ⟨t, rfl, ht⟩ := setElement_eq_ok he
    by_cases hy : e.resolve y = e.resolve x
    case neg =>
      rw [if_neg fun hn => hy hn.1]
      exact elementValue_congr (h.lookup_store.trans (if_neg hy))
    case pos =>
      -- What was read before was in the same array, if there was one.
      have hb : e.elementValue y j = .ok ((t.get? j).getD .unset) := by
        rw [elementValue_eq, lookup_congr hy]
        rcases ht with ht | ⟨ht, rfl⟩
        all_goals
          rw [ht]
        rfl
      rw [elementValue_eq, h.lookup_store, if_pos hy, hb]
      simp only [hy, true_and, Table.get?_insert]
      split <;> rfl
  scalar x v e' he y := by
    obtain rfl := setScalar_eq_ok he
    split
    case isTrue hy => rw [Environment.scalar, h.lookup_store, if_pos hy]
    case isFalse hy => exact scalar_congr (h.lookup_store.trans (if_neg hy))
  deleteOne x k e' he hx y j := by
    obtain ⟨t, ht, rfl⟩ := delete_eq_ok_of_isSome he hx
    by_cases hy : e.resolve y = e.resolve x
    case neg =>
      rw [if_neg fun hn => hy hn.1]
      exact hasElement_congr (h.lookup_store.trans (if_neg hy))
    case pos =>
      have hb : e.hasElement y j = .ok (t.contains j) := by rw [hasElement, lookup_congr hy, ht]
      rw [hasElement, h.lookup_store, if_pos hy, hb]
      simp only [hy, true_and, Option.elim_some, Table.contains, Table.get?_erase]
      split <;> rfl
  deleteAll x e' he hx y j := by
    obtain ⟨t, _, rfl⟩ := delete_eq_ok_of_isSome he hx
    split
    case isTrue hy =>
      rw [hasElement, h.lookup_store, if_pos hy]
      rfl
    case isFalse hy => exact hasElement_congr (h.lookup_store.trans (if_neg hy))
  resolve x e' he y := by
    rcases he with ⟨k, v, he⟩ | ⟨v, he⟩ | ⟨key, he⟩
    · obtain ⟨_, rfl, _⟩ := setElement_eq_ok he
      exact h.alike_store.resolve y
    · obtain rfl := setScalar_eq_ok he
      exact h.alike_store.resolve y
    · rcases delete_eq_ok he with ⟨_, _, rfl⟩ | ⟨_, rfl⟩
      · exact h.alike_store.resolve y
      · rfl

end Environment

-- A state that a program is in at some point: between two runs, or in the middle of one.
inductive State.Reachable [Patterns] : State → Prop
  | between : s.environment.frames = #[] → Reachable s
  | during  : compile source = .ok p → m.environment.frames = #[] →
                (Machine.run m p inputs).2.history.get = m.history.get ++ t → s ∈ points t →
                Reachable s

theorem State.Reachable.aligned [Patterns] {s : State} (hs : s.Reachable) :
    s.environment.Aligned := by
  cases hs
  case between h => exact .of_frames_empty h
  case during source p m inputs t hp hm ht hs =>
    obtain ⟨u, hu, ha⟩ := (yields_run hp hm inputs).passage
    rw [ht] at hu
    obtain rfl := List.append_cancel_left hu
    have hm : (Discipline.alignment p).Sound m.environment := .of_frames_empty hm
    exact (Discipline.sound_of_path hm ha.path).2 s hs

-- At every point of every run, what is written under a name is read under all names that mean the
-- same cell, and what other names read is as it was. No write changes what a name means.
theorem readsBack_of_reachable [Patterns] {s : State} (hs : s.Reachable) :
    s.environment.ReadsBack := hs.aligned.readsBack

-- An array is handed down twice, so that three names mean it, while a local hides a global.
theorem readsBack_of_reachable_handing_down :
    ∃ p, compile "function f(a, n) g(a, a); function g(b, n) b[n[0]] = 1; BEGIN { x[0]; f(x, n) }"
        = .ok p ∧
      ∃ t, (({} : Machine).run p []).2.history.get = ({} : Machine).history.get ++ t ∧
        ∀ s ∈ points t, s.environment.ReadsBack := by
  refine exists_compile ?_ fun p hp => ?_
  · decide +kernel
  · obtain ⟨t, ht, _⟩ := (yields_run (m := {}) hp rfl []).passage
    exact ⟨t, ht, fun s hs => readsBack_of_reachable (.during hp rfl ht hs)⟩

end PatternAction
