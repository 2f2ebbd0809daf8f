import Mathlib.Data.List.Chain
import PatternAction.Machine.Run
import PatternAction.Proofs.Run.Step

namespace PatternAction

namespace Machine

variable {m : Machine} {e : Event} {s : State}

@[simp] theorem history_note : (m.note e).history.get = m.history.get ++ [e] := Ghost.get_map ..

@[simp] theorem history_become : (m.become s).history.get = m.history.get ++ [.became s] :=
  Ghost.get_map ..

end Machine

def points (t : List Event) : List State :=
  t.filterMap fun
    | .became s                => some s
    | .evaluated .. | .input _ => none

@[simp] theorem points_append {t u : List Event} : points (t ++ u) = points t ++ points u :=
  List.filterMap_append

theorem split_append {t u past later : List Event} {e : Event} (h : t ++ u = past ++ e :: later) :
    (∃ l, t = past ++ e :: l ∧ later = l ++ u) ∨ ∃ l, past = t ++ l ∧ u = l ++ e :: later := by
  rcases List.append_eq_append_iff.mp h with ⟨l, hl, hu⟩ | ⟨l, hl, hu⟩
  · exact .inr ⟨l, hl, hu⟩
  · cases l
    case nil => exact .inr ⟨[], by simpa using hl.symm, hu.symm⟩
    case cons =>
      cases hu
      exact .inl ⟨_, hl, rfl⟩

theorem split_concat {t past later : List Event} {e e' : Event}
    (h : t ++ [e'] = past ++ e :: later) :
    (∃ l, t = past ++ e :: l ∧ later = l ++ [e']) ∨ past = t ∧ e = e' ∧ later = [] := by
  rcases split_append h with hl | ⟨l, hp, hl⟩
  · exact .inl hl
  · cases l
    case nil =>
      cases hl
      exact .inr ⟨by simpa using hp, rfl, rfl⟩
    case cons => simp at hl

-- Each event of a history is as it should be after those before it.
def Throughout (P : List Event → Event → Prop) (t : List Event) : Prop :=
  ∀ past e later, t = past ++ e :: later → P past e

theorem Throughout.concat {P : List Event → Event → Prop} {t : List Event} {e : Event}
    (h : Throughout P t) (he : P t e) : Throughout P (t ++ [e]) := by
  intro past e' later ht
  rcases split_concat ht with ⟨l, hl, _⟩ | ⟨rfl, rfl, _⟩
  · exact h past e' l hl
  · exact he

-- Events that lead from one state to another by the steps of a relation.
inductive Path (R : State → State → Prop) : State → List Event → State → Prop
  | done      : Path R s [] s
  | became    : R s₁ s₂ → Path R s₂ t s₃ → Path R s₁ (.became s₂ :: t) s₃
  | evaluated : Path R s₁ t s₂ → Path R s₁ (.evaluated c r s s₁ :: t) s₂
  | input     : Path R s₁ t s₂ → Path R s₁ (.input i :: t) s₂

namespace Path

variable {R R' : State → State → Prop} {s₁ s₂ s₃ : State} {t u : List Event}

theorem trans (h₁ : Path R s₁ t s₂) (h₂ : Path R s₂ u s₃) : Path R s₁ (t ++ u) s₃ := by
  induction h₁
  case done => exact h₂
  case became hs _ ih => exact .became hs (ih h₂)
  case evaluated ih => exact .evaluated (ih h₂)
  case input ih => exact .input (ih h₂)

theorem mono (hr : ∀ s s', R s s' → R' s s') (h : Path R s₁ t s₂) : Path R' s₁ t s₂ := by
  induction h
  case done => exact .done
  case became hs _ ih => exact .became (hr _ _ hs) ih
  case evaluated ih => exact .evaluated ih
  case input ih => exact .input ih

theorem keeps {P : State → Prop} (hp : ∀ s s', R s s' → P s → P s') (h : Path R s₁ t s₂)
    (hs : P s₁) : P s₂ ∧ ∀ s ∈ points t, P s := by
  induction h
  case done => exact ⟨hs, fun _ h => nomatch h⟩
  case became h _ ih =>
    have hs := hp _ _ h hs
    exact ⟨(ih hs).1, List.forall_mem_cons.mpr ⟨hs, (ih hs).2⟩⟩
  case evaluated ih | input ih => exact ih hs

theorem isChain {P : State → Prop} {Q : State → State → Prop}
    (hq : ∀ s s', R s s' → P s → P s' ∧ Q s s') (h : Path R s₁ t s₂) (hs : P s₁) :
    (s₁ :: points t).IsChain Q := by
  induction h
  case done => exact .singleton _
  case became h _ ih =>
    have ⟨hp, hl⟩ := hq _ _ h hs
    exact .cons_cons hl (ih hp)
  case evaluated ih | input ih => exact ih hs

theorem getLast?_points (h : Path R s₁ t s₂) : (s₁ :: points t).getLast? = some s₂ := by
  induction h
  case done => rfl
  case became ih => exact List.getLast?_cons_cons.trans ih
  case evaluated ih | input ih => exact ih

theorem after_point {s : State} {past rest : List State} (h : Path R s₁ t s₂)
    (ht : points t = past ++ s :: rest) : ∃ u, Path R s u s₂ ∧ points u = rest := by
  induction h generalizing past
  case done => simp [points] at ht
  case became hp ih =>
    rcases List.cons_eq_append_iff.mp ht with ⟨rfl, hc⟩ | ⟨past', rfl, hc⟩
    · cases hc
      exact ⟨_, hp, rfl⟩
    · exact ih hc
  case evaluated ih | input ih => exact ih ht

theorem before_point {s : State} {mid later : List State} (h : Path R s₁ t s₂)
    (ht : points t = mid ++ s :: later) : ∃ u q, Path R s₁ u q ∧ points u = mid ∧ R q s := by
  induction h generalizing mid
  case done => simp [points] at ht
  case became hr hp ih =>
    rcases List.cons_eq_append_iff.mp ht with ⟨rfl, hc⟩ | ⟨mid', rfl, hc⟩
    · cases hc
      exact ⟨[], _, .done, rfl, hr⟩
    · have ⟨u, q, hu, hm, hq⟩ := ih hc
      exact ⟨_ :: u, q, .became hr hu, congrArg (_ :: ·) hm, hq⟩
  case evaluated ih | input ih => exact ih ht

end Path

-- A path that stays above the calls it began with and ends with just these. The expressions of
-- statements that it evaluates are at least `k` calls further up.
structure Passage (R : State → State → Prop) (k : Nat) (s₁ : State) (t : List Event) (s₂ : State) :
    Prop where
  path    : Path R s₁ t s₂
  above   : ∀ s ∈ points t, s₁.depth ≤ s.depth
  level   : s₂.depth = s₁.depth
  clauses : ∀ c r s s', .evaluated c r s s' ∈ t → s₁.depth + k ≤ s.depth

namespace Passage

variable {R R' : State → State → Prop} {s s₁ s₂ s₃ : State} {t u : List Event} {k : Nat}

theorem done : Passage R k s [] s where
  path := .done
  above _ h := nomatch h
  level := rfl
  clauses _ _ _ _ h := nomatch h

theorem became (h : R s₁ s₂) (hd : s₂.depth = s₁.depth) :
    Passage R k s₁ [.became s₂] s₂ where
  path := .became h .done
  above _ hs := by
    cases List.mem_singleton.mp hs
    exact Nat.le_of_eq hd.symm
  level := hd
  clauses _ _ _ _ h := nomatch List.mem_singleton.mp h

theorem input {i : Input} : Passage R k s [.input i] s where
  path := .input .done
  above _ h := nomatch h
  level := rfl
  clauses _ _ _ _ h := nomatch List.mem_singleton.mp h

theorem trans (h₁ : Passage R k s₁ t s₂) (h₂ : Passage R k s₂ u s₃) :
    Passage R k s₁ (t ++ u) s₃ where
  path := h₁.path.trans h₂.path
  above s hs := by
    rw [points_append, List.mem_append] at hs
    exact hs.elim (h₁.above s) fun hs => h₁.level ▸ h₂.above s hs
  level := h₂.level.trans h₁.level
  clauses c r s s' h := by
    rcases List.mem_append.mp h with h | h
    · exact h₁.clauses c r s s' h
    · exact h₁.level ▸ h₂.clauses c r s s' h

theorem mono {j : Nat} (h : Passage R k s₁ t s₂) (hk : j ≤ k) :
    Passage R j s₁ t s₂ where
  path := h.path
  above := h.above
  level := h.level
  clauses c r s s' hc := Nat.le_trans (Nat.add_le_add_left hk _) (h.clauses c r s s' hc)

theorem imp (hr : ∀ s s', R s s' → R' s s') (h : Passage R k s₁ t s₂) : Passage R' k s₁ t s₂ where
  path := h.path.mono hr
  above := h.above
  level := h.level
  clauses := h.clauses

theorem clause {c : Clause} {r : Except Failure Value} (h : Passage R 1 s₁ t s₂) :
    Passage R 0 s₁ (t ++ [.evaluated c r s₁ s₂]) s₂ := by
  have hd : Passage R 0 s₂ [.evaluated c r s₁ s₂] s₂ := {
    path := .evaluated .done
    above := fun _ h => nomatch h
    level := rfl
    clauses := fun _ _ _ _ hc => by
      cases List.mem_singleton.mp hc
      exact Nat.le_of_eq h.level }
  exact (h.mono (Nat.zero_le 1)).trans hd

theorem call {may : Use → String → Prop} {handed : Environment → Frame → Prop} {f : Frame}
    (hf : handed s₁.environment f)
    (h : Passage (State.Step may handed) 0 (s₁.push f) t s₂) :
    Passage (State.Step may handed) 1 s₁ (.became (s₁.push f) :: (t ++ [.became s₂.pop]))
      s₂.pop := by
  have hd : s₂.depth = s₁.depth + 1 := h.level.trans State.depth_push
  have hl : s₂.pop.depth = s₁.depth := by simp [hd]
  constructor
  case path =>
    have hp : 0 < s₂.depth := hd ▸ Nat.succ_pos _
    exact .became (.environment (.push hf)) (h.path.trans (.became (.environment (.pop hp)) .done))
  case above =>
    intro s hs
    simp only [points, List.filterMap_cons, List.filterMap_append, List.mem_cons, List.mem_append,
      List.filterMap_nil, List.not_mem_nil, or_false] at hs
    rcases hs with rfl | hs | rfl
    · simp
    · have := h.above s hs
      rw [State.depth_push] at this
      omega
    · exact Nat.le_of_eq hl.symm
  case level => exact hl
  case clauses =>
    intro c r s s' hc
    simp only [List.mem_cons, List.mem_append, reduceCtorEq, List.not_mem_nil, false_or,
      or_false] at hc
    exact State.depth_push ▸ h.clauses c r s s' hc

end Passage

end PatternAction
