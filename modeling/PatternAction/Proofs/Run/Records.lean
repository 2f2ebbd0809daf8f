import PatternAction.Proofs.Run.Calls
import PatternAction.Proofs.Run.Tally

namespace PatternAction

namespace Run

theorem Loads.cursor {loaded : Bool} {m m' : Machine} (h : Loads m (.ok loaded, m')) :
    if loaded then m'.cursor = m.cursor + 1 else m'.records.size ≤ m'.cursor := by
  cases h
  case none hr => exact Array.getElem?_eq_none_iff.mp hr
  case loaded => rfl

namespace Tallies

variable {base t : List Event} {lines : List String} {p : Program} {n k : Nat} {m m' : Machine}
variable [Patterns]

-- What every expression and every statement does to the input.
def logic (base : List Event) {lines : List String} (h : lines.length ≤ 2 ^ 53) : Logic where
  may                 := spares
  Holds _ _ x         := Tallies base lines (fun _ => True) x
  holds_pure          := pure trivial
  holds_throw _       := throw
  holds_bind hx hq hf := (hx.gives hq).bind hf
  holds_lower hx      := hx
  holds_clause hx     := hx.clause
  holds_call hx hb    := (of_binds hx fun _ _ hr => nomatch hr).bind fun _ hf => hb.withFrame hf
  holds_inspect _     := inspect
  holds_operate       := operate
  holds_isHalted      := still (fun _ => rfl) fun _ _ _ => trivial
  holds_write         := change (fun _ => rfl) (fun _ => rfl) fun _ => rfl
  holds_halt          := change (fun _ => rfl) (fun _ => rfl) fun _ => rfl
  holds_exit          := exit
  holds_loadRecord    := loadRecord h
  holds_skipRecords   := skipRecords

section

variable (hlines : lines.length ≤ 2 ^ 53) (hp : Permits spares p.uses)
include hlines hp

theorem drained_eachRecord (hk : lines.length ≤ m.cursor + k) (h : Ledger base lines t m)
    (ht : takes t = loads t) (ho : (eachRecord p n k).on m = (.ok (), m')) :
    m'.halted = true ∨ m'.cursor = lines.length := by
  induction k generalizing t m
  case zero =>
    cases ho
    exact .inr (Nat.le_antisymm h.present.bounded hk)
  case succ k ih =>
    obtain ⟨loaded, m₁, hl, ho⟩ := on_bind_eq_ok ho
    obtain ⟨u, h₁, ht₁, _⟩ := (loadRecord hlines).ok h ht hl
    have hc : Loads m _ := loads_loadRecord m
    rw [hl] at hc
    replace hc := hc.cursor
    cases loaded
    case false =>
      cases ho
      rw [h₁.present.records] at hc
      exact .inr (Nat.le_antisymm h₁.present.bounded hc)
    case true =>
      obtain ⟨_, m₂, hr, ho⟩ := on_bind_eq_ok ho
      obtain ⟨v, h₂, ht₂, _⟩ := ok ((logic base hlines).holds_everyRule hp) h₁ ht₁ hr
      replace ho := guard_on.symm.trans ho
      split at ho
      case isTrue hm =>
        cases ho
        exact .inl hm
      case isFalse =>
        have hc : m₁.cursor = m.cursor + 1 := hc
        have hc₂ : m₁.cursor ≤ m₂.cursor := h₁.present.cursor_le h₂.present
        exact ih (by omega) h₂ ht₂ ho

theorem drained_toEnd (h : Ledger base lines t m) (ht : takes t = loads t)
    (ho : (toEnd p n lines.length).on m = (.ok (), m')) :
    m'.halted = true ∨ m'.cursor = lines.length := by
  obtain ⟨_, m₁, hb, ho⟩ := on_bind_eq_ok ho
  obtain ⟨u, h₁, ht₁, _⟩ := ok ((logic base hlines).holds_begins hp) h ht hb
  replace ho := guard_on.symm.trans ho
  split at ho
  case isTrue hm =>
    cases ho
    exact .inl hm
  case isFalse =>
    exact drained_eachRecord hlines hp (Nat.le_add_left ..) h₁ ht₁ ho

theorem fromEnd : Tallies base lines (fun _ => True) (fromEnd p n) :=
  .bind (.change (fun _ => rfl) (fun _ => rfl) fun _ => rfl) fun _ _ =>
    (logic base hlines).holds_ends hp

theorem takes_of_ok {u : List Event} (h : Ledger base lines t m) (ht : takes t = loads t)
    (ho : (do toEnd p n lines.length; Run.fromEnd p n : Run Unit).on m = (.ok (), m'))
    (h' : Ledger base lines (t ++ u) m') (hh : ∀ s ∈ points (t ++ u), s.halted = false)
    (hs : .input .skipped ∉ t ++ u) : takes (t ++ u) = lines := by
  obtain ⟨_, m₁, ho₁, ho₂⟩ := on_bind_eq_ok ho
  obtain ⟨u₁, h₁, ht₁, _⟩ := ok ((logic base hlines).holds_toEnd hp) h ht ho₁
  obtain ⟨u₂, h₂, _, _⟩ := (fromEnd hlines hp).ok h₁ ht₁ ho₂
  have hu : t ++ u = t ++ u₁ ++ u₂ := List.append_cancel_left (h'.history.symm.trans h₂.history)
  have hc : m₁.cursor = lines.length := by
    refine (drained_toEnd hlines hp h ht ho₁).resolve_left fun hm => ?_
    obtain ⟨s, hs, hm⟩ := h₁.halts hm
    have hp : s ∈ points (t ++ u) := by
      rw [hu, points_append]
      exact List.mem_append_left _ hs
    rw [hh s hp] at hm
    cases hm
  have hl : m₁.cursor ≤ m'.cursor := h₁.present.cursor_le h₂.present
  rw [h'.present.taken hs, List.take_of_length_le (hc ▸ hl)]

end

end Tallies

end Run

-- A machine that has counted nothing and is not in a call.
structure Machine.Fresh (m : Machine) : Prop where
  frames : m.environment.frames = #[]
  counts : ∀ r ∈ Environment.counters, m.environment.cell? r = some (.scalar ⟨"0"⟩)

theorem Machine.fresh_initial : ({} : Machine).Fresh where
  frames := rfl
  counts := List.forall_mem_cons.mpr ⟨rfl, List.forall_mem_singleton.mpr rfl⟩

theorem Machine.Fresh.ledger {m : Machine} (h : m.Fresh) (lines : List String) :
    Ledger m.history.get lines [.became (m.start lines).toState] (m.start lines) := by
  have hs : Tally lines [] (m.start lines).toState := {
    records := rfl
    counted := ⟨h.counts, fun i f (hf : m.environment.frames[i]? = some f) => by
      rw [h.frames] at hf
      cases hf⟩
    bounded := Nat.zero_le _
    order   := List.nil_prefix
    taken _ := rfl
    loaded  := .inl rfl
    skipped _ _ hs := by simp at hs }
  exact {
    history := history_become
    past    := Throughout.concat (t := []) (fun _ _ _ ht => by simp at ht) hs
    present := hs.concat (t := []) rfl
    halts hm := ⟨_, .head [], hm⟩ }

-- A run takes the records in order, each once, and its counters hold how many were loaded, wherever
-- they were. If it ends well without an exit, and no records were passed over, all were loaded.
theorem tallied_of_run [Patterns] (p : Program) (lines : List String) (m : Machine) (hm : m.Fresh)
    (hp : ∀ x ∈ ["NR", "FNR"], (.assigned, x) ∉ p.uses ∧ (.split, x) ∉ p.uses)
    (hlines : lines.length < 10 ^ 15) :
    ∃ t, (m.run p lines).2.history.get = m.history.get ++ t ∧
      Throughout (InOrder lines) t ∧ Tally lines t (m.run p lines).2.toState ∧
      ∀ code, (m.run p lines).1 = .ok code → takes t = loads t ∧
        ((∀ s ∈ points t, s.halted = false) → .input .skipped ∉ t → loads t = lines ∧
          (m.run p lines).2.environment.Counts lines.length) := by
  have hlines : lines.length ≤ 2 ^ 53 := by omega
  have hp : Permits spares p.uses := fun (u, x) hu hx => by
    have hn (y : String) (hy : y ∈ ["NR", "FNR"]) : x ≠ y := by
      rintro rfl
      rcases hx with rfl | rfl
      · exact (hp x hy).1 hu
      · exact (hp x hy).2 hu
    exact ⟨hn "NR" (by simp), hn "FNR" (by simp)⟩
  have h := hm.ledger lines
  have hx : Run.Tallies m.history.get lines (fun _ => True) (do
      Run.toEnd p Machine.stepLimit lines.length
      Run.fromEnd p Machine.stepLimit) :=
    .bind ((Run.Tallies.logic _ hlines).holds_toEnd hp) fun _ _ => .fromEnd hlines hp
  obtain ⟨u, hu, hr⟩ := hx _ _ h rfl
  rw [Machine.run_eq]
  refine ⟨_, hu.history, hu.past, hu.present, fun code hc => ?_⟩
  have ho := Run.ok_of_report hc
  have ht := (hr () ho).1
  refine ⟨ht, fun hh hs => ?_⟩
  have hl : loads _ = lines :=
    ht.symm.trans (Run.Tallies.takes_of_ok hlines hp h rfl (Prod.ext ho rfl) hu hh hs)
  exact ⟨hl, hl ▸ hu.present.counted⟩

-- The loop takes a record, a function the next one, and the rules go on with that.
theorem tallied_of_run_twice :
    ({} : Machine).Fresh ∧
    ∃ p, compile "function more() { getline } NR == 1 { more() } { n = NR }" = .ok p ∧
      (∀ x ∈ ["NR", "FNR"], (.assigned, x) ∉ p.uses ∧ (.split, x) ∉ p.uses) ∧
      ∃ t, (({} : Machine).run p ["a", "b", "c"]).2.history.get = ({} : Machine).history.get ++ t ∧
        Tally ["a", "b", "c"] t (({} : Machine).run p ["a", "b", "c"]).2.toState ∧
        ∃ code, (({} : Machine).run p ["a", "b", "c"]).1 = .ok code ∧ takes t = loads t := by
  have hc : ∀ p ∈ (compile "function more() { getline } NR == 1 { more() } { n = NR }").toOption,
      (∀ x ∈ ["NR", "FNR"], (.assigned, x) ∉ p.uses ∧ (.split, x) ∉ p.uses) ∧
        (({} : Machine).run p ["a", "b", "c"]).1.isOk := by decide +kernel
  refine ⟨Machine.fresh_initial, exists_compile ?_ fun p hp => ?_⟩
  case refine_1 => decide +kernel
  case refine_2 =>
    obtain ⟨hu, ho⟩ := hc p (hp ▸ rfl)
    have ⟨t, ht, _, hs, hr⟩ := tallied_of_run p ["a", "b", "c"] {} Machine.fresh_initial hu
      (by decide)
    cases hc : (({} : Machine).run p ["a", "b", "c"]).1
    case error => simp [hc, Except.isOk, Except.toBool] at ho
    case ok code => exact ⟨hu, t, ht, hs, code, rfl, (hr code hc).1⟩

end PatternAction
