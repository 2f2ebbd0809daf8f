import PatternAction.Pattern.Matching
import PatternAction.Proofs.Run.Discipline
import PatternAction.Proofs.Run.Isolation
import PatternAction.Proofs.Syntax.Names

namespace PatternAction

variable {may : Use → String → Prop}

namespace Environment

theorem evolves_of_path {a : Environment} {s s' : State} {t : List Event} (ha : a.Aligned)
    (hs : s.environment.Aligned) (h : a.Evolves s.environment)
    (hp : Path (State.Moves may Handed) s t s') (ht : ∀ q ∈ points t, a.depth ≤ q.depth) :
    a.Evolves s'.environment := by
  induction hp
  case done => exact h
  case became hm _ ih =>
    obtain ⟨hd, ht⟩ := List.forall_mem_cons.mp ht
    exact ih (hs.step hm) (h.step ha hs hm hd) ht
  case evaluated ih | input ih => exact ih hs h ht

theorem Shared.of_isArray {e : Environment} {x : String} (he : e.Aligned)
    (hx : isFieldName x = false) (h : e.isArray (e.resolve x)) : e.Shared (e.resolve x) where
  plain := he.plain_resolve hx
  bound := by
    obtain ⟨_, hc, _⟩ := (Option.any_eq_true ..).mp h
    rw [hc]
    rfl
  array _ := h

end Environment

namespace Discipline

def alignment (p : Program) : Discipline where
  may u x := (u, x) ∈ p.uses ∧ Environment.isFieldName x = false
  Sound := Environment.Aligned
  Handed := Environment.Handed
  step := Environment.Aligned.step
  empty := fun _ _ h => nomatch h
  scalar := fun h => h
  array {e f x y} he hy ha hf z r hz := by
    rw [Table.get?_insert] at hz
    split at hz
    case isTrue =>
      cases hz
      exact ⟨⟨y, rfl⟩, .of_isArray he hy.2 ha⟩
    case isFalse => exact hf z r hz
  stable {s s' k t f} hs hp hf := by
    have hm := hp.path.mono fun _ _ => State.Step.moves
    exact (Environment.evolves_of_path hs hs (.refl _) hm hp.above).handed hp.level hs hf

end Discipline

section Runs

theorem exists_compile {source : String} {P : Program → Prop} (h : (compile source).isOk)
    (hp : ∀ p, compile source = .ok p → P p) : ∃ p, compile source = .ok p ∧ P p := by
  cases hc : compile source
  all_goals rw [hc] at h
  case error => cases h
  case ok p => exact ⟨p, rfl, hp p hc⟩

variable {source : String} {p : Program}

theorem permits_of_compile [Patterns] (hp : compile source = .ok p) :
    (Discipline.alignment p).logic.Permits p.uses := fun q hq => by
  have h := Program.permits_of_usesOnly (usesOnly_of_compile hp) q hq
  exact ⟨hq, by simpa using h⟩

theorem yields_run [Patterns] (hp : compile source = .ok p) {m : Machine}
    (hm : m.environment.frames = #[]) (records : List String) :
    Yields (State.Moves (Discipline.alignment p).may Environment.Handed) 0 m (m.run p records) :=
  Run.Tracks.program (permits_of_compile hp) m (Environment.Aligned.of_frames_empty hm)

-- A run goes through sound environments only, whatever it is given and however it ends. No name
-- leads to a frame that is not there, no argument is missing, and every expression, statement and
-- call ends with the frames that it began with.
theorem aligned_of_run [Patterns] (hp : compile source = .ok p) (m : Machine)
    (hm : m.environment.frames = #[]) (records : List String) :
    (∃ t, (m.run p records).2.history.get = m.history.get ++ t ∧
      ∀ s ∈ points t, s.environment.Aligned ∧
        ∀ x, (s.environment.resolve x).Below s.environment.frames.size) ∧
    (∀ f, (m.run p records).1 = .error f → f.isStuck = false) ∧
    ∀ (n : Nat) (m : Machine),
      (∀ e, ((Run.eval p n e).on m).2.depth = m.depth) ∧
      (∀ s, ((Run.statement p n s).on m).2.depth = m.depth) ∧
      ∀ f args l, ((Run.call p n f args l).on m).2.depth = m.depth := by
  have hr := yields_run hp hm records
  have hm : (Discipline.alignment p).Sound m.environment := Environment.Aligned.of_frames_empty hm
  have ⟨t, ht, ha⟩ := hr.passage
  refine ⟨⟨t, ht, fun s hs => ?_⟩, hr.failure, fun n m => ?_⟩
  case refine_1 =>
    have hs := (Discipline.sound_of_path hm ha.path).2 s hs
    exact ⟨hs, Environment.Aligned.below_resolve hs⟩
  case refine_2 =>
    have hf := Discipline.covers_free p n
    have hl {α : Type} {k : Nat} {x : Run α} (hx : Run.Keeps .free k x) :
        (x.on m).2.depth = m.depth :=
      have ⟨_, _, ha⟩ := (hx m trivial).passage
      ha.level
    refine ⟨fun e => hl (Run.keeps_eval e), fun s => ?_, fun f args l => ?_⟩
    · exact hl (hf.statement s Discipline.permits_free)
    · exact hl (hf.call f args l Discipline.permits_free Discipline.permits_free
        Discipline.permits_free)

-- A call hands an array down to another one, which empties it.
theorem aligned_of_run_handing_down :
    ∃ p, compile "function f(a) g(a); function g(b) delete b; BEGIN x[0]; BEGIN f(x)" = .ok p ∧
      ∃ t, (({} : Machine).run p []).2.history.get = ({} : Machine).history.get ++ t ∧
        ∀ s ∈ points t, s.environment.Aligned ∧
          ∀ x, (s.environment.resolve x).Below s.environment.frames.size := by
  refine exists_compile ?_ fun p hp => (aligned_of_run hp {} rfl []).1
  decide +kernel

-- While a call is under way and when it ends, all calls below it are as they were.
theorem isolated_of_run [Patterns] (hp : compile source = .ok p) (m : Machine)
    (hm : m.environment.frames = #[]) (records : List String) :
    ∃ t, (m.run p records).2.history.get = m.history.get ++ t ∧
      ∀ (past : List State) (s : State) (mid : List State) (s' : State) (later : List State),
        points t = past ++ s :: (mid ++ s' :: later) → (∀ q ∈ mid, s.depth ≤ q.depth) →
          s.environment.Isolated s'.environment := by
  have hr := yields_run hp hm records
  have hm : (Discipline.alignment p).Sound m.environment := Environment.Aligned.of_frames_empty hm
  have ⟨t, ht, ha⟩ := hr.passage
  refine ⟨t, ht, fun past s mid s' later hs hd => ?_⟩
  have hall := (Discipline.sound_of_path hm ha.path).2
  have hsa : s.environment.Aligned := hall s (hs ▸ by simp)
  have ⟨u, hu, hpu⟩ := ha.path.after_point hs
  have ⟨v, q, hv, hpv, hq⟩ := hu.before_point hpu
  have he := Environment.evolves_of_path hsa hsa (.refl _) hv (hpv ▸ hd)
  exact he.isolated_step hsa (Discipline.sound_of_path hsa hv).1 hq

theorem isolated_of_run_handing_down :
    ∃ p, compile "function f(a, n) g(a); function g(b) b[n = 1] = 2; BEGIN x[0]; BEGIN f(x, 5)"
        = .ok p ∧
      ∃ t, (({} : Machine).run p []).2.history.get = ({} : Machine).history.get ++ t ∧
        ∀ (past : List State) (s : State) (mid : List State) (s' : State) (later : List State),
          points t = past ++ s :: (mid ++ s' :: later) → (∀ q ∈ mid, s.depth ≤ q.depth) →
            s.environment.Isolated s'.environment := by
  refine exists_compile ?_ fun p hp => isolated_of_run hp {} rfl []
  decide +kernel

end Runs

end PatternAction
