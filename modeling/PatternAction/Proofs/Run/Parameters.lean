import PatternAction.Proofs.Run.Calls
import PatternAction.Proofs.Run.Simulation

namespace PatternAction

namespace Run.Mirrors

variable [Patterns] {p p' : Program} (hp : p.Renamed p') {n : Nat}
include hp

theorem block (b : Block) : Mirrors [] Eq (block p n b) (block p' n b) := by
  have h := (simulates hp n).block [] b (b.all_of_forall Expr.isNamed_refl Stmt.isNamed_refl)
  rwa [show (Renaming.top []).map = id from rfl, Block.rename_id] at h

theorem eval (e : Expr) : Mirrors [] Eq (eval p n e) (eval p' n e) := by
  have h := (simulates hp n).eval [] e (e.all_of_forall Expr.isNamed_refl)
  rwa [show (Renaming.top []).map = id from rfl, Expr.rename_id] at h

theorem blocks (bs : List Block) : Mirrors [] Eq (blocks p n bs) (blocks p' n bs) := by
  induction bs
  case nil => exact pure rfl
  case cons b _ ih => exact (block hp b).andThen fun _ => guard ih

theorem applies (test : Option Expr) : Mirrors [] Eq (applies p n test) (applies p' n test) := by
  unfold Run.applies
  split
  case h_1 => exact pure rfl
  case h_2 => exact field.andThen fun _ => pattern.andThen fun _ => pure rfl
  case h_3 => exact (eval hp _).andThen fun _ => pure rfl

theorem rules (rs : List Rule) : Mirrors [] Eq (rules p n rs) (rules p' n rs) := by
  induction rs
  case nil => exact pure rfl
  case cons r _ ih =>
    refine (applies hp r.condition).andThen fun applies => ?_
    cases applies
    case true => exact (block hp r.action).andThen fun _ => guard ih
    case false => exact guard ih

theorem eachRecord (k : Nat) : Mirrors [] Eq (eachRecord p n k) (eachRecord p' n k) := by
  induction k
  case zero => exact pure rfl
  case succ ih =>
    refine loadRecord.andThen fun loaded => ?_
    cases loaded
    case false => exact pure rfl
    case true =>
      rw [hp.rules]
      exact (rules hp p.rules).andThen fun _ => guard ih

theorem program (records : List String) :
    Mirrors [] Eq (program p n records) (program p' n records) := by
  unfold Run.program
  rw [hp.begins, hp.ends]
  have he : Mirrors [] Eq
      (do Run.change fun s => { s with halted := false }
          Run.blocks p n p.ends
          return (← MonadState.get).exitCode)
      (do Run.change fun s => { s with halted := false }
          Run.blocks p' n p.ends
          return (← MonadState.get).exitCode) := by
    refine (change fun _ _ => rfl).andThen fun _ => (blocks hp p.ends).andThen fun _ => ?_
    exact get.bind fun _ _ hm => pure hm.exitCode.symm
  refine (change fun _ _ => rfl).andThen fun _ => (blocks hp p.begins).andThen fun _ => ?_
  refine isHalted.andThen fun halted => ?_
  cases halted
  case true => exact he
  case false => exact (eachRecord hp _).andThen fun _ => he

end Run.Mirrors

theorem Program.Renamed.run [Patterns] {p p' : Program} (hp : p.Renamed p') {m : Machine}
    (hm : m.environment.frames = #[]) (records : List String) :
    Agree Failure.unnamed Eq (m.run p records).1 (m.run p' records).1 ∧
      (m.run p' records).2.toState = (m.run p records).2.toState :=
  have hs := State.Renamed.nil_iff.mpr ⟨hm, rfl⟩
  have ⟨ha, hs⟩ := Run.Mirrors.program hp records m m hs
  ⟨ha, (State.Renamed.nil_iff.mp hs).2⟩

namespace Function

variable {f : Function} {ρ : String → String}

def parameters (f : Function) : List String := f.params.filterMap Expr.plainName?

-- Gives the parameters other names wherever they are used.
def renameParameters (ρ : String → String) (f : Function) : Function :=
  f.rename fun x => if x ∈ f.parameters then ρ x else x

-- The new names of the parameters differ from each other and from all other variables. A parameter
-- may get the name of another one.
def Admits (f : Function) (ρ : String → String) : Prop :=
  (∀ x ∈ f.parameters, ∀ y ∈ f.parameters, ρ x = ρ y → x = y) ∧
    f.usesOnly fun x => x ∈ f.parameters ∨ x ∉ f.parameters.map ρ

instance : Decidable (f.Admits ρ) := inferInstanceAs (Decidable (_ ∧ _))

namespace Admits

def toRenaming (h : f.Admits ρ) : Renaming where
  map x := if x ∈ f.parameters then ρ x else x
  domain x := x ∈ f.parameters ∨ x ∉ f.parameters.map ρ
  injective x y hx hy hxy := by
    simp only [decide_eq_true_eq] at hx hy
    split at hxy <;> split at hxy
    case isTrue.isTrue hx' hy' => exact h.1 x hx' y hy' hxy
    case isTrue.isFalse hx' hy' =>
      exact absurd (hxy ▸ List.mem_map_of_mem hx') (hy.resolve_left hy')
    case isFalse.isTrue hx' hy' =>
      exact absurd (hxy ▸ List.mem_map_of_mem hy') (hx.resolve_left hx')
    case isFalse.isFalse => exact hxy

theorem renamed (h : f.Admits ρ) : f.Renamed h.toRenaming (f.renameParameters ρ) where
  eq := rfl
  uses := h.2
  params x _ hx := by
    have hx : x ∈ f.parameters := by
      by_contra hn
      exact hx (if_neg hn)
    exact List.mem_filterMap.mp hx

end Admits

end Function

variable {p : Program} {fs gs : List Function} {f : Function} {ρ : String → String}

-- A function with other names for its parameters does what it did before, in every program and on
-- every input. Only the names of variables in the texts of faults may differ.
theorem run_renameParameters [Patterns] (hp : p.functions = fs ++ f :: gs) (hf : f.Admits ρ)
    (m : Machine) (hm : m.environment.frames = #[]) (records : List String) :
    let p' := { p with functions := fs ++ f.renameParameters ρ :: gs }
    (m.run p' records).1.mapError Failure.unnamed = (m.run p records).1.mapError Failure.unnamed ∧
      (m.run p' records).2.toState = (m.run p records).2.toState := by
  intro p'
  have hr (fs : List Function) : List.Forall₂ (fun f f' => ∃ σ, f.Renamed σ f') fs fs :=
    List.forall₂_same.mpr fun f _ => ⟨_, .refl f⟩
  have hp : p.Renamed p' :=
    ⟨rfl, rfl, rfl, hp ▸ List.rel_append (hr fs)
      (.cons ⟨_, hf.renamed⟩ (hr gs))⟩
  have ⟨ha, hs⟩ := hp.run hm records
  exact ⟨ha.mapError_eq, hs⟩

-- A call fills an array that it was handed and then takes it for a scalar, and its two parameters
-- change their names with each other.
theorem run_renameParameters_exchanged :
    ∃ p f, compile "function f(a, n) { a[n] = n; n = a } BEGIN { x[0]; f(x, 2) }" = .ok p ∧
      p.functions = [f] ∧ f.Admits (fun x => if x = "a" then "n" else "a") ∧
      let p' := { p with functions := [f.renameParameters fun x => if x = "a" then "n" else "a"] }
      (({} : Machine).run p' []).1.mapError Failure.unnamed =
          (({} : Machine).run p []).1.mapError Failure.unnamed ∧
        (({} : Machine).run p' []).2.toState = (({} : Machine).run p []).2.toState := by
  generalize hs : "function f(a, n) { a[n] = n; n = a } BEGIN { x[0]; f(x, 2) }" = source
  have h : (compile source).toOption.any fun p => p.functions.length = 1 ∧
      ∀ f ∈ p.functions, f.Admits fun x => if x = "a" then "n" else "a" := by
    subst hs
    decide +kernel
  cases hc : compile source
  all_goals rw [hc] at h
  case error => cases h
  case ok p =>
    have ⟨hl, ha⟩ := of_decide_eq_true h
    have ⟨f, hf⟩ := List.length_eq_one_iff.mp hl
    have ha := ha f (hf ▸ List.mem_singleton_self f)
    have hf' : p.functions = [] ++ f :: [] := hf
    exact ⟨p, f, rfl, hf, ha, run_renameParameters hf' ha {} rfl []⟩

end PatternAction
