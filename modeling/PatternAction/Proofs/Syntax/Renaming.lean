import Mathlib.Data.List.Forall2
import PatternAction.Proofs.Syntax.Tree

namespace PatternAction

section Syntax

variable (σ : String → String)

namespace Expr

mutual

def rename : Expr → Expr
  | constant text l             => constant text l
  | pattern source l            => pattern source l
  | name x l                    => name (σ x) l
  | element array index l       => element (σ array) index.rename l
  | field index l               => field index.rename l
  | binary op left right l      => binary op left.rename right.rename l
  | unary op operand l          => unary op operand.rename l
  | assign target value l       => assign target.rename value.rename l
  | step op target l            => step op target.rename l
  | conditional test yes no l   => conditional test.rename yes.rename no.rename l
  | call function args l        => call function (everyRename args) l
  | member key array l          => member key.rename array.rename l
  | search subject source neg l => search subject.rename source neg l

def everyRename : List Expr → List Expr
  | []        => []
  | e :: rest => e.rename :: everyRename rest

end

theorem everyRename_eq_map (es : List Expr) : everyRename σ es = es.map (rename σ) := by
  induction es
  case nil => rfl
  case cons ih => rw [everyRename, ih, List.map_cons]

theorem length_everyRename (es : List Expr) : (everyRename σ es).length = es.length := by
  rw [everyRename_eq_map, List.length_map]

@[simp] theorem location_rename (e : Expr) : (e.rename σ).location = e.location := by
  cases e <;> rfl

@[simp] theorem plainName?_rename (e : Expr) : (e.rename σ).plainName? = e.plainName?.map σ := by
  cases e <;> rfl

end Expr

mutual

def Stmt.rename : Stmt → Stmt
  | .expr e                      => .expr (e.rename σ)
  | .if b                        => .if b.rename
  | .while test body l           => .while (test.rename σ) body.rename l
  | .doWhile body test l         => .doWhile body.rename (test.rename σ) l
  | .for init test update body l =>
    .for (init.map (Expr.rename σ)) (test.map (Expr.rename σ)) (update.map (Expr.rename σ))
      body.rename l
  | .forIn x array body l        => .forIn (σ x) (σ array) body.rename l
  | .break l                     => .break l
  | .continue l                  => .continue l
  | .return value l              => .return (value.map (Expr.rename σ)) l
  | .delete array index l        => .delete (σ array) (index.map (Expr.rename σ)) l

def Branch.rename : Branch → Branch
  | .mk test action otherwise l => .mk (test.rename σ) action.rename otherwise.rename l

def Otherwise.rename : Otherwise → Otherwise
  | .nothing  => .nothing
  | .block b  => .block b.rename
  | .branch b => .branch b.rename

def Block.rename : Block → Block
  | .mk statements l => .mk (Stmt.everyRename statements) l

def Stmt.everyRename : List Stmt → List Stmt
  | []        => []
  | s :: rest => s.rename :: Stmt.everyRename rest

end

def Function.rename (f : Function) : Function :=
  { f with params := Expr.everyRename σ f.params, body := f.body.rename σ }

end Syntax

section Identity

namespace Expr

mutual

@[simp] theorem rename_id : (e : Expr) → e.rename id = e
  | constant .. | pattern .. | name .. => rfl
  | element _ e _ | field e _ | unary _ e _ | step _ e _ => by simp [rename, rename_id e]
  | search e _ _ _ => by simp [rename, rename_id e]
  | binary _ e₁ e₂ _ | assign e₁ e₂ _ | member e₁ e₂ _ => by
    simp [rename, rename_id e₁, rename_id e₂]
  | conditional e₁ e₂ e₃ _ => by simp [rename, rename_id e₁, rename_id e₂, rename_id e₃]
  | call _ es _ => by simp [rename, everyRename_id es]

@[simp] theorem everyRename_id : (es : List Expr) → everyRename id es = es
  | []        => rfl
  | e :: rest => by simp [everyRename, rename_id e, everyRename_id rest]

end

theorem optionRename_id (o : Option Expr) : o.map (rename id) = o := by
  cases o <;> simp

end Expr

mutual

@[simp] theorem Stmt.rename_id : (s : Stmt) → s.rename id = s
  | .expr e                       => by simp [Stmt.rename]
  | .if b                         => by simp [Stmt.rename, b.rename_id]
  | .while _ b _ | .doWhile b _ _ => by simp [Stmt.rename, b.rename_id]
  | .for _ _ _ b _                => by simp [Stmt.rename, Expr.optionRename_id, b.rename_id]
  | .forIn _ _ b _                => by simp [Stmt.rename, b.rename_id]
  | .break _ | .continue _        => rfl
  | .return _ _ | .delete _ _ _   => by simp [Stmt.rename, Expr.optionRename_id]

@[simp] theorem Branch.rename_id : (b : Branch) → b.rename id = b
  | .mk _ b o _ => by simp [Branch.rename, b.rename_id, o.rename_id]

@[simp] theorem Otherwise.rename_id : (o : Otherwise) → o.rename id = o
  | .nothing  => rfl
  | .block b  => by simp [Otherwise.rename, b.rename_id]
  | .branch b => by simp [Otherwise.rename, b.rename_id]

@[simp] theorem Block.rename_id : (b : Block) → b.rename id = b
  | .mk ss _ => by simp [Block.rename, Stmt.everyRename_id ss]

@[simp] theorem Stmt.everyRename_id : (ss : List Stmt) → Stmt.everyRename id ss = ss
  | []        => rfl
  | s :: rest => by simp [Stmt.everyRename, s.rename_id, Stmt.everyRename_id rest]

end

end Identity

-- A way to rename variables that does not confuse the names in its domain.
structure Renaming where
  map       : String → String
  domain    : String → Bool
  injective : ∀ x y, domain x → domain y → map x = map y → x = y

def Renaming.refl : Renaming where
  map       := id
  domain _  := true
  injective _ _ _ _ h := h

theorem Expr.isNamed_refl (e : Expr) : e.isNamed Renaming.refl.domain := by
  cases e <;> rfl

theorem Stmt.isNamed_refl (s : Stmt) : s.isNamed Renaming.refl.domain := by
  cases s <;> rfl

-- A function whose variables are renamed, of which all that get another name are parameters.
structure Function.Renamed (σ : Renaming) (f f' : Function) : Prop where
  eq     : f' = f.rename σ.map
  uses   : f.usesOnly σ.domain
  params : ∀ x, σ.domain x → σ.map x ≠ x → ∃ e ∈ f.params, e.plainName? = some x

theorem Function.Renamed.refl (f : Function) : f.Renamed .refl f where
  eq := by simp [Function.rename, Renaming.refl]
  uses := f.all_of_forall Expr.isNamed_refl Stmt.isNamed_refl
  params _ _ h := absurd rfl h

-- A program in which some functions have other names for their variables.
structure Program.Renamed (p p' : Program) : Prop where
  begins    : p'.begins = p.begins
  ends      : p'.ends = p.ends
  rules     : p'.rules = p.rules
  functions : List.Forall₂ (fun f f' => ∃ σ, f.Renamed σ f') p.functions p'.functions

theorem Program.Renamed.function? {p p' : Program} (h : p.Renamed p') (x : String) :
    (p.function? x = none ∧ p'.function? x = none) ∨
    ∃ f f' σ, p.function? x = some f ∧ p'.function? x = some f' ∧ f.Renamed σ f' := by
  have hf := List.forall₂_reverse_iff.mpr h.functions
  simp only [Program.function?, List.findRev?_eq_find?_reverse]
  generalize p.functions.reverse = fs at hf
  generalize p'.functions.reverse = fs' at hf
  induction hf
  case nil => exact .inl ⟨rfl, rfl⟩
  case cons f f' _ _ hf _ ih =>
    obtain ⟨σ, hf⟩ := hf
    have hn : f'.name = f.name := by
      rw [hf.eq]
      rfl
    simp only [List.find?_cons, hn]
    cases f.name == x
    case true => exact .inr ⟨f, f', σ, rfl, rfl, hf⟩
    case false => exact ih

end PatternAction
