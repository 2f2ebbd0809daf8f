import PatternAction.Builtin
import PatternAction.Proofs.Syntax.Tree

namespace PatternAction

-- A variable is given to a function of the program, a scalar is stored in it, it is taken for an
-- array, or the pieces of a text are stored in it.
inductive Use
  | passed | assigned | indexed | split
deriving DecidableEq

section Uses

-- A function of the program hides a provided one of the same name.
variable (p : Program)

namespace Expr

def usedFor (u : Use) (e : Expr) : List (Use × String) := (e.plainName?.map (u, ·)).toList

-- The arrays that the provided function splits into: of pieces, and of what separates them.
def splitUses (args : List Expr) : List (Use × String) :=
  args[1]?.toList.flatMap (usedFor .split) ++ args[3]?.toList.flatMap (usedFor .split)

mutual

def uses : Expr → List (Use × String)
  | constant .. | pattern .. | name .. => []
  | element array index _              => (.indexed, array) :: index.uses
  | field index _                      => index.uses
  | binary _ left right _              => left.uses ++ right.uses
  | unary _ operand _                  => operand.uses
  | assign target value _              => target.usedFor .assigned ++ target.uses ++ value.uses
  | step _ target _                    => target.usedFor .assigned ++ target.uses
  | conditional test yes no _          => test.uses ++ yes.uses ++ no.uses
  | call function args _               =>
    (if (p.function? function).isSome then args.flatMap (usedFor .passed)
      else if Builtin.ofName? function = some .split then splitUses args
      else []) ++ everyUses args
  | member key array _                 => key.uses ++ array.uses
  | search subject _ _ _               => subject.uses

def everyUses : List Expr → List (Use × String)
  | []        => []
  | e :: rest => e.uses ++ everyUses rest

end

def optionUses (o : Option Expr) : List (Use × String) := o.toList.flatMap (uses p)

end Expr

mutual

def Stmt.uses : Stmt → List (Use × String)
  | .expr e                      => e.uses p
  | .if b                        => b.uses
  | .while test body _           => test.uses p ++ body.uses
  | .doWhile body test _         => body.uses ++ test.uses p
  | .for init test update body _ =>
    Expr.optionUses p init ++ Expr.optionUses p test ++ Expr.optionUses p update ++ body.uses
  | .forIn x _ body _            => (.assigned, x) :: body.uses
  | .break _ | .continue _       => []
  | .return value _              => Expr.optionUses p value
  | .delete array index _        => (.indexed, array) :: Expr.optionUses p index

def Branch.uses : Branch → List (Use × String)
  | .mk test action otherwise _ => test.uses p ++ action.uses ++ otherwise.uses

def Otherwise.uses : Otherwise → List (Use × String)
  | .nothing  => []
  | .block b  => b.uses
  | .branch b => b.uses

def Block.uses : Block → List (Use × String)
  | .mk statements _ => Stmt.everyUses statements

def Stmt.everyUses : List Stmt → List (Use × String)
  | []        => []
  | s :: rest => s.uses ++ Stmt.everyUses rest

end

def Rule.uses (r : Rule) : List (Use × String) := Expr.optionUses p r.condition ++ r.action.uses p

def Program.uses : List (Use × String) :=
  p.begins.flatMap (Block.uses p) ++ p.ends.flatMap (Block.uses p) ++
    p.rules.flatMap (Rule.uses p) ++ p.functions.flatMap fun f => f.body.uses p

end Uses

section Permits

variable {may : Use → String → Prop} {us vs : List (Use × String)} {u : Use} {x : String}
  {p : Program}

-- All uses are allowed.
def Permits (may : Use → String → Prop) (us : List (Use × String)) : Prop :=
  ∀ q ∈ us, may q.1 q.2

@[simp] theorem permits_nil : Permits may [] := fun _ h => nomatch h

@[simp] theorem permits_cons : Permits may ((u, x) :: us) ↔ may u x ∧ Permits may us :=
  List.forall_mem_cons

@[simp] theorem permits_append : Permits may (us ++ vs) ↔ Permits may us ∧ Permits may vs :=
  List.forall_mem_append

theorem permits_flatMap {α : Type} {xs : List α} {f : α → List (Use × String)} :
    Permits may (xs.flatMap f) ↔ ∀ a ∈ xs, Permits may (f a) :=
  List.forall_mem_flatMap

theorem Expr.permits_usedFor {e : Expr} :
    Permits may (e.usedFor u) ↔ ∀ x, e.plainName? = some x → may u x := by
  cases h : e.plainName? <;> simp [Expr.usedFor, h]

theorem Expr.permits_everyUses {es : List Expr} :
    Permits may (Expr.everyUses p es) ↔ ∀ e ∈ es, Permits may (e.uses p) := by
  induction es
  case nil => simp [Expr.everyUses]
  case cons ih => simp [Expr.everyUses, ih]

theorem Expr.permits_optionUses {o : Option Expr} :
    Permits may (Expr.optionUses p o) ↔ ∀ e, o = some e → Permits may (e.uses p) := by
  cases o <;> simp [Expr.optionUses]

theorem Program.permits_parts :
    Permits may p.uses ↔ Permits may (p.begins.flatMap (Block.uses p)) ∧
      Permits may (p.ends.flatMap (Block.uses p)) ∧ Permits may (p.rules.flatMap (Rule.uses p)) ∧
      Permits may (p.functions.flatMap fun f => f.body.uses p) := by
  simp only [Program.uses, permits_append, and_assoc]

theorem Program.permits_body {f : Function} (h : Permits may p.uses)
    (hf : f ∈ p.functions) : Permits may (f.body.uses p) :=
  permits_flatMap.mp (permits_parts.mp h).2.2.2 f hf

end Permits

section Names

variable {names : String → Bool} {p : Program}

-- The variables that are used are in `names`.
abbrev Among (names : String → Bool) (us : List (Use × String)) : Prop :=
  Permits (fun _ x => names x) us

theorem Expr.isNamed_of_plainName? {e : Expr} {x : String} (he : e.usesOnly names)
    (h : e.plainName? = some x) : names x := by
  cases e <;> cases h
  exact he

theorem Expr.permits_usedFor_of_usesOnly {u : Use} {e : Expr} (h : e.usesOnly names) :
    Among names (e.usedFor u) :=
  Expr.permits_usedFor.mpr fun _ hx => isNamed_of_plainName? h hx

theorem Expr.permits_splitUses_of_usesOnly {args : List Expr}
    (h : Expr.everyUsesOnly names args) : Among names (Expr.splitUses args) := by
  have ha (i : Nat) : Among names (args[i]?.toList.flatMap (Expr.usedFor .split)) := by
    refine permits_flatMap.mpr fun e he => permits_usedFor_of_usesOnly ?_
    exact Expr.everyAll_eq_true.mp h e (List.mem_of_getElem? (Option.mem_toList.mp he))
  exact permits_append.mpr ⟨ha 1, ha 3⟩

mutual

theorem Expr.permits_of_usesOnly : (e : Expr) → e.usesOnly names → Among names (e.uses p)
  | .constant .., _ | .pattern .., _ | .name .., _ => permits_nil
  | .element _ e _, h => by
    simp only [Expr.all, Bool.and_eq_true] at h
    exact permits_cons.mpr ⟨h.1, e.permits_of_usesOnly h.2⟩
  | .field e _, h | .unary _ e _, h | .search e _ _ _, h => by
    simp only [Expr.all, Bool.and_eq_true] at h
    exact e.permits_of_usesOnly h.2
  | .binary _ e₁ e₂ _, h | .member e₁ e₂ _, h => by
    simp only [Expr.all, Bool.and_eq_true] at h
    exact permits_append.mpr ⟨e₁.permits_of_usesOnly h.1.2, e₂.permits_of_usesOnly h.2⟩
  | .assign e₁ e₂ _, h => by
    simp only [Expr.all, Bool.and_eq_true] at h
    simp only [Expr.uses, permits_append]
    exact ⟨⟨permits_usedFor_of_usesOnly h.1.2, e₁.permits_of_usesOnly h.1.2⟩,
      e₂.permits_of_usesOnly h.2⟩
  | .step _ e _, h => by
    simp only [Expr.all, Bool.and_eq_true] at h
    exact permits_append.mpr ⟨permits_usedFor_of_usesOnly h.2, e.permits_of_usesOnly h.2⟩
  | .conditional e₁ e₂ e₃ _, h => by
    simp only [Expr.all, Bool.and_eq_true] at h
    simp only [Expr.uses, permits_append]
    exact ⟨⟨e₁.permits_of_usesOnly h.1.1.2, e₂.permits_of_usesOnly h.1.2⟩,
      e₃.permits_of_usesOnly h.2⟩
  | .call function args _, h => by
    simp only [Expr.all, Bool.and_eq_true] at h
    refine permits_append.mpr ⟨?_, Expr.everyPermits_of_usesOnly args h.2⟩
    split
    case isTrue =>
      refine permits_flatMap.mpr fun e he => permits_usedFor_of_usesOnly ?_
      exact Expr.everyAll_eq_true.mp h.2 e he
    case isFalse =>
      split
      case isTrue => exact permits_splitUses_of_usesOnly h.2
      case isFalse => exact permits_nil

theorem Expr.everyPermits_of_usesOnly :
    (es : List Expr) → Expr.everyUsesOnly names es → Among names (Expr.everyUses p es)
  | [], _ => permits_nil
  | e :: rest, h => by
    simp only [Expr.everyAll, Bool.and_eq_true] at h
    exact permits_append.mpr ⟨e.permits_of_usesOnly h.1, Expr.everyPermits_of_usesOnly rest h.2⟩

end

theorem Expr.optionPermits_of_usesOnly {o : Option Expr} (h : o.all (Expr.usesOnly names)) :
    Among names (Expr.optionUses p o) := by
  refine Expr.permits_optionUses.mpr fun e he => ?_
  subst he
  exact e.permits_of_usesOnly h

mutual

theorem Stmt.permits_of_usesOnly : (s : Stmt) → s.usesOnly names → Among names (s.uses p)
  | .expr e, h => by
    simp only [Stmt.all, Bool.and_eq_true] at h
    exact e.permits_of_usesOnly h.2
  | .if b, h => by
    simp only [Stmt.all, Bool.and_eq_true] at h
    exact b.permits_of_usesOnly h.2
  | .while e b _, h => by
    simp only [Stmt.all, Bool.and_eq_true] at h
    exact permits_append.mpr ⟨e.permits_of_usesOnly h.1.2, b.permits_of_usesOnly h.2⟩
  | .doWhile b e _, h => by
    simp only [Stmt.all, Bool.and_eq_true] at h
    exact permits_append.mpr ⟨b.permits_of_usesOnly h.1.2, e.permits_of_usesOnly h.2⟩
  | .for _ _ _ b _, h => by
    simp only [Stmt.all, Bool.and_eq_true] at h
    simp only [Stmt.uses, permits_append]
    exact ⟨⟨⟨Expr.optionPermits_of_usesOnly h.1.1.1.2,
      Expr.optionPermits_of_usesOnly h.1.1.2⟩, Expr.optionPermits_of_usesOnly h.1.2⟩,
      b.permits_of_usesOnly h.2⟩
  | .forIn _ _ b _, h => by
    simp only [Stmt.all, Stmt.isNamed, Bool.and_eq_true] at h
    exact permits_cons.mpr ⟨h.1.1, b.permits_of_usesOnly h.2⟩
  | .break _, _ | .continue _, _ => permits_nil
  | .return _ _, h => by
    simp only [Stmt.all, Bool.and_eq_true] at h
    exact Expr.optionPermits_of_usesOnly h.2
  | .delete _ _ _, h => by
    simp only [Stmt.all, Bool.and_eq_true] at h
    exact permits_cons.mpr ⟨h.1, Expr.optionPermits_of_usesOnly h.2⟩

theorem Branch.permits_of_usesOnly : (b : Branch) → b.usesOnly names → Among names (b.uses p)
  | .mk e b o _, h => by
    simp only [Branch.all, Bool.and_eq_true] at h
    simp only [Branch.uses, permits_append]
    exact ⟨⟨e.permits_of_usesOnly h.1.1, b.permits_of_usesOnly h.1.2⟩,
      o.permits_of_usesOnly h.2⟩

theorem Otherwise.permits_of_usesOnly :
    (o : Otherwise) → o.all (Expr.isNamed names) (Stmt.isNamed names) → Among names (o.uses p)
  | .nothing, _  => permits_nil
  | .block b, h  => b.permits_of_usesOnly h
  | .branch b, h => b.permits_of_usesOnly h

theorem Block.permits_of_usesOnly : (b : Block) → b.usesOnly names → Among names (b.uses p)
  | .mk ss _, h => Stmt.everyPermits_of_usesOnly ss h

theorem Stmt.everyPermits_of_usesOnly :
    (ss : List Stmt) → Stmt.everyUsesOnly names ss → Among names (Stmt.everyUses p ss)
  | [], _        => permits_nil
  | s :: rest, h => by
    simp only [Stmt.everyAll, Bool.and_eq_true] at h
    exact permits_append.mpr ⟨s.permits_of_usesOnly h.1, Stmt.everyPermits_of_usesOnly rest h.2⟩

end

theorem Program.permits_of_usesOnly (h : p.usesOnly names) :
    Among names p.uses := by
  simp only [Program.all, Rule.all, Function.all, Bool.and_eq_true, List.all_eq_true] at h
  simp only [Program.uses, Rule.uses, permits_append, permits_flatMap]
  refine ⟨⟨⟨fun b hb => b.permits_of_usesOnly (h.1.1.1 b hb),
    fun b hb => b.permits_of_usesOnly (h.1.1.2 b hb)⟩, fun r hr => ?_⟩,
    fun f hf => f.body.permits_of_usesOnly (h.2 f hf).2⟩
  exact ⟨Expr.optionPermits_of_usesOnly (h.1.2 r hr).1,
    r.action.permits_of_usesOnly (h.1.2 r hr).2⟩

end Names

end PatternAction
