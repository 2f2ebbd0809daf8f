import PatternAction.Program

namespace PatternAction

namespace Expr

mutual

def all (P : Expr → Bool) : Expr → Bool
  | constant text l             => P (constant text l)
  | pattern source l            => P (pattern source l)
  | name x l                    => P (name x l)
  | element array index l       => P (element array index l) && index.all P
  | field index l               => P (field index l) && index.all P
  | binary op left right l      => P (binary op left right l) && left.all P && right.all P
  | unary op operand l          => P (unary op operand l) && operand.all P
  | assign target value l       => P (assign target value l) && target.all P && value.all P
  | step op target l            => P (step op target l) && target.all P
  | conditional test yes no l   =>
    P (conditional test yes no l) && test.all P && yes.all P && no.all P
  | call function args l        => P (call function args l) && everyAll P args
  | member key array l          => P (member key array l) && key.all P && array.all P
  | search subject source neg l => P (search subject source neg l) && subject.all P

def everyAll (P : Expr → Bool) : List Expr → Bool
  | []        => true
  | e :: rest => e.all P && everyAll P rest

end

mutual

theorem all_of_forall {P : Expr → Bool} (h : ∀ e, P e) : (e : Expr) → e.all P
  | constant .. | pattern .. | name ..                        => h _
  | element _ e _ | field e _ | unary _ e _ | step _ e _      => by
    simp [all, h, all_of_forall h e]
  | search e _ _ _                                            => by
    simp [all, h, all_of_forall h e]
  | binary _ e₁ e₂ _ | assign e₁ e₂ _ | member e₁ e₂ _        => by
    simp [all, h, all_of_forall h e₁, all_of_forall h e₂]
  | conditional e₁ e₂ e₃ _                                    => by
    simp [all, h, all_of_forall h e₁, all_of_forall h e₂, all_of_forall h e₃]
  | call _ es _                                               => by
    simp [all, h, everyAll_of_forall h es]

theorem everyAll_of_forall {P : Expr → Bool} (h : ∀ e, P e) : (es : List Expr) → everyAll P es
  | []        => rfl
  | e :: rest => by simp [everyAll, all_of_forall h e, everyAll_of_forall h rest]

end

theorem everyAll_eq_true {P : Expr → Bool} {es : List Expr} :
    everyAll P es ↔ ∀ e ∈ es, e.all P := by
  induction es
  case nil => simp [everyAll]
  case cons ih => simp [everyAll, ih]

mutual

-- Two expressions that differ in places only have the same unplaced form.
def unplaced : Expr → Expr
  | constant text _             => constant text default
  | pattern source _            => pattern source default
  | name x _                    => name x default
  | element array index _       => element array index.unplaced default
  | field index _               => field index.unplaced default
  | binary op left right _      => binary op left.unplaced right.unplaced default
  | unary op operand _          => unary op operand.unplaced default
  | assign target value _       => assign target.unplaced value.unplaced default
  | step op target _            => step op target.unplaced default
  | conditional test yes no _   =>
    conditional test.unplaced yes.unplaced no.unplaced default
  | call function args _        => call function (everyUnplaced args) default
  | member key array _          => member key.unplaced array.unplaced default
  | search subject source neg _ => search subject.unplaced source neg default

def everyUnplaced : List Expr → List Expr
  | []        => []
  | e :: rest => e.unplaced :: everyUnplaced rest

end

theorem isTarget_unplaced (e : Expr) : e.unplaced.isTarget = e.isTarget := by
  cases e <;> rfl

def isNamed (names : String → Bool) : Expr → Bool
  | name x _          => names x
  | element array _ _ => names array
  | _                 => true

end Expr

mutual

def Stmt.all (P : Expr → Bool) (Q : Stmt → Bool) : Stmt → Bool
  | .expr e                        => Q (.expr e) && e.all P
  | .if b                          => Q (.if b) && b.all P Q
  | .while test body l             => Q (.while test body l) && test.all P && body.all P Q
  | .doWhile body test l           => Q (.doWhile body test l) && body.all P Q && test.all P
  | .for init test update body l   =>
    Q (.for init test update body l) && init.all (Expr.all P) && test.all (Expr.all P) &&
      update.all (Expr.all P) && body.all P Q
  | .forIn x array body l          => Q (.forIn x array body l) && body.all P Q
  | .break l                       => Q (.break l)
  | .continue l                    => Q (.continue l)
  | .return value l                => Q (.return value l) && value.all (Expr.all P)
  | .delete array index l          => Q (.delete array index l) && index.all (Expr.all P)

def Branch.all (P : Expr → Bool) (Q : Stmt → Bool) : Branch → Bool
  | .mk test action otherwise _ => test.all P && action.all P Q && otherwise.all P Q

def Otherwise.all (P : Expr → Bool) (Q : Stmt → Bool) : Otherwise → Bool
  | .nothing  => true
  | .block b  => b.all P Q
  | .branch b => b.all P Q

def Block.all (P : Expr → Bool) (Q : Stmt → Bool) : Block → Bool
  | .mk statements _ => Stmt.everyAll P Q statements

def Stmt.everyAll (P : Expr → Bool) (Q : Stmt → Bool) : List Stmt → Bool
  | []        => true
  | s :: rest => s.all P Q && Stmt.everyAll P Q rest

end

section

variable {P : Expr → Bool} {Q : Stmt → Bool}

theorem Expr.optionAll_of_forall (hp : ∀ e, P e) (o : Option Expr) : o.all (Expr.all P) := by
  cases o
  case none => rfl
  case some e => exact e.all_of_forall hp

mutual

theorem Stmt.all_of_forall (hp : ∀ e, P e) (hq : ∀ s, Q s) : (s : Stmt) → s.all P Q
  | .expr e                       => by simp [Stmt.all, hq, e.all_of_forall hp]
  | .if b                         => by simp [Stmt.all, hq, b.all_of_forall hp hq]
  | .while e b _ | .doWhile b e _ => by
    simp [Stmt.all, hq, e.all_of_forall hp, b.all_of_forall hp hq]
  | .for _ _ _ b _                => by
    simp [Stmt.all, hq, Expr.optionAll_of_forall hp, b.all_of_forall hp hq]
  | .forIn _ _ b _                => by simp [Stmt.all, hq, b.all_of_forall hp hq]
  | .break _ | .continue _        => hq _
  | .return _ _ | .delete _ _ _   => by simp [Stmt.all, hq, Expr.optionAll_of_forall hp]

theorem Branch.all_of_forall (hp : ∀ e, P e) (hq : ∀ s, Q s) : (b : Branch) → b.all P Q
  | .mk e b o _ => by
    simp [Branch.all, e.all_of_forall hp, b.all_of_forall hp hq, o.all_of_forall hp hq]

theorem Otherwise.all_of_forall (hp : ∀ e, P e) (hq : ∀ s, Q s) : (o : Otherwise) → o.all P Q
  | .nothing  => rfl
  | .block b  => by simp [Otherwise.all, b.all_of_forall hp hq]
  | .branch b => by simp [Otherwise.all, b.all_of_forall hp hq]

theorem Block.all_of_forall (hp : ∀ e, P e) (hq : ∀ s, Q s) : (b : Block) → b.all P Q
  | .mk ss _ => Stmt.everyAll_of_forall hp hq ss

theorem Stmt.everyAll_of_forall (hp : ∀ e, P e) (hq : ∀ s, Q s) :
    (ss : List Stmt) → Stmt.everyAll P Q ss
  | []        => rfl
  | s :: rest => by
    simp [Stmt.everyAll, s.all_of_forall hp hq, Stmt.everyAll_of_forall hp hq rest]

end

end

def Stmt.isNamed (names : String → Bool) : Stmt → Bool
  | .forIn x array _ _ => names x && names array
  | .delete array _ _  => names array
  | _                  => true

def Rule.all (P : Expr → Bool) (Q : Stmt → Bool) (r : Rule) : Bool :=
  r.condition.all (Expr.all P) && r.action.all P Q

def Function.all (P : Expr → Bool) (Q : Stmt → Bool) (f : Function) : Bool :=
  f.params.all (Expr.all P) && f.body.all P Q

def Program.all (P : Expr → Bool) (Q : Stmt → Bool) (p : Program) : Bool :=
  p.begins.all (Block.all P Q) && p.ends.all (Block.all P Q) && p.rules.all (Rule.all P Q) &&
    p.functions.all (Function.all P Q)

theorem Function.all_of_forall {P : Expr → Bool} {Q : Stmt → Bool} (hp : ∀ e, P e)
    (hq : ∀ s, Q s) (f : Function) : f.all P Q := by
  simp [Function.all, Block.all_of_forall hp hq, Expr.all_of_forall hp]

section Names

-- Whether there are no variables but those in `names`.
variable (names : String → Bool)

abbrev Expr.usesOnly (e : Expr) : Bool := e.all (Expr.isNamed names)

abbrev Expr.everyUsesOnly (es : List Expr) : Bool := Expr.everyAll (Expr.isNamed names) es

abbrev Stmt.usesOnly (s : Stmt) : Bool := s.all (Expr.isNamed names) (Stmt.isNamed names)

abbrev Stmt.everyUsesOnly (ss : List Stmt) : Bool :=
  Stmt.everyAll (Expr.isNamed names) (Stmt.isNamed names) ss

abbrev Branch.usesOnly (b : Branch) : Bool := b.all (Expr.isNamed names) (Stmt.isNamed names)

abbrev Block.usesOnly (b : Block) : Bool := b.all (Expr.isNamed names) (Stmt.isNamed names)

abbrev Function.usesOnly (f : Function) : Bool := f.all (Expr.isNamed names) (Stmt.isNamed names)

abbrev Program.usesOnly (p : Program) : Bool := p.all (Expr.isNamed names) (Stmt.isNamed names)

end Names

end PatternAction
