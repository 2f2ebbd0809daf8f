import PatternAction.Proofs.Run.Discipline

namespace PatternAction

mutual

-- What the expressions of a statement, and of all statements in it, are for.
def Stmt.clauses : Stmt → List Clause
  | .expr _                        => [.whole]
  | .if b                          => b.clauses .condition
  | .while _ body _                => .condition :: body.clauses
  | .doWhile body _ _              => .condition :: body.clauses
  | .for init test update body _   =>
    (init.map fun _ => .initial).toList ++ (test.map fun _ => .condition).toList ++
      (update.map fun _ => .update).toList ++ body.clauses
  | .forIn _ _ body _              => body.clauses
  | .break _ | .continue _         => []
  | .return value _                => (value.map fun _ => .result).toList
  | .delete array index _          => (index.map fun _ => .index array).toList

def Branch.clauses (c : Clause) : Branch → List Clause
  | .mk _ action otherwise _ => c :: action.clauses ++ otherwise.clauses

def Otherwise.clauses : Otherwise → List Clause
  | .nothing  => []
  | .block b  => b.clauses
  | .branch b => b.clauses .otherwise

def Block.clauses : Block → List Clause
  | .mk statements _ => Stmt.everyClauses statements

def Stmt.everyClauses : List Stmt → List Clause
  | []        => []
  | s :: rest => s.clauses ++ Stmt.everyClauses rest

end

namespace Run

variable {α β : Type} {x : Run α} {f : α → Run β} {cs : List Clause}

-- A step that evaluates, at its own level, only expressions of some kinds.
structure Within (cs : List Clause) (x : Run α) (m : Machine) : Prop where
  level   : (x.on m).2.depth = m.depth
  history : ∃ t, (x.on m).2.history.get = m.history.get ++ t ∧
              ∀ c r s s', .evaluated c r s s' ∈ t → s.depth = m.depth → c ∈ cs

namespace Within

variable {m : Machine}

theorem of_keeps (h : Keeps .free 1 x) : Within cs x m := by
  have ⟨t, ht, hp⟩ := (h m trivial).passage
  refine ⟨hp.level, t, ht, fun c r s s' he hd => ?_⟩
  have := hp.clauses c r s s' he
  omega

theorem of_holds [Patterns] (h : Discipline.free.logic.Holds 1 x) : Within cs x m := of_keeps h

theorem pure {a : α} : Within cs (pure a) m := of_keeps .pure

theorem clause {y : Run Value} {c : Clause} (h : Keeps .free 1 y) (hc : c ∈ cs) :
    Within cs (clause c y) m := by
  have ⟨t, ht, hp⟩ := (h m trivial).passage
  refine ⟨hp.level, _, history_clause ht, fun c' r s s' he hd => ?_⟩
  rcases List.mem_append.mp he with he | he
  · have := hp.clauses c' r s s' he
    omega
  · cases List.mem_singleton.mp he
    exact hc

theorem bind (hx : Within cs x m) (hf : ∀ a m, Within cs (f a) m) : Within cs (x >>= f) m := by
  have ⟨hl, t, ht, hs⟩ := hx
  rcases ho : x.on m with ⟨g | a, m'⟩
  all_goals
    rw [ho] at hl ht
    constructor
  case error.level => rwa [on_bind_error ho]
  case error.history =>
    rw [on_bind_error ho]
    exact ⟨t, ht, hs⟩
  case ok.level =>
    rw [on_bind_ok ho]
    exact (hf a m').level.trans hl
  case ok.history =>
    have ⟨_, u, hu, hs'⟩ := hf a m'
    rw [on_bind_ok ho]
    refine ⟨t ++ u, ?_, fun c r s s' he hd => ?_⟩
    · rw [hu, ht, List.append_assoc]
    · rcases List.mem_append.mp he with he | he
      · exact hs c r s s' he hd
      · exact hs' c r s s' he (hd.trans hl.symm)

theorem closed : Closed fun _ x => ∀ m, Within cs x m :=
  ⟨fun _ => .pure, fun hx hf m => (hx m).bind hf,
    fun _ => .of_keeps fun _ _ => Keeps.pure_on⟩

end Within

variable [Patterns]

structure Owns (cs : List Clause) (p : Program) (n : Nat) : Prop where
  statement  : ∀ s m, s.clauses ⊆ cs → Within cs (statement p n s) m
  branch     : ∀ c b m, b.clauses c ⊆ cs → Within cs (branch p n c b) m
  block      : ∀ b m, b.clauses ⊆ cs → Within cs (block p n b) m
  statements : ∀ ss m, Stmt.everyClauses ss ⊆ cs → Within cs (statements p n ss) m
  whileLoop  : ∀ e b m, .condition ∈ cs → b.clauses ⊆ cs → Within cs (whileLoop p n e b) m
  doLoop     : ∀ b e m, .condition ∈ cs → b.clauses ⊆ cs → Within cs (doLoop p n b e) m
  forLoop    : ∀ test update b m, (test.map fun _ => .condition).toList ⊆ cs →
                 (update.map fun _ => .update).toList ⊆ cs → b.clauses ⊆ cs →
                 Within cs (forLoop p n test update b) m
  forEach    : ∀ x keys b l m, b.clauses ⊆ cs → Within cs (forEach p n x keys b l) m

namespace Owns

variable {p : Program} {n : Nat}

theorem zero : Owns cs p 0 := by
  have h {α : Type} (m : Machine) : Within cs (throw .outOfSteps : Run α) m :=
    .of_holds (.throw rfl)
  constructor
  all_goals intros; exact h _

section

variable (h : Owns cs p n) {b : Block} {e : Expr} {m : Machine}
include h

theorem statement_succ {s : Stmt} (hs : s.clauses ⊆ cs) :
    Within cs (Run.statement p (n + 1) s) m := by
  cases s
  case expr e => exact (Within.clause (keeps_eval e) (hs (.head _))).bind fun _ _ => .pure
  case «if» => exact h.branch _ _ _ hs
  case «while» =>
    have ⟨ht, hb⟩ := List.cons_subset.mp hs
    exact h.whileLoop _ _ _ ht hb
  case doWhile =>
    have ⟨ht, hb⟩ := List.cons_subset.mp hs
    exact h.doLoop _ _ _ ht hb
  case «for» init test update b _ =>
    simp only [Stmt.clauses, List.append_subset] at hs
    have ⟨⟨⟨hi, ht⟩, hu⟩, hb⟩ := hs
    have hl (m : Machine) := h.forLoop test update b m ht hu hb
    cases init
    case none => exact hl m
    case some e => exact (Within.clause (keeps_eval e) (hi (.head _))).bind fun _ => hl
  case forIn => exact (Within.of_holds .keys).bind fun _ m => h.forEach _ _ _ _ m hs
  case «break» | «continue» => exact .pure
  case «return» value _ =>
    cases value
    case none => exact .pure
    case some e => exact (Within.clause (keeps_eval e) (hs (.head _))).bind fun _ _ => .pure
  case delete array index l =>
    have hd (key : Option String) (m : Machine) :
        Within cs (do delete array key l; return Signal.normal) m :=
      .of_holds (Logic.Holds.bind (.delete trivial) fun _ => .pure)
    cases index
    case none => exact hd none m
    case some e => exact (Within.clause (keeps_eval e) (hs (.head _))).bind fun _ => hd _

theorem branch_succ {c : Clause} {b : Branch} (hb : b.clauses c ⊆ cs) :
    Within cs (Run.branch p (n + 1) c b) m := by
  obtain ⟨e, action, otherwise, _⟩ := b
  simp only [Branch.clauses, List.append_subset, List.cons_subset] at hb
  have ⟨⟨hc, ha⟩, ho⟩ := hb
  refine Within.closed.branch (fun _ => .clause (keeps_eval e) hc) (h.block action · ha) ?_ ?_ m
  all_goals rintro b rfl
  · exact (h.block b · ho)
  · exact (h.branch .otherwise b · ho)

theorem block_succ (hb : b.clauses ⊆ cs) : Within cs (Run.block p (n + 1) b) m := by
  obtain ⟨ss, _⟩ := b
  exact h.statements ss m hb

theorem statements_succ {ss : List Stmt} (hs : Stmt.everyClauses ss ⊆ cs) :
    Within cs (Run.statements p (n + 1) ss) m := by
  cases ss
  case nil => exact .pure
  case cons s rest =>
    have ⟨hs, hr⟩ := List.append_subset.mp hs
    exact Within.closed.statements (h.statement s · hs) (h.statements rest · hr) m

theorem whileLoop_succ (ht : .condition ∈ cs) (hb : b.clauses ⊆ cs) :
    Within cs (Run.whileLoop p (n + 1) e b) m :=
  Within.closed.whileLoop (fun _ => .clause (keeps_eval e) ht) (h.block b · hb)
    (h.whileLoop e b · ht hb) m

theorem doLoop_succ (ht : .condition ∈ cs) (hb : b.clauses ⊆ cs) :
    Within cs (Run.doLoop p (n + 1) b e) m :=
  Within.closed.doLoop (h.block b · hb) (fun _ => .clause (keeps_eval e) ht)
    (h.doLoop b e · ht hb) m

theorem forLoop_succ {test update : Option Expr}
    (ht : (test.map fun _ => .condition).toList ⊆ cs)
    (hu : (update.map fun _ => .update).toList ⊆ cs) (hb : b.clauses ⊆ cs) :
    Within cs (Run.forLoop p (n + 1) test update b) m := by
  refine Within.closed.forLoop ?_ ?_ (h.block b · hb) (h.forLoop test update b · ht hu hb) m
  all_goals rintro e rfl m
  · exact .clause (keeps_eval e) (ht (.head _))
  · exact .clause (keeps_eval e) (hu (.head _))

theorem forEach_succ {x : String} {keys : List String} {l : Location} (hb : b.clauses ⊆ cs) :
    Within cs (Run.forEach p (n + 1) x keys b l) m := by
  cases keys
  case nil => exact .pure
  case cons key rest =>
    exact Within.closed.forEach (fun _ => .of_holds (.setScalar trivial)) (h.block b · hb)
      (h.forEach x rest b l · hb) m

end

end Owns

theorem owns (cs : List Clause) (p : Program) : (n : Nat) → Owns cs p n
  | 0     => .zero
  | n + 1 =>
    have h := owns cs p n
    { statement  := fun _ _ => h.statement_succ
      branch     := fun _ _ _ => h.branch_succ
      block      := fun _ _ => h.block_succ
      statements := fun _ _ => h.statements_succ
      whileLoop  := fun _ _ _ => h.whileLoop_succ
      doLoop     := fun _ _ _ => h.doLoop_succ
      forLoop    := fun _ _ _ _ => h.forLoop_succ
      forEach    := fun _ _ _ _ _ => h.forEach_succ }

end Run

end PatternAction
