import Mathlib.Data.List.Basic
import PatternAction.Machine.Run
import PatternAction.Proofs.Run.Logic

namespace PatternAction

def Target.IsPermitted (may : Use → String → Prop) : Target → Prop
  | .name x          => may .assigned x
  | .element array _ => may .indexed array
  | .field x         => Environment.isFieldName x

namespace Builtin

-- The arguments of a call that gives as many as the function accepts.
inductive Takes : Builtin → List Expr → Prop
  | record       : Takes .print []
  | print        : Takes .print (e :: rest)
  | printf       : Takes .printf (form :: rest)
  | getline      : Takes .getline []
  | next         : Takes .next []
  | nextfile     : Takes .nextfile []
  | exit         : Takes .exit []
  | exitWith     : Takes .exit [code]
  | gsub         : Takes .gsub (source :: replacement :: target)
  | sub          : Takes .sub (source :: replacement :: target)
  | «match»      : Takes .match [subject, source]
  | index        : Takes .index [text, part]
  | length       : Takes .length args
  | split        : Takes .split (text :: array :: options)
  | substr       : Takes .substr [text, start]
  | substrWithin : Takes .substr [text, start, size]
  | tolower      : Takes .tolower [text]
  | toupper      : Takes .toupper [text]

variable {b : Builtin} {args : List Expr}

theorem exists_pair_of_two_le (h : 2 ≤ args.length) : ∃ a b rest, args = a :: b :: rest := by
  match args, h with
  | a :: b :: rest, _ => exact ⟨a, b, rest, rfl⟩

theorem takes_of_accepts (h : b.accepts args.length) : b.Takes args := by
  obtain ⟨hl, hu⟩ : b.required ≤ args.length ∧
      (b.isVariadic = false → args.length ≤ b.params.length) := by
    simp only [accepts, Bool.and_eq_true, decide_eq_true_eq, Bool.or_eq_true] at h
    exact ⟨h.1, fun hv => h.2.resolve_left (by simp [hv])⟩
  cases b
  case print => cases args <;> constructor
  case printf =>
    obtain ⟨form, rest, rfl⟩ := List.exists_cons_of_length_pos hl
    exact .printf
  case getline | next | nextfile =>
    cases List.eq_nil_of_length_eq_zero (Nat.le_zero.mp (hu rfl))
    constructor
  case exit =>
    rcases args with _ | ⟨code, rest⟩
    case nil => exact .exit
    case cons =>
      cases List.eq_nil_of_length_eq_zero (Nat.le_zero.mp (Nat.le_of_succ_le_succ (hu rfl)))
      exact .exitWith
  case gsub | sub | split =>
    obtain ⟨a, b, rest, rfl⟩ := exists_pair_of_two_le hl
    constructor
  case «match» | index =>
    obtain ⟨a, b, rfl⟩ := List.length_eq_two.mp (Nat.le_antisymm (hu rfl) hl)
    constructor
  case length => exact .length
  case substr =>
    obtain ⟨text, start, rest, rfl⟩ := exists_pair_of_two_le hl
    rcases rest with _ | ⟨length, rest⟩
    case nil => exact .substr
    case cons =>
      have hr : rest.length + 3 ≤ 3 := hu rfl
      cases List.eq_nil_of_length_eq_zero (Nat.le_zero.mp (Nat.le_of_add_le_add_right hr))
      exact .substrWithin
  case tolower | toupper =>
    obtain ⟨text, rfl⟩ := List.length_eq_one_iff.mp (Nat.le_antisymm (hu rfl) hl)
    constructor

end Builtin

open Run

section Gives

variable {may : Use → String → Prop} {p : Program} {n : Nat} {e : Expr}

theorem Run.gives_arrayName (function : String) (he : Permits may (e.usedFor .split)) :
    Gives (arrayName function e) (may .split) := by
  unfold arrayName
  split
  case h_1 hx => exact .pure (Expr.permits_usedFor.mp he _ hx)
  case h_2 => exact .throw

variable [Patterns]

theorem Run.gives_evalTarget (ha : Permits may (e.usedFor .assigned))
    (he : Permits may (e.uses p)) : Gives (evalTarget p n e) (Target.IsPermitted may) := by
  cases n
  case zero => exact .throw
  case succ n =>
    unfold evalTarget
    split
    case h_1 => contradiction
    case h_2 => exact .pure (Expr.permits_usedFor.mp ha _ rfl)
    case h_3 => exact Gives.any.bind fun _ _ => .pure (permits_cons.mp he).1
    case h_4 =>
      refine Gives.any.bind fun _ _ => ?_
      exact (Gives.check Environment.meets_fieldName).bind fun _ hx => .pure hx
    case h_5 => exact .throw

end Gives

variable [Patterns]

-- An argument that is a name bound to an array is handed over as it is, any other as its value.
theorem Run.bindAll_cons {p : Program} {n : Nat} {function x : String} {param arg : Expr}
    {rest : List (Expr × Expr)} {frame : Frame} (hx : param.plainName? = some x) :
    bindAll p (n + 1) function ((param, arg) :: rest) frame =
      let value : Run Frame := do
        let v ← eval p n arg
        bindAll p n function rest { frame with locals := frame.locals.insert x (.scalar v) }
      match arg.plainName? with
      | none   => value
      | some y => environment >>= fun e =>
        if e.isArray (e.resolve y) then
          bindAll p n function rest { frame with aliases := frame.aliases.insert x (e.resolve y) }
        else value := by
  rw [bindAll, hx]
  cases arg.plainName?
  case none => rfl
  case some y =>
    refine congrArg (environment >>= ·) (funext fun e => ?_)
    have ha : e.isArray (e.resolve y) = (e.lookup y).any Cell.isArray := rfl
    rw [ha, Option.bind_some]
    rcases e.lookup y with _ | (v | t)
    all_goals rfl

namespace Logic

variable {L : Logic} {p : Program} {n k : Nat}

theorem Holds.readTarget {t : Target} {l : Location} (ht : t.IsPermitted L.may) :
    L.Holds k (readTarget l t) := by
  cases t
  case name => exact scalar
  case element => exact element ht
  case field => exact field

theorem Holds.writeTarget {t : Target} {v : Value} {l : Location} (ht : t.IsPermitted L.may) :
    L.Holds k (writeTarget v l t) := by
  cases t
  case name => exact setScalar ht
  case element => exact setElement ht
  case field => exact setField ht

abbrev Permits (L : Logic) (us : List (Use × String)) : Prop := PatternAction.Permits L.may us

-- All parts of the evaluator have the property, up to some number of nested steps.
structure Covers (L : Logic) (p : Program) (n : Nat) : Prop where
  eval         : ∀ e, L.Permits (e.uses p) → L.Holds 1 (eval p n e)
  evalTarget   : ∀ e, L.Permits (e.uses p) → L.Holds 1 (evalTarget p n e)
  evalAll      : ∀ es, L.Permits (Expr.everyUses p es) → L.Holds 1 (evalAll p n es)
  evalPattern  : ∀ e, L.Permits (e.uses p) → L.Holds 1 (evalPattern p n e)
  evalOrRecord : ∀ o, L.Permits (Expr.optionUses p o) → L.Holds 1 (evalOrRecord p n o)
  provided     : ∀ b args l, L.Permits (Expr.everyUses p args) →
                   (b = .split → L.Permits (Expr.splitUses args)) → b.accepts args.length →
                   L.Holds 1 (provided p n b args l)
  substituted  : ∀ all source replacement target, L.Permits (source.uses p) →
                   L.Permits (replacement.uses p) → L.Permits (Expr.optionUses p target) →
                   L.Holds 1 (substituted p n all source replacement target)
  call         : ∀ f args l, L.Permits (f.body.uses p) →
                   L.Permits (args.flatMap (Expr.usedFor .passed)) →
                   L.Permits (Expr.everyUses p args) → L.Holds 1 (call p n f args l)
  bindAll      : ∀ function ps frame, (∀ q ∈ ps, L.Permits (q.2.usedFor .passed)) →
                   (∀ q ∈ ps, L.Permits (q.2.uses p)) →
                   Binds L.may (L.Holds 1) frame (bindAll p n function ps frame)
  statement    : ∀ s, L.Permits (s.uses p) → L.Holds 0 (statement p n s)
  branch       : ∀ c b, L.Permits (b.uses p) → L.Holds 0 (branch p n c b)
  block        : ∀ b, L.Permits (b.uses p) → L.Holds 0 (block p n b)
  statements   : ∀ ss, L.Permits (Stmt.everyUses p ss) → L.Holds 0 (statements p n ss)
  whileLoop    : ∀ e b, L.Permits (e.uses p) → L.Permits (b.uses p) →
                   L.Holds 0 (whileLoop p n e b)
  doLoop       : ∀ b e, L.Permits (b.uses p) → L.Permits (e.uses p) → L.Holds 0 (doLoop p n b e)
  forLoop      : ∀ test update b, L.Permits (Expr.optionUses p test) →
                   L.Permits (Expr.optionUses p update) → L.Permits (b.uses p) →
                   L.Holds 0 (forLoop p n test update b)
  forEach      : ∀ x keys b l, L.may .assigned x → L.Permits (b.uses p) →
                   L.Holds 0 (forEach p n x keys b l)

namespace Covers

theorem zero : L.Covers p 0 := by
  constructor
  case bindAll => exact fun _ _ _ _ _ => .fail rfl
  all_goals
    intros
    exact .throw rfl

variable (h : L.Covers p n)
include h

theorem eval_succ (hp : L.Permits p.uses) {e : Expr} (he : L.Permits (e.uses p)) :
    L.Holds 1 (Run.eval p (n + 1) e) := by
  cases e
  all_goals simp only [Expr.uses, permits_append, permits_cons] at he
  case constant => exact .pure
  case pattern => exact .throw rfl
  case name => exact .scalar
  case element => exact (h.eval _ he.2).bind fun _ => .element he.1
  case field => exact (h.eval _ he).bind fun _ => .bind .fieldName fun _ => .field
  case binary op left right _ =>
    obtain ⟨hl, hr⟩ := he
    cases op
    case and | or =>
      refine (h.eval _ hl).bind fun _ => ?_
      split
      all_goals first
        | exact .pure
        | exact (h.eval _ hr).bind fun _ => .pure
    case concat | comparison =>
      exact (h.eval _ hl).bind fun _ => (h.eval _ hr).bind fun _ => .pure
    case arithmetic =>
      exact (h.eval _ hl).bind fun _ => (h.eval _ hr).bind fun _ => .bind .arithmetic fun _ => .pure
  case unary => exact (h.eval _ he).bind fun _ => .pure
  case assign =>
    refine (h.evalTarget _ he.1.2).bind_of (gives_evalTarget he.1.1 he.1.2) fun _ ht => ?_
    exact (h.eval _ he.2).bind fun _ => .bind (.writeTarget ht) fun _ => .pure
  case step =>
    refine (h.evalTarget _ he.2).bind_of (gives_evalTarget he.1 he.2) fun _ ht => ?_
    exact .bind (.readTarget ht) fun _ => .bind (.writeTarget ht) fun _ => .pure
  case conditional =>
    refine (h.eval _ he.1.1).bind fun _ => ?_
    split
    case isTrue => exact h.eval _ he.1.2
    case isFalse => exact h.eval _ he.2
  case call function args _ =>
    rw [Run.eval]
    split
    case h_1 hf =>
      rw [hf, Option.isSome_some, if_pos rfl] at he
      exact h.call _ _ _ (Program.permits_body hp (Program.mem_of_function? hf)) he.1 he.2
    case h_2 b hf hb =>
      split
      case isFalse => exact .throw rfl
      case isTrue ha =>
        refine h.provided _ _ _ he.2 ?_ ha
        rintro rfl
        rw [hf, Option.isSome_none, if_neg Bool.false_ne_true, if_pos hb] at he
        exact he.1
    case h_3 => exact .throw rfl
  case member =>
    rw [Run.eval]
    split
    case h_1 => exact .throw rfl
    case h_2 => exact (h.eval _ he.1).bind fun _ => .bind .hasElement fun _ => .pure
  case search => exact (h.eval _ he).bind fun _ => .bind .pattern fun _ => .pure

theorem evalTarget_succ {e : Expr} (he : L.Permits (e.uses p)) :
    L.Holds 1 (Run.evalTarget p (n + 1) e) := by
  unfold Run.evalTarget
  split
  case h_1 => contradiction
  case h_2 => exact .pure
  case h_3 h' =>
    cases h'
    exact (h.eval _ (permits_cons.mp he).2).bind fun _ => .pure
  case h_4 h' =>
    cases h'
    rw [Expr.uses] at he
    exact (h.eval _ he).bind fun _ => .bind .fieldName fun _ => .pure
  case h_5 => exact .throw rfl

theorem evalAll_succ {es : List Expr} (he : L.Permits (Expr.everyUses p es)) :
    L.Holds 1 (Run.evalAll p (n + 1) es) := by
  cases es
  case nil => exact .pure
  case cons =>
    obtain ⟨he, hes⟩ := permits_append.mp he
    exact (h.eval _ he).bind fun _ => (h.evalAll _ hes).bind fun _ => .pure

theorem evalPattern_succ {e : Expr} (he : L.Permits (e.uses p)) :
    L.Holds 1 (Run.evalPattern p (n + 1) e) := by
  unfold Run.evalPattern
  split
  case h_1 => contradiction
  case h_2 => exact .pure
  case h_3 hn _ =>
    cases hn
    exact (h.eval _ he).bind fun _ => .pure

theorem evalOrRecord_succ {o : Option Expr} (ho : L.Permits (Expr.optionUses p o)) :
    L.Holds 1 (Run.evalOrRecord p (n + 1) o) := by
  cases o
  case none => exact .field
  case some => exact h.eval _ (Expr.permits_optionUses.mp ho _ rfl)

theorem provided_succ {b : Builtin} {args : List Expr} {l : Location}
    (ha : L.Permits (Expr.everyUses p args)) (hs : b = .split → L.Permits (Expr.splitUses args))
    (hb : b.accepts args.length) : L.Holds 1 (Run.provided p (n + 1) b args l) := by
  replace ha := Expr.permits_everyUses.mp ha
  cases Builtin.takes_of_accepts hb
  case record =>
    exact .bind .field fun _ => .bind .global fun _ => .bind L.holds_write fun _ => .pure
  case print =>
    refine (h.evalAll _ (Expr.permits_everyUses.mpr ha)).bind fun _ => ?_
    exact .bind .global fun _ => .bind L.holds_write fun _ => .pure
  case printf =>
    rw [List.forall_mem_cons] at ha
    refine (h.eval _ ha.1).bind fun _ => (h.evalAll _ (Expr.permits_everyUses.mpr ha.2)).bind ?_
    exact fun _ => .bind L.holds_write fun _ => .pure
  case getline | next => exact .bind L.holds_loadRecord fun _ => .pure
  case nextfile => exact .bind L.holds_skipRecords fun _ => .pure
  case exit => exact .bind L.holds_halt fun _ => .pure
  case exitWith code =>
    refine (h.eval _ (ha code (by simp))).bind fun _ => ?_
    rw [← bind_assoc]
    exact .bind L.holds_exit fun _ => .pure
  case gsub | sub =>
    refine h.substituted _ _ _ _ (ha _ (by simp)) (ha _ (by simp)) ?_
    refine Expr.permits_optionUses.mpr fun e he => ha e ?_
    simp [List.mem_of_mem_head? he]
  case «match» =>
    refine (h.eval _ (ha _ (by simp))).bind fun _ => ?_
    refine (h.evalPattern _ (ha _ (by simp))).bind fun _ => .bind .pattern fun _ => ?_
    split <;> exact .pure
  case index =>
    exact (h.eval _ (ha _ (by simp))).bind fun _ => (h.eval _ (ha _ (by simp))).bind fun _ => .pure
  case length =>
    refine (h.evalOrRecord _ ?_).bind fun _ => .pure
    exact Expr.permits_optionUses.mpr fun e he => ha e (List.mem_of_mem_head? he)
  case split text array options =>
    obtain ⟨hpieces, hseps⟩ := permits_append.mp (hs rfl)
    have hpieces := gives_arrayName "split" (permits_flatMap.mp hpieces array (by simp))
    refine (h.eval _ (ha _ (by simp))).bind fun _ => ?_
    refine Holds.arrayName.bind_of hpieces fun _ hx => ?_
    rcases options with _ | ⟨sep, _ | ⟨seps, rest⟩⟩
    case nil =>
      refine .bind .global fun _ => .pure_bind (.pure_bind ?_)
      exact .bind .split fun (_, _) => .bind (.setArray hx) fun _ => .pure
    case cons.nil =>
      refine (h.evalPattern _ (ha sep (by simp))).bind fun _ => .pure_bind ?_
      exact .bind .split fun (_, _) => .bind (.setArray hx) fun _ => .pure
    case cons.cons =>
      refine (h.evalPattern _ (ha sep (by simp))).bind fun _ => ?_
      have hseps := gives_arrayName "split" (permits_flatMap.mp hseps seps (by simp))
      refine Holds.bind_of (.map .arrayName) hseps.some ?_
      rintro _ ⟨y, rfl, hy⟩
      refine .bind .split fun (_, _) => .bind (.setArray hx) fun _ => ?_
      exact .bind (.setArray hy) fun _ => .pure
  case substr =>
    refine (h.eval _ (ha _ (by simp))).bind fun _ => ?_
    exact (h.eval _ (ha _ (by simp))).bind fun _ => .pure
  case substrWithin =>
    refine (h.eval _ (ha _ (by simp))).bind fun _ => (h.eval _ (ha _ (by simp))).bind fun _ => ?_
    exact (h.eval _ (ha _ (by simp))).bind fun _ => .pure
  case tolower | toupper => exact (h.eval _ (ha _ (by simp))).bind fun _ => .pure

theorem substituted_succ {all : Bool} {source replacement : Expr} {target : Option Expr}
    (hs : L.Permits (source.uses p)) (hr : L.Permits (replacement.uses p))
    (ht : L.Permits (Expr.optionUses p target)) :
    L.Holds 1 (Run.substituted p (n + 1) all source replacement target) := by
  refine (h.evalPattern _ hs).bind fun _ => (h.eval _ hr).bind fun _ => ?_
  refine (h.evalOrRecord _ ht).bind fun _ => .bind .pattern fun _ => ?_
  exact .bind (.setField (by decide)) fun _ => .pure

theorem bindAll_succ {function : String} {ps : List (Expr × Expr)} {frame : Frame}
    (hp : ∀ q ∈ ps, L.Permits (q.2.usedFor .passed)) (hu : ∀ q ∈ ps, L.Permits (q.2.uses p)) :
    Binds L.may (L.Holds 1) frame (Run.bindAll p (n + 1) function ps frame) := by
  cases ps
  case nil => exact .done
  case cons q rest =>
    obtain ⟨param, arg⟩ := q
    obtain ⟨ha, hp⟩ := List.forall_mem_cons.mp hp
    obtain ⟨he, hu⟩ := List.forall_mem_cons.mp hu
    have hv (x : String) : Binds L.may (L.Holds 1) frame (do
        let v ← Run.eval p n arg
        Run.bindAll p n function rest { frame with locals := frame.locals.insert x (.scalar v) }) :=
      .value (h.eval _ he) fun _ => h.bindAll _ _ _ hp hu
    cases hx : param.plainName?
    case none =>
      rw [Run.bindAll, hx]
      exact .fail rfl
    case some x =>
      rw [bindAll_cons hx]
      split
      case h_1 => exact hv x
      case h_2 y hy =>
        exact .name (Expr.permits_usedFor.mp ha y hy) (fun _ => h.bindAll _ _ _ hp hu) (hv x)

theorem call_succ {f : Function} {args : List Expr} {l : Location}
    (hb : L.Permits (f.body.uses p)) (hp : L.Permits (args.flatMap (Expr.usedFor .passed)))
    (ha : L.Permits (Expr.everyUses p args)) : L.Holds 1 (Run.call p (n + 1) f args l) := by
  rw [Run.call]
  split
  case isTrue => exact .throw rfl
  case isFalse =>
    rw [← bind_assoc]
    refine .bind (L.holds_call (h.bindAll f.name _ {} ?_ ?_) (h.block _ hb)) fun signal => ?_
    · exact fun q hq => permits_flatMap.mp hp _ (List.of_mem_zip hq).2
    · exact fun q hq => Expr.permits_everyUses.mp ha _ (List.of_mem_zip hq).2
    · cases signal <;> exact .pure

theorem statement_succ {s : Stmt} (hs : L.Permits (s.uses p)) :
    L.Holds 0 (Run.statement p (n + 1) s) := by
  cases s
  all_goals simp only [Stmt.uses, permits_append, permits_cons] at hs
  case expr => exact (h.eval _ hs).clause.bind fun _ => .pure
  case «if» => exact h.branch _ _ hs
  case «while» => exact h.whileLoop _ _ hs.1 hs.2
  case doWhile => exact h.doLoop _ _ hs.1 hs.2
  case «for» init test update body _ =>
    have hl := h.forLoop _ _ _ hs.1.1.2 hs.1.2 hs.2
    cases init
    case none => exact hl
    case some e =>
      have he := Expr.permits_optionUses.mp hs.1.1.1 e rfl
      exact (h.eval _ he).clause.bind fun _ => hl
  case forIn => exact .bind .keys fun _ => h.forEach _ _ _ _ hs.1 hs.2
  case «break» | «continue» => exact .pure
  case «return» value _ =>
    cases value
    case none => exact .pure
    case some e => exact (h.eval _ (Expr.permits_optionUses.mp hs e rfl)).clause.bind fun _ => .pure
  case delete array index _ =>
    cases index
    case none => exact .bind (.delete hs.1) fun _ => .pure
    case some e =>
      refine (h.eval _ (Expr.permits_optionUses.mp hs.2 e rfl)).clause.bind fun _ => ?_
      exact .bind (.delete hs.1) fun _ => .pure

theorem branch_succ {c : Clause} {b : Branch} (hb : L.Permits (b.uses p)) :
    L.Holds 0 (Run.branch p (n + 1) c b) := by
  obtain ⟨test, action, otherwise, _⟩ := b
  simp only [Branch.uses, permits_append] at hb
  refine Holds.closed.branch (h.eval _ hb.1.1).clause (h.block _ hb.1.2) ?_ ?_
  all_goals rintro b rfl
  · exact h.block _ hb.2
  · exact h.branch _ _ hb.2

theorem block_succ {b : Block} (hb : L.Permits (b.uses p)) :
    L.Holds 0 (Run.block p (n + 1) b) := by
  obtain ⟨statements, _⟩ := b
  exact h.statements _ hb

theorem statements_succ {ss : List Stmt} (hs : L.Permits (Stmt.everyUses p ss)) :
    L.Holds 0 (Run.statements p (n + 1) ss) := by
  cases ss
  case nil => exact .pure
  case cons =>
    obtain ⟨hs, hss⟩ := permits_append.mp hs
    exact Holds.closed.statements (h.statement _ hs) (h.statements _ hss)

theorem whileLoop_succ {e : Expr} {b : Block} (he : L.Permits (e.uses p))
    (hb : L.Permits (b.uses p)) : L.Holds 0 (Run.whileLoop p (n + 1) e b) :=
  Holds.closed.whileLoop (h.eval e he).clause (h.block b hb) (h.whileLoop e b he hb)

theorem doLoop_succ {b : Block} {e : Expr} (hb : L.Permits (b.uses p))
    (he : L.Permits (e.uses p)) : L.Holds 0 (Run.doLoop p (n + 1) b e) :=
  Holds.closed.doLoop (h.block b hb) (h.eval e he).clause (h.doLoop b e hb he)

theorem forLoop_succ {test update : Option Expr} {b : Block}
    (ht : L.Permits (Expr.optionUses p test)) (hu : L.Permits (Expr.optionUses p update))
    (hb : L.Permits (b.uses p)) : L.Holds 0 (Run.forLoop p (n + 1) test update b) := by
  refine Holds.closed.forLoop ?_ ?_ (h.block b hb) (h.forLoop test update b ht hu hb)
  · exact fun e he => (h.eval e (Expr.permits_optionUses.mp ht e he)).clause
  · exact fun e he => (h.eval e (Expr.permits_optionUses.mp hu e he)).clause

theorem forEach_succ {x : String} {keys : List String} {b : Block} {l : Location}
    (hx : L.may .assigned x) (hb : L.Permits (b.uses p)) :
    L.Holds 0 (Run.forEach p (n + 1) x keys b l) := by
  cases keys
  case nil => exact .pure
  case cons =>
    exact Holds.closed.forEach (.setScalar hx) (h.block b hb) (h.forEach _ _ _ _ hx hb)

end Covers

theorem covers (hp : L.Permits p.uses) : (n : Nat) → L.Covers p n
  | 0     => .zero
  | n + 1 =>
    have h := covers hp n
    { eval         := fun _ => h.eval_succ hp
      evalTarget   := fun _ => h.evalTarget_succ
      evalAll      := fun _ => h.evalAll_succ
      evalPattern  := fun _ => h.evalPattern_succ
      evalOrRecord := fun _ => h.evalOrRecord_succ
      provided     := fun _ _ _ => h.provided_succ
      substituted  := fun _ _ _ _ => h.substituted_succ
      call         := fun _ _ _ => h.call_succ
      bindAll      := fun _ _ _ => h.bindAll_succ
      statement    := fun _ => h.statement_succ
      branch       := fun _ _ => h.branch_succ
      block        := fun _ => h.block_succ
      statements   := fun _ => h.statements_succ
      whileLoop    := fun _ _ => h.whileLoop_succ
      doLoop       := fun _ _ => h.doLoop_succ
      forLoop      := fun _ _ _ => h.forLoop_succ
      forEach      := fun _ _ _ _ => h.forEach_succ }

end Logic

end PatternAction
