import PatternAction.Proofs.Run.Evaluation
import PatternAction.Proofs.Run.Mirror

namespace PatternAction

open Renaming

-- A target and the same target under other names.
inductive Target.Renamed (σ : Renaming) : Target → Target → Prop
  | name    : σ.domain x → Renamed σ (.name x) (.name (σ.map x))
  | element : σ.domain x → Renamed σ (.element x key) (.element (σ.map x) key)
  | field   : Renamed σ (.field x) (.field x)

-- The frames of a call once it has bound some parameters, beside the names that it had bound.
structure Frame.Ready (φ : List Renaming) (σ : Renaming) (frame : Frame) (ps : List (Expr × Expr))
    (f f' : Frame) : Prop where
  renamed : f.Renamed φ φ.length σ f'
  kept    : ∀ x, frame.binds x → f.binds x
  bound   : ∀ q ∈ ps, ∀ x, q.1.plainName? = some x → f.binds x

theorem Frame.Ready.cons {φ : List Renaming} {σ : Renaming} {frame g f f' : Frame} {x : String}
    {q : Expr × Expr} {ps : List (Expr × Expr)} (h : Frame.Ready φ σ g ps f f')
    (hx : q.1.plainName? = some x) (hg : ∀ y, g.binds y ↔ y = x ∨ frame.binds y) :
    Frame.Ready φ σ frame (q :: ps) f f' where
  renamed := h.renamed
  kept y hy := h.kept y ((hg y).mpr (.inr hy))
  bound := by
    refine List.forall_mem_cons.mpr ⟨fun y hy => ?_, h.bound⟩
    exact h.kept y ((hg y).mpr (.inl (Option.some.inj (hy.symm.trans hx))))

namespace Run

namespace Mirrors

variable {φ : List Renaming} {α β : Type} {l : Location} {t t' : Target} {v : Value}

theorem readTarget (h : t.Renamed (top φ) t') :
    Mirrors φ Eq (readTarget l t) (readTarget l t') := by
  cases h
  case name hx => exact scalar hx
  case element hx => exact element hx
  case field => exact field

theorem writeTarget (h : t.Renamed (top φ) t') :
    Mirrors φ Eq (writeTarget v l t) (writeTarget v l t') := by
  cases h
  case name hx => exact setScalar hx
  case element hx => exact setElement hx
  case field => exact setField

theorem arrayName {function : String} {e : Expr} (he : e.usesOnly (top φ).domain) :
    Mirrors φ (fun x x' => (top φ).domain x ∧ x' = (top φ).map x) (arrayName function e)
      (arrayName function (e.rename (top φ).map)) := by
  unfold Run.arrayName
  rw [Expr.plainName?_rename, Expr.location_rename]
  cases hx : e.plainName?
  case none => exact throw rfl
  case some => exact pure ⟨Expr.isNamed_of_plainName? he hx, rfl⟩

theorem guard {x x' : Run α} {a : α} (h : Mirrors φ Eq x x') :
    Mirrors φ Eq (do if ← Run.isHalted then return a else x)
      (do if ← Run.isHalted then return a else x') := by
  refine isHalted.andThen fun halted => ?_
  cases halted
  case true => exact pure rfl
  case false => exact h

theorem round {x x' y y' : Run Signal} (hx : Mirrors φ Eq x x') (hy : Mirrors φ Eq y y') :
    Mirrors φ Eq
      (do match ← x with
        | .normal | .continue => y
        | .break => return .normal
        | .return v => return .return v)
      (do match ← x' with
        | .normal | .continue => y'
        | .break => return .normal
        | .return v => return .return v) := by
  refine hx.andThen fun signal => ?_
  cases signal
  case normal | «continue» => exact hy
  case «break» | «return» => exact pure rfl

end Mirrors

variable [Patterns]

-- All parts of the evaluator do the same in two programs, up to some number of nested steps.
structure Simulates (p p' : Program) (n : Nat) : Prop where
  eval         : ∀ φ e, e.usesOnly (top φ).domain →
                   Mirrors φ Eq (eval p n e) (eval p' n (e.rename (top φ).map))
  evalTarget   : ∀ φ e, e.usesOnly (top φ).domain →
                   Mirrors φ (Target.Renamed (top φ)) (evalTarget p n e)
                     (evalTarget p' n (e.rename (top φ).map))
  evalAll      : ∀ φ es, Expr.everyUsesOnly (top φ).domain es →
                   Mirrors φ Eq (evalAll p n es) (evalAll p' n (Expr.everyRename (top φ).map es))
  evalPattern  : ∀ φ e, e.usesOnly (top φ).domain →
                   Mirrors φ Eq (evalPattern p n e) (evalPattern p' n (e.rename (top φ).map))
  evalOrRecord : ∀ φ (o : Option Expr), o.all (Expr.usesOnly (top φ).domain) →
                   Mirrors φ Eq (evalOrRecord p n o)
                     (evalOrRecord p' n (o.map (Expr.rename (top φ).map)))
  provided     : ∀ φ b args l, Expr.everyUsesOnly (top φ).domain args → b.accepts args.length →
                   Mirrors φ Eq (provided p n b args l)
                     (provided p' n b (Expr.everyRename (top φ).map args) l)
  substituted  : ∀ φ all source replacement (target : Option Expr),
                   source.usesOnly (top φ).domain → replacement.usesOnly (top φ).domain →
                   target.all (Expr.usesOnly (top φ).domain) →
                   Mirrors φ Eq (substituted p n all source replacement target)
                     (substituted p' n all (source.rename (top φ).map)
                       (replacement.rename (top φ).map) (target.map (Expr.rename (top φ).map)))
  call         : ∀ φ σ f f' args l, f.Renamed σ f' → Expr.everyUsesOnly (top φ).domain args →
                   Mirrors φ Eq (call p n f args l)
                     (call p' n f' (Expr.everyRename (top φ).map args) l)
  bindAll      : ∀ φ σ function (ps : List (Expr × Expr)) frame frame',
                   (∀ q ∈ ps, q.1.usesOnly σ.domain) →
                   (∀ q ∈ ps, q.2.usesOnly (top φ).domain) →
                   frame.Renamed φ φ.length σ frame' →
                   Mirrors φ (Frame.Ready φ σ frame ps) (bindAll p n function ps frame)
                     (bindAll p' n function
                       (ps.map (Prod.map (Expr.rename σ.map) (Expr.rename (top φ).map))) frame')
  statement    : ∀ φ s, s.usesOnly (top φ).domain →
                   Mirrors φ Eq (statement p n s) (statement p' n (s.rename (top φ).map))
  branch       : ∀ φ c b, b.usesOnly (top φ).domain →
                   Mirrors φ Eq (branch p n c b) (branch p' n c (b.rename (top φ).map))
  block        : ∀ φ b, b.usesOnly (top φ).domain →
                   Mirrors φ Eq (block p n b) (block p' n (b.rename (top φ).map))
  statements   : ∀ φ ss, Stmt.everyUsesOnly (top φ).domain ss →
                   Mirrors φ Eq (statements p n ss)
                     (statements p' n (Stmt.everyRename (top φ).map ss))
  whileLoop    : ∀ φ e b, e.usesOnly (top φ).domain → b.usesOnly (top φ).domain →
                   Mirrors φ Eq (whileLoop p n e b)
                     (whileLoop p' n (e.rename (top φ).map) (b.rename (top φ).map))
  doLoop       : ∀ φ b e, b.usesOnly (top φ).domain → e.usesOnly (top φ).domain →
                   Mirrors φ Eq (doLoop p n b e)
                     (doLoop p' n (b.rename (top φ).map) (e.rename (top φ).map))
  forLoop      : ∀ φ (test update : Option Expr) b, test.all (Expr.usesOnly (top φ).domain) →
                   update.all (Expr.usesOnly (top φ).domain) → b.usesOnly (top φ).domain →
                   Mirrors φ Eq (forLoop p n test update b)
                     (forLoop p' n (test.map (Expr.rename (top φ).map))
                       (update.map (Expr.rename (top φ).map)) (b.rename (top φ).map))
  forEach      : ∀ φ x keys b l, (top φ).domain x → b.usesOnly (top φ).domain →
                   Mirrors φ Eq (forEach p n x keys b l)
                     (forEach p' n ((top φ).map x) keys (b.rename (top φ).map) l)

namespace Simulates

variable {p p' : Program} {n : Nat} {φ : List Renaming}

theorem zero : Simulates p p' 0 := by
  constructor
  all_goals
    intros
    exact Mirrors.throw rfl

variable (h : Simulates p p' n)
include h

theorem eval_succ (hp : p.Renamed p') {e : Expr} (he : e.usesOnly (top φ).domain) :
    Mirrors φ Eq (Run.eval p (n + 1) e) (Run.eval p' (n + 1) (e.rename (top φ).map)) := by
  cases e
  all_goals simp only [Expr.all, Bool.and_eq_true] at he
  case constant => exact .pure rfl
  case pattern => exact .throw rfl
  case name => exact .scalar he
  case element => exact (h.eval _ _ he.2).andThen fun _ => .element he.1
  case field =>
    exact (h.eval _ _ he.2).andThen fun _ => .andThen .fieldName fun _ => .field
  case binary op left right _ =>
    obtain ⟨⟨_, hl⟩, hr⟩ := he
    cases op
    case and | or =>
      refine (h.eval _ _ hl).andThen fun v => ?_
      cases v.isTrue
      all_goals first
        | exact .pure rfl
        | exact (h.eval _ _ hr).andThen fun _ => .pure rfl
    case concat | comparison =>
      exact (h.eval _ _ hl).andThen fun _ => (h.eval _ _ hr).andThen fun _ => .pure rfl
    case arithmetic =>
      refine (h.eval _ _ hl).andThen fun _ => (h.eval _ _ hr).andThen fun _ => ?_
      exact .andThen .arithmetic fun _ => .pure rfl
  case unary => exact (h.eval _ _ he.2).andThen fun _ => .pure rfl
  case assign =>
    refine (h.evalTarget _ _ he.1.2).bind fun _ _ ht => (h.eval _ _ he.2).andThen fun _ => ?_
    exact .andThen (.writeTarget ht) fun _ => .pure rfl
  case step =>
    refine (h.evalTarget _ _ he.2).bind fun _ _ ht => .andThen (.readTarget ht) fun _ => ?_
    exact .andThen (.writeTarget ht) fun _ => .pure rfl
  case conditional =>
    refine (h.eval _ _ he.1.1.2).andThen fun v => ?_
    cases v.isTrue
    case true => exact h.eval _ _ he.1.2
    case false => exact h.eval _ _ he.2
  case call function args _ =>
    rw [Expr.rename, Run.eval, Run.eval, Expr.length_everyRename]
    rcases hp.function? function with ⟨hf, hf'⟩ | ⟨f, f', σ, hf, hf', hr⟩
    all_goals rw [hf, hf']
    case inr => exact h.call _ _ _ _ _ _ hr he.2
    case inl =>
      cases Builtin.ofName? function
      case none => exact .throw rfl
      case some b =>
        dsimp only
        split
        case isTrue ha => exact h.provided _ _ _ _ he.2 ha
        case isFalse => exact .throw rfl
  case member key array _ =>
    rw [Expr.rename, Run.eval, Run.eval, Expr.plainName?_rename, Expr.location_rename]
    cases hx : array.plainName?
    case none => exact .throw rfl
    case some =>
      have hx := Expr.isNamed_of_plainName? he.2 hx
      exact (h.eval _ _ he.1.2).andThen fun _ => .andThen (.hasElement hx) fun _ => .pure rfl
  case search =>
    exact (h.eval _ _ he.2).andThen fun _ => .andThen .pattern fun _ => .pure rfl

theorem evalTarget_succ {e : Expr} (he : e.usesOnly (top φ).domain) :
    Mirrors φ (Target.Renamed (top φ)) (Run.evalTarget p (n + 1) e)
      (Run.evalTarget p' (n + 1) (e.rename (top φ).map)) := by
  cases e
  all_goals simp only [Expr.all, Bool.and_eq_true] at he
  case name => exact .pure (.name he)
  case element => exact (h.eval _ _ he.2).andThen fun _ => .pure (.element he.1)
  case field =>
    exact (h.eval _ _ he.2).andThen fun _ => .andThen .fieldName fun _ => .pure .field
  all_goals exact .throw rfl

theorem evalAll_succ {es : List Expr} (he : Expr.everyUsesOnly (top φ).domain es) :
    Mirrors φ Eq (Run.evalAll p (n + 1) es)
      (Run.evalAll p' (n + 1) (Expr.everyRename (top φ).map es)) := by
  cases es
  case nil => exact .pure rfl
  case cons =>
    simp only [Expr.everyAll, Bool.and_eq_true] at he
    exact (h.eval _ _ he.1).andThen fun _ => (h.evalAll _ _ he.2).andThen fun _ => .pure rfl

theorem evalPattern_succ {e : Expr} (he : e.usesOnly (top φ).domain) :
    Mirrors φ Eq (Run.evalPattern p (n + 1) e)
      (Run.evalPattern p' (n + 1) (e.rename (top φ).map)) := by
  cases e
  case pattern => exact .pure rfl
  all_goals exact (h.eval _ _ he).andThen fun _ => .pure rfl

theorem evalOrRecord_succ {o : Option Expr} (ho : o.all (Expr.usesOnly (top φ).domain)) :
    Mirrors φ Eq (Run.evalOrRecord p (n + 1) o)
      (Run.evalOrRecord p' (n + 1) (o.map (Expr.rename (top φ).map))) := by
  cases o
  case none => exact .field
  case some => exact h.eval _ _ ho

theorem provided_succ {b : Builtin} {args : List Expr} {l : Location}
    (ha : Expr.everyUsesOnly (top φ).domain args) (hb : b.accepts args.length) :
    Mirrors φ Eq (Run.provided p (n + 1) b args l)
      (Run.provided p' (n + 1) b (Expr.everyRename (top φ).map args) l) := by
  rw [Expr.everyAll_eq_true] at ha
  cases Builtin.takes_of_accepts hb
  case record =>
    refine .andThen .field fun _ => .andThen .global fun _ => ?_
    exact .andThen .write fun _ => .pure rfl
  case print =>
    refine (h.evalAll _ _ (Expr.everyAll_eq_true.mpr ha)).andThen fun _ => ?_
    exact .andThen .global fun _ => .andThen .write fun _ => .pure rfl
  case printf =>
    rw [List.forall_mem_cons] at ha
    refine (h.eval _ _ ha.1).andThen fun _ => ?_
    refine (h.evalAll _ _ (Expr.everyAll_eq_true.mpr ha.2)).andThen fun _ => ?_
    exact .andThen .write fun _ => .pure rfl
  case getline | next => exact .andThen .loadRecord fun _ => .pure rfl
  case nextfile => exact .andThen .skipRecords fun _ => .pure rfl
  case exit => exact .andThen .halt fun _ => .pure rfl
  case exitWith code =>
    refine (h.eval _ _ (ha code (by simp))).andThen fun _ => ?_
    exact .andThen .setExitCode fun _ => .andThen .halt fun _ => .pure rfl
  case gsub source replacement target | sub source replacement target =>
    have ht (all : Bool) :=
      h.substituted φ all source replacement target.head? (ha _ (by simp)) (ha _ (by simp))
    cases target
    case nil => exact ht _ rfl
    case cons => exact ht _ (ha _ (by simp))
  case «match» =>
    refine (h.eval _ _ (ha _ (by simp))).andThen fun v => ?_
    refine (h.evalPattern _ _ (ha _ (by simp))).andThen fun _ => .andThen .pattern fun q => ?_
    cases q.find? v.text.toList.toArray <;> exact .pure rfl
  case index =>
    refine (h.eval _ _ (ha _ (by simp))).andThen fun _ => ?_
    exact (h.eval _ _ (ha _ (by simp))).andThen fun _ => .pure rfl
  case length =>
    have ho := h.evalOrRecord φ args.head?
    cases args
    case nil => exact (ho rfl).andThen fun _ => .pure rfl
    case cons => exact (ho (ha _ (by simp))).andThen fun _ => .pure rfl
  case split text array options =>
    refine (h.eval _ _ (ha _ (by simp))).andThen fun _ => ?_
    refine (Mirrors.arrayName (ha array (by simp))).bind fun _ _ ⟨hx, hx'⟩ => ?_
    subst hx'
    rcases options with _ | ⟨sep, _ | ⟨seps, rest⟩⟩
    case nil =>
      refine .andThen .global fun _ => .pure_bind (.pure_bind ?_)
      exact .andThen .split fun (_, _) => .andThen (.setArray hx) fun _ => .pure rfl
    case cons.nil =>
      refine (h.evalPattern _ _ (ha sep (by simp))).andThen fun _ => .pure_bind ?_
      exact .andThen .split fun (_, _) => .andThen (.setArray hx) fun _ => .pure rfl
    case cons.cons =>
      refine (h.evalPattern _ _ (ha sep (by simp))).andThen fun _ => ?_
      refine (Mirrors.arrayName (ha seps (by simp))).some.bind ?_
      rintro _ _ ⟨y, _, rfl, rfl, hy, rfl⟩
      refine .andThen .split fun (_, _) => .andThen (.setArray hx) fun _ => ?_
      exact .andThen (.setArray hy) fun _ => .pure rfl
  case substr =>
    refine (h.eval _ _ (ha _ (by simp))).andThen fun _ => ?_
    exact (h.eval _ _ (ha _ (by simp))).andThen fun _ => .pure rfl
  case substrWithin =>
    refine (h.eval _ _ (ha _ (by simp))).andThen fun _ => ?_
    refine (h.eval _ _ (ha _ (by simp))).andThen fun _ => ?_
    exact (h.eval _ _ (ha _ (by simp))).andThen fun _ => .pure rfl
  case tolower | toupper => exact (h.eval _ _ (ha _ (by simp))).andThen fun _ => .pure rfl

theorem substituted_succ {all : Bool} {source replacement : Expr} {target : Option Expr}
    (hs : source.usesOnly (top φ).domain) (hr : replacement.usesOnly (top φ).domain)
    (ht : target.all (Expr.usesOnly (top φ).domain)) :
    Mirrors φ Eq (Run.substituted p (n + 1) all source replacement target)
      (Run.substituted p' (n + 1) all (source.rename (top φ).map)
        (replacement.rename (top φ).map) (target.map (Expr.rename (top φ).map))) := by
  refine (h.evalPattern _ _ hs).andThen fun _ => (h.eval _ _ hr).andThen fun _ => ?_
  refine (h.evalOrRecord _ _ ht).andThen fun _ => .andThen .pattern fun _ => ?_
  exact .andThen .setField fun _ => .pure rfl

-- An array of the caller is handed over under the name that the caller has for it, and the callee
-- gets it under its own.
theorem bindAll_succ {σ : Renaming} {function : String} {ps : List (Expr × Expr)}
    {frame frame' : Frame} (hps : ∀ q ∈ ps, q.1.usesOnly σ.domain)
    (has : ∀ q ∈ ps, q.2.usesOnly (top φ).domain) (hf : frame.Renamed φ φ.length σ frame') :
    Mirrors φ (Frame.Ready φ σ frame ps) (Run.bindAll p (n + 1) function ps frame)
      (Run.bindAll p' (n + 1) function
        (ps.map (Prod.map (Expr.rename σ.map) (Expr.rename (top φ).map))) frame') := by
  cases ps
  case nil => exact .pure ⟨hf, fun _ hx => hx, by simp⟩
  case cons q rest =>
    obtain ⟨param, arg⟩ := q
    obtain ⟨hp, hps⟩ := List.forall_mem_cons.mp hps
    obtain ⟨ha, has⟩ := List.forall_mem_cons.mp has
    rw [List.map_cons, Prod.map_apply, Run.bindAll, Run.bindAll, Expr.plainName?_rename]
    cases hx : param.plainName?
    case none =>
      rw [Expr.location_rename]
      exact .throw rfl
    case some x =>
      have hd := Expr.isNamed_of_plainName? hp hx
      -- However the first parameter is bound, the others are bound after it.
      have hr {g g' : Frame} (hg : g.Renamed φ φ.length σ g')
          (hb : ∀ y, g.binds y ↔ y = x ∨ frame.binds y) :=
        (h.bindAll _ _ function _ _ _ hps has hg).mono fun _ _ hk =>
          hk.cons (q := (param, arg)) hx hb
      refine .bind .environment fun e e' he => ?_
      have hv := (h.eval _ _ ha).andThen fun v =>
        hr (hf.insertLocal (c := .scalar v) hd) fun _ => Frame.binds_insertLocal
      rw [Expr.plainName?_rename]
      cases hy : arg.plainName?
      case none => exact hv
      case some y =>
        have hn := Expr.isNamed_of_plainName? ha hy
        obtain ⟨hres, hw⟩ := he.resolve hn
        simp only [Option.map_some, Option.bind_some, he.lookup hn]
        rcases e.lookup y with _ | _ | _
        case none | some.scalar => exact hv
        case some.array =>
          exact hr (hres ▸ hf.insertAlias hd hw) fun _ => Frame.binds_insertAlias

theorem call_succ {σ : Renaming} {f f' : Function} {args : List Expr} {l : Location}
    (hf : f.Renamed σ f') (ha : Expr.everyUsesOnly (top φ).domain args) :
    Mirrors φ Eq (Run.call p (n + 1) f args l)
      (Run.call p' (n + 1) f' (Expr.everyRename (top φ).map args) l) := by
  obtain ⟨rfl, hu, hm⟩ := hf
  simp only [Function.usesOnly, Function.all, Bool.and_eq_true, List.all_eq_true] at hu
  rw [Run.call, Run.call, Function.rename, Expr.length_everyRename, Expr.length_everyRename]
  split
  case isTrue => exact .throw rfl
  case isFalse hl =>
    have hps : ∀ q ∈ f.params.zip args, q.1.usesOnly σ.domain := fun q hq =>
      hu.1 _ (List.of_mem_zip hq).1
    have has : ∀ q ∈ f.params.zip args, q.2.usesOnly (top φ).domain := fun q hq =>
      Expr.everyAll_eq_true.mp ha _ (List.of_mem_zip hq).2
    have hb := h.bindAll φ σ f.name _ {} {} hps has .empty
    rw [← List.zip_map, ← Expr.everyRename_eq_map, ← Expr.everyRename_eq_map] at hb
    refine hb.bind fun g g' hg => ?_
    -- There are as many arguments as parameters, so every parameter is bound.
    have hc : g.Covers σ := by
      intro x hx hx'
      obtain ⟨e, he, hex⟩ := hm x hx hx'
      rw [← List.map_fst_zip (Nat.le_of_eq (not_not.mp hl).symm), List.mem_map] at he
      obtain ⟨q, hq, hqe⟩ := he
      exact hg.bound q hq x (hqe ▸ hex)
    refine (Mirrors.withFrame hg.renamed hc (h.block (σ :: φ) _ hu.2)).andThen fun signal => ?_
    cases signal <;> exact .pure rfl

theorem optional {o : Option Expr} {x x' : Run Signal} (c : Clause)
    (ho : o.all (Expr.usesOnly (top φ).domain)) (hx : Mirrors φ Eq x x') :
    Mirrors φ Eq
      (do
        if let some e := o then
          let _ ← clause c (Run.eval p n e)
        x)
      (do
        if let some e := o.map (Expr.rename (top φ).map) then
          let _ ← clause c (Run.eval p' n e)
        x') := by
  cases o
  case none => exact hx
  case some => exact (h.eval _ _ ho).clause.andThen fun _ => hx

theorem statement_succ {s : Stmt} (hs : s.usesOnly (top φ).domain) :
    Mirrors φ Eq (Run.statement p (n + 1) s)
      (Run.statement p' (n + 1) (s.rename (top φ).map)) := by
  cases s
  all_goals simp only [Stmt.all, Bool.and_eq_true] at hs
  case expr => exact (h.eval _ _ hs.2).clause.andThen fun _ => .pure rfl
  case «if» => exact h.branch _ _ _ hs.2
  case «while» => exact h.whileLoop _ _ _ hs.1.2 hs.2
  case doWhile => exact h.doLoop _ _ _ hs.1.2 hs.2
  case «for» =>
    exact h.optional _ hs.1.1.1.2 (h.forLoop _ _ _ _ hs.1.1.2 hs.1.2 hs.2)
  case forIn =>
    simp only [Stmt.isNamed, Bool.and_eq_true] at hs
    exact .andThen (.keys hs.1.2) fun _ => h.forEach _ _ _ _ _ hs.1.1 hs.2
  case «break» | «continue» => exact .pure rfl
  case «return» value _ =>
    cases value
    case none => exact .pure rfl
    case some => exact (h.eval _ _ hs.2).clause.andThen fun _ => .pure rfl
  case delete array index _ =>
    cases index
    case none => exact .andThen (.delete hs.1) fun _ => .pure rfl
    case some =>
      exact (h.eval _ _ hs.2).clause.andThen fun _ => .andThen (.delete hs.1) fun _ => .pure rfl

theorem branch_succ {c : Clause} {b : Branch} (hb : b.usesOnly (top φ).domain) :
    Mirrors φ Eq (Run.branch p (n + 1) c b)
      (Run.branch p' (n + 1) c (b.rename (top φ).map)) := by
  obtain ⟨test, action, otherwise, _⟩ := b
  simp only [Branch.all, Bool.and_eq_true] at hb
  refine (h.eval _ _ hb.1.1).clause.andThen fun v => ?_
  cases v.isTrue
  case true => exact h.block _ _ hb.1.2
  case false =>
    cases otherwise
    case nothing => exact .pure rfl
    case block => exact h.block _ _ hb.2
    case branch => exact h.branch _ _ _ hb.2

theorem block_succ {b : Block} (hb : b.usesOnly (top φ).domain) :
    Mirrors φ Eq (Run.block p (n + 1) b) (Run.block p' (n + 1) (b.rename (top φ).map)) := by
  obtain ⟨statements, _⟩ := b
  exact h.statements _ _ hb

theorem statements_succ {ss : List Stmt} (hs : Stmt.everyUsesOnly (top φ).domain ss) :
    Mirrors φ Eq (Run.statements p (n + 1) ss)
      (Run.statements p' (n + 1) (Stmt.everyRename (top φ).map ss)) := by
  cases ss
  case nil => exact .pure rfl
  case cons =>
    simp only [Stmt.everyAll, Bool.and_eq_true] at hs
    refine .guard ((h.statement _ _ hs.1).andThen fun signal => ?_)
    cases signal
    case normal => exact h.statements _ _ hs.2
    all_goals exact .pure rfl

theorem whileLoop_succ {e : Expr} {b : Block} (he : e.usesOnly (top φ).domain)
    (hb : b.usesOnly (top φ).domain) :
    Mirrors φ Eq (Run.whileLoop p (n + 1) e b)
      (Run.whileLoop p' (n + 1) (e.rename (top φ).map) (b.rename (top φ).map)) := by
  refine .guard ((h.eval _ e he).clause.andThen fun v => ?_)
  cases v.isTrue
  case false => exact .pure rfl
  case true => exact (h.block _ b hb).round (h.whileLoop _ e b he hb)

theorem doLoop_succ {b : Block} {e : Expr} (hb : b.usesOnly (top φ).domain)
    (he : e.usesOnly (top φ).domain) :
    Mirrors φ Eq (Run.doLoop p (n + 1) b e)
      (Run.doLoop p' (n + 1) (b.rename (top φ).map) (e.rename (top φ).map)) := by
  refine (h.block _ b hb).round (.guard ((h.eval _ e he).clause.andThen fun v => ?_))
  cases v.isTrue
  case false => exact .pure rfl
  case true => exact h.doLoop _ b e hb he

theorem forLoop_succ {test update : Option Expr} {b : Block}
    (ht : test.all (Expr.usesOnly (top φ).domain)) (hu : update.all (Expr.usesOnly (top φ).domain))
    (hb : b.usesOnly (top φ).domain) :
    Mirrors φ Eq (Run.forLoop p (n + 1) test update b)
      (Run.forLoop p' (n + 1) (test.map (Expr.rename (top φ).map))
        (update.map (Expr.rename (top φ).map)) (b.rename (top φ).map)) := by
  have hr := h.optional .update hu (h.forLoop _ test update b ht hu hb)
  refine .guard ?_
  cases test
  case none => exact (h.block _ b hb).round hr
  case some e =>
    refine (h.eval _ e ht).clause.andThen fun v => .pure_bind ?_
    cases v.isTrue
    case false => exact .pure rfl
    case true => exact (h.block _ b hb).round hr

theorem forEach_succ {x : String} {keys : List String} {b : Block} {l : Location}
    (hx : (top φ).domain x) (hb : b.usesOnly (top φ).domain) :
    Mirrors φ Eq (Run.forEach p (n + 1) x keys b l)
      (Run.forEach p' (n + 1) ((top φ).map x) keys (b.rename (top φ).map) l) := by
  cases keys
  case nil => exact .pure rfl
  case cons =>
    refine .guard (.andThen (.setScalar hx) fun _ => ?_)
    exact (h.block _ b hb).round (h.forEach _ _ _ _ _ hx hb)

end Simulates

theorem simulates {p p' : Program} (hp : p.Renamed p') : (n : Nat) → Simulates p p' n
  | 0     => .zero
  | n + 1 =>
    have h := simulates hp n
    { eval         := fun _ _ => h.eval_succ hp
      evalTarget   := fun _ _ => h.evalTarget_succ
      evalAll      := fun _ _ => h.evalAll_succ
      evalPattern  := fun _ _ => h.evalPattern_succ
      evalOrRecord := fun _ _ => h.evalOrRecord_succ
      provided     := fun _ _ _ _ => h.provided_succ
      substituted  := fun _ _ _ _ _ => h.substituted_succ
      call         := fun _ _ _ _ _ _ => h.call_succ
      bindAll      := fun _ _ _ _ _ _ => h.bindAll_succ
      statement    := fun _ _ => h.statement_succ
      branch       := fun _ _ _ => h.branch_succ
      block        := fun _ _ => h.block_succ
      statements   := fun _ _ => h.statements_succ
      whileLoop    := fun _ _ _ => h.whileLoop_succ
      doLoop       := fun _ _ _ => h.doLoop_succ
      forLoop      := fun _ _ _ _ => h.forLoop_succ
      forEach      := fun _ _ _ _ _ => h.forEach_succ }

end Run

end PatternAction
