import PatternAction.Proofs.Syntax.Layout
import PatternAction.Proofs.Syntax.RoundTrip

namespace PatternAction

open Parse Kind

variable {ending : Location} {n : Nat} {l : Level} {e : Expr} {k : Kind}
  {ks ks₁ ks₂ ks₃ : List Kind} {location : Location}

def Kind.closes : Kind → Bool
  | separator | symbol .comma | symbol .leftBrace | symbol .rightParen
  | symbol .rightBracket => true
  | _ => false

namespace Kind

theorem stops_of_closes (h : k.closes) : l.Stops k := by
  intro l' _
  unfold closes at h
  split at h <;> first | (cases l' <;> rfl) | cases h

theorem not_startsExpression_of_closes (h : k.closes) : k.startsExpression = false := by
  unfold closes at h
  split at h <;> first | rfl | cases h

end Kind

-- An expression can be read off some tokens.
def Expr.Read (e : Expr) (ks : List Kind) : Prop :=
  ∀ ending n, Enough n ks .assignment →
    Reads (expression ending n .assignment) ks (fun k => k.closes) e.Alike

namespace Expr.Read

theorem operand (h : e.Read ks) (hn : Enough n (enclosed ks) l) :
    Reads (expression ending n l) (enclosed ks) (l.StopsUpTo .primary) e.Alike := by
  refine reads_enclosed hn fun n hn => (h ending n hn).stop_of ?_
  rintro _ rfl
  rfl

theorem last (h : e.Read ks) (hn : Enough n (enclosed ks) l) :
    Reads (expression ending n l) (enclosed ks) (fun k => k.closes) e.Alike :=
  (h.operand hn).stop_of fun _ hk => (stops_of_closes hk).upTo

theorem of_level {u : Level} (hb : Begins ks u)
    (h : ∀ ending n, Enough (n + 1) ks u →
      Reads (expression ending (n + 1) u) ks (fun k => k.closes) e.Alike) : e.Read ks := by
  intro ending n hn
  have ⟨k, ks', hk, _, ho⟩ := hb
  subst hk
  refine reads_of_looser (Nat.zero_le _) (fun n hn => ?_)
    (fun _ hk => (stops_of_closes hk).upTo) ho hn
  have hr := u.rank_le
  obtain ⟨m, rfl⟩ : ∃ m, n = m + 1 := ⟨n - 1, by simp only [Enough, List.length_cons] at hn; omega⟩
  exact h ending m hn

theorem of_primary (hk : k.startsExpression) (ho : ∀ l : Level, l.opens k = false)
    (h : ∀ ending n, 32 * ks.length + 16 ≤ n →
      Reads (primary ending (n + 1)) (k :: ks) (fun k => k.closes) e.Alike) : e.Read (k :: ks) := by
  refine .of_level (u := .primary) ⟨k, ks, rfl, hk, fun l' _ => ho l'⟩ fun ending n hn => ?_
  simp only [Enough, List.length_cons, Level.rank] at hn
  obtain ⟨m, rfl⟩ : ∃ m, n = m + 1 := ⟨n - 1, by omega⟩
  rw [expression]
  exact h ending m (by omega)

theorem number (text : String) : (Expr.constant text location).Read [.number text] := by
  refine .of_primary rfl (fun l => by cases l <;> rfl) fun ending n hn => ?_
  rw [primary]
  exact .here fun _ => .peek_cons (.skip (.pure rfl))

theorem string (text : String) : (Expr.constant text location).Read [.string text] := by
  refine .of_primary rfl (fun l => by cases l <;> rfl) fun ending n hn => ?_
  rw [primary]
  exact .here fun _ => .peek_cons (.skip (.pure rfl))

theorem pattern (source : String) : (Expr.pattern source location).Read [.pattern source] := by
  refine .of_primary rfl (fun l => by cases l <;> rfl) fun ending n hn => ?_
  rw [primary]
  exact .here fun _ => .peek_cons (.skip (.pure rfl))

theorem name {x : String} (hx : x ≠ "length") : (Expr.name x location).Read [.word x] := by
  refine .of_primary rfl (fun l => by cases l <;> rfl) fun ending n hn => ?_
  obtain ⟨m, rfl⟩ : ∃ m, n = m + 1 := ⟨n - 1, by omega⟩
  rw [primary]
  refine .here fun _ => .peek_cons (.skip ?_)
  rw [named]
  refine .peek fun next hn => ?_
  have hn := (stops_of_closes hn (l := .primary)).takes
  simp only [Level.takes, Bool.or_eq_false_iff, decide_eq_false_iff_not] at hn
  simp only [headKind_nil]
  split
  case h_1 => exact absurd rfl hn.1
  case h_2 => exact absurd rfl hn.2
  case h_3 =>
    rw [if_neg hx]
    exact .pure rfl

theorem element {array : String} {index : Expr} (hi : index.Read ks) :
    (Expr.element array index location).Read
      (.word array :: .symbol .leftBracket :: (ks ++ [.symbol .rightBracket])) := by
  refine .of_primary rfl (fun l => by cases l <;> rfl) fun ending n hn => ?_
  simp only [List.length_cons, List.length_append] at hn
  obtain ⟨m, rfl⟩ : ∃ m, n = m + 1 := ⟨n - 1, by omega⟩
  rw [primary]
  refine .here fun _ => .peek_cons (.skip ?_)
  rw [named]
  refine .peek_cons (.skip ?_)
  refine (hi ending m ?_).bind (fun _ _ => rfl) fun _ h => .expect (.pure ?_)
  · simp only [Enough, Level.rank]
    omega
  · rw [Alike, unplaced, unplaced, h]

theorem field {index : Expr} (hi : index.Read ks) :
    (Expr.field index location).Read (.symbol .dollar :: enclosed ks) := by
  refine .of_level (u := .field) ⟨_, _, rfl, rfl, ?_⟩ fun ending n hn => ?_
  · intro l' h
    cases l' <;> first | rfl | simp [Level.rank] at h
  · rw [expression]
    refine .here fun _ => .accept ((hi.last ?_).bind_pure fun _ h => ?_)
    · simp only [Enough, List.length_cons, Level.rank] at hn ⊢
      omega
    · rw [Alike, unplaced, unplaced, h]

theorem unary {op : UnaryOp} {operand : Expr} (ho : operand.Read ks) :
    (Expr.unary op operand location).Read (.symbol op.symbol :: enclosed ks) := by
  have hu : (Kind.symbol op.symbol).unary? = some op := by cases op <;> rfl
  refine .of_level (u := .unary) ⟨_, _, rfl, by cases op <;> rfl, ?_⟩ fun ending n hn => ?_
  · intro l' h
    cases l' <;> first | rfl | simp [Level.rank] at h
  · rw [expression]
    refine .here fun _ => .peek_cons ?_
    rw [hu]
    refine .skip ((ho.last ?_).bind_pure fun _ h => ?_)
    · simp only [Enough, List.length_cons, Level.rank] at hn ⊢
      omega
    · rw [Alike, unplaced, unplaced, h]

theorem stepBefore {op : Step} {target : Expr} (hop : op.isBefore) (ht : target.Read ks) :
    (Expr.step op target location).Read (.symbol op.symbol :: enclosed ks) := by
  have hb : (Kind.symbol op.symbol).stepBefore? = some op := by cases op <;> first | rfl | cases hop
  have hu : (Kind.symbol op.symbol).unary? = none := by cases op <;> rfl
  refine .of_level (u := .unary) ⟨_, _, rfl, by cases op <;> rfl, ?_⟩ fun ending n hn => ?_
  · intro l' h
    cases l' <;> first | rfl | simp [Level.rank] at h
  · rw [expression]
    refine .here fun _ => .peek_cons ?_
    rw [hb, hu]
    refine .skip ((ht.last ?_).bind_pure fun _ h => ?_)
    · simp only [Enough, List.length_cons, Level.rank] at hn ⊢
      omega
    · rw [Alike, unplaced, unplaced, h]

theorem stepAfter {op : Step} {target : Expr} (hop : op.isBefore = false) (hi : target.isTarget)
    (ht : target.Read ks) :
    (Expr.step op target location).Read (enclosed ks ++ [.symbol op.symbol]) := by
  have ha : (Kind.symbol op.symbol).stepAfter? = some op := by cases op <;> first | rfl | cases hop
  refine .of_level (u := .suffix) Begins.enclosed.append fun ending n hn => ?_
  rw [expression]
  refine (ht.operand ?_).bind ?_ fun e he => .here fun _ => .peek_cons ?_
  · simp only [Enough, List.length_append, List.length_singleton, Level.rank] at hn ⊢
    omega
  · intro _ _ l' h' _
    cases l' <;> first | (cases op <;> rfl) | simp [Level.rank] at h'
  · have hi' : e.isTarget := by rw [← isTarget_unplaced, he, isTarget_unplaced, hi]
    simp only [ha, if_pos hi']
    refine .skip (.pure ?_)
    rw [Alike, unplaced, unplaced, he]

theorem assign {target value : Expr} (ht : target.Read ks₁) (hv : value.Read ks₂) :
    (Expr.assign target value location).Read (enclosed ks₁ ++ .symbol .assign :: enclosed ks₂) := by
  refine .of_level (u := .assignment) Begins.enclosed.append fun ending n hn => ?_
  simp only [Enough, List.length_append, List.length_cons, Level.rank] at hn
  rw [expression]
  refine (ht.operand ?_).bind ?_ fun _ h₁ => .here fun _ => .peek_cons ?_
  · simp only [Enough, Level.rank]
    omega
  · intro _ _ l' h' _
    cases l' <;> first | rfl | simp [Level.rank] at h'
  refine .skip ((hv.last ?_).bind_pure fun _ h₂ => ?_)
  · simp only [Enough, Level.rank]
    omega
  · rw [Alike, unplaced, unplaced, h₁, h₂]

theorem conditional {test yes no : Expr} (ht : test.Read ks₁) (hy : yes.Read ks₂)
    (hn : no.Read ks₃) :
    (Expr.conditional test yes no location).Read (enclosed ks₁ ++
      .symbol .question :: (enclosed ks₂ ++ .symbol .colon :: enclosed ks₃)) := by
  refine .of_level (u := .conditional) Begins.enclosed.append fun ending n hn' => ?_
  simp only [Enough, List.length_append, List.length_cons, Level.rank] at hn'
  rw [expression]
  refine (ht.operand ?_).bind ?_ fun _ h₁ => .here fun _ => .accept ?_
  · simp only [Enough, Level.rank]
    omega
  · intro _ _ l' h' _
    cases l' <;> first | rfl | simp [Level.rank] at h'
  refine (hy.operand ?_).bind ?_ fun _ h₂ => .expect ?_
  · simp only [Enough, Level.rank]
    omega
  · intro _ _ l' _ _
    cases l' <;> rfl
  refine (hn.last ?_).bind_pure fun _ h₃ => ?_
  · simp only [Enough, Level.rank]
    omega
  · rw [Alike, unplaced, unplaced, h₁, h₂, h₃]

theorem member {key array : Expr} (hk : key.Read ks₁) (ha : array.Read ks₂) :
    (Expr.member key array location).Read (enclosed ks₁ ++ .keyword .in :: enclosed ks₂) := by
  refine .of_level (u := .membership) Begins.enclosed.append fun ending n hn => ?_
  simp only [Enough, List.length_append, List.length_cons, Level.rank] at hn
  obtain ⟨m, rfl⟩ : ∃ m, n = m + 2 := ⟨n - 2, by omega⟩
  rw [expression]
  refine (hk.operand ?_).bind ?_ fun _ h₁ => ?_
  · simp only [Enough, Level.rank]
    omega
  · intro _ _ l' h' _
    cases l' <;> first | rfl | simp [Level.rank] at h'
  rw [members]
  refine .here fun _ => .accept ?_
  have hp : Reads (expression ending (m + 2) .primary) (enclosed ks₂) (fun k => k.closes)
      array.Alike := by
    refine ha.last ?_
    simp only [Enough, Level.rank]
    omega
  rw [expression] at hp
  refine hp.bind_nil fun _ h₂ => ?_
  · refine reads_loop_nil (l := .membership) rfl (fun _ hk => (stops_of_closes hk).takes) ?_
    rw [Alike, unplaced, unplaced, h₁, h₂]

section Operators

variable {op : BinaryOp} {s : Symbol} {left right : Expr}

theorem chain {left' : Expr} (hs : op.symbol? = some s) (hop : op.level.isLoop)
    (hl : left.Alike left') (hr : right.Read ks)
    (hn : 32 * (enclosed ks).length + 1 ≤ n + op.level.rank) :
    Reads (loop ending (n + 1) op.level left') (.symbol s :: enclosed ks) (fun k => k.closes)
      (Expr.binary op left right location).Alike := by
  have ht := Level.rank_tighter (l := op.level) (by intro h; rw [h] at hop; cases hop)
  have hr' := op.level.rank_le
  rw [loop_eq_chain hs, Parse.chain]
  refine .here fun _ => .peek_cons ?_
  rw [operator?_symbol hs]
  refine .skip ((hr.last ?_).bind_nil fun _ h => ?_)
  · rw [Enough]
    omega
  · simp only [enclosed, List.length_cons] at hn
    obtain ⟨m, rfl⟩ : ∃ m, n = m + 1 := ⟨n - 1, by omega⟩
    rw [← loop_eq_chain hs]
    refine reads_loop_nil hop (fun _ hk => (stops_of_closes hk).takes) ?_
    rw [Alike, unplaced, unplaced, hl, h]

theorem binary (hs : op.symbol? = some s) (hl : left.Read ks₁) (hr : right.Read ks₂) :
    (Expr.binary op left right location).Read (enclosed ks₁ ++ .symbol s :: enclosed ks₂) := by
  refine .of_level (u := op.level) Begins.enclosed.append fun ending n hn => ?_
  simp only [Enough, List.length_append, List.length_cons] at hn
  have hr' := op.level.rank_le
  have hp : 2 ≤ (enclosed ks₁).length := by simp [enclosed]
  by_cases hop : op.level.isLoop
  case pos =>
    have ht := Level.rank_tighter (l := op.level) (by intro h; rw [h] at hop; cases hop)
    rw [expression_loop hop]
    refine (hl.operand ?_).bind (fun _ _ => (stops_symbol hs (by omega)).upTo) fun _ h => ?_
    · rw [Enough]
      omega
    · obtain ⟨m, rfl⟩ : ∃ m, n = m + 1 := ⟨n - 1, by omega⟩
      exact chain hs hop h hr (by omega)
  case neg =>
    rcases op with ⟨⟨⟩⟩ | ⟨⟨⟩⟩ | _ | _ | _ <;> try exact absurd rfl hop
    all_goals
      have ho := operator?_symbol hs
      cases hs
      rw [BinaryOp.level] at hn ho ⊢
      rw [expression]
      refine (hl.operand ?_).bind ?_ fun _ h₁ => .here fun _ => .peek_cons ?_
      · simp only [Enough, Level.rank] at hn ⊢
        omega
      · intro _ _ l' h' _
        cases l' <;> first | rfl | simp [Level.rank] at h'
      rw [ho]
      refine .skip ((hr.last ?_).bind_pure fun _ h₂ => ?_)
      · simp only [Enough, Level.rank] at hn ⊢
        omega
      · rw [Alike, unplaced, unplaced, h₁, h₂]

theorem concat (hl : left.Read ks₁) (hr : right.Read ks₂) :
    (Expr.binary .concat left right location).Read (enclosed ks₁ ++ enclosed ks₂) := by
  refine .of_level (u := .concatenation) Begins.enclosed.append fun ending n hn => ?_
  simp only [Enough, List.length_append, Level.rank] at hn
  have hp : 2 ≤ (enclosed ks₁).length := by simp [enclosed]
  obtain ⟨m, rfl⟩ : ∃ m, n = m + 2 := ⟨n - 2, by omega⟩
  rw [expression]
  refine (hl.operand ?_).bind ?_ fun _ h₁ => ?_
  · simp only [Enough, Level.rank]
    omega
  · intro _ _ l' h' hp
    cases l' <;> first | rfl | simp [Level.rank] at h' hp
  rw [joins]
  refine .peek fun next _ => ?_
  have ho : (headKind (enclosed ks₂) next).startsOperand := rfl
  rw [if_pos ho]
  refine (hr.last ?_).bind_nil fun _ h₂ => ?_
  · simp only [Enough, Level.rank]
    omega
  · refine reads_loop_nil (l := .concatenation) rfl (fun _ hk => (stops_of_closes hk).takes) ?_
    rw [Alike, unplaced, unplaced, h₁, h₂]

end Operators

theorem search {subject : Expr} {source : String} {negated : Bool} (hs : subject.Read ks)
    (bare : Bool) :
    (Expr.search subject source negated location).Read (enclosed ks ++
      .symbol (if negated then .notMatches else .matches) :: placed bare [.pattern source]) := by
  have hm : (Kind.symbol (if negated then .notMatches else .matches)).matching? = some negated := by
    cases negated <;> rfl
  refine .of_level (u := .matching) Begins.enclosed.append fun ending n hn => ?_
  simp only [Enough, List.length_append, List.length_cons, Level.rank] at hn
  rw [expression]
  refine (hs.operand ?_).bind ?_ fun _ h₁ => .here fun _ => .peek_cons ?_
  · simp only [Enough, Level.rank]
    omega
  · intro _ _ l' h' _
    cases l' <;> first | (cases negated <;> rfl) | simp [Level.rank] at h'
  rw [hm]
  have hp : Reads (expression ending n .comparison) (placed bare [.pattern source])
      (fun k => k.closes) (Expr.pattern source location).Alike := by
    cases bare
    case false =>
      refine (pattern source).last ?_
      simp only [placed, Bool.false_eq_true, if_false] at hn
      simp only [Enough, Level.rank]
      omega
    case true =>
      have hl := @legible_pattern (fun _ => true) location source
      refine (hl.readable ending .comparison n ?_).stop_of fun _ hk => stops_of_closes hk
      simp only [placed, if_true, List.length_singleton] at hn
      show 32 * 1 ≤ n + 6
      omega
  refine .skip (hp.bind_nil fun e' he' => ?_)
  cases e' <;> cases he'
  refine .pure ?_
  rw [Alike, unplaced, unplaced, h₁]

end Expr.Read

theorem Expr.Written.begins (h : e.Written ks) : Begins ks .assignment := by
  cases h
  case unary op _ _ => exact ⟨_, _, rfl, by cases op <;> rfl, nofun⟩
  case stepBefore op _ _ _ => exact ⟨_, _, rfl, by cases op <;> rfl, nofun⟩
  case keyword hk _ =>
    refine ⟨_, _, rfl, ?_, nofun⟩
    unfold Keyword.calling? at hk
    split at hk <;> cases hk <;> rfl
  case binary | concat | assign | stepAfter | conditional | member | search =>
    exact Begins.enclosed.append
  all_goals exact ⟨_, _, rfl, rfl, nofun⟩

namespace Expr.Listed

variable {es : List Expr}

theorem begins (h : Listed es ks) (hes : es ≠ []) : Begins ks .assignment := by
  cases h
  case nil => exact absurd rfl hes
  case single h => exact h.begins
  case cons h _ => exact h.begins.append

theorem expressions (h : Listed es ks) (hes : es ≠ [])
    (hr : ∀ e ∈ es, ∀ ks, e.Written ks → e.Read ks) (hn : 32 * ks.length ≤ n) :
    Reads (Parse.expressions ending (n + 1)) ks (fun k => k.closes ∧ k ≠ .symbol .comma)
      fun es' => everyUnplaced es' = everyUnplaced es := by
  induction es generalizing ks n
  case nil => exact absurd rfl hes
  case cons e es ih =>
    rw [Parse.expressions]
    cases h
    case single h =>
      refine ((hr e (by simp) _ h ending n hn).stop_of fun _ hk => hk.1).bind_nil fun _ he => ?_
      refine .not_accept (fun _ hk => hk.2) (.pure ?_)
      simp only [everyUnplaced]
      rw [he]
    case cons h₂ h₁ =>
      simp only [List.length_append, List.length_cons] at hn
      obtain ⟨m, rfl⟩ : ∃ m, n = m + 1 := ⟨n - 1, by omega⟩
      have he := hr e (by simp) _ h₁ ending (m + 1) (by simp only [Enough, Level.rank]; omega)
      have hes := ih h₂ (by simp) (fun e he => hr e (List.mem_cons_of_mem _ he)) (n := m) (by omega)
      refine he.bind (fun _ _ => rfl) fun _ he => .accept (hes.bind_pure fun _ hes => ?_)
      rw [everyUnplaced, everyUnplaced, he, hes]

theorem closed {β : Type} {what : Expected} {g : List Expr → Parse β} {stop : Kind → Prop}
    {Q : β → Prop} (h : Listed es ks₁) (hr : ∀ e ∈ es, ∀ ks, e.Written ks → e.Read ks)
    (hn : 32 * ks₁.length ≤ n)
    (hg : ∀ es', everyUnplaced es' = everyUnplaced es → Reads (g es') ks₂ stop Q) :
    Reads (do
      let args ←
        if (← peek) = .symbol .rightParen then pure [] else Parse.expressions ending (n + 1)
      expect ending (.symbol .rightParen) what
      g args) (ks₁ ++ .symbol .rightParen :: ks₂) stop Q := by
  refine .peek fun next _ => ?_
  by_cases hes : es = []
  case pos =>
    subst hes
    cases h
    have hp : headKind ([] ++ .symbol .rightParen :: ks₂) next = .symbol .rightParen := rfl
    dsimp only
    rw [if_pos hp, pure_bind]
    exact .expect (hg [] rfl)
  case neg =>
    have ⟨k, ks', hk, hs, _⟩ := h.begins hes
    have hne : k ≠ .symbol .rightParen := by
      rintro rfl
      cases hs
    have hh : headKind (ks₁ ++ .symbol .rightParen :: ks₂) next = k := by rw [hk]; rfl
    dsimp only
    rw [hh, if_neg hne]
    exact (h.expressions hes hr hn).bind (fun _ _ => ⟨rfl, nofun⟩) fun es' h => .expect (hg es' h)

variable (ending) in
theorem arguments (h : Listed es ks) (hr : ∀ e ∈ es, ∀ ks, e.Written ks → e.Read ks)
    (hn : 32 * ks.length ≤ n) :
    Reads (Parse.arguments ending (n + 2)) (ks ++ [.symbol .rightParen]) (fun _ => True)
      fun es' => everyUnplaced es' = everyUnplaced es := by
  rw [Parse.arguments]
  exact h.closed hr hn fun _ h => .pure h

end Expr.Listed

namespace Expr.Read

variable {function : String} {args : List Expr}

theorem call (h : Listed args ks) (hr : ∀ e ∈ args, ∀ ks, e.Written ks → e.Read ks) :
    (Expr.call function args location).Read (.word function :: enclosed ks) := by
  refine .of_primary rfl (fun l => by cases l <;> rfl) fun ending n hn => ?_
  simp only [enclosed, List.length_cons, List.length_append] at hn
  obtain ⟨m, rfl⟩ : ∃ m, n = m + 3 := ⟨n - 3, by omega⟩
  rw [primary]
  refine .here fun _ => .peek_cons (.skip ?_)
  rw [named]
  refine .peek_cons (.skip ?_)
  have ha := h.arguments ending hr (n := m) (by omega)
  refine (ha.stop_of fun _ _ => trivial).bind_pure fun _ h => ?_
  rw [Alike, unplaced, unplaced, h]

theorem keyword {k : Keyword} (hf : Keyword.calling? function = some k)
    (hk : k = .getline ∨ k = .next ∨ k = .nextfile) :
    (Expr.call function [] location).Read [.keyword k] := by
  have hs : (Kind.keyword k).startsExpression := by rcases hk with rfl | rfl | rfl <;> rfl
  refine .of_primary hs (fun l => by cases l <;> rfl) fun ending n hn => ?_
  rw [primary]
  refine .here fun _ => .peek_cons ?_
  unfold Keyword.calling? at hf
  rcases hk with rfl | rfl | rfl <;> split at hf <;> cases hf <;> exact .skip (.pure rfl)

theorem exit (h : Listed args ks) (hl : args.length ≤ 1)
    (hr : ∀ e ∈ args, ∀ ks, e.Written ks → e.Read ks) :
    (Expr.call "exit" args location).Read (.keyword .exit :: ks) := by
  refine .of_primary rfl (fun l => by cases l <;> rfl) fun ending n hn => ?_
  rw [primary]
  refine .here fun _ => .peek_cons (.skip ?_)
  cases h
  case nil =>
    refine .peek fun next hn => ?_
    rw [headKind_nil, not_startsExpression_of_closes hn]
    exact .pure rfl
  case single e h =>
    obtain ⟨k, ks', hk, hs, _⟩ := h.begins
    refine .peek fun next _ => ?_
    have hh : headKind ks next = k := by rw [hk]; rfl
    rw [hh, if_pos hs]
    refine (hr e (by simp) ks h ending n ?_).bind_pure fun _ h => ?_
    · simp only [Enough, Level.rank]
      omega
    · rw [Alike, unplaced, unplaced]
      simp only [everyUnplaced]
      rw [h]
  case cons => simp at hl

theorem called {k : Keyword} (hf : Keyword.calling? function = some k)
    (hc : (Expr.call function args location).isRegular) (h : Listed args ks)
    (hr : ∀ e ∈ args, ∀ ks, e.Written ks → e.Read ks) :
    (Expr.call function args location).Read (.keyword k :: ks) := by
  rw [isRegular, hf] at hc
  split at hc
  case h_1 | h_2 | h_3 => simp_all
  case h_4 hk =>
    cases hk
    unfold Keyword.calling? at hf
    split at hf <;> cases hf
    exact exit h (by simpa using hc) hr
  case h_5 hk => 
    cases hk
    obtain rfl : args = [] := by simpa using hc
    cases h
    refine keyword hf ?_
    unfold Keyword.calling? at hf
    split at hf <;> cases hf <;> simp_all

end Expr.Read

mutual

theorem Expr.Written.read : (e : Expr) → e.isWritable → ∀ ks, e.Written ks → e.Read ks
  | .constant .., _, _, h => by
    cases h
    case number => exact .number _
    case string => exact .string _
  | .pattern .., _, _, .pattern => .pattern _
  | .name .., h, _, .name => by
    simp only [isWritable, all, isRegular, decide_eq_true_eq] at h
    exact .name h
  | .element _ index _, h, _, .element hi => by
    simp only [isWritable, all, Bool.and_eq_true] at h
    exact .element (Written.read index h.2 _ hi)
  | .field index _, h, _, .field hi => by
    simp only [isWritable, all, Bool.and_eq_true] at h
    exact .field (Written.read index h.2 _ hi)
  | .binary _ left right _, h, _, hw => by
    simp only [isWritable, all, Bool.and_eq_true] at h
    cases hw
    case binary hs hl hr =>
      exact .binary hs (Written.read left h.1.2 _ hl) (Written.read right h.2 _ hr)
    case concat hl hr => exact .concat (Written.read left h.1.2 _ hl) (Written.read right h.2 _ hr)
  | .unary _ operand _, h, _, .unary ho => by
    simp only [isWritable, all, Bool.and_eq_true] at h
    exact .unary (Written.read operand h.2 _ ho)
  | .assign target value _, h, _, .assign ht hv => by
    simp only [isWritable, all, Bool.and_eq_true] at h
    exact .assign (Written.read target h.1.2 _ ht) (Written.read value h.2 _ hv)
  | .step _ target _, h, _, hw => by
    simp only [isWritable, all, Bool.and_eq_true] at h
    cases hw
    case stepBefore hop ht => exact .stepBefore hop (Written.read target h.2 _ ht)
    case stepAfter hop ht =>
      have hi : target.isTarget := by simpa [isRegular, hop] using h.1
      exact .stepAfter hop hi (Written.read target h.2 _ ht)
  | .conditional test yes no _, h, _, .conditional ht hy hn => by
    simp only [isWritable, all, Bool.and_eq_true] at h
    exact .conditional (Written.read test h.1.1.2 _ ht) (Written.read yes h.1.2 _ hy)
      (Written.read no h.2 _ hn)
  | .call _ args _, h, _, hw => by
    simp only [isWritable, all, Bool.and_eq_true] at h
    have hr := everyRead args h.2
    cases hw
    case call hl => exact .call hl hr
    case keyword hf hl => exact .called hf h.1 hl hr
  | .member key array _, h, _, .member hk ha => by
    simp only [isWritable, all, Bool.and_eq_true] at h
    exact .member (Written.read key h.1.2 _ hk) (Written.read array h.2 _ ha)
  | .search subject _ _ _, h, _, .search hs bare => by
    simp only [isWritable, all, Bool.and_eq_true] at h
    exact .search (Written.read subject h.2 _ hs) bare

theorem Expr.everyRead : (es : List Expr) → everyAll isRegular es →
    ∀ e ∈ es, ∀ ks, e.Written ks → e.Read ks
  | [], _, _, he => nomatch he
  | e :: rest, h, e', he => by
    simp only [everyAll, Bool.and_eq_true] at h
    cases he
    case head    => exact Written.read e h.1
    case tail he => exact everyRead rest h.2 e' he

end

section Ends

variable {op : BinaryOp} {s : Symbol} {negated : Bool}

theorem not_endsStatement_operator (h : op.symbol? = some s) :
    endsStatement (.symbol s) = false := by
  rcases op with ⟨⟨⟩⟩ | ⟨⟨⟩⟩ | _ | _ | _ <;> cases h <;> rfl

theorem not_endsStatement_step {op : Step} : endsStatement (.symbol op.symbol) = false := by
  cases op <;> rfl

theorem not_endsStatement_search :
    endsStatement (.symbol (if negated then .notMatches else .matches)) = false := by
  cases negated <;> rfl

end Ends

-- If an expression begins with a parenthesis, that belongs to an operand with an operator after it.
def LeadingOperand (ks : List Kind) : Prop :=
  ∃ (operand : Expr) (ks₁ : List Kind) (k : Kind) (ks₂ : List Kind),
    operand.isWritable ∧ operand.Written ks₁ ∧ ks = enclosed ks₁ ++ k :: ks₂ ∧
      endsStatement k = false

theorem Expr.Written.leadingOperand (he : e.isWritable) (h : e.Written ks) :
    ks.head? ≠ some (.symbol .leftParen) ∨ LeadingOperand ks := by
  cases h
  case binary hs hl _ =>
    simp only [isWritable, all, Bool.and_eq_true] at he
    exact .inr ⟨_, _, _, _, he.1.2, hl, rfl, not_endsStatement_operator hs⟩
  case concat hl _ =>
    simp only [isWritable, all, Bool.and_eq_true] at he
    exact .inr ⟨_, _, _, _, he.1.2, hl, rfl, rfl⟩
  case assign ht _ =>
    simp only [isWritable, all, Bool.and_eq_true] at he
    exact .inr ⟨_, _, _, _, he.1.2, ht, rfl, rfl⟩
  case stepAfter ht =>
    simp only [isWritable, all, Bool.and_eq_true] at he
    exact .inr ⟨_, _, _, _, he.2, ht, rfl, not_endsStatement_step⟩
  case conditional ht _ _ =>
    simp only [isWritable, all, Bool.and_eq_true] at he
    exact .inr ⟨_, _, _, _, he.1.1.2, ht, rfl, rfl⟩
  case member hk _ =>
    simp only [isWritable, all, Bool.and_eq_true] at he
    exact .inr ⟨_, _, _, _, he.1.2, hk, rfl, rfl⟩
  case search hs _ =>
    simp only [isWritable, all, Bool.and_eq_true] at he
    exact .inr ⟨_, _, _, _, he.2, hs, rfl, not_endsStatement_search⟩
  case unary op _ _        => exact .inl (by cases op <;> nofun)
  case stepBefore op _ _ _ => exact .inl (by cases op <;> nofun)
  all_goals exact .inl nofun

theorem Expr.Listed.leadingOperand {es : List Expr} (hes : everyAll isRegular es)
    (h : Listed es ks) :
    ks.head? ≠ some (.symbol .leftParen) ∨ LeadingOperand ks := by
  cases h
  case nil => exact .inl nofun
  case single h =>
    simp only [everyAll, Bool.and_eq_true] at hes
    exact h.leadingOperand hes.1
  case cons ks₁ h _ =>
    rw [everyAll, Bool.and_eq_true] at hes
    rcases h.leadingOperand hes.1 with hk | ⟨operand, ks₂, k, ks₃, ho, hw, hk, hs⟩
    · have ⟨k, ks, hks, _⟩ := h.begins
      subst hks
      exact .inl hk
    · exact .inr ⟨operand, ks₂, k, _, ho, hw, by rw [hk, List.append_assoc, List.cons_append], hs⟩

end PatternAction
