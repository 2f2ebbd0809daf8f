import PatternAction.Proofs.Syntax.Operands

namespace PatternAction

open Parse Kind

def Stmt.Alike (s s' : Stmt) : Prop :=
  s'.unplaced = s.unplaced

def Branch.Alike (b b' : Branch) : Prop :=
  b'.unplaced = b.unplaced

def Otherwise.Alike (o o' : Otherwise) : Prop :=
  o'.unplaced = o.unplaced

def Block.Alike (b b' : Block) : Prop :=
  b'.unplaced = b.unplaced

variable {α β : Type} {ending location : Location} {n i : Nat} {k stop : Kind}
  {ks ks₁ ks₂ ks₃ bs os : List Kind}

section Termination

namespace Parse

-- A step and the separators after it.
def terminated (x : Parse α) : Parse α := do
  let a ← x
  skipSeparators
  return a

theorem terminated_bind (x : Parse α) (f : α → Parse β) :
    terminated (x >>= f) = x >>= fun a => terminated (f a) := by
  simp [terminated]

theorem terminated_pure (x : Parse α) (f : α → β) :
    terminated (do return f (← x)) = do return f (← terminated x) := by
  simp [terminated]

-- What may follow the separators after a statement.
def Follows (k : Kind) : Prop :=
  k ≠ .separator ∧ k ≠ .keyword .else

theorem Reads.terminated {x : Parse α} {P : α → Prop} (h : Reads x ks (· = .separator) P)
    (i : Nat) :
    Reads (terminated x) (ks ++ Kind.separators (i + 1)) Follows P := by
  refine h.bind (fun _ _ => rfl) fun _ ha => ?_
  rw [← List.append_nil (Kind.separators (i + 1))]
  exact .separators (i + 1) (fun _ hk => hk.1) (.pure ha)

end Parse

end Termination

section Clauses

variable {e : Expr} {o : Option Expr} {es : List Expr}

theorem Expr.Read.condition {opening closing : Expected} (h : e.Read ks) (hn : 32 * ks.length ≤ n) :
    Reads (condition ending n opening closing) (enclosed ks) (fun _ => True) e.Alike := by
  rw [Parse.condition]
  exact .expect ((h ending n hn).bind (fun _ _ => rfl) fun _ he => .expect (.pure he))

theorem reads_absent : Reads (optional ending n stop) [] (· = stop) (· = none) := by
  rw [Parse.optional]
  refine .peek fun next hn => ?_
  rw [headKind_nil, if_pos hn]
  exact .pure rfl

theorem reads_present (hb : Begins ks .assignment) (hs : stop.closes)
    (h : Reads (expression ending n .assignment) ks (fun k => k.closes) e.Alike) :
    Reads (optional ending n stop) ks (fun k => k.closes)
      fun o => o.map Expr.unplaced = some e.unplaced := by
  have ⟨k, ks', hk, hks, _⟩ := hb
  have hne : k ≠ stop := by
    rintro rfl
    cases hks.symm.trans (not_startsExpression_of_closes hs)
  rw [Parse.optional]
  refine .peek fun next _ => ?_
  have hh : headKind ks next = k := by rw [hk]; rfl
  rw [hh, if_neg hne]
  refine h.bind_pure fun _ he => ?_
  rw [Option.map_some, he]

theorem Expr.Optional.reads (h : Optional o ks) (ho : o.all isWritable) (hs : stop.closes)
    (hn : 32 * ks.length ≤ n) :
    Reads (optional ending n stop) ks (· = stop)
      fun o' => o'.map Expr.unplaced = o.map Expr.unplaced := by
  cases h
  case none => exact reads_absent.mono (fun _ hk => hk) fun _ h => by rw [h]
  case some h =>
    refine (reads_present h.begins hs (Written.read _ ho _ h ending n hn)).stop_of ?_
    rintro _ rfl
    exact hs

theorem Expr.Optional.reads_enclosed (h : Optional o ks) (ho : o.all isWritable) (hs : stop.closes)
    (hn : 32 * (placed o.isNone ks).length ≤ n) :
    Reads (optional ending n stop) (placed o.isNone ks) (· = stop)
      fun o' => o'.map Expr.unplaced = o.map Expr.unplaced := by
  cases h
  case none => exact reads_absent.mono (fun _ hk => hk) fun _ h => by rw [h]
  case some h =>
    refine (reads_present Begins.enclosed hs ((Written.read _ ho _ h).last hn)).stop_of ?_
    rintro _ rfl
    exact hs

end Clauses

section Printing

variable {args : List Expr} {P : List Expr → Prop}

theorem not_endsStatement_of_startsExpression (h : k.startsExpression) :
    endsStatement k = false := by
  unfold endsStatement
  split <;> first | cases h | rfl

theorem reads_openArguments (h : Expr.Listed args ks) (ha : Expr.everyAll Expr.isRegular args)
    (hn : 32 * ks.length ≤ n) :
    Reads (openArguments ending (n + 2)) ks (· = .separator)
      fun args' => Expr.everyUnplaced args' = Expr.everyUnplaced args := by
  rw [openArguments]
  refine .peek fun next hn' => ?_
  by_cases hne : args = []
  case pos =>
    subst hne
    cases h
    rw [headKind_nil, if_pos (by rw [hn']; rfl)]
    exact .pure rfl
  case neg =>
    have ⟨k, ks', hk, hs, _⟩ := h.begins hne
    have hh : headKind ks next = k := by rw [hk]; rfl
    rw [hh, not_endsStatement_of_startsExpression hs, if_neg Bool.false_ne_true]
    refine ((h.expressions hne (Expr.everyRead args ha) hn).stop_of ?_).bind_nil fun _ hes => ?_
    · rintro _ rfl
      exact ⟨rfl, nofun⟩
    · refine .peek fun next hn => ?_
      cases hn
      exact .pure hes

-- Parentheses around the first operand are first taken for ones around the list.
theorem reads_printArguments_leadingOperand (hl : LeadingOperand ks) (hn : 32 * ks.length ≤ n)
    (h : Reads (openArguments ending (n + 2)) ks (· = .separator) P) :
    Reads (printArguments ending (n + 3)) ks (· = .separator) P := by
  obtain ⟨operand, ks₁, k, ks₂, ho, hw, hks, hk⟩ := hl
  intro ts rest hts hrest
  obtain ⟨b, hb, pb⟩ := h ts rest hts hrest
  rw [hks] at hts hn
  obtain ⟨ts₁, ts₂, h, h₁, h₂⟩ := List.map_eq_append_iff.mp hts
  obtain ⟨t₁, ts₁', ht₁, hk₁, h₁'⟩ := List.map_eq_cons_iff.mp h₁
  obtain ⟨t₂, ts₂', ht₂, hk₂, _⟩ := List.map_eq_cons_iff.mp h₂
  have he : Expr.everyAll Expr.isRegular [operand] := by
    rw [Expr.everyAll, Bool.and_eq_true]
    exact ⟨ho, rfl⟩
  have hl : 32 * ks₁.length ≤ n := by
    simp only [enclosed, List.length_append, List.length_cons] at hn
    omega
  have hr := (Expr.Listed.single hw).arguments ending (Expr.everyRead [operand] he) hl
  obtain ⟨args, ha, _⟩ := hr ts₁' (ts₂ ++ rest) h₁' trivial
  have hp : (accept (.symbol .leftParen)).run (ts ++ rest) = .ok (true, ts₁' ++ (ts₂ ++ rest)) := by
    simp [h, ht₁, accept, peek, skip, kindOf, hk₁]
    rfl
  have hf : peek.run (ts₂ ++ rest) = .ok (k, ts₂ ++ rest) := by
    rw [ht₂, ← hk₂]
    rfl
  have hg : (get : Parse (List Token)).run (ts ++ rest) = .ok (ts ++ rest, ts ++ rest) := rfl
  have hs : (set (ts ++ rest) : Parse Unit).run (ts₂ ++ rest) = .ok ((), ts ++ rest) := rfl
  refine ⟨b, ?_, pb⟩
  rw [printArguments, run_bind hg, run_bind hp, if_pos rfl, run_bind ha, run_bind hf, hk,
    if_neg Bool.false_ne_true, run_bind hs, hb]

theorem reads_printArguments (h : Expr.Listed args ks) (ha : Expr.everyAll Expr.isRegular args)
    (hn : 32 * ks.length ≤ n) :
    Reads (printArguments ending (n + 3)) ks (· = .separator)
      fun args' => Expr.everyUnplaced args' = Expr.everyUnplaced args := by
  rcases h.leadingOperand ha with hk | hl
  · rw [printArguments]
    refine .get fun _ _ _ _ => .not_accept ?_ (reads_openArguments h ha hn)
    rintro _ rfl
    cases ks
    case nil => exact nofun
    case cons => exact fun h => hk (congrArg some h)
  · exact reads_printArguments_leadingOperand hl hn (reads_openArguments h ha hn)

theorem reads_printArguments_enclosed (h : Expr.Listed args ks)
    (ha : Expr.everyAll Expr.isRegular args) (hn : 32 * ks.length ≤ n) :
    Reads (printArguments ending (n + 3)) (enclosed ks) (· = .separator)
      fun args' => Expr.everyUnplaced args' = Expr.everyUnplaced args := by
  have hr := (h.arguments ending (Expr.everyRead args ha) hn).stop_of
    fun k (_ : k = .separator) => trivial
  rw [printArguments]
  refine .get fun _ _ _ _ => .accept (hr.bind_nil fun args' ha' => .peek fun next hn => ?_)
  cases hn
  exact .pure ha'

end Printing

-- A statement can be read off some tokens, with any separators after it: an `if` without `else`
-- looks past them before it ends, and goes back to where they begin.
def Stmt.Read (s : Stmt) (ks : List Kind) : Prop :=
  ∀ ending n i, 32 * ks.length < n →
    Reads (terminated (statement ending n)) (ks ++ separators (i + 1)) Follows s.Alike

def Branch.Read (b : Branch) (ks : List Kind) : Prop :=
  ∀ ending n i l, 32 * ks.length < n →
    Reads (terminated (branch ending n l)) (ks ++ separators (i + 1)) Follows b.Alike

def Block.Read (b : Block) (ks : List Kind) : Prop :=
  ∀ ending n i, 32 * ks.length < n →
    Reads (block ending n) (separators i ++ ks) (fun _ => True) b.Alike

-- What comes after the first block of a branch.
def Parse.alternative (ending : Location) (n : Nat) (f : Otherwise → Branch) : Parse Branch := do
  let tokens ← get
  skipSeparators
  if ← accept (.keyword .else) then
    skipSeparators
    let elseLocation ← here ending
    if ← accept (.keyword .if) then return f (.branch (← branch ending n elseLocation))
    else return f (.block (← block ending n))
  else
    set tokens
    return f .nothing

theorem branch_eq_alternative : branch ending (n + 1) location = (do
    let e ← condition ending n .parenAfterIf .parenAfterIfCondition
    let action ← block ending n
    alternative ending n fun o => .mk e action o location) := by
  rw [branch]
  rfl

def Otherwise.Read (o : Otherwise) (ks : List Kind) : Prop :=
  ∀ ending n i f, 32 * ks.length < n →
    Reads (terminated (alternative ending n f)) (ks ++ separators (i + 1)) Follows
      fun b => ∃ o', b = f o' ∧ o.Alike o'

section Statements

variable {e test index : Expr} {b body action : Block} {o : Otherwise} {br : Branch}
  {args : List Expr}

namespace Stmt.Read

variable {s : Stmt}

theorem of_reads (h : ∀ ending n, 32 * ks.length ≤ n →
    Reads (statement ending (n + 1)) ks (· = .separator) s.Alike) : s.Read ks := by
  intro ending n i hn
  obtain ⟨m, rfl⟩ : ∃ m, n = m + 1 := ⟨n - 1, by omega⟩
  exact (h ending m (by omega)).terminated i

theorem expr_of_begins (hb : Begins ks .assignment)
    (h : ∀ ending n, 32 * ks.length ≤ n →
      Reads (expression ending n .assignment) ks (· = .separator) e.Alike) :
    (Stmt.expr e).Read ks := by
  have ⟨k, ks', hk, hs, _⟩ := hb
  subst hk
  refine of_reads fun ending n hn => ?_
  have hx : Reads (do return Stmt.expr (← expression ending n .assignment)) (k :: ks')
      (· = .separator) (Stmt.expr e).Alike := by
    refine (h ending n hn).bind_pure fun e' he => ?_
    rw [Alike, unplaced, unplaced, he]
  rw [statement]
  refine .here fun _ => .peek_cons ?_
  split <;> first | cases hs | exact hx

theorem expr (hb : Begins ks .assignment) (h : e.Read ks) : (Stmt.expr e).Read ks := by
  refine expr_of_begins hb fun ending n hn => (h ending n hn).stop_of ?_
  rintro _ rfl
  rfl

theorem print {function : String} {k : Keyword} (hf : Keyword.calling? function = some k)
    (hk : k.prints) (ha : k = .printf → args ≠ [])
    (h : ∀ ending n, 32 * ks.length ≤ n → Reads (printArguments ending (n + 3)) ks (· = .separator)
      fun args' => Expr.everyUnplaced args' = Expr.everyUnplaced args) :
    (Stmt.expr (.call function args location)).Read (.keyword k :: ks) := by
  have hb : Begins (.keyword k :: ks) .assignment :=
    ⟨_, _, rfl, by rcases hk with rfl | rfl <;> rfl, nofun⟩
  refine expr_of_begins hb fun ending n hn => ?_
  refine reads_of_looser (Nat.zero_le _) (u := .primary) (fun n hn => ?_) ?_
    (fun l _ => by cases l <;> rfl) hn
  · simp only [Enough, List.length_cons, Level.rank] at hn
    obtain ⟨m, rfl⟩ : ∃ m, n = m + 5 := ⟨n - 5, by omega⟩
    have hr := h ending m (by omega)
    unfold Keyword.calling? at hf
    rw [expression, primary]
    refine .here fun _ => .peek_cons ?_
    rcases hk with rfl | rfl <;> split at hf <;> cases hf
    · refine .skip (hr.bind_pure fun _ ha => ?_)
      rw [Expr.Alike, Expr.unplaced, Expr.unplaced, ha]
    · refine .skip (hr.bind_nil fun args' ha' => ?_)
      have hne : args'.isEmpty = false := by
        cases args <;> cases args' <;> first | rfl | exact absurd rfl (ha rfl) | cases ha'
      rw [hne, if_neg Bool.false_ne_true]
      refine .pure ?_
      rw [Expr.Alike, Expr.unplaced, Expr.unplaced, ha']
  · rintro _ rfl
    exact (stops_of_closes rfl).upTo

theorem «if» (h : br.Read ks) : (Stmt.if br).Read (.keyword .if :: ks) := by
  intro ending n i hn
  simp only [List.length_cons] at hn
  obtain ⟨m, rfl⟩ : ∃ m, n = m + 1 := ⟨n - 1, by omega⟩
  rw [statement, terminated_bind]
  refine .here fun l => ?_
  rw [terminated_bind]
  refine .peek_cons ?_
  dsimp only
  rw [terminated_bind]
  refine .skip ?_
  rw [terminated_pure]
  refine (h ending m i l (by omega)).bind_pure fun _ hb => ?_
  rw [Alike, unplaced, unplaced, hb]

theorem «while» (ht : test.Read ks) (hb : body.Read bs) :
    (Stmt.while test body location).Read
      (.keyword .while :: (enclosed ks ++ (separators i ++ bs))) := by
  refine of_reads fun ending n hn => ?_
  simp only [enclosed, List.length_cons, List.length_append] at hn
  rw [statement]
  refine .here fun l => .peek_cons (.skip ?_)
  refine (ht.condition (by omega)).bind (fun _ _ => trivial) fun _ h₁ => ?_
  refine ((hb ending n i (by omega)).stop_of fun _ _ => trivial).bind_pure fun _ h₂ => ?_
  rw [Alike, unplaced, unplaced, h₁, h₂]

theorem doWhile {j : Nat} (hb : body.Read bs) (ht : test.Read ks) :
    (Stmt.doWhile body test location).Read
      (.keyword .do ::
        (separators i ++ bs ++ (separators j ++ .keyword .while :: enclosed ks))) := by
  refine of_reads fun ending n hn => ?_
  simp only [enclosed, List.length_cons, List.length_append] at hn
  rw [statement]
  refine .here fun l => .peek_cons (.skip ?_)
  refine (hb ending n i (by omega)).bind (fun _ _ => trivial) fun _ h₁ => ?_
  refine .separators j (by simp) (.expect ?_)
  refine ((ht.condition (by omega)).stop_of fun _ _ => trivial).bind_pure fun _ h₂ => ?_
  rw [Alike, unplaced, unplaced, h₁, h₂]

theorem «for» {init update : Option Expr} {test : Option Expr} (h₁ : Expr.Optional init ks₁)
    (h₂ : Expr.Optional test ks₂) (h₃ : Expr.Optional update ks₃) (hb : body.Read bs)
    (hi : init.all Expr.isWritable) (ht : test.all Expr.isWritable)
    (hu : update.all Expr.isWritable) :
    (Stmt.for init test update body location).Read
      (.keyword .for :: .symbol .leftParen :: (placed init.isNone ks₁ ++ .separator ::
        (ks₂ ++ .separator :: (ks₃ ++ .symbol .rightParen :: (separators i ++ bs))))) := by
  refine of_reads fun ending n hn => ?_
  simp only [List.length_cons, List.length_append] at hn
  obtain ⟨m, rfl⟩ : ∃ m, n = m + 1 := ⟨n - 1, by omega⟩
  rw [statement]
  refine .here fun l => .peek_cons (.skip ?_)
  rw [forLoop]
  refine .expect (.get fun ts rest hts _ => .get fun _ _ _ _ => ?_)
  -- the header does not begin with a word
  have hw (x : String) : kindOf (ts ++ rest) ≠ .word x := by
    rw [kindOf_append, hts]
    cases h₁ <;> rintro ⟨⟩
  split
  case h_1 hx _ => exact absurd hx (hw _)
  case h_2 =>
    refine (h₁.reads_enclosed hi rfl (by omega)).bind (fun _ _ => rfl) fun _ h₁ => .expect ?_
    refine (h₂.reads ht rfl (by omega)).bind (fun _ _ => rfl) fun _ h₂ => .expect ?_
    refine (h₃.reads hu rfl (by omega)).bind (fun _ _ => rfl) fun _ h₃ => .expect ?_
    refine ((hb ending m i (by omega)).stop_of fun _ _ => trivial).bind_pure fun _ h₄ => ?_
    rw [Alike, unplaced, unplaced, h₁, h₂, h₃, h₄]

theorem forIn {x array : String} (hb : body.Read bs) :
    (Stmt.forIn x array body location).Read
      (.keyword .for :: .symbol .leftParen :: .word x :: .keyword .in :: .word array ::
        .symbol .rightParen :: (separators i ++ bs)) := by
  refine of_reads fun ending n hn => ?_
  simp only [List.length_cons, List.length_append] at hn
  obtain ⟨m, rfl⟩ : ∃ m, n = m + 1 := ⟨n - 1, by omega⟩
  rw [statement]
  refine .here fun l => .peek_cons (.skip ?_)
  rw [forLoop]
  refine .expect (.get fun ts rest hts _ => .get fun ts' rest' hts' _ => ?_)
  have hx : kindOf (ts ++ rest) = .word x := by rw [kindOf_append, hts]; rfl
  have hi : kindOf (ts' ++ rest').tail = .keyword .in := by
    obtain ⟨_, _, ht, _, hts'⟩ := List.map_eq_cons_iff.mp hts'
    rw [ht, List.cons_append, List.tail_cons, kindOf_append, hts']
    rfl
  rw [hx, hi]
  refine .skip (.skip (.expectWord (.expect ?_)))
  refine ((hb ending m i (by omega)).stop_of fun _ _ => trivial).bind_pure fun _ h => ?_
  rw [Alike, unplaced, unplaced, h]

theorem «break» : (Stmt.break location).Read [.keyword .break] := by
  refine of_reads fun ending n hn => ?_
  rw [statement]
  exact .here fun l => .peek_cons (.skip (.pure rfl))

theorem «continue» : (Stmt.continue location).Read [.keyword .continue] := by
  refine of_reads fun ending n hn => ?_
  rw [statement]
  exact .here fun l => .peek_cons (.skip (.pure rfl))

theorem «return» {value : Option Expr} (h : Expr.Optional value ks)
    (hv : value.all Expr.isWritable) :
    (Stmt.return value location).Read (.keyword .return :: ks) := by
  refine of_reads fun ending n hn => ?_
  simp only [List.length_cons] at hn
  rw [statement]
  refine .here fun l => .peek_cons (.skip ?_)
  cases h
  case none =>
    refine .peek fun next hn => ?_
    cases hn
    exact .pure rfl
  case some e h =>
    obtain ⟨k, ks', hk, hs, _⟩ := h.begins
    have hr := (Expr.Written.read e hv ks h) ending n (by simp only [Enough, Level.rank]; omega)
    refine .peek fun next _ => ?_
    have hh : headKind ks next = k := by rw [hk]; rfl
    rw [hh, if_pos hs]
    refine (hr.stop_of ?_).bind_pure fun _ h => ?_
    · rintro _ rfl
      rfl
    · rw [Alike, unplaced, unplaced, Option.map_some, Option.map_some, h]

theorem deleteAll {array : String} :
    (Stmt.delete array none location).Read [.keyword .delete, .word array] := by
  refine of_reads fun ending n hn => ?_
  rw [statement]
  refine .here fun l => .peek_cons (.skip (.expectWord (.not_accept ?_ (.pure rfl))))
  rintro _ rfl ⟨⟩

theorem delete {array : String} (h : index.Read ks) :
    (Stmt.delete array (some index) location).Read
      (.keyword .delete :: .word array :: .symbol .leftBracket ::
        (ks ++ [.symbol .rightBracket])) := by
  refine of_reads fun ending n hn => ?_
  simp only [List.length_cons, List.length_append] at hn
  rw [statement]
  refine .here fun l => .peek_cons (.skip (.expectWord (.accept ?_)))
  refine (h ending n (by simp only [Enough, Level.rank]; omega)).bind (fun _ _ => rfl) fun _ h => ?_
  refine .expect (.pure ?_)
  rw [Alike, unplaced, unplaced, Option.map_some, Option.map_some, h]

end Stmt.Read

namespace Otherwise.Read

theorem nothing : Otherwise.nothing.Read [] := by
  intro ending n i f hn ts rest hts hrest
  have hp : Reads (pure () : Parse Unit) [] (· = .separator) fun _ => True := .pure trivial
  have ⟨_, hs, _⟩ := hp.terminated i ts rest hts hrest
  have hs : skipSeparators.run (ts ++ rest) = .ok ((), rest) := by simpa [terminated] using hs
  have ha : (accept (.keyword .else)).run rest = .ok (false, rest) := by
    simp [accept, peek, hrest.2]
    rfl
  refine ⟨f .nothing, ?_, .nothing, rfl, rfl⟩
  have hg : (get : Parse (List Token)).run (ts ++ rest) = .ok (ts ++ rest, ts ++ rest) := rfl
  have hr : (set (ts ++ rest) : Parse Unit).run rest = .ok ((), ts ++ rest) := rfl
  have hx : (alternative ending n f).run (ts ++ rest) = .ok (f .nothing, ts ++ rest) := by
    rw [alternative, run_bind hg, run_bind hs, run_bind ha, if_neg Bool.false_ne_true, run_bind hr]
    rfl
  rw [terminated, run_bind hx, run_bind hs]
  rfl

theorem block {j : Nat} (hb : b.Read (.symbol .leftBrace :: bs)) :
    (Otherwise.block b).Read
      (separators i ++ .keyword .else :: (separators j ++ .symbol .leftBrace :: bs)) := by
  intro ending n i' f hn
  simp only [List.length_cons, List.length_append] at hn
  refine Reads.terminated ?_ i'
  rw [alternative]
  refine .get fun _ _ _ _ => .separators i nofun (.accept (.separators j nofun ?_))
  refine .here fun l => .not_accept nofun ?_
  have hr := hb ending n 0 (by simp only [List.length_cons]; omega)
  refine (hr.stop_of ?_).bind_pure fun b' h => ?_
  · exact fun _ _ => trivial
  · refine ⟨.block b', rfl, ?_⟩
    rw [Alike, unplaced, unplaced, h]

theorem branch {j : Nat} (hb : br.Read ks) :
    (Otherwise.branch br).Read
      (separators i ++ .keyword .else :: (separators j ++ .keyword .if :: ks)) := by
  intro ending n i' f hn
  simp only [List.length_cons, List.length_append] at hn
  simp only [List.append_assoc, List.cons_append]
  rw [alternative, terminated_bind]
  refine .get fun _ _ _ _ => ?_
  rw [terminated_bind]
  refine .separators i nofun ?_
  rw [terminated_bind]
  refine .accept ?_
  rw [if_pos rfl, terminated_bind]
  refine .separators j nofun ?_
  rw [terminated_bind]
  refine .here fun l => ?_
  rw [terminated_bind]
  refine .accept ?_
  rw [if_pos rfl, terminated_pure]
  refine (hb ending n i' l (by omega)).bind_pure fun b' h => ⟨.branch b', rfl, ?_⟩
  rw [Alike, unplaced, unplaced, h]

end Otherwise.Read

theorem Branch.Read.mk (ht : test.Read ks) (ha : action.Read bs) (ho : o.Read os) :
    (Branch.mk test action o location).Read (enclosed ks ++ (separators i ++ bs ++ os)) := by
  intro ending n i' l hn
  simp only [enclosed, List.length_cons, List.length_append] at hn
  obtain ⟨m, rfl⟩ : ∃ m, n = m + 1 := ⟨n - 1, by omega⟩
  rw [branch_eq_alternative, terminated_bind, List.append_assoc, List.append_assoc]
  refine (ht.condition (by omega)).bind (fun _ _ => trivial) fun e h₁ => ?_
  rw [terminated_bind]
  refine (ha ending m i (by omega)).bind (fun _ _ => trivial) fun action' h₂ => ?_
  refine (ho ending m i' _ (by omega)).mono (fun _ hk => hk) ?_
  rintro _ ⟨o', rfl, h₃⟩
  rw [Alike, unplaced, unplaced, h₁, h₂, h₃]

end Statements

section Lists

variable {s : Stmt} {ss : List Stmt}

theorem Stmt.Written.follows (h : s.Written ks) :
    ∃ k ks', ks = k :: ks' ∧ Follows k ∧ k ≠ .symbol .rightBrace ∧ k ≠ .eof := by
  have he {e : Expr} {ks : List Kind} (h : e.Written ks) :
      ∃ k ks', ks = k :: ks' ∧ Follows k ∧ k ≠ .symbol .rightBrace ∧ k ≠ .eof := by
    have ⟨k, ks', hk, hs, _⟩ := h.begins
    refine ⟨k, ks', hk, ⟨?_, ?_⟩, ?_, ?_⟩ <;> rintro rfl <;> cases hs
  cases h
  case expr h => exact he h
  case print hk _ => rcases hk with rfl | rfl <;> exact ⟨_, _, rfl, ⟨nofun, nofun⟩, nofun, nofun⟩
  all_goals exact ⟨_, _, rfl, ⟨nofun, nofun⟩, nofun, nofun⟩

theorem Stmt.EveryWritten.follows (h : Stmt.EveryWritten ss ks) :
    Follows (headKind ks (.symbol .rightBrace)) := by
  cases h
  case nil => exact ⟨nofun, nofun⟩
  case cons h _ =>
    have ⟨k, ks', hk, hs, _⟩ := h.follows
    rw [hk]
    exact hs

-- Statements up to a closing brace.
def Stmt.EveryRead (ss : List Stmt) (ks : List Kind) : Prop :=
  ∀ ending n, 32 * ks.length < n →
    Reads (statements ending n) ks (· = .symbol .rightBrace)
      fun ss' => Stmt.everyUnplaced ss' = Stmt.everyUnplaced ss

theorem Stmt.EveryRead.nil : Stmt.EveryRead [] [] := by
  intro ending n hn
  obtain ⟨m, rfl⟩ : ∃ m, n = m + 1 := ⟨n - 1, by omega⟩
  rw [statements]
  refine .peek fun next hn => ?_
  cases hn
  exact .pure rfl

theorem Stmt.EveryRead.cons (hw : s.Written ks₁) (hws : Stmt.EveryWritten ss ks₂) (h : s.Read ks₁)
    (hs : Stmt.EveryRead ss ks₂) :
    Stmt.EveryRead (s :: ss) (ks₁ ++ (separators (i + 1) ++ ks₂)) := by
  intro ending n hn
  simp only [List.length_append] at hn
  obtain ⟨m, rfl⟩ : ∃ m, n = m + 1 := ⟨n - 1, by omega⟩
  have ⟨k, ks', hk, _, hb, he⟩ := hw.follows
  have hl : (separators (i + 1)).length = i + 1 := List.length_replicate
  have hx : Reads (do
      let first ← statement ending m
      skipSeparators
      return first :: (← statements ending m)) (ks₁ ++ (separators (i + 1) ++ ks₂))
      (· = .symbol .rightBrace)
      fun ss' => Stmt.everyUnplaced ss' = Stmt.everyUnplaced (s :: ss) := by
    have ht : (do
        let first ← statement ending m
        skipSeparators
        return first :: (← statements ending m))
        = terminated (statement ending m) >>= fun first => do
          return first :: (← statements ending m) := by
      simp [terminated]
    rw [ht, ← List.append_assoc]
    refine (h ending m i (by omega)).bind ?_ fun _ h₁ => ?_
    · rintro _ rfl
      exact hws.follows
    · refine (hs ending m (by omega)).bind_pure fun _ h₂ => ?_
      rw [Stmt.everyUnplaced, Stmt.everyUnplaced, h₁, h₂]
  rw [statements]
  refine .peek fun next _ => ?_
  have hh : headKind (ks₁ ++ (separators (i + 1) ++ ks₂)) next = k := by rw [hk]; rfl
  rw [hh]
  split
  case h_1 => exact absurd rfl hb
  case h_2 => exact absurd rfl he
  case h_3 => exact hx

theorem Block.Read.mk (hw : Stmt.EveryWritten ss ks) (h : Stmt.EveryRead ss ks) :
    (Block.mk ss location).Read
      (.symbol .leftBrace :: (separators i ++ (ks ++ [.symbol .rightBrace]))) := by
  intro ending n j hn
  simp only [List.length_cons, List.length_append] at hn
  obtain ⟨m, rfl⟩ : ∃ m, n = m + 1 := ⟨n - 1, by omega⟩
  have hk (next : Kind) : headKind (ks ++ [.symbol .rightBrace]) next ≠ .separator := by
    have := hw.follows.1
    cases ks <;> exact this
  rw [block]
  refine .separators j (by simp) (.here fun l => .peek_cons (.skip ?_))
  refine .separators i (fun next _ => hk next) ?_
  refine (h ending m (by omega)).bind (fun _ _ => rfl) fun _ h => .expect (.pure ?_)
  rw [Alike, unplaced, unplaced, h]

end Lists

section Actions

variable {e : Expr} {function : String} {args : List Expr} {k : Keyword}

theorem Expr.isAction_call (hf : Keyword.calling? function = some k) (hk : k.prints)
    (h : (Expr.call function args location).isAction) :
    everyAll isRegular args ∧ (k = .printf → args ≠ []) := by
  rw [isAction, hf] at h
  rcases hk with rfl | rfl
  · exact ⟨h, nofun⟩
  · simp only [Bool.and_eq_true, Bool.not_eq_true', List.isEmpty_eq_false_iff] at h
    exact ⟨h.2, fun _ => h.1⟩

theorem Stmt.Read.action (h : e.isAction) (hw : e.Written ks) : (Stmt.expr e).Read ks := by
  by_cases he : e.isWritable
  case pos => exact .expr hw.begins (Expr.Written.read e he ks hw)
  case neg =>
    cases e <;> try exact absurd h he
    case call function args l =>
      cases hw
      case call hf _ =>
        rw [Expr.isAction, hf] at h
        exact absurd h he
      case keyword k ks hf hl =>
        have hk : k.prints := by
          rw [Expr.isAction, hf] at h
          split at h
          case h_1 hk => exact .inl (Option.some.inj hk)
          case h_2 hk => exact .inr (Option.some.inj hk)
          case h_3 => exact absurd h he
        have ⟨ha, hne⟩ := Expr.isAction_call hf hk h
        exact .print hf hk hne fun ending n hn => reads_printArguments hl ha hn

end Actions

mutual

theorem Stmt.Written.read : (s : Stmt) → s.isWritable → ∀ ks, s.Written ks → s.Read ks
  | .expr e, h, _, hw => by
    rw [Stmt.isWritable] at h
    cases hw
    case expr hw => exact .action h hw
    case print hf hk hl =>
      have ⟨ha, hne⟩ := Expr.isAction_call hf hk h
      exact .print hf hk hne fun ending n hn =>
        reads_printArguments_enclosed hl ha <| by
          simp only [enclosed, List.length_cons, List.length_append] at hn
          omega
  | .if b, h, _, .if hb => by
    rw [Stmt.isWritable] at h
    exact .if (Branch.Written.read b h _ hb)
  | .while test body _, h, _, .while ht hb => by
    simp only [Stmt.isWritable, Bool.and_eq_true] at h
    exact .while (Expr.Written.read test h.1 _ ht) (Block.Written.read body h.2 _ hb)
  | .doWhile body test _, h, _, .doWhile hb ht => by
    simp only [Stmt.isWritable, Bool.and_eq_true] at h
    exact .doWhile (Block.Written.read body h.1 _ hb) (Expr.Written.read test h.2 _ ht)
  | .for _ _ _ body _, h, _, .for hi ht hu hb => by
    simp only [Stmt.isWritable, Bool.and_eq_true] at h
    exact .for hi ht hu (Block.Written.read body h.2 _ hb) h.1.1.1 h.1.1.2 h.1.2
  | .forIn _ _ body _, h, _, .forIn hb => by
    rw [Stmt.isWritable] at h
    exact .forIn (Block.Written.read body h _ hb)
  | .break _, _, _, .break => .break
  | .continue _, _, _, .continue => .continue
  | .return _ _, h, _, .return hv => by
    rw [Stmt.isWritable] at h
    exact .return hv h
  | .delete _ _ _, h, _, hw => by
    rw [Stmt.isWritable] at h
    cases hw
    case deleteAll => exact .deleteAll
    case delete index _ hi => exact .delete (Expr.Written.read index h _ hi)

theorem Branch.Written.read : (b : Branch) → b.isWritable → ∀ ks, b.Written ks → b.Read ks
  | .mk test action otherwise _, h, _, .mk ht ha ho => by
    simp only [Branch.isWritable, Bool.and_eq_true] at h
    exact .mk (Expr.Written.read test h.1.1 _ ht) (Block.Written.read action h.1.2 _ ha)
      (Otherwise.Written.read otherwise h.2 _ ho)

theorem Otherwise.Written.read : (o : Otherwise) → o.isWritable → ∀ ks, o.Written ks → o.Read ks
  | .nothing, _, _, .nothing => .nothing
  | .block b, h, _, .block hb => by
    rw [Otherwise.isWritable] at h
    have hr := Block.Written.read b h _ hb
    cases hb
    case mk => exact .block hr
  | .branch b, h, _, .branch hb => by
    rw [Otherwise.isWritable] at h
    exact .branch (Branch.Written.read b h _ hb)

theorem Block.Written.read : (b : Block) → b.isWritable → ∀ ks, b.Written ks → b.Read ks
  | .mk statements _, h, _, .mk hs => by
    rw [Block.isWritable] at h
    exact .mk hs (Stmt.EveryWritten.read statements h _ hs)

theorem Stmt.EveryWritten.read : (ss : List Stmt) → Stmt.everyWritable ss →
    ∀ ks, Stmt.EveryWritten ss ks → Stmt.EveryRead ss ks
  | [], _, _, .nil => .nil
  | s :: rest, h, _, .cons hs hrest => by
    simp only [Stmt.everyWritable, Bool.and_eq_true] at h
    exact .cons hs hrest (Stmt.Written.read s h.1 _ hs) (Stmt.EveryWritten.read rest h.2 _ hrest)

end

end PatternAction
