import PatternAction.Proofs.Syntax.Wellformedness

namespace PatternAction

namespace Parse

variable {α β : Type} {x x' : Parse α} {f f' : α → Parse β} {more ts : List Token} {k : Kind}
  {ending ending' l : Location} {n n' : Nat}

section Judgements

variable (ending ending' : Location) (more : List Token)

-- Two outcomes that are the same, but for the place of an error where the first list has run out.
-- If the depth was not enough, nothing is said.
def Alike (r r' : Except SyntacticError (α × List Token)) : Prop :=
  match r with
  | .ok (a, rest) => r' = .ok (a, rest ++ more)
  | .error e      => e.cause = .tooDeep ∨ ∃ l, r' = .error ⟨e.cause, l⟩ ∧
                       (l = e.location ∨ e.location = ending ∧ l = locationOf ending' more)

-- A step comes to the same as another one that finds an end where the list runs out.
def AgreesAt (x x' : Parse α) (ts : List Token) : Prop :=
  Alike ending ending' more (x.run ts) (x'.run (ts ++ more))

def Agrees (x x' : Parse α) : Prop := ∀ ts, AgreesAt ending ending' more x x' ts

-- The same where there is a token.
def AgreesAhead (x x' : Parse α) : Prop := ∀ t ts, AgreesAt ending ending' more x x' (t :: ts)

end Judgements

theorem AgreesAhead.of_agrees (h : Agrees ending ending' more x x') :
    AgreesAhead ending ending' more x x' :=
  fun t ts => h (t :: ts)

theorem AgreesAt.bind (hx : AgreesAt ending ending' more x x' ts)
    (hf : ∀ a, Agrees ending ending' more (f a) (f' a)) :
    AgreesAt ending ending' more (x >>= f) (x' >>= f') ts := by
  unfold AgreesAt at *
  rw [StateT.run_bind, StateT.run_bind]
  rcases hr : x.run ts with e | ⟨a, rest⟩
  all_goals rw [hr] at hx
  case ok =>
    rw [show x'.run (ts ++ more) = _ from hx]
    exact hf a rest
  case error =>
    rcases hx with hc | ⟨l, hr', hl⟩
    · exact .inl hc
    · rw [hr']
      exact .inr ⟨l, rfl, hl⟩

namespace Agrees

theorem pure {a : α} : Agrees ending ending' more (pure a) (pure a) := fun _ => rfl

theorem fail {cause : SyntacticCause} :
    Agrees ending ending' more (fail cause l : Parse α) (fail cause l) :=
  fun _ => .inr ⟨l, rfl, .inl rfl⟩

theorem bind (hx : Agrees ending ending' more x x')
    (hf : ∀ a, Agrees ending ending' more (f a) (f' a)) :
    Agrees ending ending' more (x >>= f) (x' >>= f') :=
  fun ts => (hx ts).bind hf

theorem bind_pure {g : α → β} (hx : Agrees ending ending' more x x') :
    Agrees ending ending' more (do return g (← x)) (do return g (← x')) :=
  hx.bind fun _ => pure

-- The place of the next token is asked for before it is known whether there is one.
theorem here {w w' : Location → Parse β}
    (ha : ∀ l, AgreesAhead ending ending' more (w l) (w' l))
    (he : AgreesAt ending ending' more (w ending) (w' (locationOf ending' more)) []) :
    Agrees ending ending' more (here ending >>= w) (Parse.here ending' >>= w') := by
  intro ts
  cases ts
  case nil => exact he
  case cons t ts => exact ha t.location t ts

theorem fail_here {cause : SyntacticCause} :
    Agrees ending ending' more (do Parse.fail cause (← Parse.here ending) : Parse α)
      (do Parse.fail cause (← Parse.here ending')) :=
  here (fun _ => .of_agrees fail) (.inr ⟨_, rfl, .inr ⟨rfl, rfl⟩⟩)

end Agrees

theorem AgreesAt.get {w w' : List Token → Parse β}
    (h : AgreesAt ending ending' more (w ts) (w' (ts ++ more)) ts) :
    AgreesAt ending ending' more (MonadState.get >>= w) (MonadState.get >>= w') ts :=
  h

theorem AgreesAt.skip_cons {w w' : Unit → Parse β} {t : Token}
    (h : AgreesAt ending ending' more (w ()) (w' ()) ts) :
    AgreesAt ending ending' more (skip >>= w) (skip >>= w') (t :: ts) :=
  h

theorem AgreesAhead.skip {w w' : Unit → Parse β} (h : Agrees ending ending' more (w ()) (w' ())) :
    AgreesAhead ending ending' more (skip >>= w) (skip >>= w') :=
  fun _ ts => .skip_cons (h ts)

section Steps

variable (hm : kindOf more = .eof)
include hm

theorem kindOf_append_end (ts : List Token) : kindOf (ts ++ more) = kindOf ts := by
  cases ts
  case nil => exact hm
  case cons => rfl

theorem dropWhile_append_end (ts : List Token) :
    (ts ++ more).dropWhile (·.kind == .separator)
      = ts.dropWhile (·.kind == .separator) ++ more := by
  induction ts
  case nil =>
    cases more
    case nil => rfl
    case cons t _ =>
      have ht : t.kind = .eof := hm
      exact List.dropWhile_cons_of_neg (by simp [ht])
  case cons t ts ih =>
    rw [List.cons_append, List.dropWhile_cons, List.dropWhile_cons]
    split
    case isTrue => exact ih
    case isFalse => rfl

namespace Agrees

theorem peek {w w' : Kind → Parse β} (ha : ∀ k, AgreesAhead ending ending' more (w k) (w' k))
    (he : AgreesAt ending ending' more (w .eof) (w' .eof) []) :
    Agrees ending ending' more (Parse.peek >>= w) (Parse.peek >>= w') := by
  intro ts
  cases ts
  case nil =>
    change AgreesAt ending ending' more (w .eof) (w' (kindOf more)) []
    rwa [hm]
  case cons t ts => exact ha t.kind t ts

theorem look {w w' : Location → Kind → Parse β}
    (ha : ∀ l k, AgreesAhead ending ending' more (w l k) (w' l k))
    (he : AgreesAt ending ending' more (w ending .eof) (w' (locationOf ending' more) .eof) []) :
    Agrees ending ending' more (Parse.here ending >>= fun l => Parse.peek >>= w l)
      (Parse.here ending' >>= fun l => Parse.peek >>= w' l) := by
  intro ts
  cases ts
  case nil =>
    change AgreesAt ending ending' more (w ending .eof)
      (w' (locationOf ending' more) (kindOf more)) []
    rwa [hm]
  case cons t ts => exact ha t.location t.kind t ts

theorem accept (hk : k ≠ .eof) : Agrees ending ending' more (Parse.accept k) (Parse.accept k) := by
  refine peek hm (fun c => ?_) ?_
  · split
    case isTrue => exact .skip pure
    case isFalse => exact .of_agrees pure
  · rw [if_neg hk.symm]
    exact pure []

theorem here_accept {w w' : Location → Bool → Parse β} (hk : k ≠ .eof)
    (ht : ∀ l, Agrees ending ending' more (w l true) (w' l true))
    (ha : ∀ l, AgreesAhead ending ending' more (w l false) (w' l false))
    (he : AgreesAt ending ending' more (w ending false) (w' (locationOf ending' more) false) []) :
    Agrees ending ending' more (Parse.here ending >>= fun l => Parse.accept k >>= w l)
      (Parse.here ending' >>= fun l => Parse.accept k >>= w' l) := by
  simp only [Reads.accept_bind]
  refine look hm (fun l c => ?_) ?_
  · split
    case isTrue => exact .skip (ht l)
    case isFalse => exact ha l
  · rw [if_neg hk.symm, if_neg hk.symm]
    exact he

theorem expect {what : Expected} (hk : k ≠ .eof) :
    Agrees ending ending' more (Parse.expect ending k what) (Parse.expect ending' k what) := by
  refine peek hm (fun c => ?_) ?_
  · split
    case isTrue => exact fun _ _ => rfl
    case isFalse => exact .of_agrees fail_here
  · rw [if_neg hk.symm, if_neg hk.symm]
    exact fail_here []

theorem expect_bind {what : Expected} {w w' : Unit → Parse β} (hk : k ≠ .eof)
    (h : Agrees ending ending' more (w ()) (w' ())) :
    Agrees ending ending' more (Parse.expect ending k what >>= w)
      (Parse.expect ending' k what >>= w') :=
  (expect hm hk).bind fun _ => h

theorem expectWord {what : Expected} :
    Agrees ending ending' more (Parse.expectWord ending what) (Parse.expectWord ending' what) := by
  refine peek hm (fun c => ?_) (fail_here [])
  split
  case h_1 => exact .skip pure
  case h_2 => exact .of_agrees fail_here

theorem skipSeparators {w w' : Unit → Parse β} (h : Agrees ending ending' more (w ()) (w' ())) :
    Agrees ending ending' more (Parse.skipSeparators >>= w) (Parse.skipSeparators >>= w') := by
  intro ts
  have h := h (ts.dropWhile (·.kind == .separator))
  unfold AgreesAt at h
  rw [← dropWhile_append_end hm] at h
  exact h

theorem alternative {a : α} (hx : Agrees ending ending' more x x') :
    Agrees ending ending' more
      (do
        let ts ← MonadState.get
        Parse.skipSeparators
        if ← Parse.accept (.keyword .else) then x
        else
          set ts
          return a)
      (do
        let ts ← MonadState.get
        Parse.skipSeparators
        if ← Parse.accept (.keyword .else) then x'
        else
          set ts
          return a) := by
  refine fun ts => .get (skipSeparators hm (Agrees.bind (accept hm (by simp)) fun b => ?_) ts)
  cases b
  case true => exact hx
  case false => exact fun _ => rfl

theorem reread {test : Kind → Bool} {y y' : Parse α} (hk : k ≠ .eof)
    (hx : Agrees ending ending' more x x') (hy : Agrees ending ending' more y y') :
    Agrees ending ending' more
      (do
        let ts ← MonadState.get
        if ← Parse.accept k then
          let a ← x
          if test (← Parse.peek) then return a
          else
            set ts
            y
        else y)
      (do
        let ts ← MonadState.get
        if ← Parse.accept k then
          let a ← x'
          if test (← Parse.peek) then return a
          else
            set ts
            y'
        else y') := by
  refine fun ts => .get (Agrees.bind (accept hm hk) (fun b => ?_) ts)
  cases b
  case false => exact hy
  case true =>
    refine hx.bind fun a us => ?_
    change AgreesAt ending ending' more _
      (if test (kindOf (us ++ more)) = true then _ else _ : Parse α) us
    rw [kindOf_append_end hm]
    change AgreesAt ending ending' more
      (if test (kindOf us) = true then _ else _ : Parse α) _ us
    split
    case isTrue => exact pure us
    case isFalse => exact hy ts

end Agrees

end Steps

-- All parts of the parser for expressions agree, up to some depths.
structure AgreesExpressions (ending ending' : Location) (more : List Token) (n n' : Nat) :
    Prop where
  expression     : ∀ level, Agrees ending ending' more (expression ending n level)
                     (expression ending' n' level)
  chain          : ∀ level left, Agrees ending ending' more (chain ending n level left)
                     (chain ending' n' level left)
  members        : ∀ key, Agrees ending ending' more (members ending n key)
                     (members ending' n' key)
  joins          : ∀ left, Agrees ending ending' more (joins ending n left) (joins ending' n' left)
  primary        : Agrees ending ending' more (primary ending n) (primary ending' n')
  named          : ∀ y l, Agrees ending ending' more (named ending n y l) (named ending' n' y l)
  arguments      : Agrees ending ending' more (arguments ending n) (arguments ending' n')
  expressions    : Agrees ending ending' more (expressions ending n) (expressions ending' n')
  printArguments : Agrees ending ending' more (printArguments ending n)
                     (printArguments ending' n')
  openArguments  : Agrees ending ending' more (openArguments ending n) (openArguments ending' n')

namespace AgreesExpressions

theorem zero : AgreesExpressions ending ending' more 0 n' := by
  constructor
  all_goals
    intros
    exact fun _ => .inl rfl

section

variable (h : AgreesExpressions ending ending' more n n')
include h

variable (hm : kindOf more = .eof)
include hm

theorem expression_succ (level : Level) :
    Agrees ending ending' more (Parse.expression ending (n + 1) level)
      (Parse.expression ending' (n' + 1) level) := by
  cases level
  case assignment =>
    refine (h.expression _).bind fun target => .look hm ?_ (Agrees.pure [])
    intro l k
    rcases k.assignment? with _ | compound
    case none => exact .of_agrees .pure
    case some =>
      refine .skip ((h.expression _).bind fun value => ?_)
      cases compound <;> exact .pure
  case conditional =>
    refine (h.expression _).bind fun test => .here_accept hm nofun (fun l => ?_)
      (fun _ => .of_agrees .pure) (Agrees.pure [])
    refine (h.expression _).bind fun yes => .expect_bind hm nofun ?_
    exact (h.expression _).bind_pure
  case membership => exact (h.expression _).bind h.members
  case matching =>
    refine (h.expression _).bind fun subject => .look hm ?_ (Agrees.pure [])
    intro l k
    rcases k.matching? with _ | negated
    case none => exact .of_agrees .pure
    case some =>
      refine .skip ((h.expression _).bind fun pattern => ?_)
      cases pattern
      case pattern => exact .pure
      all_goals exact .fail
  case comparison | power =>
    refine (h.expression _).bind fun left => .look hm ?_ (Agrees.pure [])
    intro l k
    rcases Level.operator? _ k with _ | op
    case none => exact .of_agrees .pure
    case some => exact .skip (h.expression _).bind_pure
  case concatenation => exact (h.expression _).bind h.joins
  case unary =>
    refine .look hm (fun l k => ?_) (h.expression _ [])
    rcases k.unary? with _ | op
    case none =>
      rcases k.stepBefore? with _ | op
      case none => exact .of_agrees (h.expression _)
      case some => exact .skip (h.expression _).bind_pure
    case some => exact .skip (h.expression _).bind_pure
  case suffix =>
    refine (h.expression _).bind fun target => .look hm ?_ (Agrees.pure [])
    intro l k
    rcases k.stepAfter? with _ | op
    case none => exact .of_agrees .pure
    case some =>
      cases target.isTarget
      case true => exact .skip .pure
      case false => exact .of_agrees .pure
  case field =>
    exact .here_accept hm nofun (fun _ => (h.expression _).bind_pure)
      (fun _ => .of_agrees (h.expression _)) (h.expression _ [])
  case primary => exact h.primary
  case disjunction | conjunction | additive | multiplicative =>
    exact (h.expression _).bind (h.chain _)

theorem chain_succ (level : Level) (left : Expr) :
    Agrees ending ending' more (Parse.chain ending (n + 1) level left)
      (Parse.chain ending' (n' + 1) level left) := by
  refine .look hm (fun l k => ?_) ?_
  · rcases level.operator? k with _ | op
    case none => exact .of_agrees .pure
    case some => exact .skip ((h.expression _).bind fun _ => h.chain _ _)
  · cases level <;> exact Agrees.pure []

theorem members_succ (key : Expr) :
    Agrees ending ending' more (Parse.members ending (n + 1) key)
      (Parse.members ending' (n' + 1) key) :=
  .here_accept hm nofun (fun _ => h.primary.bind fun _ => h.members _)
    (fun _ => .of_agrees .pure) (Agrees.pure [])

theorem joins_succ (left : Expr) :
    Agrees ending ending' more (Parse.joins ending (n + 1) left)
      (Parse.joins ending' (n' + 1) left) := by
  refine .peek hm (fun k => ?_) (Agrees.pure [])
  cases k.startsOperand
  case true => exact .of_agrees ((h.expression _).bind fun _ => h.joins _)
  case false => exact .of_agrees .pure

theorem primary_succ :
    Agrees ending ending' more (Parse.primary ending (n + 1)) (Parse.primary ending' (n' + 1)) := by
  refine .look hm (fun l k => ?_) (.inr ⟨_, rfl, .inr ⟨rfl, rfl⟩⟩)
  split
  case h_1 | h_2 | h_3 => exact .skip .pure
  case h_4 => exact .skip (h.named _ _)
  case h_5 => exact .skip ((h.expression _).bind fun _ => .expect_bind hm nofun .pure)
  case h_6 => exact .skip h.printArguments.bind_pure
  case h_7 =>
    refine .skip (h.printArguments.bind fun args => ?_)
    cases args.isEmpty
    case true => exact .fail
    case false => exact .pure
  case h_8 =>
    refine .skip (.peek hm (fun k => ?_) (Agrees.pure []))
    cases k.startsExpression
    case true => exact .of_agrees ((h.expression _).bind fun _ => .pure)
    case false => exact .of_agrees .pure
  case h_9 | h_10 | h_11 => exact .skip .pure
  case h_12 => exact .of_agrees .fail

theorem named_succ (y : String) (l : Location) :
    Agrees ending ending' more (Parse.named ending (n + 1) y l)
      (Parse.named ending' (n' + 1) y l) := by
  have hp : Agrees ending ending' more
      (if y = "length" then return .call y [] l else return .name y l : Parse Expr)
      (if y = "length" then return .call y [] l else return .name y l) := by
    split <;> exact .pure
  refine .peek hm (fun k => ?_) (hp [])
  split
  case h_1 => exact .skip h.arguments.bind_pure
  case h_2 => exact .skip ((h.expression _).bind fun _ => .expect_bind hm nofun .pure)
  case h_3 => exact .of_agrees hp

theorem listed {what : Expected} {g g' : List Expr → Parse β}
    (hg : ∀ args, Agrees ending ending' more (g args) (g' args)) :
    Agrees ending ending' more
      (do
        let args ← if (← peek) = .symbol .rightParen then pure [] else Parse.expressions ending n
        Parse.expect ending (.symbol .rightParen) what
        g args)
      (do
        let args ← if (← peek) = .symbol .rightParen then pure [] else Parse.expressions ending' n'
        Parse.expect ending' (.symbol .rightParen) what
        g' args) := by
  have he : Agrees ending ending' more
      (Parse.expressions ending n >>= fun args =>
        Parse.expect ending (.symbol .rightParen) what >>= fun _ => g args)
      (Parse.expressions ending' n' >>= fun args =>
        Parse.expect ending' (.symbol .rightParen) what >>= fun _ => g' args) :=
    h.expressions.bind fun args => .expect_bind hm nofun (hg args)
  refine .peek hm (fun k => ?_) (he [])
  split
  case isTrue => exact .of_agrees (Agrees.pure.bind fun args => .expect_bind hm nofun (hg args))
  case isFalse => exact .of_agrees he

theorem arguments_succ :
    Agrees ending ending' more (Parse.arguments ending (n + 1))
      (Parse.arguments ending' (n' + 1)) :=
  h.listed hm fun _ => .pure

theorem expressions_succ :
    Agrees ending ending' more (Parse.expressions ending (n + 1))
      (Parse.expressions ending' (n' + 1)) := by
  refine (h.expression _).bind fun first => Agrees.bind (.accept hm nofun) fun b => ?_
  cases b
  case true => exact h.expressions.bind_pure
  case false => exact .pure

theorem printArguments_succ :
    Agrees ending ending' more (Parse.printArguments ending (n + 1))
      (Parse.printArguments ending' (n' + 1)) :=
  .reread hm nofun h.arguments h.openArguments

theorem openArguments_succ :
    Agrees ending ending' more (Parse.openArguments ending (n + 1))
      (Parse.openArguments ending' (n' + 1)) := by
  refine .peek hm (fun k => ?_) (Agrees.pure [])
  cases endsStatement k
  case true => exact .of_agrees .pure
  case false =>
    refine .of_agrees (h.expressions.bind fun args => ?_)
    refine .peek hm (fun k => ?_) (Agrees.pure [])
    split
    case isTrue => exact .of_agrees .pure
    case isFalse => exact .of_agrees .fail_here

theorem optional {stop : Kind} (hs : stop ≠ .eof) :
    Agrees ending ending' more (Parse.optional ending n stop) (Parse.optional ending' n' stop) := by
  refine .peek hm (fun k => ?_) ?_
  · split
    case isTrue => exact .of_agrees .pure
    case isFalse => exact .of_agrees (h.expression _).bind_pure
  · rw [if_neg hs.symm, if_neg hs.symm]
    exact (h.expression _).bind_pure []

theorem condition {opening closing : Expected} :
    Agrees ending ending' more (Parse.condition ending n opening closing)
      (Parse.condition ending' n' opening closing) :=
  .expect_bind hm nofun ((h.expression _).bind fun _ => .expect_bind hm nofun .pure)

end

end AgreesExpressions

theorem agreesExpressions (hm : kindOf more = .eof) (hn : n ≤ n') :
    AgreesExpressions ending ending' more n n' := by
  induction n generalizing n'
  case zero => exact .zero
  case succ n ih =>
    obtain ⟨n', rfl⟩ := Nat.exists_eq_add_of_le' (Nat.zero_lt_of_lt hn)
    have h := ih (Nat.le_of_succ_le_succ hn)
    exact {
      expression     := h.expression_succ hm
      chain          := h.chain_succ hm
      members        := h.members_succ hm
      joins          := h.joins_succ hm
      primary        := h.primary_succ hm
      named          := h.named_succ hm
      arguments      := h.arguments_succ hm
      expressions    := h.expressions_succ hm
      printArguments := h.printArguments_succ hm
      openArguments  := h.openArguments_succ hm }

structure AgreesStatements (ending ending' : Location) (more : List Token) (n n' : Nat) :
    Prop where
  statement  : Agrees ending ending' more (statement ending n) (statement ending' n')
  branch     : ∀ l, Agrees ending ending' more (branch ending n l) (branch ending' n' l)
  forLoop    : ∀ l, Agrees ending ending' more (forLoop ending n l) (forLoop ending' n' l)
  block      : Agrees ending ending' more (block ending n) (block ending' n')
  statements : Agrees ending ending' more (statements ending n) (statements ending' n')

namespace AgreesStatements

theorem zero : AgreesStatements ending ending' more 0 n' := by
  constructor
  all_goals
    intros
    exact fun _ => .inl rfl

variable (h : AgreesStatements ending ending' more n n') (hm : kindOf more = .eof)
include h hm

section

variable (he : AgreesExpressions ending ending' more n n')
include he

theorem statement_succ :
    Agrees ending ending' more (Parse.statement ending (n + 1))
      (Parse.statement ending' (n' + 1)) := by
  refine .look hm (fun l k => ?_) ((he.expression _).bind_pure [])
  split
  case h_1 | h_2 => exact .skip .pure
  case h_3 => exact .skip (h.branch _).bind_pure
  case h_4 => exact .skip (h.forLoop _)
  case h_5 =>
    refine .skip ((Agrees.expectWord hm).bind fun array => .bind (.accept hm nofun) fun b => ?_)
    cases b
    case true => exact (he.expression _).bind fun _ => .expect_bind hm nofun .pure
    case false => exact .pure
  case h_6 => exact .skip ((he.condition hm).bind fun _ => h.block.bind_pure)
  case h_7 =>
    refine .skip (h.block.bind fun body => .skipSeparators hm ?_)
    exact .expect_bind hm nofun (he.condition hm).bind_pure
  case h_8 =>
    refine .skip (.peek hm (fun k => ?_) (Agrees.pure []))
    cases k.startsExpression
    case true => exact .of_agrees ((he.expression _).bind fun _ => .pure)
    case false => exact .of_agrees .pure
  case h_9 => exact .of_agrees (he.expression _).bind_pure

theorem branch_succ (l : Location) :
    Agrees ending ending' more (Parse.branch ending (n + 1) l)
      (Parse.branch ending' (n' + 1) l) := by
  refine (he.condition hm).bind fun e => h.block.bind fun action => .alternative hm ?_
  refine .skipSeparators hm (.here_accept hm nofun (fun _ => (h.branch _).bind_pure) ?_ ?_)
  · exact fun _ => .of_agrees h.block.bind_pure
  · exact h.block.bind_pure []

theorem counting (l : Location) :
    Agrees ending ending' more
      (do
        let init ← Parse.optional ending n .separator
        Parse.expect ending .separator .separatorAfterInit
        let test ← Parse.optional ending n .separator
        Parse.expect ending .separator .separatorAfterForCondition
        let update ← Parse.optional ending n (.symbol .rightParen)
        Parse.expect ending (.symbol .rightParen) .parenAfterForHeader
        return Stmt.for init test update (← Parse.block ending n) l)
      (do
        let init ← Parse.optional ending' n' .separator
        Parse.expect ending' .separator .separatorAfterInit
        let test ← Parse.optional ending' n' .separator
        Parse.expect ending' .separator .separatorAfterForCondition
        let update ← Parse.optional ending' n' (.symbol .rightParen)
        Parse.expect ending' (.symbol .rightParen) .parenAfterForHeader
        return Stmt.for init test update (← Parse.block ending' n') l) := by
  refine (he.optional hm (by simp)).bind fun init => .expect_bind hm (by simp) ?_
  refine (he.optional hm (by simp)).bind fun test => .expect_bind hm (by simp) ?_
  refine (he.optional hm (by simp)).bind fun update => .expect_bind hm (by simp) ?_
  exact h.block.bind_pure

theorem forLoop_succ (l : Location) :
    Agrees ending ending' more (Parse.forLoop ending (n + 1) l)
      (Parse.forLoop ending' (n' + 1) l) := by
  refine .expect_bind hm (by simp) fun ts => .get (.get ?_)
  cases ts
  case nil =>
    rw [List.nil_append, hm]
    exact h.counting hm he l []
  case cons t us =>
    have hk : kindOf (t :: us ++ more) = kindOf (t :: us) := rfl
    rw [hk, List.cons_append, List.tail_cons, List.tail_cons, kindOf_append_end hm]
    split
    case h_1 x hx hin =>
      cases us
      case nil => cases hin
      case cons u us =>
        refine .skip_cons (.skip_cons (Agrees.bind (.expectWord hm) (fun array => ?_) us))
        exact .expect_bind hm (by simp) h.block.bind_pure
    case h_2 => exact h.counting hm he l (t :: us)

end

theorem block_succ :
    Agrees ending ending' more (Parse.block ending (n + 1)) (Parse.block ending' (n' + 1)) := by
  refine .skipSeparators hm (.look hm (fun l k => ?_) (.inr ⟨_, rfl, .inr ⟨rfl, rfl⟩⟩))
  split
  case h_1 =>
    exact .skip (.skipSeparators hm (h.statements.bind fun body => .expect_bind hm nofun .pure))
  case h_2 | h_3 => exact .of_agrees .fail
  case h_4 => exact .of_agrees h.statement.bind_pure

theorem statements_succ :
    Agrees ending ending' more (Parse.statements ending (n + 1))
      (Parse.statements ending' (n' + 1)) := by
  refine .peek hm (fun k => ?_) (Agrees.pure [])
  split
  case h_1 | h_2 => exact .of_agrees .pure
  case h_3 =>
    refine .of_agrees (h.statement.bind fun first => .skipSeparators hm ?_)
    exact h.statements.bind_pure

end AgreesStatements

theorem agreesStatements (hm : kindOf more = .eof) (hn : n ≤ n') :
    AgreesStatements ending ending' more n n' := by
  induction n generalizing n'
  case zero => exact .zero
  case succ n ih =>
    obtain ⟨n', rfl⟩ := Nat.exists_eq_add_of_le' (Nat.zero_lt_of_lt hn)
    have hn := Nat.le_of_succ_le_succ hn
    have he : AgreesExpressions ending ending' more n n' := agreesExpressions hm hn
    have h := ih hn
    exact {
      statement  := h.statement_succ hm he
      branch     := h.branch_succ hm he
      forLoop    := h.forLoop_succ hm he
      block      := h.block_succ hm
      statements := h.statements_succ hm }

theorem agrees_function (hm : kindOf more = .eof) (hn : n ≤ n') (l : Location) :
    Agrees ending ending' more (function ending n l) (function ending' n' l) := by
  refine (Agrees.expectWord hm).bind fun name => .expect_bind hm nofun ?_
  refine (agreesExpressions hm hn).listed hm fun params => ?_
  exact (agreesStatements hm hn).block.bind_pure

theorem agrees_item (hm : kindOf more = .eof) (hn : n ≤ n') (p : Program) :
    Agrees ending ending' more (item ending n p) (item ending' n' p) := by
  have hb : Agrees ending ending' more (block ending n) (block ending' n') :=
    (agreesStatements hm hn).block
  have hr : Agrees ending ending' more (optional ending n (.symbol .leftBrace))
      (optional ending' n' (.symbol .leftBrace)) :=
    (agreesExpressions hm hn).optional hm nofun
  refine .look hm (fun l k => ?_) (hr.bind (fun _ => hb.bind_pure) [])
  split
  case h_1 =>
    refine .skip ((agrees_function hm hn l).bind fun f => ?_)
    split
    case isTrue => exact .fail
    case isFalse => exact .pure
  case h_2 | h_3 => exact .skip hb.bind_pure
  case h_4 => exact .of_agrees (hr.bind fun _ => hb.bind_pure)

theorem agrees_items (hm : kindOf more = .eof) (hn : n ≤ n') (p : Program) :
    Agrees ending ending' more (items ending n p) (items ending' n' p) := by
  induction n generalizing n' p
  case zero => exact fun _ => .inl rfl
  case succ n ih =>
    obtain ⟨n', rfl⟩ := Nat.exists_eq_add_of_le' (Nat.zero_lt_of_lt hn)
    have hn := Nat.le_of_succ_le_succ hn
    refine .peek hm (fun k => ?_) (Agrees.pure [])
    split
    case isTrue => exact .of_agrees .pure
    case isFalse =>
      exact .of_agrees ((agrees_item hm hn p).bind fun p => .skipSeparators hm (ih hn p))

theorem agrees_program (hm : kindOf more = .eof) (hn : n ≤ n') :
    Agrees ending ending' more (program ending n) (program ending' n') :=
  .skipSeparators hm (agrees_items hm hn {})

theorem parse_append_end (hm : kindOf more = .eof) (ending : Location) (ts : List Token) :
    match (program ending (depthBound ts.length)).run ts with
    | .ok (p, _) => parse (ts ++ more) = .ok p
    | .error e   => ∃ l, parse (ts ++ more) = .error ⟨e.cause, l⟩ ∧
                      (l = e.location ∨
                        e.location = ending ∧ l = locationOf (endOf (ts ++ more)) more) := by
  have hn : depthBound ts.length ≤ depthBound (ts ++ more).length := by
    rw [List.length_append, depthBound, depthBound]
    omega
  have hf : Fair (fun _ => True) 0 ts (Program.WellFormed (fun _ => True) True)
      ((program ending (depthBound ts.length)).run ts) :=
    fair_program (placed_anywhere ts) trivial
  have h : Alike ending (endOf (ts ++ more)) more ((program ending (depthBound ts.length)).run ts)
      ((program (endOf (ts ++ more)) (depthBound (ts ++ more).length)).run (ts ++ more)) :=
    agrees_program hm hn ts
  rw [parse_eq]
  rcases hr : (program ending (depthBound ts.length)).run ts with e | ⟨p, rest⟩
  all_goals rw [hr] at hf h
  case ok => exact congrArg (Except.map Prod.fst) h
  case error =>
    obtain ⟨l, hr', hl⟩ := h.resolve_left hf.1
    refine ⟨l, ?_, hl⟩
    rw [hr']
    rfl

theorem parse_append_eof {eof : Token} (hk : eof.kind = .eof) (ts rest : List Token) :
    parse (ts ++ eof :: rest)
      = ((program eof.location (depthBound ts.length)).run ts).map Prod.fst := by
  have hm : kindOf (eof :: rest) = .eof := hk
  have h := parse_append_end hm eof.location ts
  rcases hr : (program eof.location (depthBound ts.length)).run ts with e | ⟨p, us⟩
  all_goals rw [hr] at h
  case ok => exact h
  case error =>
    obtain ⟨l, hp, rfl | ⟨hl, rfl⟩⟩ := h
    · exact hp
    · rw [hp]
      exact congrArg (fun l => Except.error (SyntacticError.mk e.cause l)) hl.symm

end Parse

open Parse

-- It does not matter whether a list ends with a token for the end, or what follows that token: the
-- program is the same, or the error. Only an error at the end of the list is reported elsewhere.
theorem parse_end {ts rest : List Token} {eof : Token} (hk : eof.kind = .eof) :
    parse (ts ++ eof :: rest) = parse (ts ++ [eof]) ∧
    (∀ p, parse ts = .ok p → parse (ts ++ [eof]) = .ok p) ∧
    ∀ e, parse ts = .error e →
      ∃ l, parse (ts ++ [eof]) = .error ⟨e.cause, l⟩ ∧
        (l = e.location ∨ e.location = endOf ts ∧ l = eof.location) := by
  refine ⟨by rw [parse_append_eof hk ts rest, parse_append_eof hk ts []], ?_⟩
  have hm : kindOf [eof] = .eof := hk
  have h := parse_append_end hm (endOf ts) ts
  rw [parse_eq ts]
  rcases hr : (program (endOf ts) (depthBound ts.length)).run ts with e | ⟨p, us⟩
  all_goals rw [hr] at h
  case ok =>
    refine ⟨fun q hq => ?_, fun e he => (by cases he)⟩
    cases hq
    exact h
  case error =>
    refine ⟨fun q hq => (by cases hq), fun e' he => ?_⟩
    cases he
    exact h

-- An assignment without a value: the error is at the end, which is after the `=`.
theorem parse_end_unfinished :
    let ts : List Token := [⟨.word "x", ⟨1, 1⟩⟩, ⟨.symbol .assign, ⟨1, 3⟩⟩]
    let eof : Token := ⟨.eof, ⟨2, 1⟩⟩
    parse ts = .error ⟨.expected .expression .eof, ⟨1, 3⟩⟩ ∧
    parse (ts ++ [eof]) = .error ⟨.expected .expression .eof, ⟨2, 1⟩⟩ ∧
    parse (ts ++ eof :: ts) = parse (ts ++ [eof]) := by
  intro ts eof
  have h : parse ts = .error ⟨.expected .expression .eof, ⟨1, 3⟩⟩ := rfl
  have h' : parse (ts ++ [eof]) = .error ⟨.expected .expression .eof, ⟨2, 1⟩⟩ := rfl
  exact ⟨h, h', (@parse_end ts ts eof rfl).1⟩

end PatternAction
