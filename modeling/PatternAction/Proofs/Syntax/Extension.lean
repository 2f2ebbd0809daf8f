import PatternAction.Proofs.Syntax.Reading

namespace PatternAction.Parse

variable {α β : Type} {x x' : Parse α} {f f' : α → Parse β} {more ts : List Token} {k : Kind}
  {ending ending' : Location} {n n' : Nat}

-- Tokens that do not belong to a statement before them.
structure Detached (more : List Token) : Prop where
  head : kindOf more = .eof ∨ kindOf more = .separator
  next : kindOf (more.dropWhile (·.kind == .separator)) ≠ .keyword .else

theorem Detached.nil : Detached [] := ⟨.inl rfl, nofun⟩

theorem Detached.apply_kindOf {γ : Type} {g : Kind → γ} (hm : Detached more)
    (hg : g .separator = g .eof) (ts : List Token) : g (kindOf (ts ++ more)) = g (kindOf ts) := by
  cases ts
  case nil =>
    rw [List.nil_append, kindOf]
    rcases hm.head with hk | hk
    · rw [hk]
    · rw [hk, hg]
  case cons => rfl

section Judgements

-- A step takes tokens off the front of a list, and another one does so if more tokens follow.
def ExtendsAt (more : List Token) (x x' : Parse α) (ts : List Token) : Prop :=
  ∀ a rest, x.run ts = .ok (a, rest) → rest <:+ ts ∧ x'.run (ts ++ more) = .ok (a, rest ++ more)

def Extends (more : List Token) (x x' : Parse α) : Prop := ∀ ts, ExtendsAt more x x' ts

-- The same where there is a token,
def Advances (more : List Token) (x x' : Parse α) : Prop := ∀ t ts, ExtendsAt more x x' (t :: ts)

-- and where the list has run out.
def Finishes (more : List Token) (x x' : Parse α) : Prop := ExtendsAt more x x' []

-- A step that fails where the next token is of a kind.
def Refuses (k : Kind) (x : Parse α) : Prop := ∀ ts r, kindOf ts = k → x.run ts ≠ .ok r

end Judgements

theorem exists_of_run_bind {b : β} {rest : List Token} (h : (x >>= f).run ts = .ok (b, rest)) :
    ∃ a mid, x.run ts = .ok (a, mid) ∧ (f a).run mid = .ok (b, rest) := by
  rw [StateT.run_bind] at h
  rcases hx : x.run ts with _ | ⟨a, mid⟩
  all_goals rw [hx] at h
  case error => cases h
  case ok => exact ⟨a, mid, rfl, h⟩

namespace Refuses

theorem fail {cause : SyntacticCause} {l : Location} : Refuses k (fail cause l : Parse α) :=
  fun _ _ _ h => nomatch h

theorem bind (h : Refuses k x) : Refuses k (x >>= f) := by
  intro ts r hk hr
  obtain ⟨a, mid, hx, _⟩ := exists_of_run_bind hr
  exact h ts _ hk hx

theorem here {w : Location → Parse β} (h : ∀ l, Refuses k (w l)) :
    Refuses k (here ending >>= w) :=
  fun ts r hk hr => h _ ts r hk hr

theorem peek {w : Kind → Parse β} (h : Refuses k (w k)) : Refuses k (peek >>= w) := by
  rintro ts r rfl hr
  exact h ts r rfl hr

theorem skipSeparators {w : Unit → Parse β} (hk : k ≠ .separator) (h : Refuses k (w ())) :
    Refuses k (skipSeparators >>= w) := by
  intro ts r hts hr
  have hd : ts.dropWhile (·.kind == .separator) = ts := by
    cases ts
    case nil => rfl
    case cons t us => exact List.dropWhile_cons_of_neg (by simpa [← hts, kindOf] using hk)
  change (w ()).run (ts.dropWhile (·.kind == .separator)) = .ok r at hr
  rw [hd] at hr
  exact h ts r hts hr

theorem accept {c : Kind} {w : Bool → Parse β} (hc : k ≠ c) (h : Refuses k (w false)) :
    Refuses k (accept c >>= w) := by
  rw [Reads.accept_bind]
  refine peek ?_
  rwa [if_neg hc]

theorem expect {c : Kind} {what : Expected} (hc : k ≠ c) : Refuses k (expect ending c what) := by
  refine peek ?_
  rw [if_neg hc]
  exact here fun _ => fail

theorem optional {stop : Kind} (hs : k ≠ stop) (h : Refuses k (expression ending n .assignment)) :
    Refuses k (optional ending n stop) := by
  refine peek ?_
  rw [if_neg hs]
  exact h.bind

end Refuses

theorem refuses_primary (hk : k.startsExpression = false) : Refuses k (primary ending n) := by
  cases n
  case zero => exact .here fun _ => .fail
  case succ =>
    refine .here fun _ => .peek ?_
    split <;> first | cases hk | exact .fail

theorem not_prefix (hk : k.startsExpression = false) :
    k.unary? = none ∧ k.stepBefore? = none ∧ k ≠ .symbol .dollar := by
  cases k
  case symbol s => cases s <;> first | exact ⟨rfl, rfl, by decide⟩ | cases hk
  all_goals exact ⟨rfl, rfl, nofun⟩

theorem refuses_expression (hk : k.startsExpression = false) (level : Level) :
    Refuses k (expression ending n level) := by
  have hu := not_prefix hk
  induction n generalizing level
  case zero => exact .here fun _ => .fail
  case succ n ih =>
    cases level
    case unary =>
      refine .here fun _ => .peek ?_
      rw [hu.1, hu.2.1]
      exact ih _
    case field => exact .here fun _ => .accept hu.2.2 (ih _)
    case primary => exact refuses_primary hk
    all_goals exact (ih _).bind

theorem refuses_expressions (hk : k.startsExpression = false) :
    Refuses k (expressions ending n) := by
  cases n
  case zero => exact .here fun _ => .fail
  case succ => exact (refuses_expression hk _).bind

namespace Extends

theorem pure {a : α} : Extends more (pure a) (pure a) := by
  intro ts b rest h
  cases h
  exact ⟨List.suffix_rfl, rfl⟩

theorem of_refuses (h : ∀ ts r, x.run ts ≠ .ok r) : Extends more x x' :=
  fun ts _ _ hr => absurd hr (h ts _)

theorem fail {cause : SyntacticCause} {l : Location} : Extends more (fail cause l) x' :=
  of_refuses fun _ _ h => nomatch h

theorem fail_here {cause : SyntacticCause} :
    Extends more (do Parse.fail cause (← here ending)) x' := by
  refine of_refuses fun ts r h => ?_
  cases h

theorem bindAt (hx : ExtendsAt more x x' ts) (hf : ∀ a, Extends more (f a) (f' a)) :
    ExtendsAt more (x >>= f) (x' >>= f') ts := by
  intro b rest h
  obtain ⟨a, mid, ha, hb⟩ := exists_of_run_bind h
  obtain ⟨hs, ha'⟩ := hx a mid ha
  obtain ⟨hs', hb'⟩ := hf a mid b rest hb
  exact ⟨hs'.trans hs, (run_bind ha' f').trans hb'⟩

theorem bind (hx : Extends more x x') (hf : ∀ a, Extends more (f a) (f' a)) :
    Extends more (x >>= f) (x' >>= f') :=
  fun ts => bindAt (hx ts) hf

theorem bind_pure {g : α → β} (hx : Extends more x x') :
    Extends more (do return g (← x)) (do return g (← x')) :=
  hx.bind fun _ => pure

end Extends

theorem Advances.of_extends (h : Extends more x x') : Advances more x x' :=
  fun t ts => h (t :: ts)

theorem Finishes.of_refuses (h : Refuses .eof x) : Finishes more x x' :=
  fun _ _ hr => absurd hr (h [] _ rfl)

section Steps

variable (hm : Detached more)
include hm

theorem Finishes.peek {w w' : Kind → Parse β} (h : Finishes more (w .eof) (w' .eof))
    (hs : w' .separator = w' .eof) : Finishes more (Parse.peek >>= w) (Parse.peek >>= w') := by
  intro b rest hb
  obtain ⟨hr, hb'⟩ := h b rest hb
  refine ⟨hr, ?_⟩
  change (w' (kindOf ([] ++ more))).run more = _
  rw [hm.apply_kindOf hs]
  exact hb'

omit hm in
theorem ExtendsAt.peek_cons {w w' : Kind → Parse β} {t : Token}
    (h : ExtendsAt more (w t.kind) (w' t.kind) (t :: ts)) :
    ExtendsAt more (Parse.peek >>= w) (Parse.peek >>= w') (t :: ts) :=
  h

omit hm in
theorem Advances.peek {w w' : Kind → Parse β} (h : ∀ k, Advances more (w k) (w' k)) :
    Advances more (Parse.peek >>= w) (Parse.peek >>= w') :=
  fun t ts => .peek_cons (h t.kind t ts)

omit hm in
theorem ExtendsAt.skip_cons {w w' : Unit → Parse β} {t : Token}
    (h : ExtendsAt more (w ()) (w' ()) ts) :
    ExtendsAt more (Parse.skip >>= w) (Parse.skip >>= w') (t :: ts) := by
  intro b rest hb
  obtain ⟨hs, hb'⟩ := h b rest hb
  exact ⟨hs.trans (List.suffix_cons t ts), hb'⟩

omit hm in
theorem ExtendsAt.get {w w' : List Token → Parse β}
    (h : ExtendsAt more (w ts) (w' (ts ++ more)) ts) :
    ExtendsAt more (MonadState.get >>= w) (MonadState.get >>= w') ts :=
  h

omit hm in
theorem Advances.skip {w w' : Unit → Parse β} (h : Extends more (w ()) (w' ())) :
    Advances more (Parse.skip >>= w) (Parse.skip >>= w') :=
  fun _ ts => .skip_cons (h ts)

namespace Extends

theorem peek {w w' : Kind → Parse β} (ha : ∀ k, Advances more (w k) (w' k))
    (hf : Finishes more (w .eof) (w' .eof)) (hs : w' .separator = w' .eof) :
    Extends more (Parse.peek >>= w) (Parse.peek >>= w') := by
  intro ts
  cases ts
  case nil => exact Finishes.peek hm hf hs
  case cons t ts => exact Advances.peek ha t ts

omit hm in
theorem peek_of_refuses {w w' : Kind → Parse β} (ha : ∀ k, Advances more (w k) (w' k))
    (hf : Refuses .eof (w .eof)) : Extends more (Parse.peek >>= w) (Parse.peek >>= w') := by
  intro ts
  cases ts
  case nil => exact Finishes.of_refuses (Refuses.peek hf)
  case cons t ts => exact Advances.peek ha t ts

-- The place of a token that follows is asked for before it is known whether there is one.
omit hm in
theorem here {w w' : Location → Parse β} (ha : ∀ l, Advances more (w l) (w' l))
    (hf : ∀ l l', Finishes more (w l) (w' l')) :
    Extends more (Parse.here ending >>= w) (Parse.here ending' >>= w') := by
  intro ts
  cases ts
  case nil => exact hf _ _
  case cons t ts => exact ha t.location t ts

theorem look {w w' : Location → Kind → Parse β} (ha : ∀ l k, Advances more (w l k) (w' l k))
    (hf : ∀ l l', Finishes more (w l .eof) (w' l' .eof))
    (hs : ∀ l, w' l .separator = w' l .eof) :
    Extends more (Parse.here ending >>= fun l => Parse.peek >>= w l)
      (Parse.here ending' >>= fun l => Parse.peek >>= w' l) :=
  here (fun l => .peek (ha l)) fun l l' => .peek hm (hf l l') (hs l')

omit hm in
theorem look_of_refuses {w w' : Location → Kind → Parse β}
    (ha : ∀ l k, Advances more (w l k) (w' l k)) (hf : ∀ l, Refuses .eof (w l .eof)) :
    Extends more (Parse.here ending >>= fun l => Parse.peek >>= w l)
      (Parse.here ending' >>= fun l => Parse.peek >>= w' l) :=
  here (fun l => .peek (ha l)) fun l _ => .of_refuses (.peek (hf l))

theorem accept (he : k ≠ .eof) (hs : k ≠ .separator) :
    Extends more (Parse.accept k) (Parse.accept k) := by
  refine peek hm (fun c => ?_) ?_ ?_
  · split
    case isTrue => exact .skip pure
    case isFalse => exact .of_extends pure
  · rw [if_neg he.symm]
    exact pure []
  · rw [if_neg he.symm, if_neg hs.symm]

theorem here_accept {w w' : Location → Bool → Parse β} (he : k ≠ .eof) (hs : k ≠ .separator)
    (ht : ∀ l, Extends more (w l true) (w' l true))
    (ha : ∀ l, Advances more (w l false) (w' l false))
    (hf : ∀ l l', Finishes more (w l false) (w' l' false)) :
    Extends more (Parse.here ending >>= fun l => Parse.accept k >>= w l)
      (Parse.here ending' >>= fun l => Parse.accept k >>= w' l) := by
  simp only [Reads.accept_bind]
  refine look hm (fun l c => ?_) (fun l l' => ?_) fun l => ?_
  · split
    case isTrue => exact .skip (ht l)
    case isFalse => exact ha l
  · rw [if_neg he.symm, if_neg he.symm]
    exact hf l l'
  · rw [if_neg he.symm, if_neg hs.symm]

omit hm

theorem get {w w' : List Token → Parse β}
    (h : ∀ ts, ExtendsAt more (w ts) (w' (ts ++ more)) ts) :
    Extends more (MonadState.get >>= w) (MonadState.get >>= w') :=
  h

theorem expect {what : Expected} (he : k ≠ .eof) :
    Extends more (Parse.expect ending k what) (Parse.expect ending' k what) := by
  refine peek_of_refuses (fun c => ?_) ?_
  · split
    case isTrue =>
      intro t ts b rest hb
      cases hb
      exact ⟨List.suffix_cons t ts, rfl⟩
    case isFalse => exact .of_extends fail_here
  · rw [if_neg he.symm]
    exact .here fun _ => .fail

theorem expect_bind {what : Expected} {w w' : Unit → Parse β} (he : k ≠ .eof)
    (h : Extends more (w ()) (w' ())) :
    Extends more (Parse.expect ending k what >>= w) (Parse.expect ending' k what >>= w') :=
  (expect he).bind fun _ => h

theorem expectWord {what : Expected} :
    Extends more (Parse.expectWord ending what) (Parse.expectWord ending' what) := by
  refine peek_of_refuses (fun c => ?_) (.here fun _ => .fail)
  split
  case h_1 => exact .skip pure
  case h_2 => exact .of_extends fail_here

theorem skipSeparators {w w' : Unit → Parse β} (ha : Advances more (w ()) (w' ()))
    (hf : Refuses .eof (w ())) :
    Extends more (Parse.skipSeparators >>= w) (Parse.skipSeparators >>= w') := by
  intro ts b rest hb
  change (w ()).run (ts.dropWhile (·.kind == .separator)) = .ok (b, rest) at hb
  change _ ∧ (w' ()).run ((ts ++ more).dropWhile (·.kind == .separator)) = _
  rw [List.dropWhile_append]
  have hd : ts.dropWhile (·.kind == .separator) <:+ ts := List.dropWhile_suffix _
  cases hts : ts.dropWhile (·.kind == .separator)
  case nil =>
    rw [hts] at hb
    exact absurd hb (hf [] _ rfl)
  case cons t us =>
    rw [hts] at hb hd
    obtain ⟨hs, hb'⟩ := ha t us b rest hb
    exact ⟨hs.trans hd, hb'⟩

end Extends

theorem ExtendsAt.reread {test : Kind → Bool} {y y' : Parse α} {t : Token}
    (ht : test .separator = test .eof) (hx : Extends more x x')
    (hy : ExtendsAt more y y' (t :: ts)) :
    ExtendsAt more
      (do
        Parse.skip
        let a ← x
        if test (← Parse.peek) then return a
        else
          set (t :: ts)
          y)
      (do
        Parse.skip
        let a ← x'
        if test (← Parse.peek) then return a
        else
          set (t :: ts ++ more)
          y')
      (t :: ts) := by
  intro b rest hb
  have ht₁ (us : List Token) : Parse.skip.run (t :: us) = .ok ((), us) := rfl
  rw [run_bind (ht₁ ts)] at hb
  obtain ⟨a, mid, ha, hb⟩ := exists_of_run_bind hb
  obtain ⟨hs, ha'⟩ := hx ts a mid ha
  change (if test (kindOf mid) then _ else _ : Parse α).run mid = _ at hb
  rw [List.cons_append, run_bind (ht₁ _), run_bind ha']
  change _ ∧ (if test (kindOf (mid ++ more)) then _ else _ : Parse α).run (mid ++ more) = _
  rw [hm.apply_kindOf ht]
  split at hb
  case isTrue ht' =>
    cases hb
    rw [if_pos ht']
    exact ⟨hs.trans (List.suffix_cons t ts), rfl⟩
  case isFalse ht' =>
    rw [if_neg ht']
    exact hy b rest hb

theorem ExtendsAt.alternative {a : α} (hx : Extends more x x') :
    ExtendsAt more
      (do
        Parse.skipSeparators
        if ← Parse.accept (.keyword .else) then x
        else
          set ts
          return a)
      (do
        Parse.skipSeparators
        if ← Parse.accept (.keyword .else) then x'
        else
          set (ts ++ more)
          return a)
      ts := by
  simp only [Reads.accept_bind]
  intro b rest hb
  have hd : ts.dropWhile (·.kind == .separator) <:+ ts := List.dropWhile_suffix _
  change (if kindOf (ts.dropWhile (·.kind == .separator)) = _ then _ else _ : Parse α).run
    (ts.dropWhile (·.kind == .separator)) = _ at hb
  change _ ∧ (if kindOf ((ts ++ more).dropWhile (·.kind == .separator)) = _ then _
    else _ : Parse α).run ((ts ++ more).dropWhile (·.kind == .separator)) = _
  rw [List.dropWhile_append]
  cases hts : ts.dropWhile (·.kind == .separator)
  case nil =>
    rw [hts] at hb
    cases hb
    rw [List.isEmpty_nil, if_pos rfl, if_neg hm.next]
    exact ⟨List.suffix_rfl, rfl⟩
  case cons t us =>
    rw [hts] at hb hd
    rw [List.isEmpty_cons, if_neg Bool.false_ne_true]
    split at hb
    case isTrue hk =>
      have hk : kindOf (t :: us ++ more) = .keyword .else := hk
      rw [if_pos hk]
      obtain ⟨hs, hb'⟩ := hx us b rest hb
      exact ⟨(hs.trans (List.suffix_cons t us)).trans hd, hb'⟩
    case isFalse hk =>
      have hk : kindOf (t :: us ++ more) ≠ .keyword .else := hk
      cases hb
      rw [if_neg hk]
      exact ⟨List.suffix_rfl, rfl⟩

end Steps

-- All parts of the parser for expressions go on alike, up to some depths.
structure ExtendsExpressions (more : List Token) (ending ending' : Location) (n n' : Nat) :
    Prop where
  expression     : ∀ level, Extends more (expression ending n level) (expression ending' n' level)
  chain          : ∀ level left, Extends more (chain ending n level left)
                     (chain ending' n' level left)
  members        : ∀ key, Extends more (members ending n key) (members ending' n' key)
  joins          : ∀ left, Extends more (joins ending n left) (joins ending' n' left)
  primary        : Extends more (primary ending n) (primary ending' n')
  named          : ∀ y l, Extends more (named ending n y l) (named ending' n' y l)
  arguments      : Extends more (arguments ending n) (arguments ending' n')
  expressions    : Extends more (expressions ending n) (expressions ending' n')
  printArguments : Extends more (printArguments ending n) (printArguments ending' n')
  openArguments  : Extends more (openArguments ending n) (openArguments ending' n')

namespace ExtendsExpressions

theorem zero : ExtendsExpressions more ending ending' 0 n' := by
  constructor
  all_goals
    intros
    exact .fail_here

variable (hm : Detached more) (h : ExtendsExpressions more ending ending' n n')
include hm h

theorem expression_succ (level : Level) :
    Extends more (Parse.expression ending (n + 1) level)
      (Parse.expression ending' (n' + 1) level) := by
  cases level
  case assignment =>
    refine (h.expression _).bind fun target => .look hm ?_ (fun _ _ => Extends.pure []) fun _ => rfl
    intro l k
    rcases k.assignment? with _ | compound
    case none => exact .of_extends .pure
    case some =>
      refine .skip ((h.expression _).bind fun value => ?_)
      cases compound <;> exact .pure
  case conditional =>
    refine (h.expression _).bind fun test => .here_accept hm nofun nofun (fun l => ?_)
      (fun _ => .of_extends .pure) fun _ _ => Extends.pure []
    refine (h.expression _).bind fun yes => Extends.expect_bind nofun ?_
    exact (h.expression _).bind_pure
  case membership => exact (h.expression _).bind h.members
  case matching =>
    refine (h.expression _).bind fun subject =>
      .look hm ?_ (fun _ _ => Extends.pure []) fun _ => rfl
    intro l k
    rcases k.matching? with _ | negated
    case none => exact .of_extends .pure
    case some =>
      refine .skip ((h.expression _).bind fun pattern => ?_)
      cases pattern
      case pattern => exact .pure
      all_goals exact .fail
  case comparison | power =>
    refine (h.expression _).bind fun left => .look hm ?_ (fun _ _ => Extends.pure []) fun _ => rfl
    intro l k
    rcases Level.operator? _ k with _ | op
    case none => exact .of_extends .pure
    case some => exact .skip (h.expression _).bind_pure
  case concatenation => exact (h.expression _).bind h.joins
  case unary =>
    refine .look hm (fun l k => ?_) (fun _ _ => h.expression _ []) fun _ => rfl
    rcases k.unary? with _ | op
    case none =>
      rcases k.stepBefore? with _ | op
      case none => exact .of_extends (h.expression _)
      case some => exact .skip (h.expression _).bind_pure
    case some => exact .skip (h.expression _).bind_pure
  case suffix =>
    refine (h.expression _).bind fun target => .look hm ?_ (fun _ _ => Extends.pure []) fun _ => rfl
    intro l k
    rcases k.stepAfter? with _ | op
    case none => exact .of_extends .pure
    case some =>
      cases target.isTarget
      case true => exact .skip .pure
      case false => exact .of_extends .pure
  case field =>
    exact .here_accept hm nofun nofun (fun _ => (h.expression _).bind_pure)
      (fun _ => .of_extends (h.expression _)) fun _ _ => h.expression _ []
  case primary => exact h.primary
  case disjunction | conjunction | additive | multiplicative =>
    exact (h.expression _).bind (h.chain _)

theorem chain_succ (level : Level) (left : Expr) :
    Extends more (Parse.chain ending (n + 1) level left)
      (Parse.chain ending' (n' + 1) level left) := by
  refine .look hm (fun l k => ?_) (fun _ _ => ?_) fun _ => ?_
  · rcases level.operator? k with _ | op
    case none => exact .of_extends .pure
    case some => exact .skip ((h.expression _).bind fun _ => h.chain _ _)
  · cases level <;> exact Extends.pure []
  · cases level <;> rfl

theorem members_succ (key : Expr) :
    Extends more (Parse.members ending (n + 1) key) (Parse.members ending' (n' + 1) key) :=
  .here_accept hm nofun nofun (fun _ => h.primary.bind fun _ => h.members _)
    (fun _ => .of_extends .pure) fun _ _ => Extends.pure []

theorem joins_succ (left : Expr) :
    Extends more (Parse.joins ending (n + 1) left) (Parse.joins ending' (n' + 1) left) := by
  refine .peek hm (fun k => ?_) (Extends.pure []) rfl
  cases k.startsOperand
  case true => exact .of_extends ((h.expression _).bind fun _ => h.joins _)
  case false => exact .of_extends .pure

theorem primary_succ :
    Extends more (Parse.primary ending (n + 1)) (Parse.primary ending' (n' + 1)) := by
  refine .look_of_refuses (fun l k => ?_) fun _ => .fail
  split
  case h_1 | h_2 | h_3 => exact .skip .pure
  case h_4 => exact .skip (h.named _ _)
  case h_5 =>
    refine .skip ((h.expression _).bind fun _ => Extends.expect_bind nofun .pure)
  case h_6 => exact .skip h.printArguments.bind_pure
  case h_7 =>
    refine .skip (h.printArguments.bind fun args => ?_)
    cases args.isEmpty
    case true => exact .fail
    case false => exact .pure
  case h_8 =>
    refine .skip (.peek hm (fun k => ?_) (Extends.pure []) rfl)
    cases k.startsExpression
    case true => exact .of_extends ((h.expression _).bind fun _ => .pure)
    case false => exact .of_extends .pure
  case h_9 | h_10 | h_11 => exact .skip .pure
  case h_12 => exact .of_extends .fail

theorem named_succ (y : String) (l : Location) :
    Extends more (Parse.named ending (n + 1) y l) (Parse.named ending' (n' + 1) y l) := by
  have hp : Extends more
      (if y = "length" then return .call y [] l else return .name y l : Parse Expr)
      (if y = "length" then return .call y [] l else return .name y l) := by
    split <;> exact .pure
  refine .peek hm (fun k => ?_) (hp []) rfl
  split
  case h_1 => exact .skip h.arguments.bind_pure
  case h_2 =>
    exact .skip ((h.expression _).bind fun _ => Extends.expect_bind nofun .pure)
  case h_3 => exact .of_extends hp

omit hm in
theorem listed {what : Expected} {g g' : List Expr → Parse β}
    (hg : ∀ args, Extends more (g args) (g' args)) :
    Extends more
      (do
        let args ← if (← peek) = .symbol .rightParen then pure [] else Parse.expressions ending n
        Parse.expect ending (.symbol .rightParen) what
        g args)
      (do
        let args ← if (← peek) = .symbol .rightParen then pure [] else Parse.expressions ending' n'
        Parse.expect ending' (.symbol .rightParen) what
        g' args) := by
  refine .peek_of_refuses (fun k => ?_) (refuses_expressions rfl).bind
  split
  case isTrue => exact .of_extends (Extends.pure.bind fun args => .expect_bind nofun (hg args))
  case isFalse => exact .of_extends (h.expressions.bind fun args => .expect_bind nofun (hg args))

omit hm in
theorem arguments_succ :
    Extends more (Parse.arguments ending (n + 1)) (Parse.arguments ending' (n' + 1)) :=
  h.listed fun _ => .pure

theorem expressions_succ :
    Extends more (Parse.expressions ending (n + 1)) (Parse.expressions ending' (n' + 1)) := by
  refine (h.expression _).bind fun first => Extends.bind (.accept hm nofun nofun) fun b => ?_
  cases b
  case true => exact h.expressions.bind_pure
  case false => exact .pure

theorem openArguments_succ :
    Extends more (Parse.openArguments ending (n + 1)) (Parse.openArguments ending' (n' + 1)) := by
  refine .peek hm (fun k => ?_) (Extends.pure []) rfl
  cases endsStatement k
  case true => exact .of_extends .pure
  case false =>
    refine Advances.of_extends (h.expressions.bind fun args => ?_)
    refine .peek hm (fun k => ?_) (Extends.pure []) rfl
    split
    case isTrue => exact .of_extends .pure
    case isFalse => exact .of_extends .fail_here

-- Where the parentheses turn out to belong to the first argument, the tokens are read once more,
-- with the same ones after them.
theorem printArguments_succ :
    Extends more (Parse.printArguments ending (n + 1)) (Parse.printArguments ending' (n' + 1)) := by
  rw [Parse.printArguments, Parse.printArguments]
  simp only [Reads.accept_bind]
  refine .get fun ts => ?_
  cases ts
  case nil => exact Finishes.peek hm (h.openArguments []) rfl
  case cons t ts =>
    refine .peek_cons ?_
    split
    case isTrue => exact .reread hm rfl h.arguments (h.openArguments (t :: ts))
    case isFalse => exact h.openArguments (t :: ts)

end ExtendsExpressions

theorem extendsExpressions (hm : Detached more) (hn : n ≤ n') :
    ExtendsExpressions more ending ending' n n' := by
  induction n generalizing n'
  case zero => exact .zero
  case succ n ih =>
    obtain ⟨n', rfl⟩ := Nat.exists_eq_add_of_le' (Nat.zero_lt_of_lt hn)
    have h := ih (Nat.le_of_succ_le_succ hn)
    exact {
      expression     := h.expression_succ hm
      chain          := h.chain_succ hm
      members        := h.members_succ hm
      joins          := h.joins_succ hm
      primary        := h.primary_succ hm
      named          := h.named_succ hm
      arguments      := h.arguments_succ
      expressions    := h.expressions_succ hm
      printArguments := h.printArguments_succ hm
      openArguments  := h.openArguments_succ hm }

section Statements

variable (h : ExtendsExpressions more ending ending' n n')
include h

theorem ExtendsExpressions.optional {stop : Kind} (hs : stop ≠ .eof) :
    Extends more (Parse.optional ending n stop) (Parse.optional ending' n' stop) := by
  refine .peek_of_refuses (fun k => ?_) ?_
  · split
    case isTrue => exact .of_extends .pure
    case isFalse => exact .of_extends (h.expression _).bind_pure
  · rw [if_neg hs.symm]
    exact (refuses_expression rfl _).bind

theorem ExtendsExpressions.condition {opening closing : Expected} :
    Extends more (Parse.condition ending n opening closing)
      (Parse.condition ending' n' opening closing) :=
  .expect_bind nofun ((h.expression _).bind fun _ => .expect_bind nofun .pure)

end Statements

theorem refuses_block : Refuses .eof (block ending n) := by
  cases n
  case zero => exact .here fun _ => .fail
  case succ n =>
    refine .skipSeparators nofun ?_
    exact .here fun _ => .peek .fail

theorem refuses_statements {f : List Stmt → Parse β} (hf : ∀ body, Refuses .eof (f body)) :
    Refuses .eof (statements ending n >>= f) := by
  cases n
  case zero => exact (Refuses.here fun _ => .fail).bind
  case succ n =>
    rw [statements, bind_assoc]
    refine .peek ?_
    exact hf []

structure ExtendsStatements (more : List Token) (ending ending' : Location) (n n' : Nat) :
    Prop where
  statement  : Extends more (statement ending n) (statement ending' n')
  branch     : ∀ l, Extends more (branch ending n l) (branch ending' n' l)
  forLoop    : ∀ l, Extends more (forLoop ending n l) (forLoop ending' n' l)
  block      : Extends more (block ending n) (block ending' n')
  -- where the list runs out the statements end, but what follows them cannot go on
  statements : ∀ {β : Type} {f f' : List Stmt → Parse β},
                 (∀ body, Extends more (f body) (f' body)) → (∀ body, Refuses .eof (f body)) →
                 Extends more (statements ending n >>= f) (statements ending' n' >>= f')

namespace ExtendsStatements

theorem zero : ExtendsStatements more ending ending' 0 n' := by
  constructor
  case statements =>
    intro β f f' _ _
    refine .of_refuses fun ts r hr => ?_
    cases hr
  all_goals
    intros
    exact .fail_here

variable (hm : Detached more) (he : ExtendsExpressions more ending ending' n n')
  (h : ExtendsStatements more ending ending' n n')
include hm he h

theorem statement_succ :
    Extends more (Parse.statement ending (n + 1)) (Parse.statement ending' (n' + 1)) := by
  refine .look_of_refuses (fun l k => ?_) fun _ => (refuses_expression rfl _).bind
  split
  case h_1 | h_2 => exact .skip .pure
  case h_3 => exact .skip (h.branch _).bind_pure
  case h_4 => exact .skip (h.forLoop _)
  case h_5 =>
    refine .skip (Extends.expectWord.bind fun array => .bind (.accept hm nofun nofun) fun b => ?_)
    cases b
    case true => exact (he.expression _).bind fun _ => .expect_bind nofun .pure
    case false => exact .pure
  case h_6 => exact .skip (he.condition.bind fun _ => h.block.bind_pure)
  case h_7 =>
    refine .skip (h.block.bind fun body => .skipSeparators ?_ (.bind (.expect nofun)))
    exact .of_extends (.expect_bind nofun he.condition.bind_pure)
  case h_8 =>
    refine .skip (.peek hm (fun k => ?_) (Extends.pure []) rfl)
    cases k.startsExpression
    case true => exact .of_extends ((he.expression _).bind fun _ => .pure)
    case false => exact .of_extends .pure
  case h_9 => exact .of_extends (he.expression _).bind_pure

theorem branch_succ (l : Location) :
    Extends more (Parse.branch ending (n + 1) l) (Parse.branch ending' (n' + 1) l) := by
  refine he.condition.bind fun e => h.block.bind fun action => .get fun ts => ?_
  refine .alternative hm (.skipSeparators (.of_extends ?_) ?_)
  · exact .here_accept hm nofun nofun (fun _ => (h.branch _).bind_pure)
      (fun _ => .of_extends h.block.bind_pure) fun _ _ => h.block.bind_pure []
  · exact .here fun _ => .accept nofun refuses_block.bind

theorem forLoop_succ (l : Location) :
    Extends more (Parse.forLoop ending (n + 1) l) (Parse.forLoop ending' (n' + 1) l) := by
  refine .expect_bind (by simp) (.get fun ts => .get ?_)
  cases ts
  case nil => exact Finishes.of_refuses (.bind (.optional (by simp) (refuses_expression rfl _)))
  case cons t us =>
    split
    case h_1 x hx hin =>
      cases us
      case nil => cases hin
      case cons u us =>
        simp only [List.cons_append, List.tail_cons, kindOf] at hx hin ⊢
        rw [hx, hin]
        refine .skip_cons (.skip_cons (Extends.expectWord.bind (fun array => ?_) us))
        exact .expect_bind (by simp) h.block.bind_pure
    case h_2 hne =>
      split
      case h_1 x hx hin =>
        -- an `in` is not among the tokens that follow
        rw [List.cons_append, List.tail_cons] at hin
        have hk := hm.apply_kindOf (g := (· = .keyword .in)) (by simp) us
        exact absurd (hk ▸ hin) (hne x hx)
      case h_2 =>
        refine (?_ : Extends more _ _) (t :: us)
        refine .bind (he.optional (by simp)) fun init => .expect_bind (by simp) ?_
        refine .bind (he.optional (by simp)) fun test => .expect_bind (by simp) ?_
        refine .bind (he.optional (by simp)) fun update => .expect_bind (by simp) ?_
        exact h.block.bind_pure

omit hm he in
theorem block_succ :
    Extends more (Parse.block ending (n + 1)) (Parse.block ending' (n' + 1)) := by
  refine .skipSeparators (.of_extends ?_) (.here fun _ => .peek .fail)
  refine .look_of_refuses (fun l k => ?_) fun _ => .fail
  split
  case h_1 =>
    have hr (body : List Stmt) : Refuses .eof
        (do Parse.expect ending (.symbol .rightBrace) .endOfBlock; return Block.mk body l) :=
      .bind (.expect nofun)
    refine .skip (.skipSeparators (.of_extends ?_) (refuses_statements hr))
    exact h.statements (fun body => .expect_bind nofun .pure) hr
  case h_2 | h_3 => exact .of_extends .fail
  case h_4 => exact .of_extends h.statement.bind_pure

omit hm he in
theorem statements_succ {f f' : List Stmt → Parse β}
    (hf : ∀ body, Extends more (f body) (f' body)) (hr : ∀ body, Refuses .eof (f body)) :
    Extends more (Parse.statements ending (n + 1) >>= f)
      (Parse.statements ending' (n' + 1) >>= f') := by
  rw [Parse.statements, Parse.statements, bind_assoc, bind_assoc]
  refine .peek_of_refuses (fun k => ?_) (hr [])
  split
  case h_1 | h_2 => exact .of_extends (hf [])
  case h_3 =>
    simp only [bind_assoc, pure_bind]
    refine .of_extends (h.statement.bind fun first => ?_)
    refine .skipSeparators (.of_extends ?_) (refuses_statements fun _ => hr _)
    exact h.statements (fun _ => hf _) fun _ => hr _

end ExtendsStatements

theorem extendsStatements (hm : Detached more) (hn : n ≤ n') :
    ExtendsStatements more ending ending' n n' := by
  induction n generalizing n'
  case zero => exact .zero
  case succ n ih =>
    obtain ⟨n', rfl⟩ := Nat.exists_eq_add_of_le' (Nat.zero_lt_of_lt hn)
    have hn := Nat.le_of_succ_le_succ hn
    have he : ExtendsExpressions more ending ending' n n' := extendsExpressions hm hn
    have h := ih hn
    exact {
      statement  := h.statement_succ hm he
      branch     := h.branch_succ hm he
      forLoop    := h.forLoop_succ hm he
      block      := h.block_succ
      statements := h.statements_succ }

theorem extends_function (hm : Detached more) (hn : n ≤ n') (l : Location) :
    Extends more (function ending n l) (function ending' n' l) := by
  refine Extends.expectWord.bind fun name => .expect_bind nofun ?_
  refine (extendsExpressions hm hn).listed fun params => ?_
  exact (extendsStatements hm hn).block.bind_pure

end PatternAction.Parse
