import PatternAction.Error
import PatternAction.Proofs.Syntax.Tree

namespace PatternAction

namespace Parse

variable {α β : Type} {x : Parse α} {f : α → Parse β} {P : α → Prop} {Q : β → Prop}
  {names : String → Bool} {ending l : Location} {k : Kind} {what : Expected} {n : Nat}

-- All words among some tokens are in `names`.
def Worded (names : String → Bool) (ts : List Token) : Prop :=
  ∀ t ∈ ts, ∀ x, t.kind = .word x → names x

theorem Worded.of_suffix {ts rest : List Token} (h : Worded names ts) (hs : rest <:+ ts) :
    Worded names rest :=
  fun t ht => h t (hs.subset ht)

-- What a step makes of tokens with words in `names`, if it succeeds.
def Makes (names : String → Bool) (x : Parse α) (P : α → Prop) : Prop :=
  ∀ ts a rest, Worded names ts → x.run ts = .ok (a, rest) → Worded names rest ∧ P a

namespace Makes

theorem pure {a : α} (h : P a) : Makes names (pure a) P := fun _ _ _ hts ha => by
  cases ha
  exact ⟨hts, h⟩

theorem fail {cause : SyntacticCause} : Makes names (fail cause l) P := fun _ _ _ _ ha => nomatch ha

theorem bind (hx : Makes names x P) (hf : ∀ a, P a → Makes names (f a) Q) :
    Makes names (x >>= f) Q := fun ts b rest hts hb => by
  rw [StateT.run_bind] at hb
  rcases hr : x.run ts with _ | ⟨a, ts'⟩
  all_goals rw [hr] at hb
  case error => cases hb
  case ok =>
    have ⟨hts', ha⟩ := hx ts a ts' hts hr
    exact hf a ha ts' b rest hts' hb

theorem get : Makes names get (Worded names) := fun _ _ _ hts ha => by
  cases ha
  exact ⟨hts, hts⟩

theorem set {ts : List Token} (h : Worded names ts) : Makes names (set ts) fun _ => True :=
  fun _ _ _ _ ha => by
    cases ha
    exact ⟨h, trivial⟩

theorem here : Makes names (here ending) fun _ => True := get.bind fun _ _ => pure trivial

theorem kindOf_mem {ts : List Token} (h : Worded names ts) (y : String) (hy : kindOf ts = .word y) :
    names y := by
  cases ts
  case nil => cases hy
  case cons t _ => exact h t (.head _) y hy

theorem peek : Makes names peek fun k => ∀ y, k = .word y → names y :=
  get.bind fun _ h => pure (kindOf_mem h)

theorem skip : Makes names skip fun _ => True := fun ts _ _ hts ha => by
  cases ha
  exact ⟨hts.of_suffix (List.tail_suffix ts), trivial⟩

theorem skipSeparators : Makes names skipSeparators fun _ => True := fun ts _ _ hts ha => by
  cases ha
  exact ⟨hts.of_suffix (List.dropWhile_suffix _), trivial⟩

theorem accept : Makes names (accept k) fun _ => True :=
  peek.bind fun found _ => by
    split
    case isTrue => exact skip.bind fun _ _ => pure trivial
    case isFalse => exact pure trivial

theorem expect : Makes names (expect ending k what) fun _ => True :=
  peek.bind fun found _ => by
    split
    case isTrue => exact skip
    case isFalse => exact here.bind fun _ _ => fail

theorem expectWord : Makes names (expectWord ending what) fun y => names y :=
  peek.bind fun found h => by
    split
    case h_1 y => exact skip.bind fun _ _ => pure (h y rfl)
    case h_2 => exact here.bind fun _ _ => fail

end Makes

-- All parts of the parser for expressions keep to the words of their tokens, up to some depth.
structure NamesExpressions (names : String → Bool) (ending : Location) (n : Nat) : Prop where
  expression     : ∀ level, Makes names (expression ending n level) (·.usesOnly names)
  chain          : ∀ level left, left.usesOnly names →
                     Makes names (chain ending n level left) (·.usesOnly names)
  members        : ∀ key, key.usesOnly names → Makes names (members ending n key) (·.usesOnly names)
  joins          : ∀ left, left.usesOnly names →
                     Makes names (joins ending n left) (·.usesOnly names)
  primary        : Makes names (primary ending n) (·.usesOnly names)
  named          : ∀ x l, names x → Makes names (named ending n x l) (·.usesOnly names)
  arguments      : Makes names (arguments ending n) (Expr.everyUsesOnly names ·)
  expressions    : Makes names (expressions ending n) (Expr.everyUsesOnly names ·)
  printArguments : Makes names (printArguments ending n) (Expr.everyUsesOnly names ·)
  openArguments  : Makes names (openArguments ending n) (Expr.everyUsesOnly names ·)

namespace NamesExpressions

theorem zero : NamesExpressions names ending 0 := by
  constructor
  all_goals
    intros
    exact Makes.here.bind fun _ _ => .fail

variable (h : NamesExpressions names ending n)
include h

theorem expression_succ (level : Level) :
    Makes names (Parse.expression ending (n + 1) level) (·.usesOnly names) := by
  cases level
  case assignment =>
    refine (h.expression _).bind fun target ht => Makes.here.bind fun _ _ => Makes.peek.bind ?_
    intro found _
    split
    case h_1 => exact .pure ht
    case h_2 =>
      refine Makes.skip.bind fun _ _ => (h.expression _).bind fun value hv => ?_
      split <;> exact .pure (by simp [Expr.all, Expr.isNamed, ht, hv])
  case conditional =>
    refine (h.expression _).bind fun test ht => Makes.here.bind fun _ _ => Makes.accept.bind ?_
    intro accepted _
    cases accepted
    case false => exact .pure ht
    case true =>
      refine (h.expression _).bind fun yes hy => Makes.expect.bind fun _ _ => ?_
      refine (h.expression _).bind fun no hn => .pure ?_
      simp [Expr.all, Expr.isNamed, ht, hy, hn]
  case membership => exact (h.expression _).bind fun key hk => h.members key hk
  case matching =>
    refine (h.expression _).bind fun subject hs => Makes.here.bind fun _ _ => Makes.peek.bind ?_
    intro found _
    split
    case h_1 => exact .pure hs
    case h_2 =>
      refine Makes.skip.bind fun _ _ => (h.expression _).bind fun pattern _ => ?_
      split
      case h_1 => exact .pure (by simp [Expr.all, Expr.isNamed, hs])
      case h_2 => exact .fail
  case comparison | power =>
    refine (h.expression _).bind fun left hl => Makes.here.bind fun _ _ => Makes.peek.bind ?_
    intro found _
    split
    case h_1 => exact .pure hl
    case h_2 =>
      refine Makes.skip.bind fun _ _ => (h.expression _).bind fun right hr => .pure ?_
      simp [Expr.all, Expr.isNamed, hl, hr]
  case concatenation => exact (h.expression _).bind fun left hl => h.joins left hl
  case unary =>
    refine Makes.here.bind fun _ _ => Makes.peek.bind fun first _ => ?_
    split
    case h_1 | h_2 =>
      refine Makes.skip.bind fun _ _ => (h.expression _).bind fun operand ho => .pure ?_
      simp [Expr.all, Expr.isNamed, ho]
    case h_3 => exact h.expression _
  case suffix =>
    refine (h.expression _).bind fun target ht => Makes.here.bind fun _ _ => Makes.peek.bind ?_
    intro found _
    split
    case h_2 => exact .pure ht
    case h_1 =>
      split
      case isFalse => exact .pure ht
      case isTrue => exact Makes.skip.bind fun _ _ => .pure (by simp [Expr.all, Expr.isNamed, ht])
  case field =>
    refine Makes.here.bind fun _ _ => Makes.accept.bind fun accepted _ => ?_
    cases accepted
    case false => exact h.expression _
    case true =>
      exact (h.expression _).bind fun index hi => .pure (by simp [Expr.all, Expr.isNamed, hi])
  case primary => exact h.primary
  case disjunction | conjunction | additive | multiplicative =>
    exact (h.expression _).bind fun left hl => h.chain _ left hl

theorem chain_succ {level : Level} {left : Expr} (hl : left.usesOnly names) :
    Makes names (Parse.chain ending (n + 1) level left) (·.usesOnly names) := by
  refine Makes.here.bind fun _ _ => Makes.peek.bind fun found _ => ?_
  split
  case h_1 => exact .pure hl
  case h_2 =>
    refine Makes.skip.bind fun _ _ => (h.expression _).bind fun right hr => h.chain _ _ ?_
    simp [Expr.all, Expr.isNamed, hl, hr]

theorem members_succ {key : Expr} (hk : key.usesOnly names) :
    Makes names (Parse.members ending (n + 1) key) (·.usesOnly names) := by
  refine Makes.here.bind fun _ _ => Makes.accept.bind fun accepted _ => ?_
  cases accepted
  case false => exact .pure hk
  case true =>
    refine h.primary.bind fun array ha => h.members _ ?_
    simp [Expr.all, Expr.isNamed, hk, ha]

theorem joins_succ {left : Expr} (hl : left.usesOnly names) :
    Makes names (Parse.joins ending (n + 1) left) (·.usesOnly names) := by
  refine Makes.peek.bind fun found _ => ?_
  split
  case isFalse => exact .pure hl
  case isTrue =>
    refine (h.expression _).bind fun right hr => h.joins _ ?_
    simp [Expr.all, Expr.isNamed, hl, hr]

theorem primary_succ : Makes names (Parse.primary ending (n + 1)) (·.usesOnly names) := by
  refine Makes.here.bind fun _ _ => Makes.peek.bind fun found hf => ?_
  split
  case h_1 | h_2 | h_3 => exact Makes.skip.bind fun _ _ => .pure rfl
  case h_4 x => exact Makes.skip.bind fun _ _ => h.named x _ (hf x rfl)
  case h_5 =>
    refine Makes.skip.bind fun _ _ => (h.expression _).bind fun inner hi => ?_
    exact Makes.expect.bind fun _ _ => .pure hi
  case h_6 =>
    refine Makes.skip.bind fun _ _ => h.printArguments.bind fun args ha => .pure ?_
    simp [Expr.all, Expr.isNamed, ha]
  case h_7 =>
    refine Makes.skip.bind fun _ _ => h.printArguments.bind fun args ha => ?_
    split
    case isTrue => exact .fail
    case isFalse => exact .pure (by simp [Expr.all, Expr.isNamed, ha])
  case h_8 =>
    refine Makes.skip.bind fun _ _ => Makes.peek.bind fun found _ => ?_
    split
    case isFalse => exact .pure rfl
    case isTrue =>
      refine (h.expression _).bind fun code hc => .pure ?_
      simp [Expr.all, Expr.everyAll, Expr.isNamed, hc]
  case h_9 | h_10 | h_11 => exact Makes.skip.bind fun _ _ => .pure rfl
  case h_12 => exact .fail

theorem named_succ {x : String} (hx : names x) :
    Makes names (Parse.named ending (n + 1) x l) (·.usesOnly names) := by
  refine Makes.peek.bind fun found _ => ?_
  split
  case h_1 =>
    refine Makes.skip.bind fun _ _ => h.arguments.bind fun args ha => .pure ?_
    simp [Expr.all, Expr.isNamed, ha]
  case h_2 =>
    refine Makes.skip.bind fun _ _ => (h.expression _).bind fun index hi => ?_
    exact Makes.expect.bind fun _ _ => .pure (by simp [Expr.all, Expr.isNamed, hx, hi])
  case h_3 =>
    split
    case isTrue => exact .pure rfl
    case isFalse => exact .pure hx

theorem arguments_succ :
    Makes names (Parse.arguments ending (n + 1)) (Expr.everyUsesOnly names ·) := by
  refine Makes.peek.bind fun found _ => ?_
  split
  case isTrue =>
    refine Makes.bind (P := (Expr.everyUsesOnly names ·)) (.pure rfl) fun args ha => ?_
    exact Makes.expect.bind fun _ _ => .pure ha
  case isFalse => exact h.expressions.bind fun args ha => Makes.expect.bind fun _ _ => .pure ha

theorem expressions_succ :
    Makes names (Parse.expressions ending (n + 1)) (Expr.everyUsesOnly names ·) := by
  refine (h.expression _).bind fun first hf => Makes.accept.bind fun accepted _ => ?_
  cases accepted
  case false => exact .pure (by simp [Expr.everyAll, hf])
  case true => exact h.expressions.bind fun rest hr => .pure (by simp [Expr.everyAll, hf, hr])

theorem printArguments_succ :
    Makes names (Parse.printArguments ending (n + 1)) (Expr.everyUsesOnly names ·) := by
  refine Makes.get.bind fun tokens ht => Makes.accept.bind fun accepted _ => ?_
  cases accepted
  case false => exact h.openArguments
  case true =>
    refine h.arguments.bind fun args ha => Makes.peek.bind fun found _ => ?_
    split
    case isTrue => exact .pure ha
    case isFalse => exact (Makes.set ht).bind fun _ _ => h.openArguments

theorem openArguments_succ :
    Makes names (Parse.openArguments ending (n + 1)) (Expr.everyUsesOnly names ·) := by
  refine Makes.peek.bind fun found _ => ?_
  split
  case isTrue => exact .pure rfl
  case isFalse =>
    refine h.expressions.bind fun args ha => Makes.peek.bind fun found _ => ?_
    split
    case isTrue => exact .pure ha
    case isFalse => exact Makes.here.bind fun _ _ => .fail

end NamesExpressions

theorem namesExpressions : (n : Nat) → NamesExpressions names ending n
  | 0     => .zero
  | n + 1 =>
    have h := namesExpressions n
    { expression     := h.expression_succ
      chain          := fun _ _ => h.chain_succ
      members        := fun _ => h.members_succ
      joins          := fun _ => h.joins_succ
      primary        := h.primary_succ
      named          := fun _ _ => h.named_succ
      arguments      := h.arguments_succ
      expressions    := h.expressions_succ
      printArguments := h.printArguments_succ
      openArguments  := h.openArguments_succ }

theorem makes_optional {stop : Kind} :
    Makes names (optional ending n stop) fun o => o.all (Expr.usesOnly names) :=
  Makes.peek.bind fun found _ => by
    split
    case isTrue => exact .pure rfl
    case isFalse => exact ((namesExpressions n).expression _).bind fun _ he => .pure he

theorem makes_condition {opening closing : Expected} :
    Makes names (condition ending n opening closing) (·.usesOnly names) :=
  Makes.expect.bind fun _ _ => ((namesExpressions n).expression _).bind fun _ he =>
    Makes.expect.bind fun _ _ => .pure he

-- The same for the parser for statements.
structure NamesStatements (names : String → Bool) (ending : Location) (n : Nat) : Prop where
  statement  : Makes names (statement ending n) (·.usesOnly names)
  branch     : ∀ l, Makes names (branch ending n l) (·.usesOnly names)
  forLoop    : ∀ l, Makes names (forLoop ending n l) (·.usesOnly names)
  block      : Makes names (block ending n) (·.usesOnly names)
  statements : Makes names (statements ending n) (Stmt.everyUsesOnly names ·)

namespace NamesStatements

theorem zero : NamesStatements names ending 0 := by
  constructor
  all_goals
    intros
    exact Makes.here.bind fun _ _ => .fail

variable (h : NamesStatements names ending n)
include h

theorem statement_succ : Makes names (Parse.statement ending (n + 1)) (·.usesOnly names) := by
  have he : NamesExpressions names ending n := namesExpressions n
  refine Makes.here.bind fun _ _ => Makes.peek.bind fun found _ => ?_
  split
  case h_1 | h_2 => exact Makes.skip.bind fun _ _ => .pure rfl
  case h_3 =>
    refine Makes.skip.bind fun _ _ => (h.branch _).bind fun b hb => .pure ?_
    simp [Stmt.all, Stmt.isNamed, hb]
  case h_4 => exact Makes.skip.bind fun _ _ => h.forLoop _
  case h_5 =>
    refine Makes.skip.bind fun _ _ => Makes.expectWord.bind fun array ha => Makes.accept.bind ?_
    intro accepted _
    cases accepted
    case false => exact .pure (by simp [Stmt.all, Stmt.isNamed, ha])
    case true =>
      refine (he.expression _).bind fun index hi => Makes.expect.bind fun _ _ => .pure ?_
      simp [Stmt.all, Stmt.isNamed, ha, hi]
  case h_6 =>
    refine Makes.skip.bind fun _ _ => makes_condition.bind fun test ht => ?_
    exact h.block.bind fun body hb => .pure (by simp [Stmt.all, Stmt.isNamed, ht, hb])
  case h_7 =>
    refine Makes.skip.bind fun _ _ => h.block.bind fun body hb => ?_
    refine Makes.skipSeparators.bind fun _ _ => Makes.expect.bind fun _ _ => ?_
    exact makes_condition.bind fun test ht => .pure (by simp [Stmt.all, Stmt.isNamed, ht, hb])
  case h_8 =>
    refine Makes.skip.bind fun _ _ => Makes.peek.bind fun found _ => ?_
    split
    case isFalse => exact .pure rfl
    case isTrue =>
      exact (he.expression _).bind fun value hv => .pure (by simp [Stmt.all, Stmt.isNamed, hv])
  case h_9 => exact (he.expression _).bind fun e he => .pure (by simp [Stmt.all, Stmt.isNamed, he])

theorem branch_succ : Makes names (Parse.branch ending (n + 1) l) (·.usesOnly names) := by
  refine makes_condition.bind fun test ht => h.block.bind fun action ha => ?_
  refine Makes.get.bind fun tokens hts => Makes.skipSeparators.bind fun _ _ => Makes.accept.bind ?_
  intro accepted _
  cases accepted
  case false =>
    refine (Makes.set hts).bind fun _ _ => .pure ?_
    simp [Branch.all, Otherwise.all, ht, ha]
  case true =>
    refine Makes.skipSeparators.bind fun _ _ => Makes.here.bind fun _ _ => Makes.accept.bind ?_
    intro accepted _
    cases accepted
    case false =>
      exact h.block.bind fun b hb => .pure (by simp [Branch.all, Otherwise.all, ht, ha, hb])
    case true =>
      exact (h.branch _).bind fun b hb => .pure (by simp [Branch.all, Otherwise.all, ht, ha, hb])

theorem forLoop_succ : Makes names (Parse.forLoop ending (n + 1) l) (·.usesOnly names) := by
  refine Makes.expect.bind fun _ _ => Makes.get.bind fun tokens hts => ?_
  refine Makes.get.bind fun _ _ => ?_
  split
  case h_1 x hx _ =>
    have hx := Makes.kindOf_mem hts x hx
    refine Makes.skip.bind fun _ _ => Makes.skip.bind fun _ _ => Makes.expectWord.bind ?_
    intro array ha
    refine Makes.expect.bind fun _ _ => h.block.bind fun body hb => .pure ?_
    simp [Stmt.all, Stmt.isNamed, hx, ha, hb]
  case h_2 =>
    refine makes_optional.bind fun init hi => Makes.expect.bind fun _ _ => ?_
    refine makes_optional.bind fun test ht => Makes.expect.bind fun _ _ => ?_
    refine makes_optional.bind fun update hu => Makes.expect.bind fun _ _ => ?_
    exact h.block.bind fun body hb => .pure (by simp [Stmt.all, Stmt.isNamed, hi, ht, hu, hb])

theorem block_succ : Makes names (Parse.block ending (n + 1)) (·.usesOnly names) := by
  refine Makes.skipSeparators.bind fun _ _ => Makes.here.bind fun _ _ => Makes.peek.bind ?_
  intro found _
  split
  case h_1 =>
    refine Makes.skip.bind fun _ _ => Makes.skipSeparators.bind fun _ _ => ?_
    refine h.statements.bind fun ss hs => Makes.expect.bind fun _ _ => .pure ?_
    simp [Block.all, hs]
  case h_2 | h_3 => exact .fail
  case h_4 => exact h.statement.bind fun s hs => .pure (by simp [Block.all, Stmt.everyAll, hs])

theorem statements_succ :
    Makes names (Parse.statements ending (n + 1)) (Stmt.everyUsesOnly names ·) := by
  refine Makes.peek.bind fun found _ => ?_
  split
  case h_1 | h_2 => exact .pure rfl
  case h_3 =>
    refine h.statement.bind fun first hf => Makes.skipSeparators.bind fun _ _ => ?_
    exact h.statements.bind fun rest hr => .pure (by simp [Stmt.everyAll, hf, hr])

end NamesStatements

theorem namesStatements : (n : Nat) → NamesStatements names ending n
  | 0     => .zero
  | n + 1 =>
    have h := namesStatements n
    { statement  := h.statement_succ
      branch     := fun _ => h.branch_succ
      forLoop    := fun _ => h.forLoop_succ
      block      := h.block_succ
      statements := h.statements_succ }

theorem makes_function : Makes names (function ending n l) (·.usesOnly names) := by
  have hk (name : String) (params : List Expr) (hp : Expr.everyUsesOnly names params) :
      Makes names (do
        expect ending (.symbol .rightParen) .endOfParameters
        return Function.mk name params (← block ending n) l) (·.usesOnly names) := by
    refine Makes.expect.bind fun _ _ => (namesStatements n).block.bind fun body hb => .pure ?_
    simp only [Function.all, Bool.and_eq_true, List.all_eq_true]
    exact ⟨Expr.everyAll_eq_true.mp hp, hb⟩
  refine Makes.expectWord.bind fun name _ => Makes.expect.bind fun _ _ => Makes.peek.bind ?_
  intro found _
  split
  case isTrue => exact Makes.bind (P := (Expr.everyUsesOnly names ·)) (.pure rfl) (hk name)
  case isFalse => exact (namesExpressions n).expressions.bind (hk name)

theorem makes_item {p : Program} (hp : p.usesOnly names) :
    Makes names (item ending n p) (·.usesOnly names) := by
  have hb := (namesStatements n : NamesStatements names ending n).block
  simp only [Program.all, Bool.and_eq_true] at hp
  refine Makes.here.bind fun _ _ => Makes.peek.bind fun found _ => ?_
  split
  case h_1 =>
    refine Makes.skip.bind fun _ _ => makes_function.bind fun f hf => ?_
    split
    case isTrue => exact .fail
    case isFalse => exact .pure (by simp [Program.all, hp, hf])
  case h_2 | h_3 =>
    exact Makes.skip.bind fun _ _ => hb.bind fun b hb => .pure (by simp [Program.all, hp, hb])
  case h_4 =>
    refine makes_optional.bind fun test ht => hb.bind fun action ha => .pure ?_
    simp [Program.all, Rule.all, hp, ht, ha]

theorem makes_items {p : Program} (hp : p.usesOnly names) :
    Makes names (items ending n p) (·.usesOnly names) := by
  induction n generalizing p
  case zero => exact Makes.here.bind fun _ _ => .fail
  case succ ih =>
    refine Makes.peek.bind fun found _ => ?_
    split
    case isTrue => exact .pure hp
    case isFalse =>
      exact (makes_item hp).bind fun p hp => Makes.skipSeparators.bind fun _ _ => ih hp

end Parse

theorem usesOnly_of_parse {names : String → Bool} {ts : List Token} {p : Program}
    (hts : Parse.Worded names ts) (h : parse ts = .ok p) : p.usesOnly names := by
  have hm {ending n} : Parse.Makes names (Parse.program ending n) (·.usesOnly names) :=
    Parse.Makes.skipSeparators.bind fun _ _ => Parse.makes_items rfl
  rw [parse] at h
  rcases hr : (Parse.program _ _).run ts with _ | ⟨p', rest⟩
  all_goals rw [hr] at h
  all_goals cases h
  exact (hm _ _ _ hts hr).2

namespace Lexer

variable {q : Quotation} {point : Bool} {text cs : List Char} {c : Char} {x : String}

theorem quotation_ne_word : (quotation q text cs).result ≠ .ok (.word x) := by
  fun_induction quotation q text cs
  case case2 => cases q <;> simp
  all_goals simp_all [Scan.cons]

theorem number_ne_word : (number point text cs).result ≠ .ok (.word x) := by
  fun_induction number point text cs <;> simp_all [Scan.cons]

theorem symbol_ne_word : (symbol c cs).result ≠ .ok (.word x) := by
  unfold symbol
  split
  case h_1 => simp
  case h_2 =>
    split
    case h_1 => simp
    case h_2 => split <;> simp

theorem isFieldName_of_word (h : (lexeme cs).result = .ok (.word x)) :
    Environment.isFieldName x = false := by
  cases cs
  case nil => cases h
  case cons c cs =>
    rw [lexeme] at h
    split at h
    case isTrue => cases h
    split at h
    case isTrue => exact absurd h quotation_ne_word
    split at h
    case isTrue => exact absurd h quotation_ne_word
    split at h
    case isTrue => exact absurd h number_ne_word
    split at h
    case isFalse => exact absurd h symbol_ne_word
    case isTrue hc =>
      have hw : isWordChar c := by simp [isWordChar, Char.isAlphanum, hc]
      have hd : c ≠ '$' := by
        rintro rfl
        cases hc
      simp only [word, List.takeWhile_cons_of_pos hw] at h
      cases hk : Keyword.ofSpelling? (String.ofList (c :: cs.takeWhile isWordChar))
      all_goals rw [hk] at h
      all_goals cases h
      simp [Environment.isFieldName, hd]

theorem worded_tokens {l : Lexer} {ts : List Token} (h : l.tokens = .ok ts) :
    Parse.Worded (fun x => !Environment.isFieldName x) ts := by
  have hn {l : Lexer} {t : Token} {l' : Lexer} (hl : l.next = (.ok t, l')) (x : String)
      (hx : t.kind = .word x) : !Environment.isFieldName x := by
    simp only [next] at hl
    split at hl
    case h_2 => cases hl
    case h_1 hk =>
      cases hl
      cases hx
      simp [isFieldName_of_word hk]
  fun_induction tokens l generalizing ts
  case case1 => cases h
  case case2 hl _ =>
    cases h
    intro t ht
    cases List.mem_singleton.mp ht
    exact hn hl
  case case3 _ l' hl _ ih =>
    cases hr : l'.tokens
    all_goals rw [hr] at h
    all_goals cases h
    exact List.forall_mem_cons.mpr ⟨hn hl, ih hr⟩

end Lexer

theorem usesOnly_of_compile {source : String} {p : Program} (h : compile source = .ok p) :
    p.usesOnly fun x => !Environment.isFieldName x := by
  cases ht : tokenize source
  all_goals rw [compile, ht] at h
  case error => cases h
  case ok ts =>
    change (parse ts).mapError Error.syntactic = .ok p at h
    cases hp : parse ts
    all_goals rw [hp] at h
    all_goals cases h
    exact usesOnly_of_parse (Lexer.worded_tokens ht) hp

end PatternAction
