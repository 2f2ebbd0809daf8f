import PatternAction.Proofs.Syntax.EndOfInput
import PatternAction.Proofs.Syntax.Merging

namespace PatternAction.Parse

variable {α σ : Type} {x x' : Parse α} {ts rest : List Token} {ending : Location} {d n n' : Nat}
  {p q : Program}

section Positions

-- The position of the first end in a list, or the one where the list runs out.
def limit (ts : List Token) : Nat := ts.findIdx (·.kind == .eof)

theorem limit_append {taken : List Token} (h : ∀ t ∈ taken, t.kind ≠ .eof) (rest : List Token) :
    limit (taken ++ rest) = limit rest + taken.length := by
  rw [limit, List.findIdx_append, if_neg (by simpa using h)]
  rfl

theorem limit_eq_zero (h : kindOf ts = .eof) : limit ts = 0 := by
  cases ts
  case nil => rfl
  case cons t us =>
    have ht : t.kind = .eof := h
    simp [limit, List.findIdx_cons, ht]

theorem Takes.limit (h : Takes d ts rest) : Parse.limit rest + d ≤ Parse.limit ts := by
  obtain ⟨taken, rfl, hd, ht⟩ := h
  rw [limit_append ht]
  exact Nat.add_le_add_left hd _

theorem limit_pos (h : kindOf ts ≠ .eof) : 0 < limit ts :=
  Nat.zero_lt_of_lt (takes_tail h).limit

theorem Takes.drop (h : Takes d ts rest) :
    ∃ i, d ≤ i ∧ Parse.limit rest + i = Parse.limit ts ∧ rest = ts.drop i := by
  obtain ⟨taken, rfl, hd, ht⟩ := h
  exact ⟨taken.length, hd, (limit_append ht rest).symm, List.drop_left.symm⟩

theorem Takes.eq_drop_limit (h : Takes d ts rest) (hk : kindOf rest = .eof) :
    rest = ts.drop (Parse.limit ts) := by
  obtain ⟨i, _, hl, hr⟩ := h.drop
  rw [limit_eq_zero hk, Nat.zero_add] at hl
  rw [← hl]
  exact hr

end Positions

section Calls

-- A step that succeeds ends at a larger position than it began at, which is not beyond the end.
def Progresses (x : Parse α) : Prop :=
  ∀ ts a rest, x.run ts = .ok (a, rest) → ∃ i, 0 < i ∧ i ≤ limit ts ∧ rest = ts.drop i

-- A step that comes to an end: with a depth that is enough for the tokens it is not cut off, and a
-- larger depth makes no difference.
def Settles (x : Nat → Parse α) : Prop :=
  ∀ ts n, depthBound ts.length ≤ n →
    (x n).run ts = (x (depthBound ts.length)).run ts ∧ ∀ l, (x n).run ts ≠ .error ⟨.tooDeep, l⟩

theorem Agrees.run_eq (h : Agrees ending ending [] x x')
    (hd : ∀ l, x.run ts ≠ .error ⟨.tooDeep, l⟩) : x'.run ts = x.run ts := by
  have ha : Alike ending ending [] (x.run ts) (x'.run (ts ++ [])) := h ts
  rw [List.append_nil] at ha
  rcases hr : x.run ts with e | ⟨a, rest⟩
  all_goals rw [hr] at ha hd
  case ok =>
    rw [show x'.run ts = _ from ha, List.append_nil]
  case error =>
    rcases ha with hc | ⟨l, hr', rfl | ⟨hl, rfl⟩⟩
    · exact absurd (by rw [← hc]) (hd e.location)
    · exact hr'
    · rw [hr', ← hl]

-- A part of the parser, by what is known of it at all depths.
structure Advancing (ending : Location) (x : Nat → Parse α) : Prop where
  agrees   : ∀ {n n'}, n ≤ n' → Agrees ending ending [] (x n) (x n')
  proceeds : ∀ {m n}, Enough 32 m n → ∃ P, Proceeds (fun _ => True) True m 1 (x n) P

namespace Advancing

variable {x : Nat → Parse α} (h : Advancing ending x)
include h

theorem fair (hn : depthBound ts.length ≤ n) :
    ∃ P, Fair (fun _ => True) 1 ts P ((x n).run ts) := by
  have hd : Enough 32 ts.length n := by
    unfold Enough depthBound at *
    omega
  obtain ⟨P, hp⟩ := h.proceeds hd
  exact ⟨P, hp ts (placed_anywhere ts) (Nat.le_refl _)⟩

theorem not_tooDeep (hn : depthBound ts.length ≤ n) (l : Location) :
    (x n).run ts ≠ .error ⟨.tooDeep, l⟩ := by
  intro hr
  obtain ⟨P, hf⟩ := h.fair hn
  rw [hr] at hf
  exact hf.1 rfl

theorem settles : Settles x := by
  intro ts n hn
  exact ⟨(h.agrees hn).run_eq (h.not_tooDeep (Nat.le_refl _)), h.not_tooDeep hn⟩

theorem run_eq_ok {r : α × List Token} (hr : (x n).run ts = .ok r)
    (hn : depthBound ts.length ≤ n') : (x n').run ts = .ok r := by
  have hm : (x (max n n')).run ts = (x n).run ts :=
    (h.agrees (Nat.le_max_left ..)).run_eq fun l hl => by rw [hr] at hl; cases hl
  have hm' : (x (max n n')).run ts = (x n').run ts :=
    (h.agrees (Nat.le_max_right ..)).run_eq (h.not_tooDeep hn)
  rw [← hm', hm, hr]

theorem takes {a : α} (hr : (x n).run ts = .ok (a, rest)) : Takes 1 ts rest := by
  obtain ⟨P, hf⟩ := h.fair (Nat.le_refl (depthBound ts.length))
  rw [h.run_eq_ok hr (Nat.le_refl _)] at hf
  exact hf.1

theorem progresses (n : Nat) : Progresses (x n) := by
  intro ts a rest hr
  obtain ⟨i, hi, hl, hd⟩ := (h.takes hr).drop
  exact ⟨i, hi, by omega, hd⟩

end Advancing

theorem advancing_expression (level : Level) :
    Advancing ending fun n => expression ending n level where
  agrees hn   := (agreesExpressions rfl hn).expression level
  proceeds hn := ⟨_, (proceedsExpressions trivial _).any hn level⟩

theorem advancing_statement : Advancing ending (statement ending) where
  agrees hn   := (agreesStatements rfl hn).statement
  proceeds hn := ⟨_, (proceedsStatements trivial _).statement hn.mono⟩

theorem advancing_block : Advancing ending (block ending) where
  agrees hn   := (agreesStatements rfl hn).block
  proceeds hn := ⟨_, (proceedsStatements trivial _).block hn.mono⟩

theorem advancing_item : Advancing ending fun n => item ending n {} where
  agrees hn   := agrees_item rfl hn {}
  proceeds hn := ⟨_, proceeds_item trivial hn.mono ⟨nofun, nofun, nofun, nofun, .nil⟩⟩

theorem takes_item (h : (item ending n p).run ts = .ok (q, rest)) : Takes 1 ts rest := by
  rw [item_eq] at h
  obtain ⟨part, mid, hp, ha⟩ := exists_of_run_bind h
  obtain ⟨_, rfl⟩ := adopt_eq_ok ha
  have hi : (item ending n {}).run ts = .ok (({} : Program).add part, rest) := by
    rw [item_eq, run_bind hp]
    cases part <;> rfl
  exact advancing_item.takes hi

end Calls

section Loops

variable {goes : Kind → Bool} {round : Nat → σ → Parse σ}

-- A part of the parser that is a loop: as long as the next token is of a kind to go on at, a round
-- and then the loop again.
def Loops (goes : Kind → Bool) (round x : Nat → σ → Parse σ) : Prop :=
  ∀ n s, x (n + 1) s = do
    if goes (← peek) then x n (← round n s)
    else return s

-- How many rounds such a loop begins.
def rounds (goes : Kind → Bool) (round : Nat → σ → Parse σ) : Nat → σ → List Token → Nat
  | 0,     _, _  => 0
  | n + 1, s, ts =>
    if goes (kindOf ts) then
      match (round n s).run ts with
      | .ok (s, rest) => rounds goes round n s rest + 1
      | .error _      => 1
    else 0

-- A loop with at most one round for each token before the end.
structure Paced (goes : Kind → Bool) (round x : Nat → σ → Parse σ) : Prop where
  loops     : Loops goes round x
  rounds_le : ∀ n s ts, rounds goes round n s ts ≤ limit ts

theorem rounds_le_limit (he : goes .eof = false)
    (ht : ∀ {n s s' ts rest}, goes (kindOf ts) → (round n s).run ts = .ok (s', rest) →
      Takes 1 ts rest) (n : Nat) (s : σ) (ts : List Token) :
    rounds goes round n s ts ≤ limit ts := by
  induction n generalizing s ts
  case zero => exact Nat.zero_le _
  case succ n ih =>
    rw [rounds]
    split
    case isFalse => exact Nat.zero_le _
    case isTrue hg =>
      split
      case h_1 s' rest hr =>
        exact Nat.le_trans (Nat.add_le_add_right (ih s' rest) 1) (ht hg hr).limit
      case h_2 =>
        refine limit_pos fun hk => ?_
        rw [hk, he] at hg
        cases hg

-- The rounds of the loop over the items of a program,
def itemRound (ending : Location) (n : Nat) (p : Program) : Parse Program := do
  let p ← item ending n p
  skipSeparators
  return p

-- of the one over the statements of a block,
def statementRound (ending : Location) (n : Nat) (body : List Stmt) : Parse (List Stmt) := do
  let s ← statement ending n
  skipSeparators
  return body ++ [s]

-- of the one over the further operands of a concatenation,
def operandRound (ending : Location) (n : Nat) (left : Expr) : Parse Expr := do
  let right ← expression ending n .additive
  return .binary .concat left right left.location

-- and of the one over the further arguments of a list.
def argumentRound (ending : Location) (n : Nat) (args : List Expr) : Parse (List Expr) := do
  skip
  return args ++ [← expression ending n .assignment]

-- The statements of a block after those that were read,
def moreStatements (ending : Location) (n : Nat) (body : List Stmt) : Parse (List Stmt) := do
  return body ++ (← statements ending n)

-- and the arguments after those that were read.
def moreArguments (ending : Location) (n : Nat) (args : List Expr) : Parse (List Expr) := do
  if (← peek) = .symbol .comma then
    skip
    return args ++ (← expressions ending n)
  else return args

theorem statements_eq : statements ending n = moreStatements ending n [] :=
  (bind_pure _).symm

theorem expressions_eq : expressions ending (n + 1) =
    expression ending n .assignment >>= fun first => moreArguments ending n [first] := by
  simp only [expressions, moreArguments, Reads.accept_bind, if_true, Bool.false_eq_true, if_false,
    List.singleton_append]

theorem append_moreArguments (args es : List Expr) :
    (do return args ++ (← moreArguments ending n es)) = moreArguments ending n (args ++ es) := by
  rw [moreArguments, moreArguments, bind_assoc]
  congr 1
  funext k
  split
  case isTrue => simp only [bind_assoc, pure_bind, List.append_assoc]
  case isFalse => rw [pure_bind]

theorem paced_items : Paced (· ≠ .eof) (itemRound ending) (items ending) where
  loops n p := by
    rw [items]
    congr 1
    funext k
    by_cases hk : k = .eof
    case pos => rw [if_pos hk, if_neg (by simp [hk])]
    case neg =>
      rw [if_neg hk, if_pos (by simp [hk])]
      simp only [itemRound, bind_assoc, pure_bind]
  rounds_le := rounds_le_limit rfl fun _ hr => by
    obtain ⟨q, mid, hq, hr⟩ := exists_of_run_bind hr
    cases hr
    exact (takes_item hq).trans takes_dropWhile

theorem paced_statements :
    Paced (fun k => k ≠ .symbol .rightBrace ∧ k ≠ .eof) (statementRound ending)
      (moreStatements ending) where
  loops n body := by
    rw [moreStatements, statements, bind_assoc]
    congr 1
    funext k
    split
    case h_1 | h_2 => rw [if_neg (by decide), pure_bind, List.append_nil]
    case h_3 hb he =>
      rw [if_pos (decide_eq_true ⟨hb, he⟩)]
      simp only [statementRound, moreStatements, bind_assoc, pure_bind, List.append_assoc,
        List.singleton_append]
  rounds_le := rounds_le_limit rfl fun _ hr => by
    obtain ⟨s, mid, hs, hr⟩ := exists_of_run_bind hr
    cases hr
    exact (advancing_statement.takes hs).trans takes_dropWhile

theorem paced_joins : Paced Kind.startsOperand (operandRound ending) (joins ending) where
  loops n left := by
    rw [joins]
    simp only [operandRound, bind_assoc, pure_bind]
  rounds_le := rounds_le_limit rfl fun _ hr => by
    obtain ⟨e, mid, he, hr⟩ := exists_of_run_bind hr
    cases hr
    exact (advancing_expression .additive).takes he

theorem paced_arguments :
    Paced (· = .symbol .comma) (argumentRound ending) (moreArguments ending) where
  loops n args := by
    rw [moreArguments]
    congr 1
    funext k
    by_cases hk : k = .symbol .comma
    case pos =>
      rw [if_pos hk, if_pos (decide_eq_true hk)]
      simp only [argumentRound, expressions_eq, bind_assoc, pure_bind, append_moreArguments]
    case neg => rw [if_neg hk, if_neg (by simp [hk])]
  rounds_le := rounds_le_limit rfl fun {n args _ ts _} hg hr => by
    have hk : kindOf ts = .symbol .comma := of_decide_eq_true hg
    change (do return args ++ [← expression ending n .assignment] : Parse _).run ts.tail = _ at hr
    obtain ⟨e, mid, he, hr⟩ := exists_of_run_bind hr
    cases hr
    have ht : Takes 2 ts _ :=
      (takes_tail (by simp [hk])).trans ((advancing_expression .assignment).takes he)
    exact ht.mono (by decide)

end Loops

theorem kindOf_of_items (h : (items ending n p).run ts = .ok (q, rest)) : kindOf rest = .eof := by
  induction n generalizing p ts
  case zero => cases h
  case succ n ih =>
    rcases items_cases h with ⟨hk, _, rfl⟩ | ⟨_, _, _, _, _, h⟩
    · exact hk
    · exact ih h

theorem run_program_of_parse (h : parse ts = .ok p) :
    (program (endOf ts) (depthBound ts.length)).run ts = .ok (p, ts.drop (limit ts)) := by
  have hf : Fair (fun _ => True) 0 ts (Program.WellFormed (fun _ => True) True)
      ((program (endOf ts) (depthBound ts.length)).run ts) :=
    fair_program (placed_anywhere ts) trivial
  rw [parse_eq] at h
  rcases hr : (program (endOf ts) (depthBound ts.length)).run ts with e | ⟨q, rest⟩
  all_goals rw [hr] at h hf
  case error => cases h
  case ok =>
    cases h
    have hk : kindOf rest = .eof := kindOf_of_items hr
    rw [hf.1.eq_drop_limit hk]

theorem parse_ne_tooDeep (ts : List Token) (l : Location) : parse ts ≠ .error ⟨.tooDeep, l⟩ := by
  intro h
  have hf := fair_parse (placed_anywhere ts) trivial
  rw [h] at hf
  exact hf.1 rfl

-- The parser goes forward and comes to an end. Every expression, statement and block that is read,
-- at whatever depth, takes tokens, none of them from the first end on; the depth that goes with the
-- number of tokens is enough for all of them; the loops have at most one round for each token; and
-- a program is read up to the first end.
theorem parsing_consumes (ending : Location) :
    (∀ n level, Progresses (expression ending n level)) ∧
    (∀ n, Progresses (statement ending n)) ∧
    (∀ n, Progresses (block ending n)) ∧
    (∀ level, Settles fun n => expression ending n level) ∧
    Settles (statement ending) ∧
    Settles (block ending) ∧
    Paced (· ≠ .eof) (itemRound ending) (items ending) ∧
    (∀ n, statements ending n = moreStatements ending n []) ∧
    Paced (fun k => k ≠ .symbol .rightBrace ∧ k ≠ .eof) (statementRound ending)
      (moreStatements ending) ∧
    Paced Kind.startsOperand (operandRound ending) (joins ending) ∧
    (∀ n, expressions ending (n + 1) =
      expression ending n .assignment >>= fun first => moreArguments ending n [first]) ∧
    Paced (· = .symbol .comma) (argumentRound ending) (moreArguments ending) ∧
    ∀ ts, (∀ l, parse ts ≠ .error ⟨.tooDeep, l⟩) ∧
      ∀ p, parse ts = .ok p →
        (program (endOf ts) (depthBound ts.length)).run ts = .ok (p, ts.drop (limit ts)) := by
  have he (level : Level) := @advancing_expression ending level
  exact ⟨fun n level => (he level).progresses n, advancing_statement.progresses,
    advancing_block.progresses, fun level => (he level).settles, advancing_statement.settles,
    advancing_block.settles, paced_items, fun _ => statements_eq, paced_statements, paced_joins,
    fun _ => expressions_eq, paced_arguments,
    fun ts => ⟨parse_ne_tooDeep ts, fun _ => run_program_of_parse⟩⟩

-- The parentheses after `print` are set back, and so is the separator after which there is no
-- `else`. What follows the first end is not looked at.
theorem parsing_consumes_set_back :
    let kinds : List Kind :=
      [.symbol .leftBrace, .keyword .if, .symbol .leftParen, .word "x", .symbol .rightParen,
       .keyword .print, .symbol .leftParen, .word "a", .symbol .rightParen, .word "b", .separator,
       .symbol .rightBrace]
    let more : List Token := [⟨.eof, default⟩, ⟨.symbol .rightBrace, default⟩]
    let ts := kinds.map (⟨·, default⟩) ++ more
    ∃ p, parse ts = .ok p ∧
      (program (endOf ts) (depthBound ts.length)).run ts = .ok (p, more) := by
  intro kinds more ts
  have hok : (parse ts).isOk := by decide +kernel
  obtain ⟨-, -, -, -, -, -, -, -, -, -, -, -, h⟩ := parsing_consumes default
  cases hp : parse ts
  case error => simp [hp, Except.isOk, Except.toBool] at hok
  case ok p => exact ⟨p, rfl, (h ts).2 p hp⟩

end PatternAction.Parse
