import PatternAction.Proofs.Syntax.Legibility

namespace PatternAction

open Parse Kind

variable {numeral : String → Bool} {ending : Location} {n : Nat} {l : Level} {e : Expr}
  {k : Kind} {ks : List Kind} {location : Location}

theorem legible_of_level (hl : e.level = l) (he : e.isExit = false)
    (h : ∀ ending n, Enough (n + 1) (e.tokens numeral) l →
      Reads (expression ending (n + 1) l) (e.tokens numeral) l.Stops e.Alike) :
    Legible numeral e := by
  intro ending n hn
  have hp := (begins_tokens numeral e).length_pos
  have hr := e.level.rank_le
  obtain ⟨m, rfl⟩ : ∃ m, n = m + 1 := ⟨n - 1, by rw [Enough] at hn; omega⟩
  refine (hl ▸ h ending m (hl ▸ hn)).stop_of fun k hk => ?_
  rwa [Expr.Ends, he] at hk

theorem legible_of_primary (hl : e.level = .primary) (he : e.isExit = false)
    (h : ∀ ending n, 32 * (e.tokens numeral).length ≤ n + 16 →
      Reads (primary ending (n + 1)) (e.tokens numeral) Level.primary.Stops e.Alike) :
    Legible numeral e := by
  refine legible_of_level hl he fun ending n hn => ?_
  have hp := (begins_tokens numeral e).length_pos
  rw [Enough, Level.rank] at hn
  obtain ⟨m, rfl⟩ : ∃ m, n = m + 1 := ⟨n - 1, by omega⟩
  rw [expression]
  exact h ending m hn

theorem legible_constant (text : String) : Legible numeral (.constant text location) := by
  refine legible_of_primary rfl rfl fun ending n hn => ?_
  rw [primary, Expr.tokens]
  cases numeral text
  all_goals exact .here fun _ => .peek_cons (.skip (.pure rfl))

theorem legible_pattern (source : String) : Legible numeral (.pattern source location) := by
  refine legible_of_primary rfl rfl fun ending n hn => ?_
  rw [primary, Expr.tokens]
  exact .here fun _ => .peek_cons (.skip (.pure rfl))

theorem legible_name {x : String} (hx : x ≠ "length") : Legible numeral (.name x location) := by
  refine legible_of_primary rfl rfl fun ending n hn => ?_
  simp only [Expr.tokens, List.length_singleton] at hn
  obtain ⟨m, rfl⟩ : ∃ m, n = m + 1 := ⟨n - 1, by omega⟩
  rw [primary, Expr.tokens]
  refine .here fun _ => .peek_cons (.skip ?_)
  rw [named]
  refine .peek fun next hn => ?_
  have hn := hn.takes
  simp only [Level.takes, Bool.or_eq_false_iff, decide_eq_false_iff_not] at hn
  simp only [headKind_nil]
  split
  case h_1 => exact absurd rfl hn.1
  case h_2 => exact absurd rfl hn.2
  case h_3 =>
    rw [if_neg hx]
    exact .pure rfl

theorem legible_element {array : String} {index : Expr} (hi : Readable numeral index) :
    Legible numeral (.element array index location) := by
  refine legible_of_primary rfl rfl fun ending n hn => ?_
  simp only [Expr.tokens, List.length_cons, List.length_append] at hn
  obtain ⟨m, rfl⟩ : ∃ m, n = m + 1 := ⟨n - 1, by omega⟩
  rw [primary, Expr.tokens]
  refine .here fun _ => .peek_cons (.skip ?_)
  rw [named]
  refine .peek_cons (.skip ?_)
  refine (hi ending .assignment m ?_).bind ?_ fun _ h => .expect (.pure ?_)
  · simp only [Enough, Expr.tokensAt, Level.rank]
    omega
  · intro _ _ l' _
    cases l' <;> rfl
  · rw [Expr.Alike, Expr.unplaced, Expr.unplaced, h]

theorem legible_field {index : Expr} (hi : Readable numeral index) :
    Legible numeral (.field index location) := by
  refine legible_of_level (l := .field) rfl rfl fun ending n hn => ?_
  simp only [Enough, Expr.tokens, List.length_cons, Level.rank] at hn
  rw [expression, Expr.tokens]
  refine .here fun _ => .accept ((hi ending .field n ?_).bind_pure fun _ h => ?_)
  · simp only [Enough, Expr.tokensAt, Level.rank]
    omega
  · rw [Expr.Alike, Expr.unplaced, Expr.unplaced, h]

theorem legible_unary {op : UnaryOp} {operand : Expr} (ho : Readable numeral operand) :
    Legible numeral (.unary op operand location) := by
  refine legible_of_level (l := .unary) rfl rfl fun ending n hn => ?_
  simp only [Enough, Expr.tokens, List.length_cons, Level.rank] at hn
  have hu : (Kind.symbol op.symbol).unary? = some op := by cases op <;> rfl
  rw [expression, Expr.tokens]
  refine .here fun _ => .peek_cons ?_
  rw [hu]
  refine .skip ((ho ending .unary n ?_).bind_pure fun _ h => ?_)
  · simp only [Enough, Expr.tokensAt, Level.rank]
    omega
  · rw [Expr.Alike, Expr.unplaced, Expr.unplaced, h]

theorem legible_step_before {op : Step} {target : Expr} (hop : op.isBefore)
    (ht : Readable numeral target) : Legible numeral (.step op target location) := by
  refine legible_of_level (if_pos hop) rfl fun ending n hn => ?_
  simp only [Enough, Expr.tokens, if_pos hop, List.length_cons, Level.rank] at hn
  have hb : (Kind.symbol op.symbol).stepBefore? = some op := by cases op <;> first | rfl | cases hop
  have hu : (Kind.symbol op.symbol).unary? = none := by cases op <;> rfl
  rw [expression, Expr.tokens, if_pos hop]
  refine .here fun _ => .peek_cons ?_
  rw [hb, hu]
  refine .skip ((ht ending .unary n ?_).bind_pure fun _ h => ?_)
  · simp only [Enough, Expr.tokensAt, Level.rank]
    omega
  · rw [Expr.Alike, Expr.unplaced, Expr.unplaced, h]

theorem legible_step_after {op : Step} {target : Expr} (hop : op.isBefore = false)
    (hi : target.isTarget) (ht : Readable numeral target) :
    Legible numeral (.step op target location) := by
  have hop' : ¬op.isBefore := by simp [hop]
  refine legible_of_level (if_neg hop') rfl fun ending n hn => ?_
  simp only [Enough, Expr.tokens, if_neg hop', List.length_append, List.length_singleton,
    Level.rank] at hn
  have ha : (Kind.symbol op.symbol).stepAfter? = some op := by cases op <;> first | rfl | cases hop
  rw [expression, Expr.tokens, if_neg hop']
  refine (ht ending .field n ?_).bind ?_ fun e he => .here fun _ => .peek_cons ?_
  · simp only [Enough, Expr.tokensAt, Level.rank]
    omega
  · intro _ _ l' h'
    cases l' <;> first | (cases op <;> rfl) | simp [Level.rank] at h'
  · have hi' : e.isTarget := by rw [← Expr.isTarget_unplaced, he, Expr.isTarget_unplaced, hi]
    simp only [ha, if_pos hi']
    refine .skip (.pure ?_)
    rw [Expr.Alike, Expr.unplaced, Expr.unplaced, he]

theorem stops_symbol {op : BinaryOp} {s : Symbol} (hs : op.symbol? = some s)
    (hl : op.level.rank < l.rank) : l.Stops (.symbol s) := by
  intro l' h'
  rcases op with ⟨⟨⟩⟩ | ⟨⟨⟩⟩ | _ | _ | _ <;> cases hs <;> cases l' <;>
    first | rfl | (exfalso; revert hl h'; simp only [BinaryOp.level, Level.rank]; omega)

theorem operator?_symbol {op : BinaryOp} {s : Symbol} (hs : op.symbol? = some s) :
    op.level.operator? (.symbol s) = some op := by
  rcases op with ⟨⟨⟩⟩ | ⟨⟨⟩⟩ | _ | _ | _ <;> cases hs <;> rfl

theorem tokens_binary {op : BinaryOp} {s : Symbol} {left right : Expr} (hs : op.symbol? = some s) :
    (Expr.binary op left right location).tokens numeral
      = left.tokensAt numeral op.leftLevel
          ++ .symbol s :: right.tokensAt numeral op.rightLevel := by
  rw [Expr.tokens, hs]
  rfl

-- Comparisons and powers have one operator, and differ in the level of what follows it.
theorem expression_single {op : BinaryOp} (hop : op.level = .comparison ∨ op.level = .power)
    (ending : Location) (n : Nat) :
    expression ending (n + 1) op.level = (do
      let left ← expression ending n op.leftLevel
      let location ← here ending
      match op.level.operator? (← peek) with
      | none => return left
      | some op' =>
        skip
        let right ← expression ending n op.rightLevel
        return .binary op' left right location) := by
  rcases hop with hop | hop <;> rw [BinaryOp.leftLevel, BinaryOp.rightLevel, hop] <;> rfl

theorem legible_binary_single {op : BinaryOp} {s : Symbol} {left right : Expr}
    (hs : op.symbol? = some s) (hop : op.level = .comparison ∨ op.level = .power)
    (hl : Readable numeral left) (hr : Readable numeral right) :
    Legible numeral (.binary op left right location) := by
  refine legible_of_level (l := op.level) rfl rfl fun ending n hn => ?_
  have hll : op.leftLevel.rank = op.level.rank + 1 := by
    rcases hop with hop | hop <;> rw [BinaryOp.leftLevel, hop] <;> rfl
  have hrl : op.level.rank ≤ op.rightLevel.rank := by
    rcases hop with hop | hop <;> simp [BinaryOp.rightLevel, hop, Level.rank, Level.tighter]
  simp only [Enough, tokens_binary hs, List.length_append, List.length_cons] at hn
  rw [expression_single hop, tokens_binary hs]
  refine (hl ending op.leftLevel n ?_).bind ?_ fun _ he => .here fun _ => .peek_cons ?_
  · rw [Enough]
    omega
  · intro _ _
    exact stops_symbol hs (by omega)
  · rw [operator?_symbol hs]
    refine .skip (((hr ending op.rightLevel n ?_).stop_of ?_).bind_pure fun _ he' => ?_)
    · rw [Enough]
      omega
    · exact fun _ hk => hk.mono hrl
    · rw [Expr.Alike, Expr.unplaced, Expr.unplaced, he, he']

theorem legible_search {subject : Expr} {source : String} {negated : Bool}
    (hs : Readable numeral subject) :
    Legible numeral (.search subject source negated location) := by
  refine legible_of_level (l := .matching) rfl rfl fun ending n hn => ?_
  simp only [Enough, Expr.tokens, List.length_append, List.length_cons, Level.rank] at hn
  have hm : (Kind.symbol (if negated then .notMatches else .matches)).matching? = some negated := by
    cases negated <;> rfl
  have hp := (@legible_pattern numeral location source).readable
  rw [expression, Expr.tokens]
  refine (hs ending .comparison n ?_).bind ?_ fun _ he => .here fun _ => .peek_cons ?_
  · simp only [Enough, Expr.tokensAt, Level.rank]
    omega
  · intro _ _ l' h'
    cases l' <;> first | (cases negated <;> rfl) | simp [Level.rank] at h'
  · rw [hm]
    refine .skip (((hp ending .comparison n ?_).stop_of ?_).bind_nil fun e' he' => ?_)
    · simp only [Enough, Level.rank]
      show 32 * 1 ≤ _
      omega
    · exact fun _ hk => hk.mono (by decide)
    · cases e' <;> cases he'
      refine .pure ?_
      rw [Expr.Alike, Expr.unplaced, Expr.unplaced, he]

theorem legible_conditional {test yes no : Expr} (ht : Readable numeral test)
    (hy : Readable numeral yes) (hn : Readable numeral no) :
    Legible numeral (.conditional test yes no location) := by
  refine legible_of_level (l := .conditional) rfl rfl fun ending n hn' => ?_
  simp only [Enough, Expr.tokens, List.length_append, List.length_cons, Level.rank] at hn'
  rw [expression, Expr.tokens]
  refine (ht ending .disjunction n ?_).bind ?_ fun _ h₁ => .here fun _ => .accept ?_
  · simp only [Enough, Expr.tokensAt, Level.rank]
    omega
  · intro _ _ l' h'
    cases l' <;> first | rfl | simp [Level.rank] at h'
  refine (hy ending .assignment n ?_).bind ?_ fun _ h₂ => .expect ?_
  · simp only [Enough, Expr.tokensAt, Level.rank]
    omega
  · intro _ _ l' _
    cases l' <;> rfl
  refine (hn ending .conditional n ?_).bind_pure fun _ h₃ => ?_
  · simp only [Enough, Expr.tokensAt, Level.rank]
    omega
  · rw [Expr.Alike, Expr.unplaced, Expr.unplaced, h₁, h₂, h₃]

theorem legible_assign {target value : Expr} (ht : Readable numeral target)
    (hv : Readable numeral value) : Legible numeral (.assign target value location) := by
  refine legible_of_level (l := .assignment) rfl rfl fun ending n hn => ?_
  simp only [Enough, Expr.tokens, List.length_append, List.length_cons, Level.rank] at hn
  rw [expression, Expr.tokens]
  refine (ht ending .conditional n ?_).bind ?_ fun _ h₁ => .here fun _ => .peek_cons ?_
  · simp only [Enough, Expr.tokensAt, Level.rank]
    omega
  · intro _ _ l' h'
    cases l' <;> first | rfl | simp [Level.rank] at h'
  refine .skip ((hv ending .assignment n ?_).bind_pure fun _ h₂ => ?_)
  · simp only [Enough, Expr.tokensAt, Level.rank]
    omega
  · rw [Expr.Alike, Expr.unplaced, Expr.unplaced, h₁, h₂]

section Loops

variable {op : BinaryOp} {s : Symbol} {left right : Expr}

theorem BinaryOp.level_ne_concatenation (hs : op.symbol? = some s) : op.level ≠ .concatenation := by
  rintro hc
  rcases op with ⟨⟨⟩⟩ | ⟨⟨⟩⟩ | _ | _ | _ <;> first | cases hs; done | cases hc

theorem BinaryOp.leftLevel_of_isLoop (hop : op.level.isLoop) : op.leftLevel = op.level := by
  rw [leftLevel]
  split <;> simp_all [Level.isLoop]

theorem BinaryOp.rightLevel_of_isLoop (hop : op.level.isLoop) :
    op.rightLevel = op.level.tighter := by
  rw [rightLevel]
  split <;> simp_all [Level.isLoop]

theorem loop_eq_chain (hs : op.symbol? = some s) :
    loop ending n op.level e = chain ending n op.level e := by
  rcases op with ⟨⟨⟩⟩ | ⟨⟨⟩⟩ | _ | _ | _ <;> first | rfl | cases hs

theorem leads_binary (hs : op.symbol? = some s) (hop : op.level.isLoop)
    (hl : Leads numeral op.level left) (hr : Readable numeral right) :
    Leads numeral op.level (.binary op left right location) := by
  intro ending n ks stop P hn hk h
  have hc := BinaryOp.level_ne_concatenation hs
  have htr := Level.rank_tighter (l := op.level) (by intro h; rw [h] at hop; cases hop)
  have ht : (Expr.binary op left right location).leftTokens numeral op.level
      = left.leftTokens numeral op.level
          ++ .symbol s :: right.tokensAt numeral op.level.tighter := by
    have := Expr.leftTokens_level numeral (.binary op left right location) hop
    rw [Expr.level] at this
    rw [this, tokens_binary hs, BinaryOp.leftLevel_of_isLoop hop, BinaryOp.rightLevel_of_isLoop hop,
      Expr.leftTokens, if_neg hc]
  simp only [Enough, ht, List.length_append, List.length_cons] at hn h
  simp only [Level.Lets, if_neg hc] at hk
  rw [ht, List.append_assoc, List.cons_append]
  -- the operator and the right operand are what the loop after the left operand goes on with
  refine hl ending n _ stop P (by rw [Enough]; omega) ?_ fun m left' hm hleft => ?_
  · intro _ _
    rw [Level.Lets, if_neg hc]
    exact stops_symbol hs (by omega)
  · have hr' := op.level.rank_le
    obtain ⟨m, rfl⟩ : ∃ i, m = i + 1 := ⟨m - 1, by omega⟩
    rw [loop_eq_chain hs, chain]
    refine .here fun _ => .peek_cons ?_
    rw [operator?_symbol hs]
    refine .skip ((hr ending op.level.tighter m ?_).bind hk fun right' hright => ?_)
    · rw [Enough]
      omega
    · rw [← loop_eq_chain hs]
      refine h m _ (by omega) ?_
      rw [Expr.Alike, Expr.unplaced, Expr.unplaced, hleft, hright]

theorem leads_member {key array : Expr} (hk : Leads numeral .membership key)
    (ha : Readable numeral array) : Leads numeral .membership (.member key array location) := by
  intro ending n ks stop P hn hs h
  have ht : (Expr.member key array location).leftTokens numeral .membership
      = key.leftTokens numeral .membership ++ .keyword .in :: array.tokensAt numeral .primary := by
    have := Expr.leftTokens_level numeral (.member key array location) rfl
    rw [Expr.level, Expr.tokens] at this
    exact this
  simp only [Enough, ht, List.length_append, List.length_cons, Level.rank] at hn h
  simp only [Level.Lets] at hs
  rw [ht, List.append_assoc, List.cons_append]
  refine hk ending n _ stop P (by simp only [Enough, Level.rank]; omega) ?_ fun m key' hm hkey => ?_
  · intro _ _ l' h'
    cases l' <;> first | rfl | simp [Level.tighter, Level.rank] at h'
  · obtain ⟨m, rfl⟩ : ∃ i, m = i + 1 := ⟨m - 1, by omega⟩
    rw [loop, members]
    refine .here fun _ => .accept ?_
    have hp := ha ending .primary (m + 1)
    rw [expression] at hp
    refine (hp ?_).bind ?_ fun array' harray => ?_
    · simp only [Enough, Level.rank]
      omega
    · exact fun k h => (hs k h).mono (by decide)
    · refine h m _ (by omega) ?_
      rw [Expr.Alike, Expr.unplaced, Expr.unplaced, hkey, harray]

theorem leads_concat (hl : Leads numeral .concatenation left) (hr : Legible numeral right) :
    Leads numeral .concatenation (.binary .concat left right location) := by
  intro ending n ks stop P hn hs h
  have ht : (Expr.binary .concat left right location).leftTokens numeral .concatenation
      = left.leftTokens numeral .concatenation ++ enclosed (right.tokens numeral) := by
    simp [Expr.leftTokens, Expr.isJoin, placed, Expr.tokens, BinaryOp.symbol?]
  simp only [Enough, ht, List.length_append, Level.rank] at hn h
  simp only [Level.Lets, if_pos] at hs
  rw [ht, List.append_assoc]
  refine hl ending n _ stop P (by simp only [Enough, Level.rank]; omega) ?_
    fun m left' hm hleft => ?_
  · intro _ _ l' h' hp
    cases l' <;> first | rfl | simp [Level.rank] at h' hp
  · obtain ⟨m, rfl⟩ : ∃ i, m = i + 1 := ⟨m - 1, by omega⟩
    rw [loop, joins]
    refine .peek fun next _ => ?_
    have ho : (headKind (enclosed (right.tokens numeral) ++ ks) next).startsOperand := rfl
    rw [if_pos ho]
    refine (hr.enclosed ?_).bind hs fun right' hright => ?_
    · simp only [Enough, Level.rank]
      omega
    · refine h m _ ?_ ?_
      · simp only [enclosed, List.length_cons] at hm ⊢
        omega
      · rw [Expr.Alike, Expr.unplaced, Expr.unplaced, hleft, hright]

end Loops

section Calls

variable {args : List Expr} {function : String}

variable (numeral) in
theorem begins_listTokens (h : args ≠ []) : Begins (Expr.listTokens numeral args) .assignment := by
  match args with
  | [e]         => exact (begins_tokens _ e).tokensAt
  | e :: _ :: _ => exact (begins_tokens _ e).tokensAt.append

theorem reads_expressions (h : args ≠ []) (ha : ∀ e ∈ args, Readable numeral e)
    (hn : 32 * (Expr.listTokens numeral args).length ≤ n) :
    Reads (expressions ending (n + 1)) (Expr.listTokens numeral args) (· = .symbol .rightParen)
      fun args' => Expr.everyUnplaced args' = Expr.everyUnplaced args := by
  induction args generalizing n
  case nil => exact absurd rfl h
  case cons e rest ih =>
    have he := ha e (by simp)
    rw [expressions]
    cases rest
    case nil =>
      refine ((he ending .assignment n hn).stop_of ?_).bind_nil
        fun _ h₁ => .not_accept ?_ (.pure ?_)
      · rintro _ rfl
        exact stops_rightParen
      · rintro _ rfl
        exact nofun
      · simp only [Expr.everyUnplaced]
        rw [h₁]
    case cons e' rest =>
      simp only [Expr.listTokens, List.length_append, List.length_cons] at hn
      obtain ⟨m, rfl⟩ : ∃ m, n = m + 1 := ⟨n - 1, by omega⟩
      refine (he ending .assignment (m + 1) ?_).bind ?_ fun _ h₁ => .accept ?_
      · simp only [Enough, Expr.tokensAt, Level.rank]
        omega
      · intro _ _ l' _
        cases l' <;> rfl
      · refine (ih (by simp) (fun e he => ha e (List.mem_cons_of_mem _ he)) ?_).bind_pure
          fun _ h₂ => ?_
        · omega
        · simp only [Expr.everyUnplaced]
          rw [h₁, h₂, Expr.everyUnplaced]

theorem reads_arguments (ha : ∀ e ∈ args, Readable numeral e)
    (hn : 32 * (Expr.listTokens numeral args).length ≤ n) :
    Reads (arguments ending (n + 2)) (Expr.listTokens numeral args ++ [.symbol .rightParen])
      (fun _ => True) fun args' => Expr.everyUnplaced args' = Expr.everyUnplaced args := by
  rw [arguments]
  refine .peek fun next _ => ?_
  by_cases h : args = []
  case pos =>
    subst h
    have hp : headKind (Expr.listTokens numeral [] ++ [.symbol .rightParen]) next
        = .symbol .rightParen := rfl
    dsimp only
    rw [if_pos hp, pure_bind]
    exact .expect (.pure rfl)
  case neg =>
    dsimp only
    have ⟨k, ks, hk, hs, _⟩ := begins_listTokens numeral h
    have hne : k ≠ .symbol .rightParen := by
      rintro rfl
      cases hs
    rw [hk, List.cons_append, headKind_cons, if_neg hne, ← List.cons_append, ← hk]
    exact (reads_expressions h ha hn).bind (fun _ _ => rfl) fun _ h => .expect (.pure h)

theorem legible_call (hf : Keyword.calling? function = none) (ha : ∀ e ∈ args, Readable numeral e) :
    Legible numeral (.call function args location) := by
  have hx : (Expr.call function args location).isExit = false := by
    rw [Expr.isExit, decide_eq_false_iff_not]
    rintro rfl
    cases hf
  refine legible_of_primary rfl hx fun ending n hn => ?_
  have ht : (Expr.call function args location).tokens numeral
      = .word function :: .symbol .leftParen ::
        (Expr.listTokens numeral args ++ [.symbol .rightParen]) := by
    rw [Expr.tokens, hf]
  simp only [ht, List.length_cons, List.length_append] at hn
  obtain ⟨m, rfl⟩ : ∃ m, n = m + 3 := ⟨n - 3, by omega⟩
  rw [primary, ht]
  refine .here fun _ => .peek_cons (.skip ?_)
  rw [named]
  refine .peek_cons (.skip ?_)
  refine ((reads_arguments (n := m) ha (by omega)).stop_of fun _ _ => trivial).bind_pure
    fun _ h => ?_
  rw [Expr.Alike, Expr.unplaced, Expr.unplaced, h]

theorem legible_keyword {k : Keyword} (hf : Keyword.calling? function = some k)
    (hk : k = .getline ∨ k = .next ∨ k = .nextfile) :
    Legible numeral (.call function [] location) := by
  have hx : (Expr.call function [] location).isExit = false := by
    rw [Expr.isExit, decide_eq_false_iff_not]
    rintro rfl
    cases hf
    simp at hk
  refine legible_of_primary rfl hx fun ending n hn => ?_
  rw [primary, Expr.tokens, hf, Expr.listTokens]
  refine .here fun _ => .peek_cons ?_
  unfold Keyword.calling? at hf
  rcases hk with rfl | rfl | rfl <;> split at hf <;> cases hf <;> exact .skip (.pure rfl)

theorem legible_exit (hl : args.length ≤ 1) (ha : ∀ e ∈ args, Readable numeral e) :
    Legible numeral (.call "exit" args location) := by
  intro ending n hn
  have ht : (Expr.call "exit" args location).tokens numeral
      = .keyword .exit :: Expr.listTokens numeral args := by
    rw [Expr.tokens]
    rfl
  simp only [Enough, ht, Expr.level, List.length_cons, Level.rank] at hn
  obtain ⟨m, rfl⟩ : ∃ m, n = m + 2 := ⟨n - 2, by omega⟩
  rw [Expr.level, expression, primary, ht]
  refine .here fun _ => .peek_cons (.skip ?_)
  rcases args with _ | ⟨e, _ | ⟨_, _⟩⟩
  case nil =>
    refine .peek fun next hn => ?_
    cases hn
    exact .pure rfl
  case cons.nil =>
    obtain ⟨k, ks, hk, hs, _⟩ := (begins_tokens numeral e).tokensAt (l := .assignment)
    have he : Expr.listTokens numeral [e] = e.tokensAt numeral .assignment := rfl
    rw [he] at hn ⊢
    refine .peek fun next hn => ?_
    rw [hk, headKind_cons, if_pos hs, ← hk]
    refine ((ha e (by simp) ending .assignment m ?_).stop_of ?_).bind_pure fun _ h => ?_
    · simp only [Enough, Level.rank]
      omega
    · rintro _ rfl
      exact stops_rightParen
    · rw [Expr.Alike, Expr.unplaced, Expr.unplaced]
      simp only [Expr.everyUnplaced]
      rw [h]
  case cons.cons => simp at hl

end Calls

-- What an expression needs to stand anywhere, also as a left operand.
structure Portable (numeral : String → Bool) (e : Expr) : Prop where
  legible : Legible numeral e
  leads : ∀ l : Level, l.isLoop → Leads numeral l e

namespace Portable

theorem readable (h : Portable numeral e) : Readable numeral e :=
  h.legible.readable

theorem of_legible (h : Legible numeral e) (hl : e.level.isLoop = false) : Portable numeral e where
  legible := h
  leads l h' := h.leads h' (by rintro rfl; rw [hl] at h'; cases h')

theorem of_leads (h : Leads numeral e.level e) (hl : e.level.isLoop) : Portable numeral e where
  legible := h.legible hl
  leads l h' := by
    by_cases he : e.level = l
    case pos => exact he ▸ h
    case neg => exact (h.legible hl).leads h' he

theorem binary {op : BinaryOp} {left right : Expr} (hl : Portable numeral left)
    (hr : Portable numeral right) : Portable numeral (.binary op left right location) := by
  cases hs : op.symbol?
  case none =>
    obtain rfl : op = .concat := by
      rcases op with ⟨⟨⟩⟩ | ⟨⟨⟩⟩ | _ | _ | _ <;> first | rfl | cases hs
    exact .of_leads (leads_concat (hl.leads _ rfl) hr.legible) rfl
  case some s =>
    by_cases hop : op.level.isLoop
    case pos => exact .of_leads (leads_binary hs hop (hl.leads _ hop) hr.readable) hop
    case neg =>
      have h : op.level = .comparison ∨ op.level = .power := by
        rcases op with ⟨⟨⟩⟩ | ⟨⟨⟩⟩ | _ | _ | _
        all_goals first | exact .inl rfl | exact .inr rfl | exact absurd rfl hop
      refine .of_legible (legible_binary_single hs h hl.readable hr.readable) ?_
      simpa [Expr.level] using hop

theorem step {op : Step} {target : Expr} (h : op.isBefore || target.isTarget)
    (ht : Portable numeral target) : Portable numeral (.step op target location) := by
  cases hop : op.isBefore
  case true =>
    refine .of_legible (legible_step_before hop ht.readable) ?_
    rw [Expr.level, if_pos hop]
    rfl
  case false =>
    rw [hop, Bool.false_or] at h
    refine .of_legible (legible_step_after hop h ht.readable) ?_
    rw [Expr.level, if_neg (by simp [hop])]
    rfl

theorem call {function : String} {args : List Expr}
    (h : (Expr.call function args location).isRegular)
    (ha : ∀ e ∈ args, Portable numeral e) : Portable numeral (.call function args location) := by
  refine .of_legible ?_ rfl
  rw [Expr.isRegular] at h
  split at h
  case h_1 hf => exact legible_call hf fun e he => (ha e he).readable
  case h_4 hf =>
    unfold Keyword.calling? at hf
    split at hf <;> cases hf
    exact legible_exit (by simpa using h) fun e he => (ha e he).readable
  case h_5 k _ _ _ hf =>
    obtain rfl : args = [] := by simpa using h
    refine legible_keyword hf ?_
    unfold Keyword.calling? at hf
    split at hf <;> cases hf <;> simp_all
  all_goals cases h

end Portable

mutual

theorem portable : (e : Expr) → e.isWritable → Portable numeral e
  | .constant .., _ => .of_legible (legible_constant _) rfl
  | .pattern .., _ => .of_legible (legible_pattern _) rfl
  | .name .., h => by
    simp only [Expr.isWritable, Expr.all, Expr.isRegular, decide_eq_true_eq] at h
    exact .of_legible (legible_name h) rfl
  | .element _ index _, h => by
    simp only [Expr.isWritable, Expr.all, Bool.and_eq_true] at h
    exact .of_legible (legible_element (portable index h.2).readable) rfl
  | .field index _, h => by
    simp only [Expr.isWritable, Expr.all, Bool.and_eq_true] at h
    exact .of_legible (legible_field (portable index h.2).readable) rfl
  | .binary _ left right _, h => by
    simp only [Expr.isWritable, Expr.all, Bool.and_eq_true] at h
    exact .binary (portable left h.1.2) (portable right h.2)
  | .unary _ operand _, h => by
    simp only [Expr.isWritable, Expr.all, Bool.and_eq_true] at h
    exact .of_legible (legible_unary (portable operand h.2).readable) rfl
  | .assign target value _, h => by
    simp only [Expr.isWritable, Expr.all, Bool.and_eq_true] at h
    have ht := (portable target h.1.2).readable
    exact .of_legible (legible_assign ht (portable value h.2).readable) rfl
  | .step _ target _, h => by
    simp only [Expr.isWritable, Expr.all, Bool.and_eq_true] at h
    exact .step h.1 (portable target h.2)
  | .conditional test yes no _, h => by
    simp only [Expr.isWritable, Expr.all, Bool.and_eq_true] at h
    exact .of_legible (legible_conditional (portable test h.1.1.2).readable
      (portable yes h.1.2).readable (portable no h.2).readable) rfl
  | .call _ args _, h => by
    simp only [Expr.isWritable, Expr.all, Bool.and_eq_true] at h
    exact .call h.1 (every_portable args h.2)
  | .member key array _, h => by
    simp only [Expr.isWritable, Expr.all, Bool.and_eq_true] at h
    have hk := portable key h.1.2
    exact .of_leads (leads_member (hk.leads _ rfl) (portable array h.2).readable) rfl
  | .search subject _ _ _, h => by
    simp only [Expr.isWritable, Expr.all, Bool.and_eq_true] at h
    exact .of_legible (legible_search (portable subject h.2).readable) rfl

theorem every_portable : (args : List Expr) → Expr.everyAll Expr.isRegular args →
    ∀ e ∈ args, Portable numeral e
  | [], _, _, he => nomatch he
  | e :: rest, h, e', he => by
    simp only [Expr.everyAll, Bool.and_eq_true] at h
    cases he
    case head    => exact portable e h.1
    case tail he => exact every_portable rest h.2 e' he

end

theorem stops_of_endsStatement (h : endsStatement k) : l.Stops k := by
  intro l' _
  unfold endsStatement at h
  split at h <;> first | (cases l' <;> rfl) | cases h

variable (ending) in
theorem reads_statement (he : e.isWritable) (hn : 32 * (e.rendering numeral).length ≤ n) :
    Reads (statement ending (n + 1)) (e.rendering numeral) (fun k => endsStatement k)
      fun s => ∃ e', s = .expr e' ∧ e.Alike e' := by
  have ⟨k, ks, hk, hs, _⟩ := (begins_tokens numeral e).tokensAt (l := .assignment)
  have hp : Portable numeral e := portable e he
  have hr := hp.readable ending .assignment n hn
  rw [statement, Expr.rendering, hk]
  refine .here fun _ => .peek_cons ?_
  rw [hk] at hr
  have hx : Reads (do return Stmt.expr (← expression ending n .assignment)) (k :: ks)
      (fun k => endsStatement k) fun s => ∃ e', s = .expr e' ∧ e.Alike e' :=
    (hr.stop_of fun _ hk => stops_of_endsStatement hk).bind_pure fun e' he' => ⟨e', rfl, he'⟩
  split <;> first | cases hs | exact hx

theorem reads_statements (he : e.isWritable) (hn : 32 * (e.rendering numeral).length ≤ n) :
    Reads (statements ending (n + 2)) (e.rendering numeral) (· = .symbol .rightBrace)
      fun ss => ∃ e', ss = [.expr e'] ∧ e.Alike e' := by
  have ⟨k, ks, hk, hs, _⟩ := (begins_tokens numeral e).tokensAt (l := .assignment)
  rw [statements]
  refine .peek fun next _ => ?_
  have hx : Reads (do
      let first ← statement ending (n + 1)
      skipSeparators
      return first :: (← statements ending (n + 1))) (e.rendering numeral) (· = .symbol .rightBrace)
      fun ss => ∃ e', ss = [.expr e'] ∧ e.Alike e' := by
    refine ((reads_statement _ he hn).stop_of ?_).bind_nil fun s hs => .skipSeparators ?_ ?_
    · rintro _ rfl
      rfl
    · rintro _ rfl
      exact nofun
    · have ⟨e', hs, he'⟩ := hs
      have ht : Reads (statements ending (n + 1)) [] (· = .symbol .rightBrace) (· = []) := by
        rw [statements]
        refine .peek fun next hn => ?_
        cases hn
        exact .pure rfl
      refine ht.bind_pure fun _ h => ?_
      exact ⟨e', by rw [hs, h], he'⟩
  have hr : headKind (e.rendering numeral) next = k := by rw [Expr.rendering, hk, headKind_cons]
  rw [hr]
  split <;> first | cases hs | exact hx

theorem reads_block (he : e.isWritable) (hn : 32 * (e.rendering numeral).length ≤ n) :
    Reads (block ending (n + 3))
      (.symbol .leftBrace :: (e.rendering numeral ++ [.symbol .rightBrace])) (fun _ => True)
      fun b => ∃ e' l, b = .mk [.expr e'] l ∧ e.Alike e' := by
  have ⟨k, ks, hk, hs, _⟩ := (begins_tokens numeral e).tokensAt (l := .assignment)
  rw [block]
  refine .skipSeparators (by simp) (.here fun l => .peek_cons (.skip ?_))
  refine .skipSeparators ?_ ((reads_statements he hn).bind (fun _ _ => rfl) ?_)
  · intro next _
    rw [Expr.rendering, hk, List.cons_append, headKind_cons]
    rintro rfl
    cases hs
  · rintro _ ⟨e', h, he'⟩
    exact .expect (.pure ⟨e', l, by rw [h], he'⟩)

theorem reads_item {p : Program} (he : e.isWritable) (hn : 32 * (e.rendering numeral).length ≤ n) :
    Reads (item ending (n + 3) p)
      (.symbol .leftBrace :: (e.rendering numeral ++ [.symbol .rightBrace])) (fun _ => True)
      fun p' => ∃ e' l, p' = { p with rules := p.rules ++ [⟨none, .mk [.expr e'] l⟩] } ∧
        e.Alike e' := by
  rw [item]
  refine .here fun _ => .peek_cons ?_
  simp only [Parse.optional, bind_assoc]
  refine .peek_cons ?_
  rw [if_pos rfl, pure_bind]
  refine (reads_block he hn).bind_pure ?_
  rintro _ ⟨e', l, rfl, he'⟩
  exact ⟨e', l, rfl, he'⟩

variable (ending) in
theorem reads_program (he : e.isWritable) (hn : 32 * (e.rendering numeral).length ≤ n) :
    Reads (program ending (n + 4))
      (.symbol .leftBrace :: (e.rendering numeral ++ [.symbol .rightBrace])) (· = .eof)
      fun p => ∃ e' l, p = { rules := [⟨none, .mk [.expr e'] l⟩] } ∧ e.Alike e' := by
  rw [program]
  refine .skipSeparators (by simp) ?_
  rw [items]
  refine .peek_cons ?_
  rw [if_neg nofun]
  refine ((reads_item he hn).stop_of fun _ _ => trivial).bind_nil fun p hp => .skipSeparators ?_ ?_
  · rintro _ rfl
    exact nofun
  · rw [items]
    refine .peek fun next hn => ?_
    cases hn
    exact .pure hp

-- Parsing the tokens of an expression where a statement is expected takes all of them and gives the
-- expression back, up to places; so does parsing the program that has it as its only action.
theorem parse_rendering (numeral : String → Bool) (e : Expr) (he : e.isWritable) (ts : List Token)
    (hts : ts.map Token.kind = e.rendering numeral) :
    (∀ ending n rest, depthBound ts.length ≤ n → endsStatement (kindOf rest) →
      ∃ e', (statement ending n).run (ts ++ rest) = .ok (.expr e', rest) ∧
        e'.unplaced = e.unplaced) ∧
    (∀ opening closing rest, opening.kind = .symbol .leftBrace →
      closing.kind = .symbol .rightBrace → kindOf rest = .eof →
      ∃ e' l, parse (opening :: (ts ++ closing :: rest)) =
          .ok { rules := [⟨none, .mk [.expr e'] l⟩] } ∧
        e'.unplaced = e.unplaced) := by
  have hl : ts.length = (e.rendering numeral).length := by rw [← hts, List.length_map]
  constructor
  case left =>
    intro ending n rest hn hrest
    simp only [depthBound, hl] at hn
    obtain ⟨m, rfl⟩ : ∃ m, n = m + 1 := ⟨n - 1, by omega⟩
    have hm : 32 * (e.rendering numeral).length ≤ m := by omega
    have ⟨_, hs, e', h, he'⟩ := reads_statement ending he hm ts rest hts hrest
    exact ⟨e', h ▸ hs, he'⟩
  case right =>
    intro opening closing rest ho hc hrest
    have ht : opening :: (ts ++ closing :: rest) = opening :: (ts ++ [closing]) ++ rest := by simp
    obtain ⟨n, hd⟩ : ∃ n, depthBound (opening :: (ts ++ closing :: rest)).length = n + 4 :=
      ⟨_, (Nat.sub_add_cancel (by simp only [depthBound]; omega)).symm⟩
    have hn : 32 * (e.rendering numeral).length ≤ n := by
      simp only [depthBound, List.length_cons, List.length_append] at hd
      omega
    have hk : (opening :: (ts ++ [closing])).map Token.kind
        = .symbol .leftBrace :: (e.rendering numeral ++ [.symbol .rightBrace]) := by
      simp [ho, hc, hts]
    let last := (opening :: (ts ++ closing :: rest)).getLast?.map Token.location
    have ⟨_, hp, e', l, h, he'⟩ := reads_program (last.getD default) he hn _ rest hk hrest
    refine ⟨e', l, ?_, he'⟩
    rw [← ht] at hp
    rw [parse, hd, hp, h]
    rfl

-- The expression `a[i] = $n++ ~ p ? -x ^ 2 ^ y : (exit (1 + 2) (z))`.
theorem parse_rendering_assignment :
    let l := Location.start
    let e : Expr :=
      .assign (.element "a" (.name "i" l) l)
        (.conditional (.search (.step .postIncrement (.field (.name "n" l) l) l) "p" false l)
          (.binary (.arithmetic .pow) (.unary .neg (.name "x" l) l)
            (.binary (.arithmetic .pow) (.constant "2" l) (.name "y" l) l) l)
          (.call "exit" [.binary .concat (.binary (.arithmetic .add) (.constant "1" l)
            (.constant "2" l) l) (.name "z" l) l] l) l) l
    let ts := (e.rendering (fun _ => true)).map fun k => ⟨k, l⟩
    e.isWritable ∧
    ∃ e', (statement l 1000).run ts = .ok (.expr e', []) ∧ e'.unplaced = e.unplaced := by
  intro l e ts
  have he : e.isWritable := by decide
  have hts : ts.map Token.kind = e.rendering fun _ => true := by decide
  have h := (parse_rendering (fun _ => true) e he ts hts).1 l 1000 [] (by decide) rfl
  rw [List.append_nil] at h
  exact ⟨he, h⟩

end PatternAction
