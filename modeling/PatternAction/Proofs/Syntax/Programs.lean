import PatternAction.Proofs.Syntax.Statements

namespace PatternAction

open Parse Kind

section Parts

def Item.isWritable : Item → Bool
  | function f => f.isWritable
  | begin b    => b.isWritable
  | finish b   => b.isWritable
  | rule r     => r.isWritable

def Item.unplaced : Item → Item
  | function f => function f.unplaced
  | begin b    => begin b.unplaced
  | finish b   => finish b.unplaced
  | rule r     => rule r.unplaced

namespace Program

variable {p : Program} {item : Item} {items : List Item}

theorem unplaced_add : (p.add item).unplaced = p.unplaced.add item.unplaced := by
  cases item <;> simp [add, unplaced, Item.unplaced]

theorem isWritable_add : (p.add item).isWritable ↔ p.isWritable ∧ item.isWritable := by
  cases item <;> simp [add, isWritable, Item.isWritable] <;> grind

theorem isWritable_foldl (h : (items.foldl add p).isWritable) :
    ∀ item ∈ items, item.isWritable := by
  suffices p.isWritable ∧ ∀ item ∈ items, item.isWritable from this.2
  induction items generalizing p
  case nil => simpa using h
  case cons item items ih =>
    have ⟨hp, hi⟩ := ih h
    have ⟨hp, hf⟩ := isWritable_add.mp hp
    exact ⟨hp, List.forall_mem_cons.mpr ⟨hf, hi⟩⟩

theorem functions_foldl (p : Program) (items : List Item) :
    p.functions <+: (items.foldl add p).functions := by
  induction items generalizing p
  case nil => exact List.prefix_rfl
  case cons item items ih =>
    refine .trans ?_ (ih (p.add item))
    cases item
    case function f => exact List.prefix_append _ _
    all_goals exact List.prefix_rfl

theorem names_eq_of_unplaced {p' : Program} (h : p'.unplaced = p.unplaced) :
    p'.functions.map (·.name) = p.functions.map (·.name) := by
  have := congrArg (·.functions.map (·.name)) h
  simpa [unplaced, Function.unplaced, Function.comp_def] using this

end Program

end Parts

section Items

variable {ending location : Location} {n i : Nat} {ks : List Kind} {p : Program} {item : Item}
  {items : List Item}

theorem Item.Written.begins (h : item.Written ks) :
    ∃ k ks', ks = k :: ks' ∧ k ≠ .separator ∧ k ≠ .eof := by
  cases h
  case always h =>
    cases h
    case mk => exact ⟨_, _, rfl, nofun, nofun⟩
  case when h _ =>
    have ⟨k, ks', hk, hs, _⟩ := h.begins
    refine ⟨k, _, by rw [hk]; rfl, ?_, ?_⟩ <;> rintro rfl <;> cases hs
  all_goals exact ⟨_, _, rfl, nofun, nofun⟩

theorem reads_function {f : Function} {bs : List Kind} (hf : f.isWritable)
    (hp : Expr.Listed f.params ks) (hb : f.body.Written bs)
    (hn : 32 * (ks.length + bs.length) < n) :
    Reads (function ending n location) (.word f.name :: (enclosed ks ++ (separators i ++ bs)))
      (fun _ => True) fun f' => f'.unplaced = f.unplaced := by
  simp only [Function.isWritable, Bool.and_eq_true] at hf
  obtain ⟨m, rfl⟩ : ∃ m, n = m + 1 := ⟨n - 1, by omega⟩
  simp only [enclosed, List.cons_append, List.append_assoc, List.nil_append]
  rw [function]
  refine .expectWord (.expect (hp.closed (Expr.everyRead _ hf.1) (by omega) fun params h₁ => ?_))
  refine (Block.Written.read f.body hf.2 bs hb ending _ i (by omega)).bind_pure fun body h₂ => ?_
  rw [Function.unplaced, Function.unplaced, h₁, h₂]

def Parse.rule (ending : Location) (n : Nat) (p : Program) : Parse Program := do
  let condition ← optional ending n (.symbol .leftBrace)
  return { p with rules := p.rules ++ [⟨condition, ← block ending n⟩] }

theorem reads_rule {r : Rule} (hr : r.isWritable) (hw : (Item.rule r).Written ks)
    (hn : 32 * ks.length < n) :
    Reads (rule ending n p) ks (fun _ => True)
      fun p' => ∃ r', p' = p.add (.rule r') ∧ r'.unplaced = r.unplaced := by
  simp only [Rule.isWritable, Bool.and_eq_true] at hr
  cases hw
  case always b hb =>
    have hb' := Block.Written.read b hr.2 ks hb ending n 0 hn
    cases hb
    case mk =>
      refine reads_absent.bind (fun _ _ => rfl) fun o ho => hb'.bind_pure fun b' h => ?_
      exact ⟨⟨none, b'⟩, by rw [ho]; rfl, congrArg (Rule.mk none) h⟩
  case when e ks b bs i he hb =>
    simp only [List.length_append] at hn
    have he' := Expr.Written.read e hr.1 ks he ending n (by simp only [Enough, Level.rank]; omega)
    have hb' := Block.Written.read b hr.2 bs hb ending n i (by omega)
    refine (reads_present he.begins rfl he').bind ?_ fun o ho => hb'.bind_pure fun b' h => ?_
    · intro _ _
      cases hb
      case mk => cases i <;> rfl
    · refine ⟨⟨o, b'⟩, rfl, ?_⟩
      rw [Rule.unplaced, Rule.unplaced, ho, h]
      rfl

theorem item_eq_rule {r : Rule} (hw : (Item.rule r).Written ks)
    {P : Program → Prop} (h : Reads (rule ending n p) ks (fun _ => True) P) :
    Reads (Parse.item ending n p) ks (fun _ => True) P := by
  rw [Parse.item]
  refine .here fun l => .peek fun next _ => ?_
  cases hw
  case always hb =>
    cases hb
    case mk => exact h
  case when he _ =>
    obtain ⟨k, ks', hk, hs, _⟩ := he.begins
    subst hk
    simp only [List.cons_append, headKind_cons]
    split <;> first | cases hs | exact h

theorem reads_part (hi : item.isWritable) (hw : item.Written ks) (hn : 32 * ks.length < n)
    (hd : ∀ f, item = .function f → ∀ g ∈ p.functions, g.name ≠ f.name) :
    Reads (Parse.item ending n p) ks (fun _ => True)
      fun p' => ∃ item', p' = p.add item' ∧ item'.unplaced = item.unplaced := by
  cases item
  case function f =>
    cases hw
    case function hp hb =>
      simp only [enclosed, List.length_cons, List.length_append] at hn
      rw [Parse.item]
      refine .here fun l => .peek_cons (.skip ?_)
      refine (reads_function hi hp hb (by omega)).bind_nil fun f' hf => ?_
      have hf' : f'.unplaced.name = f.unplaced.name := congrArg Function.name hf
      have ha : p.functions.any (·.name == f'.name) = false := by
        simp only [Function.unplaced] at hf'
        simpa [hf'] using hd f rfl
      rw [ha, if_neg Bool.false_ne_true]
      exact .pure ⟨.function f', rfl, congrArg Item.function hf⟩
  case begin b =>
    cases hw
    case begin bs i hb =>
      simp only [List.length_cons, List.length_append] at hn
      rw [Parse.item]
      refine .here fun l => .peek_cons (.skip ?_)
      refine (Block.Written.read b hi bs hb ending n i (by omega)).bind_pure fun b' h => ?_
      exact ⟨.begin b', rfl, congrArg Item.begin h⟩
  case finish b =>
    cases hw
    case finish bs i hb =>
      simp only [List.length_cons, List.length_append] at hn
      rw [Parse.item]
      refine .here fun l => .peek_cons (.skip ?_)
      refine (Block.Written.read b hi bs hb ending n i (by omega)).bind_pure fun b' h => ?_
      exact ⟨.finish b', rfl, congrArg Item.finish h⟩
  case rule r =>
    refine (item_eq_rule hw (reads_rule hi hw hn)).mono (fun _ hk => hk) ?_
    rintro _ ⟨r', rfl, h⟩
    exact ⟨.rule r', rfl, congrArg Item.rule h⟩

theorem name_notMem_of_nodup {f : Function}
    (hd : ((items.foldl Program.add (p.add (.function f))).functions.map (·.name)).Nodup) :
    f.name ∉ p.functions.map (·.name) := by
  have ⟨fs, hfs⟩ := Program.functions_foldl (p.add (.function f)) items
  rw [← hfs, Program.add] at hd
  simp only [List.map_append, List.append_assoc] at hd
  exact fun h => (List.nodup_append.mp hd).2.2 f.name h f.name (by simp) rfl

theorem Item.EveryWritten.headKind_ne (h : Item.EveryWritten items ks) :
    headKind ks .eof ≠ .separator := by
  cases h
  case nil => exact nofun
  case cons h _ =>
    have ⟨k, ks', hk, hs, _⟩ := h.begins
    rw [hk]
    exact hs

theorem reads_items {p' : Program} (hw : Item.EveryWritten items ks)
    (hi : ∀ item ∈ items, item.isWritable)
    (hd : ((items.foldl Program.add p).functions.map (·.name)).Nodup)
    (hp : p'.unplaced = p.unplaced) (hn : 32 * ks.length < n) :
    Reads (Parse.items ending n p') ks (· = .eof)
      fun q => q.unplaced = (items.foldl Program.add p).unplaced := by
  induction items generalizing ks p p' n
  case nil =>
    obtain ⟨m, rfl⟩ : ∃ m, n = m + 1 := ⟨n - 1, by omega⟩
    cases hw
    rw [Parse.items]
    refine .peek fun next hn => ?_
    rw [headKind_nil, if_pos hn]
    exact .pure hp
  case cons item items ih =>
    cases hw
    case cons ks₁ ks₂ i h hs =>
      have hl : (separators (i + 1)).length = i + 1 := List.length_replicate
      simp only [List.length_append] at hn
      obtain ⟨m, rfl⟩ : ∃ m, n = m + 1 := ⟨n - 1, by omega⟩
      obtain ⟨k, ks', hk, _, he⟩ := h.begins
      have hf (f : Function) (hf : item = .function f) : ∀ g ∈ p'.functions, g.name ≠ f.name := by
        subst hf
        intro g hg hn
        have := name_notMem_of_nodup hd
        rw [← Program.names_eq_of_unplaced hp, ← hn] at this
        exact this (List.mem_map_of_mem hg)
      rw [Parse.items]
      refine .peek fun next _ => ?_
      have hh : headKind (ks₁ ++ (separators (i + 1) ++ ks₂)) next = k := by rw [hk]; rfl
      rw [hh, if_neg he]
      refine (reads_part (hi item (by simp)) h (by omega) hf).bind (fun _ _ => trivial) ?_
      rintro q ⟨item', hq, hu⟩
      refine .separators (i + 1) ?_ (ih hs (fun item h => hi item (by simp [h])) hd ?_ (by omega))
      · rintro _ rfl
        exact hs.headKind_ne
      · rw [hq, Program.unplaced_add, Program.unplaced_add, hp, hu]

theorem Program.Written.reads (ending : Location) (hw : p.Written ks) (hp : p.isWritable)
    (hd : (p.functions.map (·.name)).Nodup) (hn : 32 * ks.length < n) :
    Reads (Parse.program ending n) ks (· = .eof) fun q => q.unplaced = p.unplaced := by
  cases hw
  case mk items ks i hw =>
    rw [List.length_append] at hn
    rw [Parse.program]
    refine .separators i ?_ (reads_items hw (Program.isWritable_foldl hp) hd rfl (by omega))
    rintro _ rfl
    exact hw.headKind_ne

end Items

-- Parsing the tokens of a program gives the program back, up to places, however it is written.
theorem parse_written (p : Program) (hp : p.isWritable) (hd : (p.functions.map (·.name)).Nodup)
    (ks : List Kind) (hw : p.Written ks) (ts : List Token) (hts : ts.map Token.kind = ks)
    (rest : List Token) (hr : kindOf rest = .eof) :
    ∃ p', parse (ts ++ rest) = .ok p' ∧ p'.unplaced = p.unplaced := by
  let last := (ts ++ rest).getLast?.map Token.location
  have hl : 32 * ks.length < depthBound (ts ++ rest).length := by
    rw [← hts, List.length_map, depthBound, List.length_append]
    omega
  obtain ⟨p', h, hu⟩ := hw.reads (last.getD default) hp hd hl ts rest hts hr
  refine ⟨p', ?_, hu⟩
  rw [parse, h]
  rfl

-- The program
--
--   BEGIN
--     { if (x) { print (y) z, "t"; }
--
--       else
--       if (exit) { for (((k) in (a)); ; k) { delete a[k]; }; }; };
--   { do { print($(0)); }
--     while (getline); };
--   function f(k, a) { return; };
theorem parse_written_mixed :
    let l := Location.start
    let p : Program :=
      { begins := [.mk [.if (.mk (.name "x" l)
          (.mk [.expr (.call "print"
            [.binary .concat (.name "y" l) (.name "z" l) l, .constant "t" l] l)] l)
          (.branch (.mk (.call "exit" [] l)
            (.mk [.for (some (.member (.name "k" l) (.name "a" l) l)) none (some (.name "k" l))
              (.mk [.delete "a" (some (.name "k" l)) l] l) l] l) .nothing l)) l)] l]
        rules := [⟨none, .mk [.doWhile
          (.mk [.expr (.call "print" [.field (.constant "0" l) l] l)] l)
          (.call "getline" [] l) l] l⟩]
        functions := [⟨"f", [.name "k" l, .name "a" l], .mk [.return none l] l, l⟩] }
    let ks : List Kind :=
      [.keyword .begin, .separator, .symbol .leftBrace, .keyword .if, .symbol .leftParen, .word "x",
        .symbol .rightParen, .symbol .leftBrace, .keyword .print, .symbol .leftParen, .word "y",
        .symbol .rightParen, .symbol .leftParen, .word "z", .symbol .rightParen, .symbol .comma,
        .string "t", .separator, .symbol .rightBrace, .separator, .separator, .keyword .else,
        .separator, .keyword .if, .symbol .leftParen, .keyword .exit, .symbol .rightParen,
        .symbol .leftBrace, .keyword .for, .symbol .leftParen, .symbol .leftParen,
        .symbol .leftParen, .word "k", .symbol .rightParen, .keyword .in, .symbol .leftParen,
        .word "a", .symbol .rightParen, .symbol .rightParen, .separator, .separator, .word "k",
        .symbol .rightParen, .symbol .leftBrace, .keyword .delete, .word "a", .symbol .leftBracket,
        .word "k", .symbol .rightBracket, .separator, .symbol .rightBrace, .separator,
        .symbol .rightBrace, .separator, .symbol .rightBrace, .separator, .separator,
        .symbol .leftBrace, .keyword .do, .symbol .leftBrace, .keyword .print, .symbol .leftParen,
        .symbol .dollar, .symbol .leftParen, .number "0", .symbol .rightParen, .symbol .rightParen,
        .separator, .symbol .rightBrace, .separator, .keyword .while, .symbol .leftParen,
        .keyword .getline, .symbol .rightParen, .separator, .symbol .rightBrace, .separator,
        .keyword .function, .word "f", .symbol .leftParen, .word "k", .symbol .comma, .word "a",
        .symbol .rightParen, .symbol .leftBrace, .keyword .return, .separator, .symbol .rightBrace,
        .separator]
    p.Written ks ∧ ∃ p', parse (ks.map fun k => ⟨k, l⟩) = .ok p' ∧ p'.unplaced = p.unplaced := by
  intro l p ks
  have hw : p.Written ks := by
    have hf : Stmt.Written (.for (some (.member (.name "k" l) (.name "a" l) l)) none
        (some (.name "k" l)) (.mk [.delete "a" (some (.name "k" l)) l] l) l) _ :=
      .for (.some (.member .name .name)) .none (.some .name)
        (.mk (i := 0) (.cons (i := 0) (.delete .name) .nil)) (i := 0)
    have hi : Branch.Written (.mk (.call "exit" [] l) (.mk [_] l) .nothing l) _ :=
      .mk (i := 0) (.keyword rfl .nil) (.mk (i := 0) (.cons (i := 0) hf .nil)) .nothing
    have hp : Stmt.Written (.expr (.call "print"
        [.binary .concat (.name "y" l) (.name "z" l) l, .constant "t" l] l)) _ :=
      .expr (.keyword rfl (.cons (.concat .name .name) (.single .string)))
    have hb : Item.Written (.begin (.mk [.if (.mk (.name "x" l) (.mk [_] l) _ l)] l)) _ :=
      .begin (i := 1) (.mk (i := 0) (.cons (i := 0) (.if (.mk (i := 0) .name
        (.mk (i := 0) (.cons (i := 0) hp .nil)) (.branch (i := 2) (j := 1) hi))) .nil))
    have hq : Stmt.Written (.expr (.call "print" [.field (.constant "0" l) l] l)) _ :=
      .print rfl (.inl rfl) (.single (.field .number))
    have hr :
        Item.Written (.rule ⟨none, .mk [.doWhile (.mk [_] l) (.call "getline" [] l) l] l⟩) _ :=
      .always (.mk (i := 0) (.cons (i := 0) (.doWhile (i := 0) (j := 1)
        (.mk (i := 0) (.cons (i := 0) hq .nil)) (.keyword rfl .nil)) .nil))
    have hg : Item.Written
        (.function ⟨"f", [.name "k" l, .name "a" l], .mk [.return none l] l, l⟩) _ :=
      .function (i := 0) (.cons .name (.single .name))
        (.mk (i := 0) (.cons (i := 0) (.return .none) .nil))
    exact .mk (i := 0) (.cons (i := 1) hb (.cons (i := 0) hr (.cons (i := 0) hg .nil)))
  refine ⟨hw, ?_⟩
  have h :=
    parse_written p (by decide) (by decide) ks hw (ks.map fun k => ⟨k, l⟩) (by decide) [] rfl
  rwa [List.append_nil] at h

end PatternAction
