import PatternAction.Proofs.Syntax.Extension
import PatternAction.Proofs.Syntax.Programs

namespace PatternAction

instance : Append Program where
  append p q :=
    { begins    := p.begins ++ q.begins
      ends      := p.ends ++ q.ends
      rules     := p.rules ++ q.rules
      functions := p.functions ++ q.functions }

namespace Program

variable {p q : Program} {item : Item}

theorem append_empty (p : Program) : p ++ ({} : Program) = p := by
  change (⟨_, _, _, _⟩ : Program) = p
  simp only [List.append_nil]

theorem append_add : p ++ q.add item = (p ++ q).add item := by
  change (⟨_, _, _, _⟩ : Program) = _
  cases item
  all_goals
    simp only [add, ← List.append_assoc]
    rfl

def defines (p : Program) (name : String) : Bool := p.functions.any (·.name == name)

theorem defines_append {name : String} :
    (p ++ q).defines name = (p.defines name || q.defines name) :=
  List.any_append

theorem defines_eq_true_iff {name : String} :
    p.defines name = true ↔ ∃ f ∈ p.functions, f.name = name := by
  simp [defines]

-- The first function of a program whose name is taken in another one.
def clash? (p q : Program) : Option Function := q.functions.find? (p.defines ·.name)

-- Two programs as one, unless a function would be there twice.
def merge (p q : Program) : Except SyntacticError Program :=
  match p.clash? q with
  | none   => .ok (p ++ q)
  | some f => .error ⟨.redefined f.name, f.location⟩

theorem merge_of_none (h : p.clash? q = none) : p.merge q = .ok (p ++ q) := by
  rw [merge, h]

theorem merge_of_some {f : Function} (h : p.clash? q = some f) :
    p.merge q = .error ⟨.redefined f.name, f.location⟩ := by
  rw [merge, h]

theorem clash?_eq_none_iff :
    p.clash? q = none ↔ ∀ f ∈ p.functions, ∀ g ∈ q.functions, f.name ≠ g.name := by
  simp only [clash?, List.find?_eq_none, defines_eq_true_iff]
  grind

theorem of_clash?_eq_some {g : Function} (h : p.clash? q = some g) :
    g ∈ q.functions ∧ ∃ f ∈ p.functions, f.name = g.name := by
  have hg := List.find?_some h
  exact ⟨List.mem_of_find?_eq_some h, defines_eq_true_iff.mp hg⟩

theorem clash?_add_function {f : Function} (h : p.clash? q = none) :
    p.clash? (q.add (.function f)) = if p.defines f.name then some f else none := by
  rw [clash?, add, List.find?_append, ← clash?, h, Option.none_or]
  simp only [List.find?_singleton]

theorem clash?_mono {q' : Program} {f : Function} (hq : q.functions <+: q'.functions)
    (h : p.clash? q = some f) : p.clash? q' = some f := by
  obtain ⟨fs, hfs⟩ := hq
  rw [clash?, ← hfs, List.find?_append, ← clash?, h, Option.some_or]

end Program

namespace Parse

variable {ending ending' : Location} {n n' : Nat} {p q p₁ p₂ : Program} {item : Item}
  {ts us rest more : List Token}

section Parts

def part (ending : Location) (n : Nat) : Parse Item := do
  let location ← here ending
  match ← peek with
  | .keyword .function =>
    skip
    return .function (← function ending n location)
  | .keyword .begin =>
    skip
    return .begin (← block ending n)
  | .keyword .finish =>
    skip
    return .finish (← block ending n)
  | _ =>
    let condition ← optional ending n (.symbol .leftBrace)
    return .rule ⟨condition, ← block ending n⟩

-- Adds it to a program, in which no function may have the name of another one.
def adopt (p : Program) : Item → Parse Program
  | .function f =>
    if p.defines f.name then fail (.redefined f.name) f.location else return p.add (.function f)
  | item => return p.add item

theorem function_bind {β : Type} {l : Location} {f g : Function → Parse β}
    (h : ∀ a, a.location = l → f a = g a) :
    function ending n l >>= f = function ending n l >>= g := by
  simp only [function, bind_assoc]
  congr 1
  funext name
  congr 1
  funext _
  congr 1
  funext k
  split
  all_goals simp only [bind_assoc, pure_bind, h]

theorem item_eq : Parse.item ending n p = part ending n >>= adopt p := by
  simp only [Parse.item, part, bind_assoc]
  congr 1
  funext l
  congr 1
  funext k
  split
  case h_1 =>
    simp only [bind_assoc, pure_bind]
    congr 1
    funext _
    refine function_bind fun f hf => ?_
    rw [adopt, hf]
    rfl
  all_goals simp only [bind_assoc, pure_bind, adopt, Program.add]

theorem adopt_eq_ok (h : (adopt p item).run ts = .ok (q, rest)) : q = p.add item ∧ rest = ts := by
  cases item
  case function f =>
    rw [adopt] at h
    split at h <;> cases h
    exact ⟨rfl, rfl⟩
  all_goals
    cases h
    exact ⟨rfl, rfl⟩

theorem extends_part (hm : Detached more) (hn : n ≤ n') :
    Extends more (part ending n) (part ending' n') := by
  have he : ExtendsExpressions more ending ending' n n' := extendsExpressions hm hn
  have hs : ExtendsStatements more ending ending' n n' := extendsStatements hm hn
  refine .look_of_refuses (fun l k => ?_) fun _ => ?_
  · split
    case h_1 => exact .skip (extends_function hm hn l).bind_pure
    case h_2 | h_3 => exact .skip hs.block.bind_pure
    case h_4 => exact .of_extends (.bind (he.optional nofun) fun _ => hs.block.bind_pure)
  · exact .bind (.optional nofun (refuses_expression rfl _))

theorem refuses_part : Refuses (.keyword .else) (part ending n) :=
  .here fun _ => .peek (.bind (.optional nofun (refuses_expression rfl _)))

theorem extends_item (hm : Detached more) (hn : n ≤ n') :
    Extends more (Parse.item ending n p) (Parse.item ending' n' p) := by
  rw [item_eq, item_eq]
  refine (extends_part hm hn).bind fun item => ?_
  cases item
  case function f =>
    rw [adopt]
    split
    case isTrue => exact .fail
    case isFalse => exact .pure
  all_goals exact .pure

end Parts

section Items

theorem run_items_of_ne (hk : kindOf ts ≠ .eof) :
    (Parse.items ending (n + 1) p).run ts = (do
      let p ← Parse.item ending n p
      skipSeparators
      Parse.items ending n p : Parse Program).run ts := by
  change (if kindOf ts = .eof then _ else _ : Parse Program).run ts = _
  rw [if_neg hk]

theorem refuses_items : Refuses (.keyword .else) (Parse.items ending n p) := by
  cases n
  case zero => exact .here fun _ => .fail
  case succ n =>
    refine .peek ?_
    rw [if_neg nofun, item_eq]
    exact refuses_part.bind.bind

-- The parts that were read when nothing followed are read again, and the parser goes on behind
-- them. Of the depth, what is left is more than was added.
theorem items_append (ending' : Location) (m : Nat) (hm : Detached more)
    (he : ∀ t ∈ us, t.kind ≠ .eof)
    (h : (Parse.items ending n p).run (us.dropWhile (·.kind == .separator)) = .ok (q, rest)) :
    ∃ n' > m,
      (Parse.items ending' (n + m) p).run ((us ++ more).dropWhile (·.kind == .separator))
        = (Parse.items ending' n' q).run (more.dropWhile (·.kind == .separator)) := by
  induction n generalizing us p
  case zero => cases h
  case succ n ih =>
    have hd : us.dropWhile (·.kind == .separator) <:+ us := List.dropWhile_suffix _
    rw [List.dropWhile_append]
    cases hus : us.dropWhile (·.kind == .separator)
    case nil =>
      rw [hus] at h
      cases h
      exact ⟨n + 1 + m, by omega, rfl⟩
    case cons t ts =>
      rw [hus] at h hd
      have ht : t.kind ≠ .eof := he t (hd.subset List.mem_cons_self)
      rw [run_items_of_ne (show kindOf (t :: ts) ≠ .eof from ht)] at h
      obtain ⟨p', mid, hp, hq⟩ := exists_of_run_bind h
      have hi : Extends more (Parse.item ending n p) (Parse.item ending' (n + m) p) :=
        extends_item hm (Nat.le_add_right n m)
      obtain ⟨hs, hp'⟩ := hi (t :: ts) p' mid hp
      obtain ⟨n', hn', hq'⟩ := ih (fun t ht => he t ((hs.trans hd).subset ht)) hq
      refine ⟨n', hn', ?_⟩
      rw [← hq', List.isEmpty_cons, if_neg Bool.false_ne_true, Nat.add_right_comm,
        run_items_of_ne (show kindOf (t :: ts ++ more) ≠ .eof from ht), run_bind hp']
      rfl

theorem items_mono (ending' : Location) (he : ∀ t ∈ us, t.kind ≠ .eof) (hn : n ≤ n')
    (h : (Parse.items ending n p).run (us.dropWhile (·.kind == .separator)) = .ok (q, rest)) :
    (Parse.items ending' n' p).run (us.dropWhile (·.kind == .separator)) = .ok (q, []) := by
  obtain ⟨m, rfl⟩ := Nat.exists_eq_add_of_le hn
  obtain ⟨n', hn', h'⟩ := items_append ending' m .nil he h
  obtain ⟨n', rfl⟩ := Nat.exists_eq_add_of_lt hn'
  rw [List.append_nil] at h'
  rw [h']
  rfl

theorem items_cases (h : (Parse.items ending (n + 1) p).run ts = .ok (q, rest)) :
    (kindOf ts = .eof ∧ q = p ∧ rest = ts) ∨
    (kindOf ts ≠ .eof ∧ ∃ item mid, (part ending n).run ts = .ok (item, mid) ∧
      (adopt p item).run mid = .ok (p.add item, mid) ∧
      (Parse.items ending n (p.add item)).run (mid.dropWhile (·.kind == .separator))
        = .ok (q, rest)) := by
  by_cases hk : kindOf ts = .eof
  case pos =>
    change (if kindOf ts = .eof then _ else _ : Parse Program).run ts = _ at h
    rw [if_pos hk] at h
    cases h
    exact .inl ⟨hk, rfl, rfl⟩
  case neg =>
    rw [run_items_of_ne hk, item_eq] at h
    obtain ⟨p', mid, hp, h⟩ := exists_of_run_bind h
    obtain ⟨item, mid', hi, ha⟩ := exists_of_run_bind hp
    obtain ⟨rfl, rfl⟩ := adopt_eq_ok ha
    exact .inr ⟨hk, item, mid, hi, ha, h⟩

theorem functions_of_items (h : (Parse.items ending n p).run ts = .ok (q, rest)) :
    p.functions <+: q.functions := by
  induction n generalizing p ts
  case zero => cases h
  case succ n ih =>
    rcases items_cases h with ⟨_, rfl, _⟩ | ⟨_, item, _, _, _, h⟩
    · exact List.prefix_rfl
    · exact (Program.functions_foldl p [item]).trans (ih h)

theorem run_adopt_append (hp : p₁.clash? p = none)
    (h : (adopt p item).run ts = .ok (q, rest)) :
    (adopt (p₁ ++ p) item).run ts = (p₁.merge q).map (·, rest) := by
  obtain ⟨rfl, rfl⟩ := adopt_eq_ok h
  cases item
  case function f =>
    have hf : p.defines f.name = false := by
      rw [adopt] at h
      split at h
      case isTrue => cases h
      case isFalse hf => exact Bool.eq_false_iff.mpr hf
    have hc := Program.clash?_add_function (f := f) hp
    rw [adopt, Program.defines_append, hf, Bool.or_false]
    split
    case isTrue hd =>
      rw [if_pos hd] at hc
      rw [Program.merge_of_some hc]
      rfl
    case isFalse hd =>
      rw [if_neg hd] at hc
      rw [Program.merge_of_none hc, Program.append_add]
      rfl
  all_goals
    rw [Program.merge_of_none (q := p.add _) hp, Program.append_add]
    rfl

theorem items_merge (p₁ : Program) (hp : p₁.clash? p = none)
    (h : (Parse.items ending n p).run ts = .ok (q, rest)) :
    (Parse.items ending n (p₁ ++ p)).run ts = (p₁.merge q).map (·, rest) := by
  induction n generalizing p ts
  case zero => cases h
  case succ n ih =>
    rcases items_cases h with ⟨hk, rfl, rfl⟩ | ⟨hk, item, mid, hi, ha, h⟩
    · rw [Program.merge_of_none hp]
      change (if kindOf _ = .eof then _ else _ : Parse Program).run _ = _
      rw [if_pos hk]
      rfl
    · have ha' := run_adopt_append hp ha
      rw [run_items_of_ne hk, item_eq, bind_assoc, run_bind hi]
      cases hc : p₁.clash? (p.add item)
      case none =>
        rw [Program.merge_of_none hc] at ha'
        rw [run_bind ha']
        exact ih hc h
      case some f =>
        rw [Program.merge_of_some hc] at ha'
        rw [Program.merge_of_some (Program.clash?_mono (functions_of_items h) hc),
          StateT.run_bind, ha']
        rfl

end Items

end Parse

open Parse

theorem exists_items_of_parse {ts : List Token} {p : Program} (h : parse ts = .ok p) :
    ∃ ending rest, (items ending (depthBound ts.length) {}).run
      (ts.dropWhile (·.kind == .separator)) = .ok (p, rest) := by
  let ending := (ts.getLast?.map Token.location).getD default
  change ((items ending (depthBound ts.length) {}).run
    (ts.dropWhile (·.kind == .separator))).map Prod.fst = .ok p at h
  rcases hi : (items ending (depthBound ts.length) {}).run
    (ts.dropWhile (·.kind == .separator)) with _ | ⟨q, rest⟩
  all_goals
    rw [hi] at h
    cases h
  exact ⟨ending, rest, hi⟩

theorem parse_eq_merge {t₁ t₂ : List Token} {p₁ p₂ : Program} {separator : Token}
    (h₁ : parse t₁ = .ok p₁) (h₂ : parse t₂ = .ok p₂) (he₁ : ∀ t ∈ t₁, t.kind ≠ .eof)
    (he₂ : ∀ t ∈ t₂, t.kind ≠ .eof) (hs : separator.kind = .separator) :
    parse (t₁ ++ separator :: t₂) = p₁.merge p₂ := by
  obtain ⟨_, _, hi₁⟩ := exists_items_of_parse h₁
  obtain ⟨_, _, hi₂⟩ := exists_items_of_parse h₂
  have hd : (separator :: t₂).dropWhile (·.kind == .separator)
      = t₂.dropWhile (·.kind == .separator) :=
    List.dropWhile_cons_of_pos (by simp [hs])
  have hm : Detached (separator :: t₂) := by
    refine ⟨.inr hs, fun hk => ?_⟩
    rw [hd] at hk
    exact refuses_items _ _ hk hi₂
  have hl : depthBound (t₁ ++ separator :: t₂).length
      = depthBound t₁.length + depthBound t₂.length := by
    simp only [depthBound, List.length_append, List.length_cons]
    omega
  let ending := ((t₁ ++ separator :: t₂).getLast?.map Token.location).getD default
  obtain ⟨n, hn, hi⟩ := items_append ending (depthBound t₂.length) hm he₁ hi₁
  have hi₂ := items_mono ending he₂ (Nat.le_of_lt hn) hi₂
  have hq := items_merge p₁ rfl hi₂
  rw [Program.append_empty] at hq
  change ((items ending (depthBound (t₁ ++ separator :: t₂).length) {}).run
    ((t₁ ++ separator :: t₂).dropWhile (·.kind == .separator))).map Prod.fst = _
  rw [hl, hi, hd, hq]
  cases p₁.merge p₂ <;> rfl

-- The parser neither looks behind the end of a program nor carries anything over it: each list of
-- the whole is the first program's followed by the second one's, unless a name is taken.
theorem parse_append {t₁ t₂ : List Token} {p₁ p₂ : Program} {separator : Token}
    (h₁ : parse t₁ = .ok p₁) (h₂ : parse t₂ = .ok p₂) (he₁ : ∀ t ∈ t₁, t.kind ≠ .eof)
    (he₂ : ∀ t ∈ t₂, t.kind ≠ .eof) (hs : separator.kind = .separator) :
    ((∀ f ∈ p₁.functions, ∀ g ∈ p₂.functions, f.name ≠ g.name) →
      parse (t₁ ++ separator :: t₂) = .ok
        { begins    := p₁.begins ++ p₂.begins
          ends      := p₁.ends ++ p₂.ends
          rules     := p₁.rules ++ p₂.rules
          functions := p₁.functions ++ p₂.functions }) ∧
    ((∃ f ∈ p₁.functions, ∃ g ∈ p₂.functions, f.name = g.name) →
      ∃ g ∈ p₂.functions, (∃ f ∈ p₁.functions, f.name = g.name) ∧
        parse (t₁ ++ separator :: t₂) = .error ⟨.redefined g.name, g.location⟩) := by
  rw [parse_eq_merge h₁ h₂ he₁ he₂ hs]
  constructor
  case left =>
    intro hd
    exact Program.merge_of_none (Program.clash?_eq_none_iff.mpr hd)
  case right =>
    rintro ⟨f, hf, g, hg, hn⟩
    cases hc : p₁.clash? p₂
    case none => exact absurd hn (Program.clash?_eq_none_iff.mp hc f hf g hg)
    case some g =>
      obtain ⟨hg, hf⟩ := Program.of_clash?_eq_some hc
      exact ⟨g, hg, hf, Program.merge_of_some hc⟩

-- The program
--
--   function f(x) if (x) print
--
-- ends where an `else` could follow. It can be followed by
--
--   END exit
--
-- but not by itself.
theorem parse_append_branch :
    let l (column : Nat) : Location := ⟨1, column⟩
    let t₁ : List Token :=
      [⟨.keyword .function, l 1⟩, ⟨.word "f", l 10⟩, ⟨.symbol .leftParen, l 11⟩, ⟨.word "x", l 12⟩,
        ⟨.symbol .rightParen, l 13⟩, ⟨.keyword .if, l 15⟩, ⟨.symbol .leftParen, l 18⟩,
        ⟨.word "x", l 19⟩, ⟨.symbol .rightParen, l 20⟩, ⟨.keyword .print, l 22⟩]
    let t₂ : List Token := [⟨.keyword .finish, l 1⟩, ⟨.keyword .exit, l 5⟩]
    let f : Function :=
      { name := "f", params := [.name "x" (l 12)]
        body := .mk [.if (.mk (.name "x" (l 19)) (.mk [.expr (.call "print" [] (l 22))] (l 22))
          .nothing (l 15))] (l 15)
        location := l 1 }
    let b : Block := .mk [.expr (.call "exit" [] (l 5))] (l 5)
    let separator : Token := ⟨.separator, l 27⟩
    parse t₁ = .ok { functions := [f] } ∧ parse t₂ = .ok { ends := [b] } ∧
      parse (t₁ ++ separator :: t₂) = .ok { ends := [b], functions := [f] } ∧
      parse (t₁ ++ separator :: t₁) = .error ⟨.redefined "f", l 1⟩ := by
  intro l t₁ t₂ f b separator
  have h₁ : parse t₁ = .ok { functions := [f] } := rfl
  have h₂ : parse t₂ = .ok { ends := [b] } := rfl
  have he₁ : ∀ t ∈ t₁, t.kind ≠ .eof := by decide
  have hs : separator.kind = .separator := rfl
  refine ⟨h₁, h₂, (parse_append h₁ h₂ he₁ (by decide) hs).1 (by simp), ?_⟩
  obtain ⟨g, hg, _, h⟩ := (parse_append h₁ h₁ he₁ he₁ hs).2 ⟨f, by simp, f, by simp, rfl⟩
  cases List.mem_singleton.mp hg
  exact h

end PatternAction
