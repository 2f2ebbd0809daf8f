import PatternAction.Program.Parser

namespace PatternAction.Parse

variable {α β : Type} {x : Parse α} {f : α → Parse β} {k : Kind} {ks ks₁ ks₂ : List Kind}
  {stop stop₁ : Kind → Prop} {P : α → Prop} {Q : β → Prop} {ending : Location}

-- The first of some kinds, or the one that follows them if there are none.
def headKind (ks : List Kind) (next : Kind) : Kind :=
  ks.head?.getD next

@[simp] theorem headKind_nil (next : Kind) : headKind [] next = next := rfl

@[simp] theorem headKind_cons (k : Kind) (ks : List Kind) (next : Kind) :
    headKind (k :: ks) next = k := rfl

theorem kindOf_append (ts rest : List Token) :
    kindOf (ts ++ rest) = headKind (ts.map Token.kind) (kindOf rest) := by
  cases ts <;> rfl

theorem run_bind {a : α} {ts rest : List Token} (h : x.run ts = .ok (a, rest)) (f : α → Parse β) :
    (x >>= f).run ts = (f a).run rest := by
  rw [StateT.run_bind, h]
  rfl

theorem run_peek {f : Kind → Parse β} {ts : List Token} :
    (peek >>= f).run ts = (f (kindOf ts)).run ts := rfl

theorem run_here {f : Location → Parse β} {ts : List Token} :
    (here ending >>= f).run ts = (f (locationOf ending ts)).run ts := rfl

theorem run_skip {f : Unit → Parse β} {t : Token} {ts : List Token} :
    (skip >>= f).run (t :: ts) = (f ()).run ts := rfl

-- The result satisfies `P` whenever the kind of the token after the ones read satisfies `stop`.
def Reads (x : Parse α) (ks : List Kind) (stop : Kind → Prop) (P : α → Prop) : Prop :=
  ∀ (ts rest : List Token), ts.map Token.kind = ks → stop (kindOf rest) →
    ∃ a, x.run (ts ++ rest) = .ok (a, rest) ∧ P a

namespace Reads

theorem pure {a : α} (h : P a) : Reads (pure a) [] stop P := by
  intro ts rest hts _
  cases List.map_eq_nil_iff.mp hts
  exact ⟨a, rfl, h⟩

theorem mono {P' : α → Prop} (hx : Reads x ks stop₁ P) (hs : ∀ k, stop k → stop₁ k)
    (hp : ∀ a, P a → P' a) : Reads x ks stop P' := by
  intro ts rest hts hrest
  have ⟨a, ha, h⟩ := hx ts rest hts (hs _ hrest)
  exact ⟨a, ha, hp a h⟩

theorem stop_of (hx : Reads x ks stop₁ P) (hs : ∀ k, stop k → stop₁ k) : Reads x ks stop P :=
  hx.mono hs fun _ h => h

theorem bind (hx : Reads x ks₁ stop₁ P) (hs : ∀ k, stop k → stop₁ (headKind ks₂ k))
    (hf : ∀ a, P a → Reads (f a) ks₂ stop Q) : Reads (x >>= f) (ks₁ ++ ks₂) stop Q := by
  intro ts rest hts hrest
  have ⟨ts₁, ts₂, h, h₁, h₂⟩ := List.map_eq_append_iff.mp hts
  have hn : stop₁ (kindOf (ts₂ ++ rest)) := by
    rw [kindOf_append, h₂]
    exact hs _ hrest
  have ⟨a, ha, pa⟩ := hx ts₁ (ts₂ ++ rest) h₁ hn
  have ⟨b, hb, qb⟩ := hf a pa ts₂ rest h₂ hrest
  refine ⟨b, ?_, qb⟩
  rw [h, List.append_assoc, run_bind ha, hb]

theorem bind_nil (hx : Reads x ks stop P) (hf : ∀ a, P a → Reads (f a) [] stop Q) :
    Reads (x >>= f) ks stop Q :=
  List.append_nil ks ▸ hx.bind (fun _ hk => hk) hf

theorem bind_pure {g : α → β} (hx : Reads x ks stop P) (h : ∀ a, P a → Q (g a)) :
    Reads (do return g (← x)) ks stop Q :=
  hx.bind_nil fun a pa => .pure (h a pa)

section Steps

variable {f : Kind → Parse β} {g : Unit → Parse β} {r : Bool → Parse β} {w : Location → Parse β}

theorem peek (h : ∀ next, stop next → Reads (f (headKind ks next)) ks stop Q) :
    Reads (Parse.peek >>= f) ks stop Q := by
  intro ts rest hts hrest
  have ⟨b, hb, qb⟩ := h _ hrest ts rest hts hrest
  refine ⟨b, ?_, qb⟩
  rw [← hts, ← kindOf_append] at hb
  exact hb

theorem peek_cons (h : Reads (f k) (k :: ks) stop Q) : Reads (Parse.peek >>= f) (k :: ks) stop Q :=
  peek fun _ _ => h

theorem here (h : ∀ l, Reads (w l) ks stop Q) : Reads (Parse.here ending >>= w) ks stop Q := by
  intro ts rest hts hrest
  exact h _ ts rest hts hrest

theorem skip (h : Reads (g ()) ks stop Q) : Reads (Parse.skip >>= g) (k :: ks) stop Q := by
  intro ts rest hts hrest
  have ⟨t, ts', ht, _, hts'⟩ := List.map_eq_cons_iff.mp hts
  cases ht
  exact h ts' rest hts' hrest

theorem accept_bind : Parse.accept k >>= r
    = Parse.peek >>= fun found =>
        if found = k then Parse.skip >>= fun _ => r true else r false := by
  simp only [Parse.accept, bind_assoc]
  congr 1
  funext found
  split <;> simp

theorem accept (h : Reads (r true) ks stop Q) : Reads (Parse.accept k >>= r) (k :: ks) stop Q := by
  rw [accept_bind]
  apply peek_cons
  rw [if_pos rfl]
  exact skip h

theorem not_accept (hk : ∀ next, stop next → headKind ks next ≠ k) (h : Reads (r false) ks stop Q) :
    Reads (Parse.accept k >>= r) ks stop Q := by
  rw [accept_bind]
  apply peek
  intro next hn
  rw [if_neg (hk next hn)]
  exact h

theorem skipSeparators (hk : ∀ next, stop next → headKind ks next ≠ .separator)
    (h : Reads (g ()) ks stop Q) : Reads (Parse.skipSeparators >>= g) ks stop Q := by
  intro ts rest hts hrest
  have hd : (ts ++ rest).dropWhile (·.kind == .separator) = ts ++ rest := by
    have hs := hk _ hrest
    rw [← hts, ← kindOf_append] at hs
    cases hl : ts ++ rest
    case nil => rfl
    case cons t tail =>
      rw [hl, kindOf] at hs
      exact List.dropWhile_cons_of_neg (by simpa using hs)
  have ⟨b, hb, qb⟩ := h ts rest hts hrest
  refine ⟨b, ?_, qb⟩
  rw [← hb]
  simp only [Parse.skipSeparators, StateT.run_bind, StateT.run_modify, pure_bind, hd]

theorem separators (i : Nat) (hk : ∀ next, stop next → headKind ks next ≠ .separator)
    (h : Reads (g ()) ks stop Q) :
    Reads (Parse.skipSeparators >>= g) (.replicate i .separator ++ ks) stop Q := by
  intro ts rest hts hrest
  have ⟨ts₁, ts₂, hts, h₁, h₂⟩ := List.map_eq_append_iff.mp hts
  have hs (t : Token) (ht : t ∈ ts₁) : t.kind == .separator := by
    have := List.eq_of_mem_replicate (h₁ ▸ List.mem_map_of_mem ht)
    simpa using this
  have ⟨b, hb, qb⟩ := skipSeparators hk h ts₂ rest h₂ hrest
  refine ⟨b, ?_, qb⟩
  rw [← hb]
  simp only [Parse.skipSeparators, StateT.run_bind, StateT.run_modify, pure_bind, hts,
    List.append_assoc, List.dropWhile_append_of_pos hs]

theorem get {f : List Token → Parse β} (h : ∀ ts rest, ts.map Token.kind = ks →
    stop (kindOf rest) → Reads (f (ts ++ rest)) ks stop Q) : Reads (get >>= f) ks stop Q := by
  intro ts rest hts hrest
  exact h ts rest hts hrest ts rest hts hrest

theorem expectWord {what : Expected} {x : String} {f : String → Parse β}
    (h : Reads (f x) ks stop Q) :
    Reads (Parse.expectWord ending what >>= f) (.word x :: ks) stop Q := by
  rw [Parse.expectWord, bind_assoc]
  apply peek_cons
  dsimp only
  rw [bind_assoc]
  apply skip
  rwa [pure_bind]

theorem expect {what : Expected} (h : Reads (g ()) ks stop Q) :
    Reads (Parse.expect ending k what >>= g) (k :: ks) stop Q := by
  simp only [Parse.expect, bind_assoc]
  apply peek_cons
  rw [if_pos rfl]
  exact skip h

end Steps

end Reads

theorem run_not_accept {f : Bool → Parse β} {ts : List Token} (h : kindOf ts ≠ k) :
    (accept k >>= f).run ts = (f false).run ts := by
  rw [Reads.accept_bind, run_peek, if_neg h]

end PatternAction.Parse
