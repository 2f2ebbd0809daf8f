import PatternAction.Proofs.Syntax.Extension
import PatternAction.Proofs.Syntax.Shape

namespace PatternAction.Parse

variable {α β : Type} {x : Parse α} {f : α → Parse β} {P : α → Prop} {Q : β → Prop}
  {stands : Location → Prop} {bare : Prop} {ts us rest : List Token} {ending l : Location}
  {k c : Kind} {what : Expected} {d d' m m' n w w' : Nat}

section Taking

-- Some tokens before the end were taken off a list, at least `d` of them.
def Takes (d : Nat) (ts rest : List Token) : Prop :=
  ∃ taken, ts = taken ++ rest ∧ d ≤ taken.length ∧ ∀ t ∈ taken, t.kind ≠ .eof

theorem Takes.refl : Takes 0 ts ts := ⟨[], rfl, Nat.le_refl 0, nofun⟩

theorem Takes.trans (h : Takes d ts us) (h' : Takes d' us rest) : Takes (d + d') ts rest := by
  obtain ⟨taken, rfl, hd, ht⟩ := h
  obtain ⟨taken', rfl, hd', ht'⟩ := h'
  refine ⟨taken ++ taken', (List.append_assoc ..).symm, ?_, List.forall_mem_append.mpr ⟨ht, ht'⟩⟩
  rw [List.length_append]
  exact Nat.add_le_add hd hd'

theorem Takes.mono (h : Takes d ts rest) (hd : d' ≤ d) : Takes d' ts rest := by
  obtain ⟨taken, hts, hl, ht⟩ := h
  exact ⟨taken, hts, Nat.le_trans hd hl, ht⟩

theorem Takes.subset (h : Takes d ts rest) : rest ⊆ ts := by
  obtain ⟨taken, rfl, _⟩ := h
  exact List.subset_append_right taken rest

theorem Takes.length (h : Takes d ts rest) : rest.length + d ≤ ts.length := by
  obtain ⟨taken, rfl, hd, _⟩ := h
  rw [List.length_append, Nat.add_comm]
  exact Nat.add_le_add_right hd _

theorem takes_tail (hk : kindOf ts ≠ .eof) : Takes 1 ts ts.tail := by
  cases ts
  case nil => exact absurd rfl hk
  case cons t us => exact ⟨[t], rfl, Nat.le_refl 1, fun _ ht => List.mem_singleton.mp ht ▸ hk⟩

theorem takes_dropWhile : Takes 0 ts (ts.dropWhile (·.kind == .separator)) := by
  refine ⟨_, List.takeWhile_append_dropWhile.symm, Nat.zero_le _, fun t ht hk => ?_⟩
  have hs := List.all_eq_true.mp List.all_takeWhile t ht
  rw [hk] at hs
  cases hs

theorem ne_eof {γ : Type} {g : Kind → Option γ} {a : γ} (h : g k = some a) (hg : g .eof = none) :
    k ≠ .eof := by
  rintro rfl
  rw [hg] at h
  cases h

-- A depth that is enough for some tokens, after some descents that take none.
def Enough (w m n : Nat) : Prop := 32 * m + w ≤ n

theorem Enough.down (h : Enough (w + 1) m (n + 1)) : Enough w m n := Nat.le_of_succ_le_succ h

theorem Enough.past (h : Enough w m n) (hm : m' < m) : Enough 32 m' n := by
  unfold Enough at *
  omega

theorem Enough.mono (h : Enough (w' + w) m n) : Enough w m n := by
  unfold Enough at *
  omega

theorem not_enough_zero (h : Enough (w + 1) m 0) : False := by
  unfold Enough at h
  omega

end Taking

section Judgements

variable (stands bare)

-- Tokens at some places. If `printf` is not to be a word, it is none of them.
structure Placed (ts : List Token) : Prop where
  stands : ∀ t ∈ ts, stands t.location
  bare   : ∀ t ∈ ts, t.kind = .word "printf" → bare

-- A result with a property, after at least `d` tokens were taken off a list, or an error at one of
-- the places that is not about the depth.
def Fair (d : Nat) (ts : List Token) (P : α → Prop) :
    Except SyntacticError (α × List Token) → Prop
  | .ok (a, rest) => Takes d ts rest ∧ P a
  | .error e      => e.cause ≠ .tooDeep ∧ stands e.location

-- What a step does with at most `m` tokens,
def Proceeds (m d : Nat) (x : Parse α) (P : α → Prop) : Prop :=
  ∀ ts, Placed stands bare ts → ts.length ≤ m → Fair stands d ts P (x.run ts)

-- and with those that begin with a kind.
def ProceedsFrom (k : Kind) (m d : Nat) (x : Parse α) (P : α → Prop) : Prop :=
  ∀ ts, Placed stands bare ts → ts.length ≤ m → kindOf ts = k → Fair stands d ts P (x.run ts)

end Judgements

theorem Placed.of_takes (h : Placed stands bare ts) (ht : Takes d ts rest) :
    Placed stands bare rest where
  stands t hr := h.stands t (ht.subset hr)
  bare t hr   := h.bare t (ht.subset hr)

theorem placed_anywhere (ts : List Token) : Placed (fun _ => True) True ts :=
  ⟨fun _ _ => trivial, fun _ _ _ => trivial⟩

theorem Placed.locationOf (h : Placed stands bare ts) (he : stands ending) :
    stands (locationOf ending ts) := by
  cases ts
  case nil => exact he
  case cons t us => exact h.stands t List.mem_cons_self

namespace Fair

variable {r : Except SyntacticError (α × List Token)}

theorem mono (h : Fair stands d ts P r) (hd : d' ≤ d) : Fair stands d' ts P r := by
  rcases r with e | ⟨a, rest⟩
  case error => exact h
  case ok => exact ⟨h.1.mono hd, h.2⟩

theorem after (h : Fair stands d' us P r) (ht : Takes d ts us) : Fair stands (d + d') ts P r := by
  rcases r with e | ⟨a, rest⟩
  case error => exact h
  case ok => exact ⟨ht.trans h.1, h.2⟩

theorem bind (hx : Fair stands d us P (x.run ts))
    (hf : ∀ a rest, Takes d us rest → P a → Fair stands d' us Q ((f a).run rest)) :
    Fair stands d' us Q ((x >>= f).run ts) := by
  rw [StateT.run_bind]
  rcases hr : x.run ts with e | ⟨a, rest⟩
  all_goals rw [hr] at hx
  case error => exact hx
  case ok => exact hf a rest hx.1 hx.2

theorem get {v : List Token → Parse β} (h : Fair stands d us Q ((v ts).run ts)) :
    Fair stands d us Q ((MonadState.get >>= v).run ts) :=
  h

end Fair

namespace Proceeds

theorem pure {a : α} (h : P a) : Proceeds stands bare m 0 (pure a) P :=
  fun _ _ _ => ⟨.refl, h⟩

theorem fail {cause : SyntacticCause} (hl : stands l) (hc : cause ≠ .tooDeep) :
    Proceeds stands bare m d (fail cause l) P :=
  fun _ _ _ => ⟨hc, hl⟩

theorem mono (h : Proceeds stands bare m d x P) : Proceeds stands bare m 0 x P :=
  fun ts hts hm => (h ts hts hm).mono (Nat.zero_le d)

theorem bind (hx : Proceeds stands bare m d x P)
    (hf : ∀ a m', P a → m' + d = m → Proceeds stands bare m' 0 (f a) Q) :
    Proceeds stands bare m d (x >>= f) Q := by
  intro ts hts hm
  refine (hx ts hts hm).bind fun a rest ht ha => ?_
  have hl := ht.length
  have h := hf a (m - d) ha (by omega) rest (hts.of_takes ht) (by omega)
  exact h.after ht

theorem andThen (hx : Proceeds stands bare m d' x P)
    (hf : ∀ a, P a → Proceeds stands bare m d (f a) Q) :
    Proceeds stands bare m d (x >>= f) Q := by
  intro ts hts hm
  refine (hx ts hts hm).bind fun a rest ht ha => ?_
  have hl := ht.length
  have h := hf a ha rest (hts.of_takes ht) (by omega)
  exact (h.after ht).mono (Nat.le_add_left d d')

theorem here (he : stands ending) {v : Location → Parse β}
    (h : ∀ l, stands l → Proceeds stands bare m d (v l) Q) :
    Proceeds stands bare m d (here ending >>= v) Q :=
  fun ts hts hm => h _ (hts.locationOf he) ts hts hm

theorem peek {v : Kind → Parse β} (h : ∀ k, ProceedsFrom stands bare k m d (v k) Q) :
    Proceeds stands bare m d (peek >>= v) Q :=
  fun ts hts hm => h _ ts hts hm rfl

theorem skipSeparators {v : Unit → Parse β} (h : Proceeds stands bare m d (v ()) Q) :
    Proceeds stands bare m d (skipSeparators >>= v) Q := by
  have hs : Proceeds stands bare m 0 Parse.skipSeparators fun _ => True :=
    fun _ _ _ => ⟨takes_dropWhile, trivial⟩
  exact hs.andThen fun _ _ => h

end Proceeds

namespace ProceedsFrom

theorem of_proceeds (h : Proceeds stands bare m d x P) : ProceedsFrom stands bare k m d x P :=
  fun ts hts hm _ => h ts hts hm

theorem skip {v : Unit → Parse β} (hk : k ≠ .eof)
    (h : ∀ m' < m, Proceeds stands bare m' (d - 1) (v ()) Q) :
    ProceedsFrom stands bare k m d (skip >>= v) Q := by
  intro ts hts hm hts'
  have ht : Takes 1 ts ts.tail := takes_tail (hts' ▸ hk)
  have hl := ht.length
  have h := h (m - 1) (by omega) ts.tail (hts.of_takes ht) (by omega)
  exact (h.after ht).mono (by omega)

theorem word {y : String} (h : (y = "printf" → bare) → ProceedsFrom stands bare (.word y) m d x P) :
    ProceedsFrom stands bare (.word y) m d x P := by
  intro ts hts hm hk
  refine h (fun hy => ?_) ts hts hm hk
  cases ts
  case nil => cases hk
  case cons t us =>
    refine hts.bare t List.mem_cons_self ?_
    rwa [← hy]

end ProceedsFrom

namespace Proceeds

theorem accept {v : Bool → Parse β} (hc : c ≠ .eof)
    (ht : ∀ m' < m, Proceeds stands bare m' (d - 1) (v true) Q)
    (hf : Proceeds stands bare m d (v false) Q) :
    Proceeds stands bare m d (accept c >>= v) Q := by
  rw [Reads.accept_bind]
  refine peek fun k => ?_
  split
  case isTrue hk => exact .skip (hk ▸ hc) ht
  case isFalse => exact .of_proceeds hf

theorem alternative {a : α} (hx : ∀ m' < m, Proceeds stands bare m' 0 x P) (ha : P a) :
    Proceeds stands bare m 0
      (do
        let ts ← get
        Parse.skipSeparators
        if ← Parse.accept (.keyword .else) then x
        else
          set ts
          return a) P := by
  intro ts hts hm
  simp only [Reads.accept_bind]
  let us := ts.dropWhile (·.kind == .separator)
  have hs : Takes 0 ts us := takes_dropWhile
  refine (?_ : Fair stands 0 ts P ((if kindOf us = .keyword .else then _ else _ : Parse α).run us))
  split
  case isTrue hk =>
    have ht : Takes 1 ts us.tail := hs.trans (takes_tail (by simp [hk]))
    have hl := ht.length
    exact ((hx (m - 1) (by omega) us.tail (hts.of_takes ht) (by omega)).after ht).mono (by decide)
  case isFalse => exact ⟨.refl, ha⟩

variable (he : stands ending)
include he

theorem expect (hc : c ≠ .eof) :
    Proceeds stands bare m 1 (expect ending c what) fun _ => True := by
  refine peek fun k => ?_
  split
  case isTrue hk =>
    intro ts _ _ hts
    exact ⟨takes_tail (hts ▸ hk ▸ hc), trivial⟩
  case isFalse => exact .of_proceeds (here he fun _ hl => fail hl nofun)

theorem expect_bind {v : Unit → Parse β} (hc : c ≠ .eof)
    (h : Proceeds stands bare m d (v ()) Q) :
    Proceeds stands bare m d (Parse.expect ending c what >>= v) Q :=
  (expect he hc).andThen fun _ _ => h

theorem expectWord : Proceeds stands bare m 1 (expectWord ending what) fun _ => True := by
  refine peek fun k => ?_
  split
  case h_1 => exact .skip nofun fun _ _ => pure trivial
  case h_2 => exact .of_proceeds (here he fun _ hl => fail hl nofun)

end Proceeds

section Expressions

-- How often the parser descends from a level until it takes a token.
def descents (level : Level) : Nat := 16 - level.rank

theorem descents_le (level : Level) : descents level ≤ 32 := by
  unfold descents
  omega

theorem Enough.tighter {level : Level} (h : Enough (descents level) m (n + 1))
    (hl : level ≠ .primary) : Enough (descents level.tighter) m n := by
  cases level
  case primary => exact absurd rfl hl
  all_goals exact h.down

theorem isBefore_of_stepBefore? {op : Step} (h : k.stepBefore? = some op) : op.isBefore := by
  unfold Kind.stepBefore? at h
  split at h <;> cases h <;> rfl

-- All parts of the parser for expressions proceed, as long as the depth is enough.
structure ProceedsExpressions (stands : Location → Prop) (bare : Prop) (ending : Location)
    (n : Nat) : Prop where
  expression     : ∀ level {m}, Enough (descents level) m n →
                     Proceeds stands bare m 1 (expression ending n level)
                       (Expr.WellFormed stands bare)
  chain          : ∀ level left {m}, Enough 1 m n → left.WellFormed stands bare →
                     Proceeds stands bare m 0 (chain ending n level left)
                       (Expr.WellFormed stands bare)
  members        : ∀ key {m}, Enough 1 m n → key.WellFormed stands bare →
                     Proceeds stands bare m 0 (members ending n key) (Expr.WellFormed stands bare)
  joins          : ∀ left {m}, Enough 9 m n → left.WellFormed stands bare →
                     Proceeds stands bare m 0 (joins ending n left) (Expr.WellFormed stands bare)
  primary        : ∀ {m}, Enough 1 m n →
                     Proceeds stands bare m 1 (primary ending n) (Expr.WellFormed stands bare)
  named          : ∀ y l {m}, Enough 1 m n → (y = "printf" → bare) → stands l →
                     Proceeds stands bare m 0 (named ending n y l) (Expr.WellFormed stands bare)
  arguments      : ∀ {m}, Enough 18 m n →
                     Proceeds stands bare m 1 (arguments ending n)
                       fun es => ∀ e ∈ es, e.WellFormed stands bare
  expressions    : ∀ {m}, Enough 17 m n →
                     Proceeds stands bare m 1 (expressions ending n)
                       fun es => ∀ e ∈ es, e.WellFormed stands bare
  printArguments : ∀ {m}, Enough 19 m n →
                     Proceeds stands bare m 0 (printArguments ending n)
                       fun es => ∀ e ∈ es, e.WellFormed stands bare
  openArguments  : ∀ {m}, Enough 18 m n →
                     Proceeds stands bare m 0 (openArguments ending n)
                       fun es => ∀ e ∈ es, e.WellFormed stands bare

namespace ProceedsExpressions

theorem zero : ProceedsExpressions stands bare ending 0 := by
  constructor
  case expression =>
    intro level m hn
    cases level <;> exact (not_enough_zero hn).elim
  all_goals
    intros
    exact (not_enough_zero ‹_›).elim

variable (he : stands ending) (h : ProceedsExpressions stands bare ending n)
include h

theorem any (hn : Enough 32 m n) (level : Level) :
    Proceeds stands bare m 1 (Parse.expression ending n level) (Expr.WellFormed stands bare) :=
  h.expression level (Nat.le_trans (Nat.add_le_add_left (descents_le level) _) hn)

include he

theorem expression_succ (level : Level) (hn : Enough (descents level) m (n + 1)) :
    Proceeds stands bare m 1 (Parse.expression ending (n + 1) level)
      (Expr.WellFormed stands bare) := by
  by_cases hp : level = .primary
  case pos =>
    subst hp
    exact h.primary hn.down
  have hd := hn.tighter hp
  cases level
  case primary => exact absurd rfl hp
  case assignment =>
    refine (h.expression _ hd).bind fun target m₁ ht hm => ?_
    refine .here he fun l hl => .peek fun k => ?_
    split
    case h_1 => exact .of_proceeds (.pure ht)
    case h_2 hk =>
      refine .skip (ne_eof hk rfl) fun m₂ hm₂ => ?_
      refine (h.any (hd.past (by omega)) .assignment).andThen fun value hv => ?_
      split
      case h_1 => exact .pure (.assign hl ht hv)
      case h_2 => exact .pure (.assign hl ht (.binary hl ht hv))
  case conditional =>
    refine (h.expression _ hd).bind fun test m₁ ht hm => ?_
    refine .here he fun l hl => .accept nofun (fun m₂ hm₂ => ?_) (.pure ht)
    have hn : Enough 32 m₂ n := hd.past (by omega)
    refine (h.any hn .assignment).andThen fun yes hy => .expect_bind he nofun ?_
    exact (h.any hn .conditional).andThen fun no hno => .pure (.conditional hl ht hy hno)
  case membership =>
    refine (h.expression _ hd).bind fun key m₁ hk hm => ?_
    exact h.members key (hd.past (by omega)).mono hk
  case matching =>
    refine (h.expression _ hd).bind fun subject m₁ hs hm => ?_
    refine .here he fun l hl => .peek fun k => ?_
    split
    case h_1 => exact .of_proceeds (.pure hs)
    case h_2 hk =>
      refine .skip (ne_eof hk rfl) fun m₂ hm₂ => ?_
      refine (h.any (hd.past (by omega)) .comparison).andThen fun pattern hp => ?_
      split
      case h_1 => exact .pure (.search hl hs)
      case h_2 => exact .fail hp.location nofun
  case comparison | power =>
    refine (h.expression _ hd).bind fun left m₁ hleft hm => ?_
    refine .here he fun l hl => .peek fun k => ?_
    split
    case h_1 => exact .of_proceeds (.pure hleft)
    case h_2 hk =>
      refine .skip (ne_eof hk rfl) fun m₂ hm₂ => ?_
      exact (h.any (hd.past (by omega)) _).andThen fun right hr => .pure (.binary hl hleft hr)
  case concatenation =>
    refine (h.expression _ hd).bind fun left m₁ hl hm => ?_
    exact h.joins left (hd.past (by omega)).mono hl
  case unary =>
    refine .here he fun l hl => .peek fun k => ?_
    split
    case h_1 hk =>
      refine .skip (ne_eof hk rfl) fun m₂ hm₂ => ?_
      exact (h.any (hd.past hm₂) .unary).andThen fun operand ho => .pure (.unary hl ho)
    case h_2 hk =>
      refine .skip (ne_eof hk rfl) fun m₂ hm₂ => ?_
      refine (h.any (hd.past hm₂) .unary).andThen fun operand ho => .pure (.step hl ?_ ho)
      exact fun hb => absurd hb (by simp [isBefore_of_stepBefore? hk])
    case h_3 => exact .of_proceeds (h.expression _ hd)
  case suffix =>
    refine (h.expression _ hd).bind fun target m₁ ht hm => ?_
    refine .here he fun l hl => .peek fun k => ?_
    split
    case h_1 hk =>
      split
      case isTrue hi => exact .skip (ne_eof hk rfl) fun _ _ => .pure (.step hl (fun _ => hi) ht)
      case isFalse => exact .of_proceeds (.pure ht)
    case h_2 => exact .of_proceeds (.pure ht)
  case field =>
    refine .here he fun l hl => .accept nofun (fun m₁ hm => ?_) (h.expression _ hd)
    exact (h.any (hd.past hm) .field).andThen fun index hi => .pure (.field hl hi)
  case disjunction | conjunction | additive | multiplicative =>
    refine (h.expression _ hd).bind fun left m₁ hl hm => ?_
    exact h.chain _ left (hd.past (by omega)).mono hl

theorem chain_succ (level : Level) {left : Expr} (hn : Enough 1 m (n + 1))
    (hleft : left.WellFormed stands bare) :
    Proceeds stands bare m 0 (Parse.chain ending (n + 1) level left)
      (Expr.WellFormed stands bare) := by
  refine .here he fun l hl => .peek fun k => ?_
  split
  case h_1 => exact .of_proceeds (.pure hleft)
  case h_2 hk =>
    refine .skip (ne_eof hk (by cases level <;> rfl)) fun m₁ hm => ?_
    have hn : Enough 32 m₁ n := hn.down.past hm
    refine (h.any hn level.tighter).andThen fun right hr => ?_
    exact h.chain level _ hn.mono (.binary hl hleft hr)

theorem members_succ {key : Expr} (hn : Enough 1 m (n + 1)) (hk : key.WellFormed stands bare) :
    Proceeds stands bare m 0 (Parse.members ending (n + 1) key) (Expr.WellFormed stands bare) := by
  refine .here he fun l hl => .accept nofun (fun m₁ hm => ?_) (.pure hk)
  have hn : Enough 32 m₁ n := hn.down.past hm
  exact (h.primary hn.mono).andThen fun array ha => h.members _ hn.mono (.member hl hk ha)

omit he in
theorem joins_succ {left : Expr} (hn : Enough 9 m (n + 1)) (hl : left.WellFormed stands bare) :
    Proceeds stands bare m 0 (Parse.joins ending (n + 1) left) (Expr.WellFormed stands bare) := by
  have hd : Enough 8 m n := hn.down
  refine .peek fun k => .of_proceeds ?_
  split
  case isTrue =>
    refine ((h.expression .additive hd).bind fun right m₁ hr hm => ?_).mono
    exact h.joins _ (hd.past (by omega)).mono (.binary hl.location hl hr)
  case isFalse => exact .pure hl

theorem primary_succ (hn : Enough 1 m (n + 1)) :
    Proceeds stands bare m 1 (Parse.primary ending (n + 1)) (Expr.WellFormed stands bare) := by
  refine .here he fun l hl => .peek fun k => ?_
  have hn {m₁ : Nat} (hm : m₁ < m) : Enough 32 m₁ n := hn.down.past hm
  split
  case h_1 | h_2 => exact .skip nofun fun _ _ => .pure (.constant hl)
  case h_3 => exact .skip nofun fun _ _ => .pure (.pattern hl)
  case h_4 y =>
    exact .word fun hy => .skip nofun fun _ hm => h.named y l (hn hm).mono hy hl
  case h_5 =>
    refine .skip nofun fun _ hm => (h.any (hn hm) .assignment).andThen fun inner hi => ?_
    exact .expect_bind he nofun (.pure hi)
  case h_6 =>
    refine .skip nofun fun _ hm => (h.printArguments (hn hm).mono).andThen fun args ha => ?_
    exact .pure (.call hl (by simp) ha)
  case h_7 =>
    refine .skip nofun fun _ hm => (h.printArguments (hn hm).mono).andThen fun args ha => ?_
    split
    case isTrue => exact .fail hl nofun
    case isFalse hne =>
      refine .pure (.call hl (fun _ hnil => ?_) ha)
      exact absurd (List.isEmpty_iff.mpr hnil) hne
  case h_8 =>
    refine .skip nofun fun _ hm => .peek fun k => .of_proceeds ?_
    split
    case isTrue =>
      refine (h.any (hn hm) .assignment).andThen fun code hc => .pure (.call hl (by simp) ?_)
      exact List.forall_mem_singleton.mpr hc
    case isFalse => exact .pure (.call hl (by simp) nofun)
  case h_9 | h_10 | h_11 => exact .skip nofun fun _ _ => .pure (.call hl (by simp) nofun)
  case h_12 => exact .of_proceeds (.fail hl nofun)

theorem named_succ {y : String} (hn : Enough 1 m (n + 1)) (hy : y = "printf" → bare)
    (hl : stands l) :
    Proceeds stands bare m 0 (Parse.named ending (n + 1) y l) (Expr.WellFormed stands bare) := by
  refine .peek fun k => ?_
  split
  case h_1 =>
    refine .skip nofun fun _ hm => (h.arguments (hn.down.past hm).mono).andThen fun args ha => ?_
    exact .pure (.call hl (fun hf _ => hy hf) ha)
  case h_2 =>
    refine .skip nofun fun _ hm => (h.any (hn.down.past hm) .assignment).andThen fun index hi => ?_
    exact .expect_bind he nofun (.pure (.element hl hi))
  case h_3 =>
    refine .of_proceeds ?_
    split
    case isTrue => exact .pure (.call hl (fun hf _ => hy hf) nofun)
    case isFalse hne => exact .pure (.name hl hne)

theorem listed {g : List Expr → Parse β} (hn : Enough 17 m n)
    (hg : ∀ es, ∀ m' < m, (∀ e ∈ es, e.WellFormed stands bare) →
      Proceeds stands bare m' 0 (g es) Q) :
    Proceeds stands bare m 1
      (do
        let args ← if (← peek) = .symbol .rightParen then pure [] else Parse.expressions ending n
        Parse.expect ending (.symbol .rightParen) what
        g args) Q := by
  have hc (es : List Expr) (hes : ∀ e ∈ es, e.WellFormed stands bare) :
      Proceeds stands bare m 1
        (do Parse.expect ending (.symbol .rightParen) what; g es) Q := by
    refine Proceeds.bind (.expect he (by simp)) fun _ m' _ hm => hg es m' (by omega) hes
  refine .peek fun k => .of_proceeds ?_
  split
  case isTrue => exact hc [] nofun
  case isFalse => exact (h.expressions hn).andThen hc

theorem arguments_succ (hn : Enough 18 m (n + 1)) :
    Proceeds stands bare m 1 (Parse.arguments ending (n + 1))
      fun es => ∀ e ∈ es, e.WellFormed stands bare :=
  h.listed he hn.down fun _ _ _ hes => .pure hes

omit he in
theorem expressions_succ (hn : Enough 17 m (n + 1)) :
    Proceeds stands bare m 1 (Parse.expressions ending (n + 1))
      fun es => ∀ e ∈ es, e.WellFormed stands bare := by
  have hd : Enough 16 m n := hn.down
  refine (h.expression .assignment hd).bind fun first m₁ hf hm => ?_
  refine .accept nofun (fun m₂ hm₂ => ?_) (.pure (List.forall_mem_singleton.mpr hf))
  have hn : Enough 32 m₂ n := hd.past (by omega)
  refine (h.expressions hn.mono).andThen fun rest hr => .pure ?_
  exact List.forall_mem_cons.mpr ⟨hf, hr⟩

theorem openArguments_succ (hn : Enough 18 m (n + 1)) :
    Proceeds stands bare m 0 (Parse.openArguments ending (n + 1))
      fun es => ∀ e ∈ es, e.WellFormed stands bare := by
  refine .peek fun k => .of_proceeds ?_
  split
  case isTrue => exact .pure nofun
  case isFalse =>
    refine (h.expressions hn.down).andThen fun args ha => .peek fun found => .of_proceeds ?_
    split
    case isTrue => exact .pure ha
    case isFalse => exact .here he fun _ hl => .fail hl nofun

-- Where the parentheses turn out to belong to the first argument, the tokens are there again.
omit he in
theorem printArguments_succ (hn : Enough 19 m (n + 1)) :
    Proceeds stands bare m 0 (Parse.printArguments ending (n + 1))
      fun es => ∀ e ∈ es, e.WellFormed stands bare := by
  have ho : Proceeds stands bare m 0 (Parse.openArguments ending n)
      fun es => ∀ e ∈ es, e.WellFormed stands bare := h.openArguments hn.down
  intro ts hts hm
  rw [Parse.printArguments]
  simp only [Reads.accept_bind, if_true]
  change Fair stands 0 ts _ ((if kindOf ts = .symbol .leftParen then _ else _ : Parse _).run ts)
  split
  case isFalse => exact ho ts hts hm
  case isTrue hk =>
    have ht : Takes 1 ts ts.tail := takes_tail (by simp [hk])
    have hl := ht.length
    have ha : Proceeds stands bare (m - 1) 1 (Parse.arguments ending n) _ :=
      h.arguments (hn.down.past (by omega)).mono
    have ha := (ha ts.tail (hts.of_takes ht) (by omega)).after ht
    have hs : skip.run ts = .ok ((), ts.tail) := rfl
    rw [run_bind hs]
    refine ha.bind fun args rest hr ha => ?_
    change Fair stands 0 ts _ ((if endsStatement (kindOf rest) then _ else _ : Parse _).run rest)
    split
    case isTrue => exact ⟨hr.mono (by decide), ha⟩
    case isFalse => exact ho ts hts hm

end ProceedsExpressions

theorem proceedsExpressions (he : stands ending) : (n : Nat) →
    ProceedsExpressions stands bare ending n
  | 0     => .zero
  | n + 1 =>
    have h := proceedsExpressions he n
    { expression     := fun level _ => h.expression_succ he level
      chain          := fun level _ _ => h.chain_succ he level
      members        := fun _ _ => h.members_succ he
      joins          := fun _ _ => h.joins_succ
      primary        := h.primary_succ he
      named          := fun _ _ _ => h.named_succ he
      arguments      := h.arguments_succ he
      expressions    := h.expressions_succ
      printArguments := h.printArguments_succ
      openArguments  := h.openArguments_succ he }

end Expressions

section Statements

theorem ProceedsExpressions.optional (h : ProceedsExpressions stands bare ending n)
    (hn : Enough 16 m n) (stop : Kind) :
    Proceeds stands bare m 0 (Parse.optional ending n stop)
      fun o => ∀ e ∈ o, e.WellFormed stands bare := by
  refine .peek fun k => .of_proceeds ?_
  split
  case isTrue => exact .pure nofun
  case isFalse =>
    refine (h.expression .assignment hn).andThen fun e hw => .pure fun e' hm => ?_
    exact Option.mem_some.mp hm ▸ hw

theorem ProceedsExpressions.condition (he : stands ending)
    (h : ProceedsExpressions stands bare ending n) (hn : Enough w m n)
    {opening closing : Expected} :
    Proceeds stands bare m 1 (Parse.condition ending n opening closing)
      (Expr.WellFormed stands bare) := by
  refine (Proceeds.expect he (by simp)).bind fun _ m₁ _ hm => ?_
  refine (h.any (hn.past (by omega)) .assignment).andThen fun e hw => ?_
  exact .expect_bind he (by simp) (.pure hw)

-- All parts of the parser for statements proceed as well.
structure ProceedsStatements (stands : Location → Prop) (bare : Prop) (ending : Location)
    (n : Nat) : Prop where
  statement  : ∀ {m}, Enough 17 m n →
                 Proceeds stands bare m 1 (statement ending n) (Stmt.WellFormed stands bare)
  branch     : ∀ l {m}, Enough 1 m n → stands l →
                 Proceeds stands bare m 1 (branch ending n l) (Branch.WellFormed stands bare)
  forLoop    : ∀ l {m}, Enough 1 m n → stands l →
                 Proceeds stands bare m 1 (forLoop ending n l) (Stmt.WellFormed stands bare)
  block      : ∀ {m}, Enough 18 m n →
                 Proceeds stands bare m 1 (block ending n) (Block.WellFormed stands bare)
  statements : ∀ {m}, Enough 18 m n →
                 Proceeds stands bare m 0 (statements ending n)
                   fun ss => ∀ s ∈ ss, s.WellFormed stands bare

namespace ProceedsStatements

theorem zero : ProceedsStatements stands bare ending 0 := by
  constructor
  all_goals
    intros
    exact (not_enough_zero ‹_›).elim

variable (he : stands ending) (h : ProceedsStatements stands bare ending n)
include he h

theorem statement_succ (hn : Enough 17 m (n + 1)) :
    Proceeds stands bare m 1 (Parse.statement ending (n + 1)) (Stmt.WellFormed stands bare) := by
  have hx : ProceedsExpressions stands bare ending n := proceedsExpressions he n
  have hd : Enough 16 m n := hn.down
  have hn {m₁ : Nat} (hm : m₁ < m) : Enough 32 m₁ n := hd.past hm
  refine .here he fun l hl => .peek fun k => ?_
  split
  case h_1 => exact .skip nofun fun _ _ => .pure (.continue hl)
  case h_2 => exact .skip nofun fun _ _ => .pure (.break hl)
  case h_3 =>
    exact .skip nofun fun _ hm => (h.branch l (hn hm).mono hl).andThen fun b hb => .pure (.if hb)
  case h_4 => exact .skip nofun fun _ hm => (h.forLoop l (hn hm).mono hl).mono
  case h_5 =>
    refine .skip nofun fun _ hm => (Proceeds.expectWord he).andThen fun array _ => ?_
    refine .accept nofun (fun _ hm' => ?_) (.pure (.delete hl nofun))
    refine (hx.any ((hn hm).past hm') .assignment).andThen fun index hi => ?_
    refine .expect_bind he nofun (.pure (.delete hl fun e hm => ?_))
    exact Option.mem_some.mp hm ▸ hi
  case h_6 =>
    refine .skip nofun fun _ hm => (hx.condition he (hn hm)).andThen fun test ht => ?_
    exact (h.block (hn hm).mono).andThen fun body hb => .pure (.while hl ht hb)
  case h_7 =>
    refine .skip nofun fun _ hm => (h.block (hn hm).mono).andThen fun body hb => ?_
    refine .skipSeparators (.expect_bind he nofun ?_)
    exact (hx.condition he (hn hm)).andThen fun test ht => .pure (.doWhile hl hb ht)
  case h_8 =>
    refine .skip nofun fun _ hm => .peek fun k => .of_proceeds ?_
    split
    case isTrue =>
      refine (hx.any (hn hm) .assignment).andThen fun value hv => .pure (.return hl fun e hm => ?_)
      exact Option.mem_some.mp hm ▸ hv
    case isFalse => exact .pure (.return hl nofun)
  case h_9 =>
    exact .of_proceeds ((hx.expression .assignment hd).bind fun e _ hw _ => .pure (.expr hw))

-- Without an `else` the separators are there again.
theorem branch_succ (hn : Enough 1 m (n + 1)) (hl : stands l) :
    Proceeds stands bare m 1 (Parse.branch ending (n + 1) l) (Branch.WellFormed stands bare) := by
  have hx : ProceedsExpressions stands bare ending n := proceedsExpressions he n
  refine (hx.condition he hn.down).bind fun test m₁ ht hm => ?_
  have hn : Enough 32 m₁ n := hn.down.past (by omega)
  refine (h.block hn.mono).andThen fun action ha => ?_
  refine .alternative (fun m₂ hm₂ => ?_) (.mk hl ht ha .nothing)
  have hn : Enough 32 m₂ n := hn.past hm₂
  refine .skipSeparators (.here he fun l' hl' => .accept nofun (fun m₃ hm₃ => ?_) ?_)
  · refine (h.branch l' (hn.past hm₃).mono hl').andThen fun b hb => ?_
    exact .pure (.mk hl ht ha (.branch hb))
  · exact (h.block hn.mono).andThen fun b hb => .pure (.mk hl ht ha (.block hb))

theorem forLoop_succ (hn : Enough 1 m (n + 1)) (hl : stands l) :
    Proceeds stands bare m 1 (Parse.forLoop ending (n + 1) l) (Stmt.WellFormed stands bare) := by
  have hx : ProceedsExpressions stands bare ending n := proceedsExpressions he n
  refine (Proceeds.expect he (by simp)).bind fun _ m₁ _ hm => ?_
  have hn : Enough 32 m₁ n := hn.down.past (by omega)
  intro ts hts hm
  refine .get (.get ?_)
  split
  case h_1 hw hin =>
    have ht : Takes 2 ts ts.tail.tail :=
      (takes_tail (by simp [hw])).trans (takes_tail (by simp [hin]))
    have hl' := ht.length
    have hr (x : String) : Proceeds stands bare m₁ 0
        (do
          let array ← Parse.expectWord ending .arrayAfterIn
          Parse.expect ending (.symbol .rightParen) .parenAfterForIn
          return Stmt.forIn x array (← Parse.block ending n) l) (Stmt.WellFormed stands bare) := by
      refine (Proceeds.expectWord he).andThen fun array _ => .expect_bind he (by simp) ?_
      exact (h.block hn.mono).andThen fun body hb => .pure (.forIn hl hb)
    exact ((hr _ _ (hts.of_takes ht) (by omega)).after ht).mono (by decide)
  case h_2 =>
    refine (?_ : Proceeds stands bare m₁ 0 _ _) ts hts hm
    refine (hx.optional hn.mono _).andThen fun init hi => .expect_bind he (by simp) ?_
    refine (hx.optional hn.mono _).andThen fun test ht => .expect_bind he (by simp) ?_
    refine (hx.optional hn.mono _).andThen fun update hu => .expect_bind he (by simp) ?_
    exact (h.block hn.mono).andThen fun body hb => .pure (.for hl hi ht hu hb)

theorem block_succ (hn : Enough 18 m (n + 1)) :
    Proceeds stands bare m 1 (Parse.block ending (n + 1)) (Block.WellFormed stands bare) := by
  have hd : Enough 17 m n := hn.down
  refine .skipSeparators (.here he fun l hl => .peek fun k => ?_)
  split
  case h_1 =>
    refine .skip nofun fun _ hm => .skipSeparators ?_
    refine (h.statements (hd.past hm).mono).andThen fun body hb => ?_
    exact .expect_bind he nofun (.pure (.mk hl hb))
  case h_2 | h_3 => exact .of_proceeds (.fail hl nofun)
  case h_4 =>
    refine .of_proceeds ((h.statement hd).bind fun s _ hs _ => .pure (.mk hl ?_))
    exact List.forall_mem_singleton.mpr hs

omit he in
theorem statements_succ (hn : Enough 18 m (n + 1)) :
    Proceeds stands bare m 0 (Parse.statements ending (n + 1))
      fun ss => ∀ s ∈ ss, s.WellFormed stands bare := by
  have hd : Enough 17 m n := hn.down
  refine .peek fun k => .of_proceeds ?_
  split
  case h_1 | h_2 => exact .pure nofun
  case h_3 =>
    refine ((h.statement hd).bind fun first m₁ hf hm => .skipSeparators ?_).mono
    refine (h.statements (hd.past (by omega)).mono).andThen fun rest hr => .pure ?_
    exact List.forall_mem_cons.mpr ⟨hf, hr⟩

end ProceedsStatements

theorem proceedsStatements (he : stands ending) : (n : Nat) →
    ProceedsStatements stands bare ending n
  | 0     => .zero
  | n + 1 =>
    have h := proceedsStatements he n
    { statement  := h.statement_succ he
      branch     := fun _ _ => h.branch_succ he
      forLoop    := fun _ _ => h.forLoop_succ he
      block      := h.block_succ he
      statements := h.statements_succ }

end Statements

end PatternAction.Parse
