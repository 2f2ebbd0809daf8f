import Mathlib.Order.WithBot
import PatternAction.Pattern.Matching
import PatternAction.Proofs.Number.Reading
import PatternAction.Proofs.Number.Writing
import PatternAction.Proofs.Run.Outcomes
import PatternAction.Proofs.Text.Encoding

namespace PatternAction

namespace Number

-- Numbers in the order of their values, with an infinity on each side. The two zeros are one.
def rank : Number → WithBot (WithTop ℚ)
  | nan | infinite true  => ⊥
  | infinite false       => ⊤
  | finite negative size => (value negative size : WithTop ℚ)

theorem compare_value (a b : Bool) (x y : Magnitude) :
    compare (signed a x) (signed b y) = compare (value a x) (value b y) := by
  have hm : StrictMono fun i : ℤ => (i : ℚ) / one := fun i j h =>
    div_lt_div_of_pos_right (Int.cast_lt.mpr h) (Nat.cast_pos.mpr one_pos)
  rw [← cmp_eq_compare, ← cmp_eq_compare]
  exact (hm.cmp_map_eq _ _).symm

theorem compare?_eq {x y : Number} (hx : x ≠ nan) (hy : y ≠ nan) :
    x.compare? y = some (compare x.rank y.rank) := by
  have hlt {u v : WithBot (WithTop ℚ)} (h : u < v) :
      compare u v = .lt ∧ compare v u = .gt :=
    ⟨compare_lt_iff_lt.mpr h, compare_gt_iff_gt.mpr h⟩
  have hends : (⊥ : WithBot (WithTop ℚ)) < ⊤ := bot_lt_top
  have hbot (q : ℚ) : ⊥ < ((q : WithTop ℚ) : WithBot (WithTop ℚ)) := WithBot.bot_lt_coe _
  have htop (q : ℚ) : ((q : WithTop ℚ) : WithBot (WithTop ℚ)) < ⊤ :=
    WithBot.coe_lt_coe.mpr (WithTop.coe_lt_top q)
  cases x
  case nan => exact absurd rfl hx
  case infinite a =>
    cases y
    case nan => exact absurd rfl hy
    case infinite b => cases a <;> cases b <;> simp [compare?, rank, hlt hends] <;> rfl
    case finite => cases a <;> simp [compare?, rank, hlt (hbot _), hlt (htop _)]
  case finite a x =>
    cases y
    case nan => exact absurd rfl hy
    case infinite b => cases b <;> simp [compare?, rank, hlt (hbot _), hlt (htop _)]
    case finite b y =>
      have hm : StrictMono fun q : ℚ => ((q : WithTop ℚ) : WithBot (WithTop ℚ)) :=
        WithBot.coe_strictMono.comp WithTop.coe_strictMono
      rw [compare?, compare_value, rank, rank, ← cmp_eq_compare, ← cmp_eq_compare]
      exact congrArg some (hm.cmp_map_eq _ _).symm

end Number

namespace Value

variable {a b : Value} {x y : Number}

theorem number?_ne_nan (h : a.number? = some x) : x ≠ .nan := by
  rintro rfl
  exact Number.ofString?_ne_nan h

theorem compare_of_numbers (ha : a.number? = some x) (hb : b.number? = some y) :
    a.compare b = Ord.compare x.rank y.rank := by
  rw [compare, ha, hb]
  dsimp only
  rw [Number.compare?_eq (number?_ne_nan ha) (number?_ne_nan hb), Option.getD_some]

theorem ofBool_eq_one {t : Bool} : ofBool t = ⟨"1"⟩ ↔ t = true := by
  cases t <;> decide

theorem ofBool_eq_zero {t : Bool} : ofBool t = ⟨"0"⟩ ↔ t = false := by
  cases t <;> decide

theorem compareText_eq (s t : String) : compareText s t = Ord.compare s t := rfl

theorem compare_of_none (h : a.number? = none ∨ b.number? = none) :
    a.compare b = Ord.compare a.text b.text := by
  rw [compare, ← compareText_eq]
  split
  case h_1 ha hb => simp [ha, hb] at h
  case h_2 => rfl

theorem compare_swap (a b : Value) : b.compare a = (a.compare b).swap := by
  cases ha : a.number?
  case none =>
    rw [compare_of_none (.inl ha), compare_of_none (.inr ha)]
    exact Std.OrientedCmp.eq_swap
  case some x =>
    cases hb : b.number?
    case none =>
      rw [compare_of_none (.inl hb), compare_of_none (.inr hb)]
      exact Std.OrientedCmp.eq_swap
    case some y =>
      rw [compare_of_numbers ha hb, compare_of_numbers hb ha]
      exact Std.OrientedCmp.eq_swap

theorem compare_self (a : Value) : a.compare a = .eq := by
  cases ha : a.number?
  case none => rw [compare_of_none (.inl ha), compare_eq_iff_eq]
  case some x => rw [compare_of_numbers ha ha, compare_eq_iff_eq]

theorem compare_text_lt_iff {s t : String} : Ord.compare s t = .lt ↔
    List.Lex (fun c d => c.toNat < d.toNat) s.toList t.toList := by
  rw [compare_lt_iff_lt, String.lt_iff_toList_lt]
  exact List.lex_lt.symm

theorem compare_text_lt_iff_bytes {s t : String} : Ord.compare s t = .lt ↔
    s.toUTF8.data.toList < t.toUTF8.data.toList := by
  rw [compare_lt_iff_lt, String.lt_iff_toList_lt, Text.toUTF8_eq, Text.toUTF8_eq]
  exact Text.bytes_lt_iff.symm

-- Among these values the order is transitive, and equal ones have the same place in it.
structure Coherent (P : Value → Prop) : Prop where
  lt_trans : ∀ a b c, P a → P b → P c →
    a.compare b = .lt → b.compare c = .lt → a.compare c = .lt
  le_trans : ∀ a b c, P a → P b → P c →
    a.compare b ≠ .gt → b.compare c ≠ .gt → a.compare c ≠ .gt
  congr    : ∀ a b c, P a → P b → P c →
    a.compare b = .eq → a.compare c = b.compare c ∧ c.compare a = c.compare b

theorem Coherent.of_order {α : Type} [LinearOrder α] {P : Value → Prop} (f : Value → α)
    (h : ∀ a b, P a → P b → a.compare b = Ord.compare (f a) (f b)) : Coherent P where
  lt_trans a b c ha hb hc := by
    rw [h a b ha hb, h b c hb hc, h a c ha hc]
    simp only [compare_lt_iff_lt]
    exact fun h₁ h₂ => h₁.trans h₂
  le_trans a b c ha hb hc := by
    rw [h a b ha hb, h b c hb hc, h a c ha hc]
    simp only [compare_le_iff_le]
    exact fun h₁ h₂ => h₁.trans h₂
  congr a b c ha hb hc := by
    rw [h a b ha hb, h a c ha hc, h b c hb hc, h c a hc ha, h c b hc hb, compare_eq_iff_eq]
    intro he
    rw [he]
    exact ⟨rfl, rfl⟩

theorem coherent_numbers : Coherent (·.number?.isSome) := by
  refine .of_order (·.number.rank) fun a b ha hb => ?_
  obtain ⟨x, hx⟩ := Option.isSome_iff_exists.mp ha
  obtain ⟨y, hy⟩ := Option.isSome_iff_exists.mp hb
  rw [compare_of_numbers hx hy, number, number, hx, hy]
  rfl

theorem coherent_texts : Coherent (·.number? = none) :=
  .of_order (·.text) fun _ _ ha _ => compare_of_none (.inl ha)

-- Not among all values: ten is greater than two, and between them is a text that is no number.
example : ¬Coherent fun _ => True := fun h => by
  have := h.lt_trans ⟨"10"⟩ ⟨"1x"⟩ ⟨"2"⟩ trivial trivial trivial (by decide +kernel)
    (by decide +kernel)
  exact absurd this (by decide +kernel)

end Value

namespace Run

variable {p : Program} {n : Nat} {left right : Expr} {m m₁ m₂ : Machine} {a b : Value}

theorem comparison_on [Patterns] (hl : (eval p n left).on m = (.ok a, m₁))
    (hr : (eval p n right).on m₁ = (.ok b, m₂)) (op : Comparison) (l : Location) :
    (eval p (n + 1) (.binary (.comparison op) left right l)).on m =
      (.ok (.ofBool (holds op (a.compare b))), m₂) := by
  rw [eval, on_bind_ok hl, on_bind_ok hr]
  rfl

-- Of the operators that ask for one order, the one that asks for `o` holds and the others do not.
theorem existsUnique_holds (o : Ordering) :
    ∃! op, op ∈ [Comparison.lt, .eq, .gt] ∧ holds op o = true := by
  have only {op op' : Comparison} (hm : op ∈ [Comparison.lt, .eq, .gt])
      (hm' : op' ∈ [Comparison.lt, .eq, .gt]) (h : holds op o = true) (h' : holds op' o = true) :
      op = op' := by
    revert hm hm' h h'
    cases o <;> cases op <;> cases op' <;> decide
  obtain ⟨op, hm, h⟩ : ∃ op ∈ [Comparison.lt, .eq, .gt], holds op o = true := by
    cases o <;> decide
  exact ⟨op, ⟨hm, h⟩, fun op' h' => only h'.1 hm h'.2 h⟩

end Run

-- Comparing values the other way round gives the reverse, and no two values that read as numbers
-- are without order. So exactly one of the three operators that ask for one order gives one, and
-- the others give the negations of these. Values that read as numbers are in an order in which
-- equal ones have the same place, and so are those that do not; two values of which one does not
-- are in the order of their code points, which is that of their bytes.
theorem comparisons_consistent [Patterns] (a b : Value) :
    b.compare a = (a.compare b).swap ∧ a.compare a = .eq ∧
    (∀ x y, a.number? = some x → b.number? = some y → (x.compare? y).isSome) ∧
    (∀ (p : Program) (n : Nat) (left right : Expr) (l : Location) (m m₁ m₂ : Machine),
      (Run.eval p n left).on m = (.ok a, m₁) → (Run.eval p n right).on m₁ = (.ok b, m₂) →
      ∃ result : Comparison → Value,
        (∀ op, (Run.eval p (n + 1) (.binary (.comparison op) left right l)).on m =
          (.ok (result op), m₂)) ∧
        (∀ op, result op = ⟨"1"⟩ ∨ result op = ⟨"0"⟩) ∧
        (result .lt = ⟨"1"⟩ ↔ a.compare b = .lt) ∧ (result .eq = ⟨"1"⟩ ↔ a.compare b = .eq) ∧
        (result .gt = ⟨"1"⟩ ↔ a.compare b = .gt) ∧
        (∃! op, op ∈ [Comparison.lt, .eq, .gt] ∧ result op = ⟨"1"⟩) ∧
        (result .le = ⟨"1"⟩ ↔ result .gt = ⟨"0"⟩) ∧ (result .ge = ⟨"1"⟩ ↔ result .lt = ⟨"0"⟩) ∧
        (result .ne = ⟨"1"⟩ ↔ result .eq = ⟨"0"⟩)) ∧
    Value.Coherent (·.number?.isSome) ∧ Value.Coherent (·.number? = none) ∧
    (a.number? = none ∨ b.number? = none →
      (a.compare b = .lt ↔
        List.Lex (fun c d => c.toNat < d.toNat) a.text.toList b.text.toList) ∧
      (a.compare b = .lt ↔ a.text.toUTF8.data.toList < b.text.toUTF8.data.toList) ∧
      (a.compare b = .eq ↔ a.text = b.text)) := by
  refine ⟨Value.compare_swap a b, a.compare_self, fun x y ha hb => ?_,
    fun p n left right l m m₁ m₂ hl hr => ?_, Value.coherent_numbers, Value.coherent_texts,
    fun h => ?_⟩
  · rw [Number.compare?_eq (Value.number?_ne_nan ha) (Value.number?_ne_nan hb)]
    rfl
  · refine ⟨fun op => .ofBool (Run.holds op (a.compare b)),
      fun op => Run.comparison_on hl hr op l, ?_⟩
    simp only [Value.ofBool_eq_one, Value.ofBool_eq_zero]
    refine ⟨fun op => ?_, ?_, ?_, ?_, Run.existsUnique_holds _, ?_, ?_, ?_⟩
    case refine_1 => cases Run.holds op (a.compare b) <;> simp
    all_goals cases a.compare b <;> decide
  · rw [Value.compare_of_none h]
    exact ⟨Value.compare_text_lt_iff, Value.compare_text_lt_iff_bytes, compare_eq_iff_eq⟩

-- `10 == 1e1` is true of texts that differ, and `10 < 9x` is true since the second is no number.
theorem comparisons_consistent_mixed :
    ((Run.eval {} 2 (.binary (.comparison .eq) (.constant "10" .start) (.constant "1e1" .start)
      .start)).on {} = (.ok ⟨"1"⟩, {})) ∧
    ((Run.eval {} 2 (.binary (.comparison .lt) (.constant "10" .start) (.constant "9x" .start)
      .start)).on {} = (.ok ⟨"1"⟩, {})) ∧
    "10".toUTF8.data.toList < "9x".toUTF8.data.toList ∧
    ∃ x y, (Value.mk "10").number? = some x ∧ (Value.mk "1e1").number? = some y ∧
      (x.compare? y).isSome := by
  have constant (s : String) : (Run.eval {} 1 (.constant s .start)).on {} = (.ok ⟨s⟩, {}) := rfl
  obtain ⟨-, -, hn, he, -⟩ := comparisons_consistent ⟨"10"⟩ ⟨"1e1"⟩
  obtain ⟨-, -, -, ht, -, -, hs⟩ := comparisons_consistent ⟨"10"⟩ ⟨"9x"⟩
  obtain ⟨r, hr, -, -, hr', -⟩ := he {} 1 _ _ .start {} {} {} (constant "10") (constant "1e1")
  obtain ⟨u, hu, -, hu', -⟩ := ht {} 1 _ _ .start {} {} {} (constant "10") (constant "9x")
  have hlt : (Value.mk "10").compare ⟨"9x"⟩ = .lt := by decide +kernel
  have h₁ : (Value.mk "10").number?.isSome := by decide +kernel
  have h₂ : (Value.mk "1e1").number?.isSome := by decide +kernel
  obtain ⟨x, hx⟩ := Option.isSome_iff_exists.mp h₁
  obtain ⟨y, hy⟩ := Option.isSome_iff_exists.mp h₂
  refine ⟨?_, ?_, ?_, x, y, hx, hy, hn x y hx hy⟩
  · rw [hr, hr'.mpr (by decide +kernel)]
  · rw [hu, hu'.mpr hlt]
  · exact (hs (.inr (by decide +kernel))).2.1.mp hlt

end PatternAction
