import PatternAction.Proofs.Format.Padding
import PatternAction.Proofs.Number.Truncation

namespace PatternAction

-- A sign, if there is one, and the digits of a whole number.
def SpellsInteger (cs : List Char) (n : ℤ) : Prop :=
  ∃ (s : Literal.Sign) (ds : List Char), s.chars ++ ds = cs ∧ ds ≠ [] ∧ (∀ c ∈ ds, c.isDigit) ∧
    (s.isMinus ↔ n < 0) ∧ decimal ds = n.natAbs

namespace SpellsInteger

variable {cs : List Char} {m n : ℤ}

theorem unique (hm : SpellsInteger cs m) (hn : SpellsInteger cs n) : m = n := by
  obtain ⟨s, ds, rfl, hd, hi, hs, hv⟩ := hm
  obtain ⟨s', ds', he, hd', hi', hs', hv'⟩ := hn
  have hsign {s : Literal.Sign} {ds : List Char} (hi : ∀ c ∈ ds, c.isDigit) :
      Numeral.sign (s.chars ++ ds) = (s.isMinus, ds) := by
    refine Numeral.sign_chars s fun c hc => ?_
    have hd := hi c (List.mem_of_mem_head? hc)
    exact ⟨ne_of_isDigit hd rfl, ne_of_isDigit hd rfl⟩
  have h := (hsign hi').symm.trans ((congrArg Numeral.sign he).trans (hsign hi))
  obtain ⟨hb, rfl⟩ := Prod.mk.inj h
  rw [hb, hs] at hs'
  have ha : m.natAbs = n.natAbs := hv.symm.trans hv'
  omega

end SpellsInteger

namespace Directive

theorem decimal_zeros_append (k : ℕ) (ds : List Char) :
    decimal (List.replicate k '0' ++ ds) = decimal ds := by
  rw [decimal_append, decimal_zeros, Nat.zero_mul, Nat.zero_add]

variable (d : Directive) (negative : Bool) (size : Magnitude)

def integer (n : Number) : List Char :=
  d.pad true (d.sign n.trunc ++ Number.digits 10 (n.trunc.abs.toIntWithin 0 (2 ^ 63 - 1)).toNat)

theorem render_integer {c : Char} (h : c = 'd' ∨ c = 'i') (v : Value) :
    d.render c v = d.integer v.number := by
  rcases h with rfl | rfl <;> rfl

theorem isNegative_trunc : (Number.finite negative size).trunc.isNegative ↔
    truncate (Number.value negative size) < 0 := by
  obtain ⟨whole, ht, hu⟩ := Number.exists_trunc negative size
  rw [ht, Number.isNegative_iff, Number.value_of_whole negative hu, Number.truncate_value,
    Int.natCast_ediv, Int.cast_lt_zero]

theorem size_trunc : ((Number.finite negative size).trunc.abs.toIntWithin 0 (2 ^ 63 - 1)).toNat =
    min (2 ^ 63 - 1) (truncate (Number.value negative size)).natAbs := by
  obtain ⟨whole, ht, hu⟩ := Number.exists_trunc negative size
  have hq : (whole.units : ℤ) / Number.one = (size.units / Number.one : ℕ) := by
    rw [← Int.natCast_ediv, hu, Nat.mul_div_cancel _ Number.one_pos]
  rw [ht, Number.truncate_value, ← Int.natCast_ediv, Number.abs, Number.toIntWithin, hq,
    if_neg Bool.false_ne_true]
  generalize size.units / Number.one = q
  split <;> omega

variable {d negative size} {v : Value} {n : ℤ}

theorem spells_integer (h : truncate (Number.value negative size) = n) (hl : -2 ^ 63 ≤ n)
    (hu : n < 2 ^ 63) : SpellsInteger
      (Text.trimList (· = ' ') (d.integer (.finite negative size))) (max n (1 - 2 ^ 63)) := by
  obtain ⟨blank, hs, hb⟩ := d.sign_eq (Number.finite negative size).trunc
  have hd : ∀ c ∈ Number.digits 10 (min (2 ^ 63 - 1) n.natAbs), c.isDigit := fun _ =>
    isDigit_of_mem_digits
  have hr : ∀ c ∈ Number.digits 10 (min (2 ^ 63 - 1) n.natAbs), c ≠ '-' ∧ c ≠ '+' ∧ c ≠ ' ' :=
    fun c hc => ⟨ne_of_isDigit (hd c hc) rfl, ne_of_isDigit (hd c hc) rfl,
      ne_of_isDigit (hd c hc) rfl⟩
  rw [integer, hs, List.append_assoc, size_trunc, h, trimList_pad hb digits_ne_nil hr]
  refine ⟨_, _, rfl, by simp [digits_ne_nil], ?_, ?_, ?_⟩
  · refine List.forall_mem_append.mpr ⟨fun c hc => ?_, hd⟩
    rw [List.eq_of_mem_replicate hc]
    rfl
  · rw [isMinus_visibleSign, isNegative_trunc, h]
    omega
  · rw [decimal_zeros_append, decimal_digits]
    omega

theorem Parts.field_integer {p : Parts} (h : p.conversion = 'd' ∨ p.conversion = 'i') (v : Value) :
    p.field v = String.ofList (p.directive.integer v.number) := by
  have hc : p.conversion ≠ '%' := by rcases h with h | h <;> simp [h]
  rw [p.field_eq hc, render_integer _ h]

end Directive

-- What `%d` writes for a whole part of sixty-four bits is as wide as the directive says and, but
-- for spaces around it, a sign and the digits of that number, whatever flags, width and precision
-- there are. Only the least number is written as the one after it.
theorem integer_field_spells (p : Directive.Parts) (hp : p.conversion = 'd' ∨ p.conversion = 'i')
    (v : Value) {negative : Bool} {size : Magnitude} (hv : v.number = .finite negative size) {n : ℤ}
    (hn : truncate (Number.value negative size) = n) (hl : -2 ^ 63 ≤ n) (hu : n < 2 ^ 63) :
    p.fieldWidth ≤ (p.field v).length ∧
    SpellsInteger (Text.trimList (· = ' ') (p.field v).toList) (max n (1 - 2 ^ 63)) := by
  rw [Directive.Parts.field_integer hp, hv]
  refine ⟨p.fieldWidth_le true _, ?_⟩
  rw [String.toList_ofList]
  exact Directive.spells_integer hn hl hu

section Least

def decimalField : Directive.Parts := .bare 'd' rfl rfl (by decide)

-- The size of the least whole number of sixty-four bits.
def leastSize : Magnitude where
  units    := 2 ^ 63 * Number.one
  lt_limit := by decide +kernel
  dvd      := by decide +kernel

theorem number_least : (⟨"-9223372036854775808"⟩ : Value).number = .finite true leastSize := by
  decide +kernel

theorem truncate_least : truncate (Number.value true leastSize) = -2 ^ 63 := by
  have hu : leastSize.units = (2 ^ 63 : ℕ) * Number.one := by simp only [leastSize]
  rw [Number.truncate_of_whole true leastSize hu]
  rfl

-- A directive that asks for a sign, and for zeros between it and the digits.
def zeroPaddedField : Directive.Parts where
  flags      := ['+', '0']
  width      := ['2', '4']
  places?    := none
  conversion := 'd'
  isFlag     := by simp [Directive.isFlag]
  isDigit    := by simp
  notFlag    := by simp [Directive.isFlag]
  notDigit   := rfl
  notPoint _ := by decide

theorem integer_field_spells_least :
    ∃ size, (⟨"-9223372036854775808"⟩ : Value).number = .finite true size ∧
      zeroPaddedField.fieldWidth = 24 ∧
      24 ≤ (zeroPaddedField.field ⟨"-9223372036854775808"⟩).length ∧
      SpellsInteger
        (Text.trimList (· = ' ') (zeroPaddedField.field ⟨"-9223372036854775808"⟩).toList)
        (1 - 2 ^ 63) := by
  have hw : zeroPaddedField.fieldWidth = 24 := by decide
  obtain ⟨hl, hs⟩ := integer_field_spells zeroPaddedField (.inl rfl) _ number_least truncate_least
    (le_refl _) (by decide)
  rw [hw] at hl
  exact ⟨_, number_least, hw, hl, hs⟩

-- The least number is not what its field spells.
theorem not_integer_field_spells :
    ¬∀ (p : Directive.Parts), p.conversion = 'd' ∨ p.conversion = 'i' →
      ∀ (v : Value) (negative : Bool) (size : Magnitude), v.number = .finite negative size →
      ∀ n : ℤ, truncate (Number.value negative size) = n → -2 ^ 63 ≤ n → n < 2 ^ 63 →
        p.fieldWidth ≤ (p.field v).length ∧
        SpellsInteger (Text.trimList (· = ' ') (p.field v).toList) n := by
  intro h
  have hs := (h decimalField (.inl rfl) _ true leastSize number_least _ truncate_least (le_refl _)
    (by decide)).2
  have ht := Directive.spells_integer (d := decimalField.directive) truncate_least (le_refl _)
    (by decide)
  rw [Directive.Parts.field_integer (.inl rfl), number_least, String.toList_ofList] at hs
  exact absurd (hs.unique ht) (by decide)

end Least

end PatternAction
