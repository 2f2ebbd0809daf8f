import PatternAction.Proofs.Format.Padding
import PatternAction.Proofs.Number.Significant

namespace PatternAction

open scoped Computability

namespace Grammar

-- `(\.[0-9]*[1-9])?`
def trimmed : Language Char := optional (point * (digit∗ * nonzero))

-- `-?(0|[1-9][0-9]*)(\.[0-9]*[1-9])?`
def fixed : Language Char :=
  optional (char (· = '-')) * ((char (· = '0') + nonzero * digit∗) * trimmed)

-- `-?[1-9](\.[0-9]*[1-9])?e[+-][0-9][0-9]+`, where `e` is the mark
def scientific (mark : Char) : Language Char :=
  optional (char (· = '-')) *
    (nonzero * (trimmed * (char (· = mark) * (sign * (digit * digits)))))

end Grammar

namespace Literal

-- An exponent with its sign and at least two digits.
def Exponent.ofInt (mark : Char) (h : mark = 'e' ∨ mark = 'E') (e : ℤ) : Exponent where
  mark    := mark
  sign    := if e < 0 then .minus else .plus
  digits  := Number.paddedDigits 2 e.natAbs
  isMark  := h
  isDigit := fun _ => isDigit_of_mem_paddedDigits
  ne_nil  := List.ne_nil_of_length_pos (Nat.lt_of_lt_of_le (by decide) (le_length_paddedDigits 2 _))

namespace Exponent

variable {mark : Char} (h : mark = 'e' ∨ mark = 'E') (e : ℤ)

theorem chars_ofInt : (ofInt mark h e).chars = Number.exponentText mark e := by
  unfold chars ofInt Number.exponentText
  split <;> rfl

theorem value_ofInt : (ofInt mark h e).value = e := by
  simp only [value, ofInt, decimal_paddedDigits]
  split
  case isTrue =>
    simp only [Sign.isMinus, if_true]
    omega
  case isFalse =>
    simp only [Sign.isMinus, Bool.false_eq_true, if_false]
    omega

theorem exponentText_mem : Number.exponentText mark e ∈
    Grammar.char (· = mark) * (Grammar.sign * (Grammar.digit * Grammar.digits)) := by
  have hd : ∀ c ∈ Number.paddedDigits 2 e.natAbs, c.isDigit := fun _ =>
    isDigit_of_mem_paddedDigits
  have hl := le_length_paddedDigits 2 e.natAbs
  unfold Number.exponentText
  generalize Number.paddedDigits 2 e.natAbs = ds at hd hl
  cases ds
  case nil => cases hl
  case cons c cs =>
    obtain ⟨hc, hd⟩ := List.forall_mem_cons.mp hd
    have hn : cs ≠ [] := List.ne_nil_of_length_pos (Nat.le_of_succ_le_succ hl)
    have hs : (if e < 0 then '-' else '+') = '+' ∨ (if e < 0 then '-' else '+') = '-' := by
      split <;> simp
    exact Language.append_mem_mul (a := [mark]) ⟨mark, by simp, rfl⟩
      (Language.append_mem_mul (a := [_]) ⟨_, by simpa using hs, rfl⟩
        (Language.append_mem_mul (a := [c]) ⟨c, hc, rfl⟩ (Grammar.mem_digits.mpr ⟨hn, hd⟩)))

end Exponent

variable (minus : Bool) (k n : ℕ) (x : Option Exponent)

theorem fraction_mem : (ofPointed minus k n x).fraction ∈ Grammar.trimmed := by
  rw [Grammar.trimmed, Grammar.mem_optional, Grammar.mem_point_mul]
  simp only [fraction, ofPointed]
  split
  case isTrue => exact .inl rfl
  case isFalse h =>
    obtain ⟨ds, c, he, hd, hc⟩ := fractionOf_mem h
    exact .inr ⟨_, he ▸ Language.append_mem_mul (Grammar.mem_kstar.mpr hd) hc, rfl⟩

theorem ofPointed_mem_fixed : (ofPointed minus k n none).chars ∈ Grammar.fixed := by
  refine Language.append_mem_mul (sign_mem ..) (Language.append_mem_mul (digits_mem _) ?_)
  rw [power, ofPointed, Option.elim_none, List.append_nil]
  exact fraction_mem ..

theorem digits_mem_nonzero {n : ℕ} (h₀ : 0 < n) (h : n < 10) :
    Number.digits 10 n ∈ Grammar.nonzero := by
  have he : Number.digits 10 n = [n.digitChar] := Nat.toDigits_of_lt_base h
  have hd : n.digitChar.isDigit := isDigit_of_mem_digits (n := n) (by rw [he]; exact .head _)
  have hz : n.digitChar ≠ '0' := head?_digits h₀ _ (by rw [he]; rfl)
  exact ⟨_, by simp [hd, hz], he⟩

theorem ofPointed_mem_scientific {mark : Char} (h : mark = 'e' ∨ mark = 'E') (e : ℤ)
    (hl : 10 ^ k ≤ n) (hu : n < 10 ^ (k + 1)) :
    (ofPointed minus k n (some (.ofInt mark h e))).chars ∈ Grammar.scientific mark := by
  have hp : 0 < 10 ^ k := Nat.pow_pos (by decide)
  have h₀ : 0 < n / 10 ^ k := Nat.div_pos hl hp
  have h₁ : n / 10 ^ k < 10 := by
    rw [Nat.div_lt_iff_lt_mul hp]
    rwa [Nat.pow_succ, Nat.mul_comm] at hu
  refine Language.append_mem_mul (sign_mem ..)
    (Language.append_mem_mul (digits_mem_nonzero h₀ h₁) ?_)
  refine Language.append_mem_mul (fraction_mem ..) ?_
  rw [power, ofPointed, Option.elim_some, Exponent.chars_ofInt]
  exact Exponent.exponentText_mem e

theorem leadingPlace_value (l : Literal) : leadingPlace l.value = leadingPlace l.size := by
  rw [value]
  split
  case isTrue => exact leadingPlace_neg l.size
  case isFalse => rfl

theorem head?_chars (l : Literal) : l.chars.head? = some '-' ↔ l.sign.isMinus := by
  have hs : ∀ c ∈ (l.whole ++ (l.fraction ++ l.power)).head?, c ≠ '-' ∧ c ≠ '+' :=
    notSign_of_head?
  unfold chars
  cases l.sign
  case none =>
    refine iff_of_false (fun h => ?_) (by simp [Sign.isMinus])
    exact (hs '-' h).1 rfl
  case plus => exact iff_of_false (by simp [Sign.chars]) (by simp [Sign.isMinus])
  case minus => exact iff_of_true rfl rfl

end Literal

namespace Number

section General

variable {places m : ℕ} {e : ℤ} {size : Magnitude} (mark : Char)
  (he : significant places size.units = (m, e)) (hs : Significant places (size.units / one) m e)
include hs

theorem scaled_eq {k : ℕ} (hk : k = places - e) : scaled k size.units = m := by
  have h := hs.kept
  rw [← hk, zpow_natCast] at h
  exact_mod_cast (roundsEven_scaled k size.units).unique h

include he

theorem general_fixed (h : -4 ≤ e ∧ e < (places + 1 : ℕ)) :
    Directive.general (places + 1) false mark (finite false size) =
      trimFraction (pointed (places - e).toNat m) := by
  have hk : (((places + 1 : ℕ) : ℤ) - 1 - e).toNat = (places - e).toNat := by omega
  have hk' : ((places - e).toNat : ℤ) = places - e := by omega
  rw [Directive.general, Nat.add_sub_cancel, he]
  dsimp only
  rw [if_neg (by omega), hk, Directive.fixed, fixed, scaled_eq hs hk']
  rfl

omit hs in
theorem general_scientific (h : ¬(-4 ≤ e ∧ e < (places + 1 : ℕ))) :
    Directive.general (places + 1) false mark (finite false size) =
      trimFraction (pointed places m) ++ exponentText mark e := by
  rw [Directive.general, Nat.add_sub_cancel, he]
  dsimp only
  rw [if_pos (by omega)]
  rfl

end General

theorem general_spec (places : ℕ) (size : Magnitude) (minus : Bool) {mark : Char}
    (hm : mark = 'e' ∨ mark = 'E') : ∃ (r : ℚ) (l : Literal),
    RoundsTo (places + 1) (size.units / one) r ∧
    l.chars = (if minus then ['-'] else []) ++
      Directive.general (places + 1) false mark (finite false size) ∧
    l.sign.isMinus = minus ∧ l.size = r ∧
    if -4 ≤ leadingPlace r ∧ leadingPlace r < (places + 1 : ℕ) then l.chars ∈ Grammar.fixed
    else l.chars ∈ Grammar.scientific mark ∧ l.exponent = leadingPlace r := by
  obtain ⟨m, e, he, hs⟩ := significant_spec places size.units
  have hminus (k : ℕ) (x : Option Literal.Exponent) :
      (Literal.ofPointed minus k m x).sign.isMinus = minus := by
    cases minus <;> rfl
  by_cases h : -4 ≤ e ∧ e < (places + 1 : ℕ)
  case pos =>
    refine ⟨_, .ofPointed minus (places - e).toNat m none, hs.rounded, ?_, hminus _ _, ?_, ?_⟩
    · rw [general_fixed mark he hs h, Literal.chars_ofPointed, Option.elim_none, List.append_nil]
    · have hk : ((places - e).toNat : ℤ) = places - e := by omega
      rw [Literal.size_ofPointed, Option.elim_none, zpow_zero, mul_one, ← zpow_natCast, hk]
    · rw [hs.place, if_pos h]
      exact Literal.ofPointed_mem_fixed ..
  case neg =>
    have hz : m ≠ 0 := by
      rintro rfl
      have := hs.place
      rw [Nat.cast_zero, zero_div, leadingPlace_zero] at this
      omega
    refine ⟨_, .ofPointed minus places m (some (.ofInt mark hm e)), hs.rounded, ?_, hminus _ _,
      ?_, ?_⟩
    · rw [general_scientific mark he h, Literal.chars_ofPointed, Option.elim_some,
        Literal.Exponent.chars_ofInt]
    · rw [Literal.size_ofPointed, Option.elim_some, Literal.Exponent.value_ofInt,
        zpow_sub₀ (by norm_num), zpow_natCast, div_div_eq_mul_div, div_mul_eq_mul_div]
    · rw [hs.place, if_neg h]
      exact ⟨Literal.ofPointed_mem_scientific minus places m hm e (hs.le hz) hs.lt,
        Literal.Exponent.value_ofInt hm e⟩

end Number

namespace Directive.Parts

variable {p : Parts}

-- How many digits a directive asks for: six if it says nothing, and at least one.
def significantDigits (p : Parts) : ℕ := p.places?.elim 6 fun ps => max 1 (decimal ps)

theorem exists_places (hq : ∀ ps ∈ p.places?, decimal ps < 2 ^ 15) : ∃ places,
    p.significantDigits = places + 1 ∧ max 1 (p.directive.precision.getD 6) = places + 1 := by
  unfold significantDigits directive
  cases h : p.places?
  case none => exact ⟨5, rfl, rfl⟩
  case some ps =>
    have hc : count ps = decimal ps := if_pos ((hq ps h).trans (by decide))
    refine ⟨max 1 (decimal ps) - 1, ?_, ?_⟩
    · rw [Option.elim_some]
      omega
    · rw [Option.map_some, Option.getD_some, hc]
      omega

variable (hf : p.flags = []) (hw : p.width = [])
include hf hw

theorem pad_of_plain (numeric : Bool) (cs : List Char) : p.directive.pad numeric cs = cs := by
  simp [directive, pad, hf, hw, count, Numeral.natOfDigits]

theorem field_general {mark : Char}
    (hp : p.conversion = 'g' ∧ mark = 'e' ∨ p.conversion = 'G' ∧ mark = 'E') (v : Value) :
    (p.field v).toList = (if v.number.isNegative then ['-'] else []) ++
      general (max 1 (p.directive.precision.getD 6)) false mark v.number.abs := by
  have hs : p.directive.sign v.number = if v.number.isNegative then ['-'] else [] := by
    simp [directive, sign, hf]
  have ha : p.directive.alternate = false := by simp [directive, hf]
  have hc : p.conversion ≠ '%' := by rcases hp with ⟨hp, _⟩ | ⟨hp, _⟩ <;> simp [hp]
  rw [p.field_eq hc, String.toList_ofList, ← hs, ← ha]
  rcases hp with ⟨hp, rfl⟩ | ⟨hp, rfl⟩
  all_goals
    rw [hp]
    exact pad_of_plain hf hw true _

end Directive.Parts

-- What `%g` writes for a number, without flags and a width, is a literal of what the number is
-- rounded to with the digits that the directive asks for. There is an exponent in it just if that
-- begins below the fourth place after the point or has more places before it than digits.
theorem general_field_rounds (p : Directive.Parts) {mark : Char}
    (hp : p.conversion = 'g' ∧ mark = 'e' ∨ p.conversion = 'G' ∧ mark = 'E')
    (hf : p.flags = []) (hw : p.width = []) (hq : ∀ ps ∈ p.places?, decimal ps < 2 ^ 15)
    (v : Value) {negative : Bool} {size : Magnitude} (hv : v.number = .finite negative size) :
    ∃ (r : ℚ) (l : Literal), RoundsTo p.significantDigits (Number.value negative size) r ∧
      l.chars = (p.field v).toList ∧ l.value = r ∧
      (l.chars.head? = some '-' ↔ Number.value negative size < 0) ∧
      if -4 ≤ leadingPlace r ∧ leadingPlace r < p.significantDigits then l.chars ∈ Grammar.fixed
      else l.chars ∈ Grammar.scientific mark ∧ l.exponent = leadingPlace r := by
  have hm : mark = 'e' ∨ mark = 'E' := hp.imp And.right And.right
  obtain ⟨places, hd, hc⟩ := Directive.Parts.exists_places hq
  obtain ⟨r, l, hr, hl, hs, hz, hn⟩ :=
    Number.general_spec places size (Number.finite negative size).isNegative hm
  have ht : l.chars = (p.field v).toList := by
    rw [hl, Directive.Parts.field_general hf hw hp, hc, hv]
    rfl
  have hi : l.chars.head? = some '-' ↔ Number.value negative size < 0 := by
    rw [l.head?_chars, hs, Number.isNegative_iff]
  have hx : RoundsTo (places + 1) (Number.value negative size) l.value := by
    rw [Number.value_eq, Literal.value, hs, hz]
    split
    case isTrue => exact hr.neg
    case isFalse => exact hr
  refine ⟨l.value, l, hd ▸ hx, ht, rfl, hi, ?_⟩
  rw [l.leadingPlace_value, hz, hd]
  exact hn

section Carry

def generalField : Directive.Parts := .bare 'g' rfl rfl (by decide)

theorem roundsTo_carry : RoundsTo 6 9999999 (10 ^ 7) := by
  have hp : leadingPlace 9999999 = 6 := leadingPlace_eq (by norm_num) (by norm_num)
  refine ⟨10 ^ 6, ?_, ?_⟩
  · rw [hp]
    refine ⟨?_, fun h => absurd h ?_⟩ <;> norm_num [abs_of_neg]
  · rw [hp]
    norm_num

-- Where rounding carries over, it is the exponent of what comes out that counts.
theorem general_field_rounds_carry : ∃ l : Literal,
    l.chars = (generalField.field ⟨"9999999"⟩).toList ∧ l.value = 10 ^ 7 ∧
      l.chars ∈ Grammar.scientific 'e' ∧ l.exponent = 7 := by
  obtain ⟨size, hn, hu⟩ := Number.exists_ofNat (n := 9999999) (by decide)
  have hv : (⟨"9999999"⟩ : Value).number = .finite false size :=
    (Value.number_toString 9999999).trans hn
  have hx : Number.value false size = 9999999 :=
    (Number.value_of_whole false hu).trans (by norm_num)
  have hp : leadingPlace (10 ^ 7) = 7 := leadingPlace_eq (by norm_num) (by norm_num)
  obtain ⟨r, l, hr, hl, hlr, _, hs⟩ := general_field_rounds generalField (.inl ⟨rfl, rfl⟩) rfl rfl
    (by simp [generalField, Directive.Parts.bare]) _ hv
  rw [hx] at hr
  obtain rfl : r = 10 ^ 7 := hr.unique roundsTo_carry
  rw [hp, if_neg (by decide)] at hs
  exact ⟨l, hl, hlr, hs⟩

end Carry

end PatternAction
