import PatternAction.Proofs.Number.Canonical
import PatternAction.Proofs.Number.Grammar

namespace PatternAction

open scoped Computability

namespace Grammar

def nonzero : Language Char := char fun c => c.isDigit && c ≠ '0'

-- `-?(0|[1-9][0-9]*)(\.[0-9]{0,4}[1-9])?`
def canonical : Language Char :=
  optional (char (· = '-')) *
    ((char (· = '0') + nonzero * digit∗) * optional (point * (optional digit ^ 4 * nonzero)))

variable {w : List Char}

theorem mem_optional_pow {n : ℕ} (hl : w.length ≤ n) (hd : ∀ c ∈ w, c.isDigit) :
    w ∈ optional digit ^ n := by
  induction n generalizing w
  case zero =>
    rw [pow_zero, Language.mem_one]
    exact List.length_eq_zero_iff.mp (Nat.le_zero.mp hl)
  case succ n ih =>
    rw [pow_succ', Language.mem_mul]
    cases w
    case nil => exact ⟨[], mem_optional.mpr (.inl rfl), [], ih (Nat.zero_le _) hd, rfl⟩
    case cons c cs =>
      obtain ⟨hc, hd⟩ := List.forall_mem_cons.mp hd
      exact ⟨[c], mem_optional.mpr (.inr ⟨c, hc, rfl⟩), cs, ih (Nat.le_of_succ_le_succ hl) hd, rfl⟩

end Grammar

section Places

variable {n : ℕ}

theorem head?_digits (h : 0 < n) : ∀ c ∈ (Number.digits 10 n).head?, c ≠ '0' := by
  induction n using Nat.strong_induction_on
  case h n ih =>
    intro c hc
    rw [Number.digits] at hc
    rcases Nat.lt_or_ge n 10 with hlt | hge
    · rw [Nat.toDigits_of_lt_base hlt, List.head?_cons, Option.mem_some_iff] at hc
      rw [← hc, Ne, Nat.digitChar_eq_zero]
      omega
    · rw [Nat.toDigits_of_base_le (by decide) hge,
        List.head?_append_of_ne_nil _ Nat.toDigits_ne_nil] at hc
      exact ih (n / 10) (Nat.div_lt_self h (by decide)) (by omega) c hc

theorem digits_mem (n : ℕ) : Number.digits 10 n ∈
    Grammar.char (· = '0') + Grammar.nonzero * Grammar.digit∗ := by
  rw [Language.mem_add]
  rcases Nat.eq_zero_or_pos n with rfl | h
  · exact .inl ⟨'0', rfl, rfl⟩
  · right
    obtain ⟨c, cs, hc⟩ := List.exists_cons_of_ne_nil (digits_ne_nil (n := n))
    have hz : c ≠ '0' := head?_digits h c (by rw [hc]; rfl)
    have hd : ∀ c ∈ Number.digits 10 n, c.isDigit := fun _ => isDigit_of_mem_digits
    rw [hc] at hd ⊢
    obtain ⟨hd, hds⟩ := List.forall_mem_cons.mp hd
    refine Language.mem_mul.mpr ⟨[c], ⟨c, ?_, rfl⟩, cs, Grammar.mem_kstar.mpr hds, rfl⟩
    simp [hd, hz]

theorem fractionOf_mem {k : ℕ} (h : fractionOf k n ≠ []) : ∃ ds c, ds ++ [c] = fractionOf k n ∧
    (∀ d ∈ ds, d.isDigit) ∧ [c] ∈ Grammar.nonzero := by
  have hd : ∀ c ∈ fractionOf k n, c.isDigit := fun _ => isDigit_of_mem_fractionOf
  have hz : (fractionOf k n).getLast h ≠ '0' := by
    have := List.rdropWhile_last_not _ _ h
    rwa [decide_eq_true_eq] at this
  refine ⟨_, _, List.dropLast_append_getLast h, fun c hc => hd c (List.mem_of_mem_dropLast hc), _,
    ?_, rfl⟩
  simp [hd _ (List.getLast_mem h), hz]

theorem places_mem (h : fractionOf 5 n ≠ []) :
    fractionOf 5 n ∈ Grammar.optional Grammar.digit ^ 4 * Grammar.nonzero := by
  have hl : (fractionOf 5 n).length ≤ 5 := (decimal_fractionOf 5 n).1
  obtain ⟨ds, c, he, hd, hc⟩ := fractionOf_mem h
  rw [← he, List.length_append, List.length_singleton] at hl
  rw [← he]
  exact Language.append_mem_mul (Grammar.mem_optional_pow (by omega) hd) hc

end Places

namespace Literal

variable (minus : Bool) (n : ℕ)

theorem sign_mem (k : ℕ) (x : Option Exponent) : (ofPointed minus k n x).sign.chars ∈
    Grammar.optional (Grammar.char (· = '-')) := by
  rw [Grammar.mem_optional]
  cases minus
  case false => exact .inl rfl
  case true => exact .inr ⟨'-', rfl, rfl⟩

theorem chars_ofPlaces_mem : (ofPlaces minus n).chars ∈ Grammar.canonical := by
  refine Language.append_mem_mul (sign_mem minus n 5 none)
    (Language.append_mem_mul (digits_mem _) ?_)
  rw [Grammar.mem_optional, Grammar.mem_point_mul]
  simp only [fraction, power, ofPlaces, ofPointed, Option.elim_none, List.append_nil]
  split
  case isTrue => exact .inl rfl
  case isFalse h => exact .inr ⟨_, places_mem h, rfl⟩

theorem size_ofPointed (k : ℕ) (x : Option Exponent) :
    (ofPointed minus k n x).size = n / 10 ^ k * 10 ^ (x.elim 0 Exponent.value) := by
  obtain ⟨hl, hv⟩ := decimal_fractionOf k n
  rw [size_eq, numeral_ofPointed]
  dsimp only
  generalize (fractionOf k n).length = j at hl hv ⊢
  generalize decimal (Number.digits 10 (n / 10 ^ k) ++ fractionOf k n) = d at hv ⊢
  have hk : (10 : ℚ) ^ k = 10 ^ j * 10 ^ (k - j) := by rw [← pow_add, Nat.add_sub_cancel' hl]
  rw [← hv, zpow_sub₀ (by norm_num), zpow_natCast, hk]
  push_cast
  field_simp

theorem size_ofPlaces : (ofPlaces minus n).size = n / 10 ^ 5 := by
  rw [ofPlaces, size_ofPointed, Option.elim_none, zpow_zero, mul_one]

theorem isMinus_ofPlaces : (ofPlaces minus n).sign.isMinus = minus := by
  cases minus <;> rfl

def value (l : Literal) : ℚ := if l.sign.isMinus then -l.size else l.size

theorem ofPlaces_inj {a b : Bool} {m n : ℕ} (h : (ofPlaces a m).chars = (ofPlaces b n).chars) :
    a = b ∧ m = n := by
  have h := congrArg Numeral.ofChars? h
  rw [Numeral.ofChars?_chars, Numeral.ofChars?_chars] at h
  have hn : (ofPlaces a m).numeral = (ofPlaces b n).numeral := Option.some.inj h
  constructor
  case left =>
    have hs := congrArg Numeral.negative hn
    rwa [numeral_ofPlaces, numeral_ofPlaces] at hs
  case right =>
    have hs : (m : ℚ) / 10 ^ 5 = n / 10 ^ 5 := by
      rw [← size_ofPlaces a, ← size_ofPlaces b, size_eq, size_eq, hn]
    have h10 : (10 : ℚ) ^ 5 ≠ 0 := by norm_num
    exact_mod_cast (div_left_inj' h10).mp hs

theorem chars_ne_nil {l : Literal} : l.chars ≠ [] := fun h => by
  obtain ⟨c, hc⟩ := List.exists_mem_of_ne_nil _ l.ne_nil
  cases h ▸ mem_chars hc

theorem chars_ofPlaces_zero (minus : Bool) :
    (ofPlaces minus 0).chars = (if minus then ['-'] else []) ++ ['0'] := by
  cases minus <;> rfl

end Literal

namespace Number

variable {a b : Bool} {x y : Magnitude}

def value (negative : Bool) (size : Magnitude) : ℚ := signed negative size / one

theorem value_false (size : Magnitude) : value false size = size.units / one := by
  rw [value, signed, if_neg Bool.false_ne_true, Int.cast_natCast]

theorem value_true (size : Magnitude) : value true size = -(size.units / one : ℚ) := by
  rw [value, signed, if_pos rfl, Int.cast_neg, Int.cast_natCast, neg_div]

theorem value_of_whole (negative : Bool) {size : Magnitude} {n : ℕ} (h : size.units = n * one) :
    value negative size = (if negative then -(n : ℤ) else n : ℤ) := by
  have ho : (one : ℚ) ≠ 0 := Nat.cast_ne_zero.mpr one_pos.ne'
  have hn : (size.units : ℚ) / one = n := by
    rw [h, Nat.cast_mul, mul_div_cancel_right₀ _ ho]
  cases negative
  case false => rw [value_false, hn, if_neg Bool.false_ne_true, Int.cast_natCast]
  case true => rw [value_true, hn, if_pos rfl, Int.cast_neg, Int.cast_natCast]

section Signs

variable (negative : Bool) (size : Magnitude)

theorem value_eq : value negative size =
    if (finite negative size).isNegative then -(size.units / one : ℚ) else size.units / one := by
  cases negative
  case false => rw [value_false, isNegative, signBit, Bool.false_and, if_neg Bool.false_ne_true]
  case true =>
    rw [value_true, isNegative, signBit, isZero, Bool.true_and]
    by_cases hz : size.units = 0
    case pos => rw [hz, Nat.cast_zero, zero_div, neg_zero, ite_self]
    case neg => rw [beq_false_of_ne hz, Bool.not_false, if_pos rfl]

theorem isNegative_iff : (finite negative size).isNegative ↔ value negative size < 0 := by
  have hx : (0 : ℚ) ≤ size.units / one := div_nonneg (Nat.cast_nonneg _) (Nat.cast_nonneg _)
  rw [value_eq]
  cases h : (finite negative size).isNegative
  case false =>
    rw [if_neg Bool.false_ne_true]
    exact iff_of_false Bool.false_ne_true (not_lt_of_ge hx)
  case true =>
    have hz : size.units ≠ 0 := by
      rintro hz
      rw [isNegative, isZero, hz, beq_self_eq_true, Bool.not_true, Bool.and_false] at h
      cases h
    have hp : (0 : ℚ) < size.units / one :=
      div_pos (Nat.cast_pos.mpr (Nat.pos_of_ne_zero hz)) (Nat.cast_pos.mpr one_pos)
    rw [if_pos rfl]
    exact iff_of_true rfl (neg_lt_zero.mpr hp)

end Signs

def hundredThousandths (negative : Bool) (size : Magnitude) : ℤ :=
  if negative then -(scaled 5 size.units) else scaled 5 size.units

theorem roundsEven_scaled (places units : ℕ) :
    RoundsEven (units / one * 10 ^ places) (scaled places units : ℕ) := by
  have hx : ((units * 10 ^ places : ℕ) : ℚ) / one = units / one * 10 ^ places := by
    rw [Nat.cast_mul, Nat.cast_pow, Nat.cast_ofNat, mul_div_right_comm]
  exact hx ▸ roundsEven_roundQuotient one_pos

theorem roundsEven_hundredThousandths (negative : Bool) (size : Magnitude) :
    RoundsEven (value negative size * 10 ^ 5) (hundredThousandths negative size) := by
  have h := roundsEven_scaled 5 size.units
  unfold hundredThousandths
  cases negative
  case false =>
    rw [value_false, if_neg Bool.false_ne_true]
    exact h
  case true =>
    rw [value_true, if_pos rfl, neg_mul]
    exact h.neg

theorem value_ofPlaces (negative : Bool) (size : Magnitude) :
    (Literal.ofPlaces (negative && scaled 5 size.units ≠ 0) (scaled 5 size.units)).value =
      hundredThousandths negative size / 10 ^ 5 := by
  rw [Literal.value, Literal.size_ofPlaces, Literal.isMinus_ofPlaces, hundredThousandths]
  generalize scaled 5 size.units = n
  cases negative
  case false => simp
  case true => by_cases h : n = 0 <;> simp [h, neg_div]

theorem canonical_eq_iff : (finite a x).canonical = (finite b y).canonical ↔
    hundredThousandths a x = hundredThousandths b y := by
  constructor
  case mp =>
    intro h
    have h := congrArg String.toList h
    rw [toList_canonical, toList_canonical] at h
    obtain ⟨hm, hn⟩ := Literal.ofPlaces_inj h
    rw [hn] at hm
    rw [hundredThousandths, hundredThousandths, hn]
    by_cases h0 : scaled 5 y.units = 0
    case pos => simp [h0]
    case neg =>
      simp only [ne_eq, h0, not_false_eq_true, decide_true, Bool.and_true] at hm
      rw [hm]
  case mpr =>
    intro h
    have hs : scaled 5 x.units = scaled 5 y.units ∧ (a = b ∨ scaled 5 x.units = 0) := by
      unfold hundredThousandths at h
      generalize scaled 5 x.units = m at h ⊢
      generalize scaled 5 y.units = n at h ⊢
      cases a <;> cases b <;> simp at h ⊢ <;> omega
    obtain ⟨hu, rfl | h0⟩ := hs
    · rw [canonical, canonical, hu]
    · rw [canonical, canonical, ← hu, h0]
      simp

theorem canonical_ne_minus_zero (negative : Bool) (size : Magnitude) :
    (finite negative size).canonical ≠ "-0" := by
  intro h
  have h := congrArg String.toList h
  rw [toList_canonical] at h
  obtain ⟨hm, hn⟩ := Literal.ofPlaces_inj (h.trans (Literal.chars_ofPlaces_zero true).symm)
  simp [hn] at hm

theorem canonical_ne_zero (negative : Bool) {size : Magnitude} (h : one ≤ size.units) :
    (finite negative size).canonical ≠ "0" := by
  intro hc
  have hc := congrArg String.toList hc
  rw [toList_canonical] at hc
  obtain ⟨_, hn⟩ := Literal.ofPlaces_inj (hc.trans (Literal.chars_ofPlaces_zero false).symm)
  have hq : size.units * 10 ^ 5 / one ≤ scaled 5 size.units := by
    unfold scaled roundQuotient
    dsimp only
    split
    case isTrue => exact Nat.le_refl _
    case isFalse => exact Nat.le_succ _
  have hp : 0 < size.units * 10 ^ 5 / one :=
    Nat.div_pos (Nat.le_trans h (Nat.le_mul_of_pos_right _ (by decide))) one_pos
  omega

theorem one_le_roundUnits {n : ℕ} (h : 0 < n) : one ≤ roundUnits (n * one) 1 := by
  have hk : KeepsSpacing one := by
    unfold one
    exact keepsSpacing_pow 1074
  refine (nearest_roundUnits Nat.one_pos).le_of_le hk ?_
  rw [Nat.cast_one, div_one]
  exact_mod_cast Nat.le_mul_of_pos_left one h

theorem canonical_ofNat_eq_zero_iff {n : ℕ} : (ofNat n).canonical = "0" ↔ n = 0 := by
  constructor
  case mpr =>
    rintro rfl
    exact canonical_ofNat (Nat.zero_le _)
  case mp =>
    intro h
    rw [ofNat, ofUnits, ofRatio] at h
    split at h
    case isFalse => cases congrArg String.toList h
    case isTrue =>
      by_contra hn
      exact canonical_ne_zero false (one_le_roundUnits (Nat.pos_of_ne_zero hn)) h

-- Writing a number from its whole part, as a machine word,
def byWhole (negative : Bool) (size : Magnitude) : String :=
  toString ((finite negative size).toIntWithin (-2 ^ 63) (2 ^ 63 - 1))

-- and writing it with its sign and five places, of which the zeros at the end are dropped. A sign
-- that is then left before a zero goes, too.
def byPlaces (negative : Bool) (size : Magnitude) : String :=
  let text := trimFraction ((if negative then ['-'] else []) ++ fixed 5 size.units)
  if text = [] ∨ text = ['-', '0'] then "0" else String.ofList text

theorem toString_signed (negative : Bool) (w : ℕ) :
    toString (if negative then -(w : ℤ) else w) =
      String.ofList ((if negative && w ≠ 0 then ['-'] else []) ++ digits 10 w) := by
  rw [Int.toString_eq_repr, Int.repr_eq_if]
  cases negative
  case false => simp [Nat.repr_eq_ofList_toDigits, digits]
  case true =>
    rcases Nat.eq_zero_or_pos w with rfl | hw
    · rfl
    · have hn : ¬(0 : ℤ) ≤ -w := by omega
      rw [if_pos rfl, if_neg hn, neg_neg, Int.toNat_natCast, Nat.repr_eq_ofList_toDigits]
      simp [Nat.ne_of_gt hw, digits]

theorem byWhole_eq (negative : Bool) {size : Magnitude} (hw : one ∣ size.units)
    (hl : size.units < 10 ^ 15 * one) :
    byWhole negative size = (finite negative size).canonical := by
  obtain ⟨w, hw⟩ := hw
  rw [Nat.mul_comm] at hw
  have hq : (size.units : ℤ) / one = w := by
    rw [← Int.natCast_ediv, hw, Nat.mul_div_cancel _ one_pos]
  have hl : w < 10 ^ 15 := Nat.lt_of_mul_lt_mul_right (hw ▸ hl)
  have hb : max (-2 ^ 63) (min (2 ^ 63 - 1) (if negative then -(w : ℤ) else w)) =
      if negative then -(w : ℤ) else w := by
    split <;> omega
  rw [canonical_of_whole negative hw, byWhole, toIntWithin, hq, hb, toString_signed]

theorem trimFraction_fixed (negative : Bool) (units : ℕ) :
    trimFraction ((if negative then ['-'] else []) ++ fixed 5 units) =
      (Literal.ofPlaces negative (scaled 5 units)).chars := by
  have hw : '.' ∉ (if negative then ['-'] else []) ++ digits 10 (scaled 5 units / 10 ^ 5) := by
    rw [List.mem_append, not_or]
    exact ⟨by cases negative <;> decide, point_notMem fun _ => isDigit_of_mem_digits⟩
  have hp : '.' ∉ paddedDigits 5 (scaled 5 units % 10 ^ 5) :=
    point_notMem fun _ => isDigit_of_mem_paddedDigits
  have ht := trimFraction_point hw hp
  rw [List.append_assoc] at ht
  rw [Literal.chars_ofPlaces, trimFraction_places]
  refine ht.trans ?_
  change withPlaces _ (fractionOf 5 _) = _
  rw [withPlaces, withPlaces]
  split
  case isTrue => rfl
  case isFalse => rw [List.append_assoc]

theorem byPlaces_eq (negative : Bool) (size : Magnitude) :
    byPlaces negative size = (finite negative size).canonical := by
  have hc := congrArg String.ofList (toList_canonical negative size)
  rw [String.ofList_toList] at hc
  rw [byPlaces, trimFraction_fixed, hc]
  generalize scaled 5 size.units = n
  split
  case isTrue h =>
    rcases h with h | h
    · exact absurd h Literal.chars_ne_nil
    · obtain ⟨rfl, rfl⟩ := Literal.ofPlaces_inj (h.trans (Literal.chars_ofPlaces_zero true).symm)
      exact congrArg String.ofList (Literal.chars_ofPlaces_zero false).symm
  case isFalse h =>
    have hn : (negative && n ≠ 0) = negative := by
      cases negative
      case false => rfl
      case true =>
        have h0 : n ≠ 0 := fun h0 => h (.inr (h0 ▸ Literal.chars_ofPlaces_zero true))
        rw [Bool.true_and, decide_eq_true h0]
    rw [hn]

end Number

-- A finite number is written as a decimal literal without superfluous zeros, and zero without a
-- sign. The value of the literal is that of the number, rounded to five places with a tie to the
-- even. So numbers have the same text just if they are rounded to the same. A whole number below
-- ten to the fifteenth is written by its whole part as it is with its places.
theorem canonical_decimal :
    (∀ (negative : Bool) (size : Magnitude),
      (Number.finite negative size).canonical.toList ∈ Grammar.canonical ∧
      (Number.finite negative size).canonical ≠ "-0" ∧
      ∃ (l : Literal) (n : ℤ), l.chars = (Number.finite negative size).canonical.toList ∧
        l.value = n / 10 ^ 5 ∧ RoundsEven (Number.value negative size * 10 ^ 5) n) ∧
    (∀ (a b : Bool) (x y : Magnitude),
      (Number.finite a x).canonical = (Number.finite b y).canonical ↔
        ∃ n, RoundsEven (Number.value a x * 10 ^ 5) n ∧
          RoundsEven (Number.value b y * 10 ^ 5) n) ∧
    ∀ (negative : Bool) (size : Magnitude),
      Number.byPlaces negative size = (Number.finite negative size).canonical ∧
      (Number.one ∣ size.units → size.units < 10 ^ 15 * Number.one →
        Number.byWhole negative size = (Number.finite negative size).canonical) := by
  refine ⟨fun negative size => ⟨?_, Number.canonical_ne_minus_zero negative size, ?_⟩,
    fun a b x y => ?_, fun negative size => ⟨Number.byPlaces_eq negative size, fun hw hl => ?_⟩⟩
  · rw [Number.toList_canonical]
    exact Literal.chars_ofPlaces_mem _ _
  · exact ⟨_, Number.hundredThousandths negative size,
      (Number.toList_canonical negative size).symm, Number.value_ofPlaces negative size,
      Number.roundsEven_hundredThousandths negative size⟩
  · have ha := Number.roundsEven_hundredThousandths a x
    have hb := Number.roundsEven_hundredThousandths b y
    rw [Number.canonical_eq_iff]
    constructor
    case mp => exact fun h => ⟨_, ha, h ▸ hb⟩
    case mpr =>
      rintro ⟨n, hx, hy⟩
      exact (ha.unique hx).trans (hy.unique hb)
  · exact Number.byWhole_eq negative hw hl

-- Minus one is written by its whole part.
theorem canonical_decimal_minus_one :
    ∃ x : Magnitude, Number.one ∣ x.units ∧ x.units < 10 ^ 15 * Number.one ∧
      Number.byWhole true x = (Number.finite true x).canonical := by
  obtain ⟨x, _, hx⟩ := Number.exists_ofNat (n := 1) (by decide)
  have hd : Number.one ∣ x.units := hx ▸ Nat.dvd_mul_left _ _
  have hl : x.units < 10 ^ 15 * Number.one := by
    rw [hx]
    exact Nat.mul_lt_mul_of_pos_right (by decide) Number.one_pos
  refine Exists.intro x (And.intro hd (And.intro hl ?_))
  exact (canonical_decimal.2.2 true x).2 hd hl

end PatternAction
