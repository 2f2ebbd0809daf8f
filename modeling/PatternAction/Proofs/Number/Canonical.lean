import Mathlib.Data.List.DropRight
import PatternAction.Proofs.Number.Literal

namespace PatternAction

theorem trimList_of_forall {p : Char → Bool} {cs : List Char} (h : ∀ c ∈ cs, p c = false) :
    Text.trimList p cs = cs := by
  have hr : ∀ c ∈ cs.reverse, p c = false := fun c hc => h c (List.mem_reverse.mp hc)
  rw [Text.trimList, dropWhile_of_forall h, dropWhile_of_forall hr, List.reverse_reverse]

section Digits

variable {whole ps : List Char} {n : Nat}

theorem decimal_zeros (j : Nat) : decimal (List.replicate j '0') = 0 := by
  induction j
  case zero => rfl
  case succ j ih =>
    rw [List.replicate_succ', decimal_append, ih]
    rfl

theorem decimal_digits (n : Nat) : decimal (Number.digits 10 n) = n := natOfDigits_digits n

theorem decimal_paddedDigits (width n : Nat) : decimal (Number.paddedDigits width n) = n := by
  rw [Number.paddedDigits, decimal_append, decimal_zeros, decimal_digits, Nat.zero_mul,
    Nat.zero_add]

theorem length_paddedDigits {width : Nat} (hw : 0 < width) (h : n < 10 ^ width) :
    (Number.paddedDigits width n).length = width := by
  have hl : (Number.digits 10 n).length ≤ width :=
    (Nat.length_toDigits_le_iff (by decide) hw).mpr h
  rw [Number.paddedDigits, List.length_append, List.length_replicate]
  omega

theorem le_length_paddedDigits (width n : Nat) :
    width ≤ (Number.paddedDigits width n).length := by
  rw [Number.paddedDigits, List.length_append, List.length_replicate]
  omega

theorem isDigit_of_mem_paddedDigits {width : Nat} {c : Char}
    (h : c ∈ Number.paddedDigits width n) : c.isDigit := by
  rcases List.mem_append.mp h with h | h
  · rw [List.eq_of_mem_replicate h]
    rfl
  · exact isDigit_of_mem_digits h

theorem point_notMem {cs : List Char} (h : ∀ c ∈ cs, c.isDigit) : '.' ∉ cs := fun hc => by
  cases h '.' hc

theorem dropWhile_point {cs : List Char} (h : '.' ∉ cs) : cs.dropWhile (· = '.') = cs := by
  refine dropWhile_of_forall fun c hc => ?_
  rw [decide_eq_false_iff_not]
  rintro rfl
  exact h hc

-- Digits with a point among them, which is left out if there are none after it.
def withPlaces (whole places : List Char) : List Char :=
  if places = [] then whole else whole ++ '.' :: places

theorem trimFraction_point (hw : '.' ∉ whole) (hp : '.' ∉ ps) :
    Number.trimFraction (whole ++ '.' :: ps) = withPlaces whole (ps.rdropWhile (· = '0')) := by
  have hr : (whole ++ '.' :: ps).reverse = ps.reverse ++ '.' :: whole.reverse := by simp
  rw [Number.trimFraction, if_pos (by simp), hr, List.dropWhile_append, List.rdropWhile]
  have hs : '.' ∉ ps.reverse.dropWhile (· = '0') := fun hc =>
    hp (List.mem_reverse.mp ((List.dropWhile_suffix _).subset hc))
  cases hd : ps.reverse.dropWhile (· = '0')
  case nil =>
    change ((whole.reverse).dropWhile (· = '.')).reverse = whole
    rw [dropWhile_point (fun hc => hw (List.mem_reverse.mp hc)), List.reverse_reverse]
  case cons c cs =>
    have hc : ¬c = '.' := by
      rintro rfl
      exact hs (hd ▸ .head _)
    rw [List.isEmpty_cons, if_neg Bool.false_ne_true, List.cons_append,
      List.dropWhile_cons_of_neg (by simpa using hc), withPlaces, if_neg (by simp)]
    simp

theorem exists_zeros (ps : List Char) :
    ∃ j, ps.rdropWhile (· = '0') ++ List.replicate j '0' = ps := by
  have hz : ps.rtakeWhile (· = '0') = List.replicate (ps.rtakeWhile (· = '0')).length '0' :=
    List.eq_replicate_of_mem fun c hc => by simpa using List.mem_rtakeWhile_imp hc
  refine ⟨(ps.rtakeWhile (· = '0')).length, ?_⟩
  rw [← hz, List.rdropWhile_append_rtakeWhile]

end Digits

-- The digits after the point of a whole number of units of 10 to the minus `k`, without the zeros
-- that end them.
def fractionOf (k n : Nat) : List Char := (Number.paddedDigits k (n % 10 ^ k)).rdropWhile (· = '0')

section Fractions

variable {k n : Nat} {c : Char}

theorem isDigit_of_mem_fractionOf (h : c ∈ fractionOf k n) : c.isDigit :=
  isDigit_of_mem_paddedDigits ((List.rdropWhile_prefix _ _).subset h)

theorem fractionOf_zero (n : Nat) : fractionOf 0 n = [] := by
  rw [fractionOf, Nat.pow_zero, Nat.mod_one]
  rfl

theorem trimFraction_places (k n : Nat) : Number.trimFraction (Number.pointed k n) =
    withPlaces (Number.digits 10 (n / 10 ^ k)) (fractionOf k n) := by
  have hd (n : Nat) : '.' ∉ Number.digits 10 n := point_notMem fun _ => isDigit_of_mem_digits
  rcases Nat.eq_zero_or_pos k with rfl | hk
  · rw [Number.pointed, if_pos rfl, fractionOf_zero, withPlaces, if_pos rfl, Nat.pow_zero,
      Nat.div_one, Number.trimFraction, if_neg (by simpa using hd n)]
  · rw [Number.pointed, if_neg (Nat.ne_of_gt hk)]
    exact trimFraction_point (hd _) (point_notMem fun _ => isDigit_of_mem_paddedDigits)

theorem decimal_fractionOf (k n : Nat) : (fractionOf k n).length ≤ k ∧
    decimal (Number.digits 10 (n / 10 ^ k) ++ fractionOf k n) * 10 ^ (k - (fractionOf k n).length) =
      n := by
  rcases Nat.eq_zero_or_pos k with rfl | hk
  case inl =>
    rw [fractionOf_zero, List.append_nil, decimal_digits, Nat.pow_zero, Nat.div_one]
    exact ⟨Nat.le_refl _, Nat.mul_one n⟩
  case inr =>
    have hl : (Number.paddedDigits k (n % 10 ^ k)).length = k :=
      length_paddedDigits hk (Nat.mod_lt _ (Nat.pow_pos (by decide)))
    have hv :
        decimal (Number.digits 10 (n / 10 ^ k) ++ Number.paddedDigits k (n % 10 ^ k)) = n := by
      rw [decimal_append, hl, decimal_digits, decimal_paddedDigits]
      exact Nat.div_add_mod' n (10 ^ k)
    obtain ⟨j, hj⟩ : ∃ j, fractionOf k n ++ List.replicate j '0' =
        Number.paddedDigits k (n % 10 ^ k) := exists_zeros _
    have hlj := congrArg List.length hj
    rw [List.length_append, List.length_replicate, hl] at hlj
    rw [← hj, ← List.append_assoc, decimal_append, decimal_zeros, List.length_replicate,
      Nat.add_zero] at hv
    obtain rfl : j = k - (fractionOf k n).length := by omega
    exact ⟨by omega, hv⟩

end Fractions

-- A whole number of units of 10 to the minus `k` as a literal.
def Literal.ofPointed (minus : Bool) (k n : Nat) (x : Option Literal.Exponent) : Literal where
  sign      := if minus then .minus else .none
  whole     := Number.digits 10 (n / 10 ^ k)
  places?   := if fractionOf k n = [] then none else some (fractionOf k n)
  exponent? := x
  isDigit c hc := by
    rcases List.mem_append.mp hc with hc | hc
    · exact isDigit_of_mem_digits hc
    · split at hc
      case isTrue => cases hc
      case isFalse => exact isDigit_of_mem_fractionOf hc
  ne_nil h  := digits_ne_nil (List.append_eq_nil_iff.mp h).1

namespace Literal

variable (minus : Bool) (k n : Nat) (x : Option Literal.Exponent)

theorem places_ofPointed : (ofPointed minus k n x).places = fractionOf k n := by
  simp only [ofPointed, places]
  split
  case isTrue h => rw [h]; rfl
  case isFalse => rfl

theorem chars_ofPointed : (ofPointed minus k n x).chars = (if minus then ['-'] else []) ++
    (Number.trimFraction (Number.pointed k n) ++ x.elim [] Exponent.chars) := by
  rw [trimFraction_places, withPlaces]
  simp only [chars, ofPointed, fraction, power]
  by_cases hp : fractionOf k n = []
  all_goals cases minus <;> simp [hp, Sign.chars]

theorem numeral_ofPointed : (ofPointed minus k n x).numeral =
    ⟨minus, decimal (Number.digits 10 (n / 10 ^ k) ++ fractionOf k n),
      x.elim 0 Exponent.value - (fractionOf k n).length⟩ := by
  rw [numeral, places_ofPointed]
  cases minus <;> rfl

end Literal

def Literal.ofPlaces (minus : Bool) (n : Nat) : Literal := .ofPointed minus 5 n none

namespace Literal

variable (minus : Bool) (n : Nat)

theorem chars_ofPlaces : (ofPlaces minus n).chars =
    (if minus then ['-'] else []) ++ Number.trimFraction (Number.pointed 5 n) := by
  rw [ofPlaces, chars_ofPointed, Option.elim_none, List.append_nil]

theorem numeral_ofPlaces : (ofPlaces minus n).numeral =
    ⟨minus, decimal (Number.digits 10 (n / 10 ^ 5) ++ fractionOf 5 n),
      -(fractionOf 5 n).length⟩ := by
  rw [ofPlaces, numeral_ofPointed, Option.elim_none, Int.zero_sub]

theorem isBlank_of_mem_ofPlaces {c : Char} (h : c ∈ (ofPlaces minus n).chars) :
    Text.isBlank c = false := by
  rw [chars_ofPlaces, trimFraction_places, withPlaces] at h
  have hd : c = '-' ∨ c = '.' ∨ c.isDigit := by
    rcases List.mem_append.mp h with h | h
    · split at h
      case isTrue => exact .inl (List.mem_singleton.mp h)
      case isFalse => cases h
    · split at h
      case isTrue => exact .inr (.inr (isDigit_of_mem_digits h))
      case isFalse =>
        rcases List.mem_append.mp h with h | h
        · exact .inr (.inr (isDigit_of_mem_digits h))
        · exact .inr ((List.mem_cons.mp h).imp_right isDigit_of_mem_fractionOf)
  rcases hd with rfl | rfl | hd
  · rfl
  · rfl
  · exact isBlank_of_isDigit hd

end Literal

theorem Numeral.toNumber_of_scale {x : Numeral} {j : Nat} (hx : x.scale = -j) (hj : j ≤ 5) :
    x.toNumber = .ofRatio x.negative (x.digits * Number.one) (10 ^ j) := by
  unfold toNumber
  split
  case isTrue hd =>
    refine Number.ofRatio_congr ?_
    have hm := Number.roundUnits_mul_right 0 1 (c := 10 ^ j) (Nat.pow_pos (by decide))
    rw [hd, Nat.zero_mul]
    rw [Nat.zero_mul, Nat.one_mul] at hm
    exact hm.symm
  case isFalse =>
    rw [hx]
    cases j
    case zero =>
      change (if 0 < 400 then Number.ofUnits x.negative (x.digits * 10 ^ 0 * Number.one)
        else _) = _
      rw [if_pos (by decide), Nat.pow_zero, Nat.mul_one]
      rfl
    case succ s =>
      change (if 3 * s < x.digits.log2 + 2000 then _ else _) = _
      rw [if_pos (by omega)]

namespace Number

theorem toList_canonical (negative : Bool) (size : Magnitude) :
    (finite negative size).canonical.toList =
      (Literal.ofPlaces (negative && scaled 5 size.units ≠ 0) (scaled 5 size.units)).chars := by
  rw [canonical, String.toList_ofList, Literal.chars_ofPlaces]
  split
  case isTrue => exact List.singleton_append.symm
  case isFalse => exact (List.nil_append _).symm

theorem ofString?_canonical (negative : Bool) (size : Magnitude) :
    ofString? (finite negative size).canonical = some (ofRatio
      (negative && scaled 5 size.units ≠ 0) (scaled 5 size.units * one) (10 ^ 5)) := by
  generalize hn : scaled 5 size.units = n
  obtain ⟨hl, hv⟩ := decimal_fractionOf 5 n
  rw [ofString?, toList_canonical, hn,
    trimList_of_forall fun _ => Literal.isBlank_of_mem_ofPlaces _ n, Numeral.ofChars?_chars,
    Literal.numeral_ofPlaces, Option.map_some, Numeral.toNumber_of_scale rfl hl]
  refine congrArg some (ofRatio_congr ?_)
  generalize (fractionOf 5 n).length = j at hl hv ⊢
  generalize decimal (digits 10 (n / 10 ^ 5) ++ fractionOf 5 n) = d at hv ⊢
  have hm := roundUnits_mul_right (d * one) (10 ^ j) (c := 10 ^ (5 - j)) (Nat.pow_pos (by decide))
  rw [Nat.mul_right_comm, hv, ← Nat.pow_add, Nat.add_sub_cancel' hl] at hm
  exact hm.symm

theorem exists_reading (negative : Bool) (size : Magnitude) : ∃ negative' size',
    ofString? (finite negative size).canonical = some (finite negative' size') ∧
    (finite negative' size').canonical = (finite negative size).canonical ∧
    (one ∣ size.units → signed negative' size' = signed negative size) := by
  have hl : roundUnits (scaled 5 size.units * one) (10 ^ 5) < limit :=
    ofPlaces_scaled_lt size.dvd size.lt_limit
  have hs : scaled 5 (ofPlaces (scaled 5 size.units)) = scaled 5 size.units :=
    scaled_ofPlaces_scaled size.dvd
  refine ⟨negative && scaled 5 size.units ≠ 0,
    ⟨ofPlaces (scaled 5 size.units), hl, pow_spacing_dvd_roundUnits _ _⟩, ?_, ?_, fun hw => ?_⟩
  · rw [ofString?_canonical, ofRatio, dif_pos hl]
    rfl
  · rw [canonical, canonical, hs, Bool.and_assoc, Bool.and_self]
  · simp only [signed, ofPlaces_scaled_of_whole size.dvd hw]
    by_cases hz : scaled 5 size.units = 0
    case pos =>
      have hu := scaled_mul_one hw
      rw [hz, Nat.zero_mul] at hu
      have hu : size.units = 0 := by omega
      simp [hu]
    case neg => simp [hz]

theorem canonical_of_signed_eq {a b : Bool} {x y : Magnitude} (h : signed a x = signed b y) :
    (finite a x).canonical = (finite b y).canonical := by
  have hz : scaled 5 0 = 0 := by
    rw [scaled, Nat.zero_mul, roundQuotient_of_dvd one_pos (Nat.dvd_zero _), Nat.zero_div]
  have hs : x.units = y.units ∧ (a = b ∨ x.units = 0) := by
    unfold signed at h
    cases a <;> cases b <;> simp at h ⊢ <;> omega
  obtain ⟨hu, rfl | h0⟩ := hs
  · rw [canonical, canonical, hu]
  · rw [canonical, canonical, ← hu, h0, hz]
    simp

end Number

-- The text of a finite number reads as a finite number with the same text, which is the same number
-- if it has no fraction. So numbers compare as equal just if they are written in the same way.
theorem canonical_stable :
    (∀ (negative : Bool) (size : Magnitude), ∃ negative' size',
      Number.ofString? (Number.finite negative size).canonical = some (.finite negative' size') ∧
      (Number.finite negative' size').canonical = (Number.finite negative size).canonical ∧
      (Number.one ∣ size.units →
        Number.signed negative' size' = Number.signed negative size)) ∧
    ∀ (a b : Bool) (x y : Magnitude),
      (Value.ofNumber (.finite a x)).compare (.ofNumber (.finite b y)) = .eq ↔
        (Number.finite a x).canonical = (Number.finite b y).canonical := by
  refine ⟨Number.exists_reading, fun a b x y => ?_⟩
  obtain ⟨a', x', ha, hx, _⟩ := Number.exists_reading a x
  obtain ⟨b', y', hb, hy, _⟩ := Number.exists_reading b y
  have hc : (Value.ofNumber (.finite a x)).compare (.ofNumber (.finite b y)) =
      compare (Number.signed a' x') (Number.signed b' y') := by
    rw [Value.compare, Value.number?, Value.number?, Value.ofNumber, Value.ofNumber, ha, hb]
    rfl
  rw [hc, Int.compare_eq_eq]
  constructor
  case mp =>
    intro h
    rw [← hx, ← hy]
    exact Number.canonical_of_signed_eq h
  case mpr =>
    intro h
    rw [h, hb] at ha
    cases ha
    rfl

-- Minus one is read back.
theorem canonical_stable_minus_one :
    ∃ x : Magnitude, Number.one ∣ x.units ∧ ∃ negative size,
      Number.ofString? (Number.finite true x).canonical = some (.finite negative size) ∧
      Number.signed negative size = -(Number.one : Int) := by
  obtain ⟨x, _, hx⟩ := Number.exists_ofNat (n := 1) (by decide)
  rw [Nat.one_mul] at hx
  have hd : Number.one ∣ x.units := hx ▸ Nat.dvd_refl _
  obtain ⟨negative, size, hr, _, hs⟩ := canonical_stable.1 true x
  refine ⟨x, hd, negative, size, hr, (hs hd).trans ?_⟩
  rw [Number.signed, if_pos rfl, hx]

end PatternAction
