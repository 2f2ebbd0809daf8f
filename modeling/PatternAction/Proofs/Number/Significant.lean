import Mathlib.Algebra.Order.Field.Power
import Mathlib.Data.Int.Log
import Mathlib.Data.Rat.Floor
import PatternAction.Proofs.Number.Reading
import PatternAction.Proofs.Number.Writing

namespace PatternAction

namespace RoundsEven

variable {x : ℚ} {m n : ℤ}

theorem zero : RoundsEven 0 0 := ⟨by norm_num, fun _ => Even.zero⟩

theorem le_of_le (h : RoundsEven x m) (hn : n ≤ x) : n ≤ m := by
  by_contra hlt
  have hq : (m : ℚ) ≤ n - 1 := by exact_mod_cast Int.le_sub_one_of_lt (Int.lt_of_not_ge hlt)
  have hd := (abs_le.mp h.near).2
  linarith

theorem ge_of_ge (h : RoundsEven x m) (hn : x ≤ n) : m ≤ n := by
  have hn : ((-n : ℤ) : ℚ) ≤ -x := by
    rw [Int.cast_neg]
    exact neg_le_neg hn
  exact Int.neg_le_neg_iff.mp (h.neg.le_of_le hn)

theorem of_ten (h : RoundsEven (x * 10) (n * 10)) : RoundsEven x n := by
  have hd := h.near
  have hx : x * 10 - (n * 10 : ℤ) = (x - n) * 10 := by
    push_cast
    ring
  rw [hx, abs_mul, abs_of_pos (by norm_num : (0 : ℚ) < 10)] at hd
  exact ⟨by linarith, fun he => by linarith⟩

end RoundsEven

-- The place of the first digit, as a power of ten; zero for zero.
def leadingPlace (x : ℚ) : ℤ := Int.log 10 |x|

-- What a rational is rounded to that keeps a number of significant digits, a tie to the even one.
def RoundsTo (digits : ℕ) (x r : ℚ) : Prop :=
  ∃ m : ℤ, RoundsEven (x * 10 ^ (digits - 1 - leadingPlace x)) m ∧
    r = m / 10 ^ (digits - 1 - leadingPlace x)

section Places

variable {x r : ℚ} {e : ℤ} {digits : ℕ}

theorem leadingPlace_neg (x : ℚ) : leadingPlace (-x) = leadingPlace x := by
  rw [leadingPlace, abs_neg, leadingPlace]

theorem leadingPlace_zero : leadingPlace 0 = 0 := by
  rw [leadingPlace, abs_zero, Int.log_zero_right]

theorem leadingPlace_eq (hl : 10 ^ e ≤ x) (hu : x < 10 ^ (e + 1)) : leadingPlace x = e := by
  have hx : 0 < x := (zpow_pos (by norm_num) e).trans_le hl
  rw [leadingPlace, abs_of_pos hx]
  have h₁ : e ≤ Int.log 10 x := (Int.zpow_le_iff_le_log (by decide) hx).mp (by exact_mod_cast hl)
  have h₂ : Int.log 10 x < e + 1 :=
    (Int.lt_zpow_iff_log_lt (by decide) hx).mp (by exact_mod_cast hu)
  omega

theorem zpow_leadingPlace (hx : 0 < x) :
    10 ^ leadingPlace x ≤ x ∧ x < 10 ^ (leadingPlace x + 1) := by
  rw [leadingPlace, abs_of_pos hx]
  exact ⟨by exact_mod_cast Int.zpow_log_le_self (by decide) hx,
    by exact_mod_cast Int.lt_zpow_succ_log_self (by decide) x⟩

theorem RoundsTo.neg (h : RoundsTo digits x r) : RoundsTo digits (-x) (-r) := by
  obtain ⟨m, hm, rfl⟩ := h
  refine ⟨-m, ?_, ?_⟩
  · rw [leadingPlace_neg, neg_mul]
    exact hm.neg
  · rw [leadingPlace_neg, Int.cast_neg, neg_div]

theorem RoundsTo.unique {s : ℚ} (hr : RoundsTo digits x r) (hs : RoundsTo digits x s) : r = s := by
  obtain ⟨m, hm, rfl⟩ := hr
  obtain ⟨n, hn, rfl⟩ := hs
  rw [hm.unique hn]

end Places

-- A whole number of as many digits, and the place of the first of them, that say what a rational is
-- rounded to.
structure Significant (places : ℕ) (x : ℚ) (m : ℕ) (e : ℤ) : Prop where
  lt      : m < 10 ^ (places + 1)
  le      : m ≠ 0 → 10 ^ places ≤ m
  place   : leadingPlace (m / 10 ^ (places - e)) = e
  kept    : RoundsEven (x * 10 ^ (places - e)) m
  rounded : RoundsTo (places + 1) x (m / 10 ^ (places - e))

namespace Significant

variable {places m : ℕ} {x : ℚ} {e : ℤ}

theorem place_eq (hl : 10 ^ places ≤ m) (hu : m < 10 ^ (places + 1)) :
    leadingPlace (m / 10 ^ (places - e)) = e := by
  have hp : (0 : ℚ) < 10 ^ (places - e) := by positivity
  have h10 : (10 : ℚ) ≠ 0 := by norm_num
  refine leadingPlace_eq ?_ ?_
  · rw [le_div_iff₀ hp, ← zpow_add₀ h10, add_sub_cancel, zpow_natCast]
    exact_mod_cast hl
  · have he : e + 1 + (places - e) = (places + 1 : ℕ) := by omega
    rw [div_lt_iff₀ hp, ← zpow_add₀ h10, he, zpow_natCast]
    exact_mod_cast hu

theorem zero (places : ℕ) : Significant places 0 0 0 where
  lt      := Nat.pow_pos (by decide)
  le h    := absurd rfl h
  place   := by rw [Nat.cast_zero, zero_div, leadingPlace_zero]
  kept    := by
    rw [zero_mul]
    exact .zero
  rounded := by
    refine ⟨0, ?_, by simp⟩
    rw [zero_mul]
    exact .zero

theorem zpow_carry (places : ℕ) (e : ℤ) :
    (10 : ℚ) ^ (places - e) = 10 ^ (places - (e + 1)) * 10 := by
  have he : places - e = places - (e + 1) + 1 := by omega
  rw [he, zpow_add_one₀ (by norm_num)]

variable (h : RoundsEven (x * 10 ^ (places - leadingPlace x)) m)
include h

theorem roundsTo_of : RoundsTo (places + 1) x (m / 10 ^ (places - leadingPlace x)) := by
  have he : ((places + 1 : ℕ) : ℤ) - 1 - leadingPlace x = places - leadingPlace x := by omega
  exact ⟨m, he ▸ h, by rw [he, Int.cast_natCast]⟩

-- One digit too many is a zero, and the first one stands one place further to the front.
theorem of_carry (hm : m = 10 ^ (places + 1)) :
    Significant places x (10 ^ places) (leadingPlace x + 1) where
  lt      := Nat.pow_lt_pow_right (by decide) places.lt_succ_self
  le _    := le_refl _
  place   := place_eq (le_refl _) (Nat.pow_lt_pow_right (by decide) places.lt_succ_self)
  kept    := by
    rw [hm, zpow_carry, ← mul_assoc, Nat.pow_succ] at h
    exact RoundsEven.of_ten (by exact_mod_cast h)
  rounded := by
    have hr := roundsTo_of h
    rwa [hm, zpow_carry, Nat.pow_succ, Nat.cast_mul, Nat.cast_ofNat,
      mul_div_mul_right _ _ (by norm_num)] at hr

variable (hx : 0 < x)
include hx

-- The digits that it is rounded to are one too many at most, and then they are a one and zeros.
theorem bounds : 10 ^ places ≤ m ∧ m ≤ 10 ^ (places + 1) := by
  have hp : (0 : ℚ) < 10 ^ (places - leadingPlace x) := by positivity
  have h10 : (10 : ℚ) ≠ 0 := by norm_num
  obtain ⟨hl, hu⟩ := zpow_leadingPlace hx
  have hl : ((10 ^ places : ℕ) : ℤ) ≤ x * 10 ^ (places - leadingPlace x) :=
    calc (((10 ^ places : ℕ) : ℤ) : ℚ) = 10 ^ leadingPlace x * 10 ^ (places - leadingPlace x) := by
          rw [← zpow_add₀ h10, add_sub_cancel, zpow_natCast]
          norm_cast
      _ ≤ x * 10 ^ (places - leadingPlace x) := mul_le_mul_of_nonneg_right hl hp.le
  have hu : x * 10 ^ (places - leadingPlace x) ≤ ((10 ^ (places + 1) : ℕ) : ℤ) :=
    calc x * 10 ^ (places - leadingPlace x)
        ≤ 10 ^ (leadingPlace x + 1) * 10 ^ (places - leadingPlace x) :=
          mul_le_mul_of_nonneg_right hu.le hp.le
      _ = ((10 ^ (places + 1) : ℕ) : ℤ) := by
          have he : leadingPlace x + 1 + (places - leadingPlace x) = (places + 1 : ℕ) := by omega
          rw [← zpow_add₀ h10, he, zpow_natCast]
          norm_cast
  exact ⟨by exact_mod_cast h.le_of_le hl, by exact_mod_cast h.ge_of_ge hu⟩

theorem of_lt (hm : m < 10 ^ (places + 1)) : Significant places x m (leadingPlace x) where
  lt      := hm
  le _    := (bounds h hx).1
  place   := place_eq (bounds h hx).1 hm
  kept    := h
  rounded := roundsTo_of h

end Significant

namespace Number

variable {units : ℕ}

theorem leadingPlace_quotient {num den s : ℕ} (hd : 0 < den) (h : den ≤ num * 10 ^ s) :
    leadingPlace (num / den) = (digits 10 (num * 10 ^ s / den)).length - (s + 1) := by
  obtain ⟨n, hn⟩ : ∃ n, n = num * 10 ^ s / den := ⟨_, rfl⟩
  obtain ⟨k, hk⟩ : ∃ k, (digits 10 n).length = k + 1 :=
    Nat.exists_eq_add_one.mpr (List.length_pos_iff.mpr digits_ne_nil)
  have hu : n < 10 ^ (k + 1) := (Nat.length_toDigits_le_iff (by decide) k.succ_pos).mp hk.le
  have hl : 10 ^ k ≤ n := by
    rcases Nat.eq_zero_or_pos k with rfl | hk'
    · exact hn ▸ Nat.div_pos h hd
    · refine Nat.le_of_not_lt fun hlt => ?_
      have := (Nat.length_toDigits_le_iff (by decide) hk').mpr hlt
      rw [digits] at hk
      omega
  rw [hn, Nat.le_div_iff_mul_le hd] at hl
  rw [hn, Nat.div_lt_iff_lt_mul hd] at hu
  have hl : (10 : ℚ) ^ k * den ≤ num * 10 ^ s := by exact_mod_cast hl
  have hu : (num : ℚ) * 10 ^ s < 10 ^ (k + 1) * den := by exact_mod_cast hu
  have hq : (0 : ℚ) < den := by exact_mod_cast hd
  have he : ((digits 10 n).length : ℤ) - (s + 1) = k - s := by omega
  have hz (j : ℕ) : (10 : ℚ) ^ (j - s : ℤ) = 10 ^ j / 10 ^ s := by
    rw [zpow_sub₀ (by norm_num), zpow_natCast, zpow_natCast]
  rw [← hn, he]
  refine leadingPlace_eq ?_ ?_
  · rw [hz, div_le_div_iff₀ (by positivity) hq]
    exact hl
  · rw [sub_add_eq_add_sub, ← Int.natCast_succ, hz, div_lt_div_iff₀ hq (by positivity)]
    exact hu

theorem leadingPlace_units (h : units ≠ 0) :
    leadingPlace (units / one) = decimalExponent units := by
  have ho : one ≤ 10 ^ 400 := by
    unfold one
    exact Numeral.two_pow_le_ten_pow (a := 1074) (s := 400) (by decide)
  have hle := ho.trans (Nat.le_mul_of_pos_left _ (Nat.pos_of_ne_zero h))
  rw [leadingPlace_quotient one_pos hle, decimalExponent]
  rfl

theorem exists_significant (places : ℕ) (h : units ≠ 0) : ∃ m : ℕ,
    RoundsEven (units / one * 10 ^ (places - decimalExponent units)) m ∧
      significant places units = if m = 10 ^ (places + 1) then
        (10 ^ places, decimalExponent units + 1) else (m, decimalExponent units) := by
  unfold significant
  rw [if_neg h]
  dsimp only
  cases (places : ℤ) - decimalExponent units
  case ofNat s =>
    refine ⟨_, ?_, rfl⟩
    have hx : ((units * 10 ^ s : ℕ) : ℚ) / one = units / one * 10 ^ (Int.ofNat s) := by
      rw [Int.ofNat_eq_natCast, zpow_natCast]
      push_cast
      ring
    exact hx ▸ roundsEven_roundQuotient one_pos
  case negSucc s =>
    refine ⟨_, ?_, rfl⟩
    have hx : (units : ℚ) / (one * 10 ^ (s + 1) : ℕ) = units / one * 10 ^ (Int.negSucc s) := by
      rw [zpow_negSucc]
      push_cast
      rw [div_mul_eq_div_div]
      rfl
    exact hx ▸ roundsEven_roundQuotient (Nat.mul_pos one_pos (Nat.pow_pos (by decide)))

theorem significant_spec (places units : ℕ) : ∃ (m : ℕ) (e : ℤ),
    significant places units = (m, e) ∧ Significant places (units / one) m e := by
  rcases eq_or_ne units 0 with rfl | hu
  · refine ⟨0, 0, by rw [significant, if_pos rfl], ?_⟩
    rw [Nat.cast_zero, zero_div]
    exact .zero places
  · obtain ⟨m, hm, hs⟩ := exists_significant places hu
    have hx : (0 : ℚ) < units / one :=
      div_pos (Nat.cast_pos.mpr (Nat.pos_of_ne_zero hu)) (Nat.cast_pos.mpr one_pos)
    rw [← leadingPlace_units hu] at hm hs
    by_cases hc : m = 10 ^ (places + 1)
    case pos => exact ⟨_, _, hs.trans (if_pos hc), .of_carry hm hc⟩
    case neg =>
      exact ⟨_, _, hs.trans (if_neg hc), .of_lt hm hx ((Significant.bounds hm hx).2.lt_of_ne hc)⟩

end Number

end PatternAction
