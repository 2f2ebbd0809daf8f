import Mathlib.Algebra.Order.Field.Rat
import Mathlib.Algebra.Order.Ring.Abs
import Mathlib.Data.Nat.Cast.Order.Field
import Mathlib.Tactic.FieldSimp
import Mathlib.Tactic.LinearCombination
import Mathlib.Tactic.Linarith
import Mathlib.Tactic.Ring
import PatternAction.Proofs.Number.Rounding

namespace PatternAction

-- A whole number that is nearest to a rational, and even if another one is as near.
structure RoundsEven (x : ℚ) (n : ℤ) : Prop where
  near : |x - n| ≤ 1 / 2
  even : |x - n| = 1 / 2 → Even n

namespace RoundsEven

variable {x : ℚ} {m n : ℤ}

theorem neg (h : RoundsEven x n) : RoundsEven (-x) (-n) := by
  have hd : |-x - (-n : ℤ)| = |x - n| := by
    rw [Int.cast_neg, ← neg_sub', abs_neg]
  exact ⟨hd ▸ h.near, fun he => (h.even (hd ▸ he)).neg⟩

-- The distance to any other whole number is at least as great, and greater unless both are at a
-- half.
theorem le (h : RoundsEven x n) (hm : m ≠ n) : 1 / 2 ≤ |x - m| := by
  have hd : (1 : ℚ) ≤ |(n : ℚ) - m| := by
    have : (1 : ℤ) ≤ |n - m| := Int.one_le_abs (sub_ne_zero.mpr hm.symm)
    exact_mod_cast this
  have ht : |(n : ℚ) - m| ≤ |x - n| + |x - m| := by
    rw [abs_sub_comm x n]
    exact abs_sub_le _ _ _
  linarith [h.near]

theorem unique (hm : RoundsEven x m) (hn : RoundsEven x n) : m = n := by
  by_contra hne
  have h₁ : |x - m| = 1 / 2 := le_antisymm hm.near (hn.le hne)
  have h₂ : |x - n| = 1 / 2 := le_antisymm hn.near (hm.le (Ne.symm hne))
  obtain ⟨a, ha⟩ := hm.even h₁
  obtain ⟨b, hb⟩ := hn.even h₂
  have hd : |(m : ℚ) - n| ≤ 1 := by
    have := abs_sub_le (m : ℚ) x n
    rw [abs_sub_comm (m : ℚ) x] at this
    linarith
  have hd : |m - n| ≤ 1 := by exact_mod_cast hd
  rw [abs_le] at hd
  omega

end RoundsEven

section Quotients

variable {num den : ℕ}

theorem roundQuotient_even (hd : 0 < den)
    (h : 2 * num = 2 * (roundQuotient num den * den) + den ∨
      2 * (roundQuotient num den * den) = 2 * num + den) : Even (roundQuotient num den) := by
  have hn : num / den * den + num % den = num := Nat.div_add_mod' num den
  have hm : num % den < den := Nat.mod_lt num hd
  rw [Nat.even_iff]
  unfold roundQuotient at h ⊢
  dsimp only at h ⊢
  split at h
  case isTrue ht =>
    rw [if_pos ht]
    omega
  case isFalse ht =>
    rw [if_neg ht]
    rw [Nat.add_mul] at h
    omega

theorem roundsEven_roundQuotient (hd : 0 < den) :
    RoundsEven (num / den) (roundQuotient num den : ℕ) := by
  have hq : (0 : ℚ) < den := by exact_mod_cast hd
  have hx : (num : ℚ) / den * den = num := div_mul_cancel₀ _ hq.ne'
  obtain ⟨h₁, h₂⟩ := roundQuotient_near num hd
  have h₁ : (2 : ℚ) * num ≤ 2 * (roundQuotient num den * den) + den := by exact_mod_cast h₁
  have h₂ : (2 : ℚ) * (roundQuotient num den * den) ≤ 2 * num + den := by exact_mod_cast h₂
  generalize hr : (num : ℚ) / den = x at hx
  rw [← hx] at h₁ h₂
  constructor
  case near =>
    rw [abs_le, Int.cast_natCast]
    constructor <;> nlinarith
  case even =>
    rw [Int.cast_natCast]
    intro he
    rw [Int.even_coe_nat]
    refine roundQuotient_even hd ?_
    rcases (abs_eq (by norm_num)).mp he with he | he
    · left
      have : (2 : ℚ) * num = 2 * (roundQuotient num den * den) + den := by
        rw [← hx]
        linear_combination 2 * (den : ℚ) * he
      exact_mod_cast this
    · right
      have : (2 : ℚ) * (roundQuotient num den * den) = 2 * num + den := by
        rw [← hx]
        linear_combination -2 * (den : ℚ) * he
      exact_mod_cast this

end Quotients

theorem Magnitude.eq_of_units_eq {a b : Magnitude} (h : a.units = b.units) : a = b := by
  obtain ⟨_, _, _⟩ := a
  cases h
  rfl

namespace Number

variable {x : ℚ} {u v : ℕ}

-- A size, in units, that fifty-three bits express.
def KeepsSpacing (u : ℕ) : Prop := 2 ^ spacing u ∣ u

-- Such a size that is nearest to a rational, and has an even last bit if another one is as near.
structure Nearest (x : ℚ) (u : ℕ) : Prop where
  keeps : KeepsSpacing u
  le    : ∀ v, KeepsSpacing v → |x - u| ≤ |x - v|
  even  : ∀ v, KeepsSpacing v → |x - u| = |x - v| → v = u ∨ Even (u / 2 ^ spacing u)

theorem spacing_mono (h : u ≤ v) : spacing u ≤ spacing v := by
  rcases Nat.eq_zero_or_pos (spacing u) with hu | hu
  · omega
  · exact le_spacing (Nat.le_trans (pow_le_of_spacing hu) h)

theorem KeepsSpacing.next (h : KeepsSpacing u) : KeepsSpacing (u + 2 ^ spacing u) := by
  obtain ⟨a, ha⟩ := h
  have hl : u < 2 ^ (spacing u + 53) := by
    refine Nat.lt_of_lt_of_le Nat.lt_log2_self (Nat.pow_le_pow_right (by decide) ?_)
    unfold spacing
    omega
  rw [Nat.pow_add] at hl
  have hs : u + 2 ^ spacing u = (a + 1) * 2 ^ spacing u := by
    rw [Nat.add_mul, Nat.one_mul, Nat.mul_comm a, ← ha]
  have hb : a < 2 ^ 53 := Nat.lt_of_mul_lt_mul_left (lt_of_eq_of_lt ha.symm hl)
  rw [KeepsSpacing, hs]
  exact pow_spacing_dvd hb _

theorem KeepsSpacing.next_le (hu : KeepsSpacing u) (hv : KeepsSpacing v) (h : u < v) :
    u + 2 ^ spacing u ≤ v := by
  have hd : 2 ^ spacing u ∣ v :=
    Nat.dvd_trans (Nat.pow_dvd_pow 2 (spacing_mono (Nat.le_of_lt h))) hv
  obtain ⟨k, hk⟩ := Nat.dvd_sub hd hu
  have hp : 0 < k := by
    rcases Nat.eq_zero_or_pos k with rfl | hk'
    · omega
    · exact hk'
  have := Nat.le_mul_of_pos_right (2 ^ spacing u) hp
  omega

namespace Nearest

theorem not_lt (hu : Nearest x u) (hv : Nearest x v) : ¬u < v := by
  intro h
  have hd : |x - u| = |x - v| := le_antisymm (hu.le v hv.keeps) (hv.le u hu.keeps)
  have hq : (u : ℚ) < v := by exact_mod_cast h
  have hx : x = (u + v) / 2 := by
    rcases abs_eq_abs.mp hd with he | he <;> linarith
  have hn := hu.keeps.next_le hv.keeps h
  have hw : v = u + 2 ^ spacing u := by
    refine Nat.le_antisymm (Nat.le_of_not_lt fun hlt => ?_) hn
    have hle := hu.le _ hu.keeps.next
    have h₁ : ((u + 2 ^ spacing u : ℕ) : ℚ) < v := by exact_mod_cast hlt
    have h₂ : (u : ℚ) < (u + 2 ^ spacing u : ℕ) := by
      exact_mod_cast Nat.lt_add_of_pos_right (Nat.two_pow_pos _)
    have h₃ : |x - u| = (v - u) / 2 := by
      rw [hx, abs_of_nonneg (by linarith)]
      ring
    have h₄ : |x - (u + 2 ^ spacing u : ℕ)| < (v - u) / 2 := by
      rw [hx, abs_lt]
      constructor <;> linarith
    linarith
  have he : Even (u / 2 ^ spacing u) := (hu.even v hv.keeps hd).resolve_left (by omega)
  have he' : Even (v / 2 ^ spacing v) := (hv.even u hu.keeps hd.symm).resolve_left (by omega)
  obtain ⟨a, ha⟩ := hu.keeps
  have hp : 0 < 2 ^ spacing u := Nat.two_pow_pos _
  have hva : v = 2 ^ spacing u * (a + 1) := by rw [hw, Nat.mul_add, Nat.mul_one, ← ha]
  have hua : u / 2 ^ spacing u = a := Nat.div_eq_of_eq_mul_right hp ha
  rw [hua] at he
  have ho : ¬Even (a + 1) := by
    rw [Nat.even_add_one]
    exact fun hn => hn he
  rcases Nat.eq_or_lt_of_le (spacing_mono (Nat.le_of_lt h)) with hs | hs
  · rw [← hs, Nat.div_eq_of_eq_mul_right hp hva] at he'
    exact ho he'
  · have hdvd : 2 ^ (spacing u + 1) ∣ v := Nat.dvd_trans (Nat.pow_dvd_pow 2 hs) hv.keeps
    rw [hva, Nat.pow_succ] at hdvd
    exact ho (even_iff_two_dvd.mpr (Nat.dvd_of_mul_dvd_mul_left hp hdvd))

theorem unique (hu : Nearest x u) (hv : Nearest x v) : u = v :=
  Nat.le_antisymm (Nat.le_of_not_lt (hv.not_lt hu)) (Nat.le_of_not_lt (hu.not_lt hv))

theorem le_of_le (h : Nearest x u) (hv : KeepsSpacing v) (hx : v ≤ x) : v ≤ u := by
  by_contra hlt
  have hq : (u : ℚ) < v := by exact_mod_cast Nat.lt_of_not_le hlt
  have hle := h.le v hv
  rw [abs_of_nonneg (by linarith), abs_of_nonneg (by linarith)] at hle
  linarith

theorem zero (h₀ : 0 ≤ x) (h : x ≤ 1 / 2) : Nearest x 0 where
  keeps   := Nat.dvd_zero _
  le v hv := by
    rw [Nat.cast_zero, sub_zero, abs_of_nonneg h₀]
    rcases Nat.eq_zero_or_pos v with rfl | hp
    · rw [Nat.cast_zero, sub_zero, abs_of_nonneg h₀]
    · have hq : (1 : ℚ) ≤ v := by exact_mod_cast hp
      rw [abs_of_nonpos (by linarith)]
      linarith
  even _ _ _ := .inr (by simp)

end Nearest

section Units

variable {num den : ℕ}

theorem two_pow_le_div (h : 0 < spacing (num / den)) :
    2 ^ 52 * 2 ^ spacing (num / den) ≤ num / den := by
  rw [← Nat.pow_add, Nat.add_comm]
  exact pow_le_of_spacing h

theorem even_roundUnits (h : Even (roundQuotient num (den * 2 ^ spacing (num / den)))) :
    Even (roundUnits num den / 2 ^ spacing (roundUnits num den)) := by
  obtain ⟨k, hk⟩ : ∃ k, k = spacing (num / den) := ⟨_, rfl⟩
  have hu : roundUnits num den = roundQuotient num (den * 2 ^ k) * 2 ^ k := by
    rw [roundUnits, hk]
  have hle : roundUnits num den ≤ 2 ^ (53 + k) := hk ▸ roundUnits_le num den
  have hge : 0 < k → 2 ^ (k + 52) ≤ roundUnits num den := by
    intro hp
    rw [hu, Nat.pow_add, Nat.mul_comm]
    refine Nat.mul_le_mul_right _ (Nat.le_trans ?_ (le_roundQuotient _ _))
    rw [← Nat.div_div_eq_div_mul, Nat.le_div_iff_mul_le (Nat.two_pow_pos _), hk]
    exact two_pow_le_div (hk ▸ hp)
  rw [← hk] at h
  rcases Nat.lt_or_ge (roundUnits num den) (2 ^ (53 + k)) with hlt | hge'
  · have hs : spacing (roundUnits num den) = k := by
      refine Nat.le_antisymm (Nat.le_of_not_lt fun hn => ?_) ?_
      · have hp := pow_le_of_spacing (Nat.zero_lt_of_lt hn)
        have hm : 2 ^ (53 + k) ≤ 2 ^ (spacing (roundUnits num den) + 52) :=
          Nat.pow_le_pow_right (by decide) (by omega)
        omega
      · rcases Nat.eq_zero_or_pos k with h0 | hp
        · omega
        · exact le_spacing (hge hp)
    rw [hs, hu, Nat.mul_div_cancel _ (Nat.two_pow_pos _)]
    exact h
  · have he : roundUnits num den = 2 ^ (53 + k) := Nat.le_antisymm hle hge'
    have hs : spacing (2 ^ (53 + k)) = k + 1 := by
      rw [spacing, Nat.log2_two_pow]
      omega
    have hp : 2 ^ (53 + k) = 2 ^ 52 * 2 ^ (k + 1) := by
      rw [← Nat.pow_add]
      congr 1
      omega
    rw [he, hs, hp, Nat.mul_div_cancel _ (Nat.two_pow_pos _)]
    decide

end Units

section Multiples

variable {k r w : ℕ}

theorem abs_sub_multiple (x : ℚ) (k w : ℕ) :
    |x - (w * 2 ^ k : ℕ)| = |x / 2 ^ k - (w : ℤ)| * 2 ^ k := by
  have hp : (0 : ℚ) < 2 ^ k := by positivity
  have hx : x - (w * 2 ^ k : ℕ) = (x / 2 ^ k - (w : ℤ)) * 2 ^ k := by
    push_cast
    field_simp
  rw [hx, abs_mul, abs_of_pos hp]

variable (h : RoundsEven (x / 2 ^ k) r)
include h

theorem le_multiple (hw : w ≠ r) : |x - (r * 2 ^ k : ℕ)| ≤ |x - (w * 2 ^ k : ℕ)| ∧
    (|x - (r * 2 ^ k : ℕ)| = |x - (w * 2 ^ k : ℕ)| → Even r) := by
  have hp : (0 : ℚ) < 2 ^ k := by positivity
  have hle : 1 / 2 ≤ |x / 2 ^ k - (w : ℤ)| := h.le (by exact_mod_cast hw)
  rw [abs_sub_multiple, abs_sub_multiple]
  refine ⟨mul_le_mul_of_nonneg_right (h.near.trans hle) hp.le, fun he => ?_⟩
  rw [mul_left_inj' hp.ne'] at he
  exact (Int.even_coe_nat r).mp (h.even (le_antisymm h.near (he ▸ hle)))

-- Any other size is below a multiple that is not beyond the rational, if that is large.
theorem lt_of_not_dvd (hx : 0 < k → (2 ^ 52 * 2 ^ k : ℕ) ≤ x) (hv : KeepsSpacing v)
    (hn : ¬2 ^ k ∣ v) : |x - (r * 2 ^ k : ℕ)| < |x - v| := by
  have hs : spacing v < k := by
    refine Nat.lt_of_not_le fun hle => hn ?_
    exact Nat.dvd_trans (Nat.pow_dvd_pow 2 hle) hv
  have hlt : v < 2 ^ 52 * 2 ^ k := by
    rw [← Nat.pow_add, Nat.add_comm]
    exact Nat.lt_of_not_le fun hle => Nat.not_le_of_lt hs (le_spacing hle)
  have hlt : (v : ℚ) < (2 ^ 52 * 2 ^ k : ℕ) := by exact_mod_cast hlt
  have hx := hx (Nat.zero_lt_of_lt hs)
  have hb : |x - (r * 2 ^ k : ℕ)| ≤ |x - (2 ^ 52 * 2 ^ k : ℕ)| := by
    rcases eq_or_ne (2 ^ 52) r with rfl | hne
    · exact le_refl _
    · exact (le_multiple h hne).1
  refine lt_of_le_of_lt hb ?_
  rw [abs_of_nonneg (by linarith), abs_of_nonneg (by linarith)]
  linarith

end Multiples

theorem nearest_roundUnits {num den : ℕ} (hd : 0 < den) :
    Nearest (num / den) (roundUnits num den) := by
  obtain ⟨k, hk⟩ : ∃ k, k = spacing (num / den) := ⟨_, rfl⟩
  obtain ⟨r, hr⟩ : ∃ r, r = roundQuotient num (den * 2 ^ k) := ⟨_, rfl⟩
  have hu : roundUnits num den = r * 2 ^ k := by rw [roundUnits, hr, hk]
  have h : RoundsEven ((num : ℚ) / den / 2 ^ k) r := by
    have hq : RoundsEven (num / (den * 2 ^ k : ℕ)) (roundQuotient num (den * 2 ^ k) : ℕ) :=
      roundsEven_roundQuotient (Nat.mul_pos hd (Nat.two_pow_pos k))
    rw [← hr] at hq
    rw [div_div]
    exact_mod_cast hq
  have hx : 0 < k → (2 ^ 52 * 2 ^ k : ℕ) ≤ (num : ℚ) / den := fun hp =>
    (Nat.cast_le.mpr (hk ▸ two_pow_le_div (hk ▸ hp))).trans Nat.cast_div_le
  have hv (v : ℕ) (hv : KeepsSpacing v) : v = r * 2 ^ k ∨
      |(num : ℚ) / den - (r * 2 ^ k : ℕ)| ≤ |(num : ℚ) / den - v| ∧
        (|(num : ℚ) / den - (r * 2 ^ k : ℕ)| = |(num : ℚ) / den - v| → Even r) := by
    by_cases hn : 2 ^ k ∣ v
    case neg =>
      have hlt := lt_of_not_dvd h hx hv hn
      exact .inr ⟨hlt.le, fun he => absurd he hlt.ne⟩
    case pos =>
      obtain ⟨w, hw⟩ := hn
      rw [Nat.mul_comm] at hw
      subst hw
      rcases eq_or_ne w r with rfl | hne
      · exact .inl rfl
      · exact .inr (le_multiple h hne)
  rw [hu]
  refine ⟨hu ▸ pow_spacing_dvd_roundUnits num den, fun v hkv => ?_, fun v hkv he => ?_⟩
  case refine_1 =>
    rcases hv v hkv with rfl | hle
    · exact le_refl _
    · exact hle.1
  case refine_2 =>
    refine (hv v hkv).imp_right fun hle => ?_
    have hr' : Even (roundQuotient num (den * 2 ^ spacing (num / den))) := by
      rw [← hk, ← hr]
      exact hle.2 he
    exact hu ▸ even_roundUnits hr'

theorem keepsSpacing_pow (k : ℕ) : KeepsSpacing (2 ^ k) := by
  have h := pow_spacing_dvd (m := 1) (by decide) k
  rwa [Nat.one_mul] at h

theorem keepsSpacing_limit : KeepsSpacing limit := by
  unfold limit
  exact keepsSpacing_pow 2098

-- The number nearest to a rational that is given by its size and its sign, which zero has too. What
-- is nearest to a size beyond all numbers is infinite.
inductive IsNearest (negative : Bool) (x : ℚ) : Number → Prop
  | finite   : Nearest (x * one) size.units → IsNearest negative x (finite negative size)
  | infinite : Nearest (x * one) w → limit ≤ w → IsNearest negative x (infinite negative)

namespace IsNearest

variable {negative : Bool} {a b : Number}

theorem unique (ha : IsNearest negative x a) (hb : IsNearest negative x b) : a = b := by
  cases ha <;> cases hb
  case finite.finite ha _ hb => rw [Magnitude.eq_of_units_eq (ha.unique hb)]
  case infinite.infinite => rfl
  case finite.infinite size ha u hb hl =>
    rw [← ha.unique hb] at hl
    exact absurd hl (Nat.not_le_of_lt size.lt_limit)
  case infinite.finite u ha hl size hb =>
    rw [ha.unique hb] at hl
    exact absurd hl (Nat.not_le_of_lt size.lt_limit)

theorem ofRatio (negative : Bool) (num den : ℕ) (h : Nearest (x * one) (roundUnits num den)) :
    IsNearest negative x (ofRatio negative num den) := by
  cases Nat.lt_or_ge (roundUnits num den) limit
  case inl hl =>
    rw [Number.ofRatio, dif_pos hl]
    exact .finite h
  case inr hl =>
    rw [Number.ofRatio, dif_neg (Nat.not_lt_of_ge hl)]
    exact .infinite h hl

end IsNearest

end Number

end PatternAction
