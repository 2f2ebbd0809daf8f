import Mathlib.Data.Rat.Floor
import PatternAction.Proofs.Number.Writing

namespace PatternAction

-- The whole number that is left of a rational without its fraction.
def truncate (x : ℚ) : ℤ := if 0 ≤ x then ⌊x⌋ else ⌈x⌉

theorem truncate_neg (x : ℚ) : truncate (-x) = -truncate x := by
  unfold truncate
  rcases lt_trichotomy x 0 with h | rfl | h
  · rw [if_pos (by linarith), if_neg (by linarith), Int.floor_neg]
  · simp
  · rw [if_neg (by linarith), if_pos (by linarith), Int.ceil_neg]

namespace Number

variable (negative : Bool) (size : Magnitude)

theorem truncate_value : truncate (value negative size) =
    if negative then -(size.units / one : ℤ) else size.units / one := by
  have h : truncate ((size.units : ℚ) / one) = size.units / one := by
    rw [truncate, if_pos (by positivity), Rat.floor_natCast_div_natCast]
  cases negative
  case false =>
    rw [value_false, if_neg Bool.false_ne_true]
    exact h
  case true => rw [value_true, if_pos rfl, truncate_neg, h]

theorem truncate_of_whole {n : ℕ} (h : size.units = n * one) :
    truncate (value negative size) = if negative then -(n : ℤ) else n := by
  rw [truncate_value, ← Int.natCast_ediv, h, Nat.mul_div_cancel _ one_pos]

-- Numbers below one lie closer together than one, and those above are multiples of it.
theorem keepsSpacing_whole {u : ℕ} (h : KeepsSpacing u) : KeepsSpacing (u / one * one) := by
  have hle : spacing (u / one * one) ≤ spacing u := spacing_mono (Nat.div_mul_le_self u one)
  obtain ⟨k, hk⟩ : ∃ k, one = 2 ^ k := ⟨1074, by rw [one]⟩
  rcases Nat.le_total (spacing u) k with hs | hs
  · have hd : 2 ^ spacing (u / one * one) ∣ 2 ^ k := Nat.pow_dvd_pow 2 (hle.trans hs)
    rw [← hk] at hd
    exact Nat.dvd_trans hd (Nat.dvd_mul_left one (u / one))
  · have hd : 2 ^ k ∣ u := Nat.dvd_trans (Nat.pow_dvd_pow 2 hs) h
    rw [← hk] at hd
    have he : u / one * one = u := Nat.div_mul_cancel hd
    exact he.symm ▸ h

theorem exists_trunc : ∃ whole : Magnitude, (finite negative size).trunc = finite negative whole ∧
    whole.units = size.units / one * one := by
  have hr : roundUnits (size.units / one * one) 1 = size.units / one * one :=
    roundUnits_of_dvd (keepsSpacing_whole size.dvd)
  have hl : roundUnits (size.units / one * one) 1 < limit := by
    rw [hr]
    exact Nat.lt_of_le_of_lt (Nat.div_mul_le_self _ _) size.lt_limit
  refine ⟨⟨roundUnits (size.units / one * one) 1, hl, pow_spacing_dvd_roundUnits _ _⟩, ?_, hr⟩
  rw [trunc, ofUnits, ofRatio, dif_pos hl]

end Number

end PatternAction
