import PatternAction.Proofs.Number.Counting

namespace PatternAction

section Quotients

variable {num den r : Nat}

theorem roundQuotient_near (num : Nat) (hd : 0 < den) :
    2 * num ≤ 2 * (roundQuotient num den * den) + den ∧
      2 * (roundQuotient num den * den) ≤ 2 * num + den := by
  have hn : num / den * den + num % den = num := Nat.div_add_mod' num den
  have hm : num % den < den := Nat.mod_lt num hd
  unfold roundQuotient
  dsimp only
  split
  case isTrue => omega
  case isFalse =>
    rw [Nat.add_mul]
    omega

theorem roundQuotient_of_near (h : 2 * num < 2 * (r * den) + den)
    (h' : 2 * (r * den) < 2 * num + den) : roundQuotient num den = r := by
  have hd : 0 < den := by
    rcases Nat.eq_zero_or_pos den with rfl | hd
    · omega
    · exact hd
  obtain ⟨hn, hn'⟩ := roundQuotient_near num hd
  rcases Nat.lt_trichotomy (roundQuotient num den) r with hlt | he | hlt
  · have hm := Nat.mul_le_mul_right den (Nat.succ_le_of_lt hlt)
    rw [Nat.succ_mul] at hm
    omega
  · exact he
  · have hm := Nat.mul_le_mul_right den (Nat.succ_le_of_lt hlt)
    rw [Nat.succ_mul] at hm
    omega

theorem roundQuotient_mul_right {c : Nat} (hc : 0 < c) :
    roundQuotient (num * c) (den * c) = roundQuotient num den := by
  unfold roundQuotient
  dsimp only
  rw [Nat.mul_div_mul_right _ _ hc, Nat.mul_mod_mul_right, ← Nat.mul_assoc]
  simp only [Nat.mul_lt_mul_right hc, Nat.mul_left_inj (Nat.ne_of_gt hc)]

end Quotients

namespace Number

variable {u : Nat}

theorem roundUnits_mul_right (num den : Nat) {c : Nat} (hc : 0 < c) :
    roundUnits (num * c) (den * c) = roundUnits num den := by
  unfold roundUnits
  dsimp only
  rw [Nat.mul_div_mul_right _ _ hc, Nat.mul_right_comm, roundQuotient_mul_right hc]

theorem ofRatio_congr {negative : Bool} {num den num' den' : Nat}
    (h : roundUnits num den = roundUnits num' den') :
    ofRatio negative num den = ofRatio negative num' den' := by
  unfold ofRatio
  simp only [h]

-- A spacing above the least one tells how large a number is,
theorem pow_le_of_spacing {q : Nat} (h : 0 < spacing q) : 2 ^ (spacing q + 52) ≤ q := by
  unfold spacing at *
  have hq : q ≠ 0 := by
    rintro rfl
    exact absurd h (by decide)
  rw [Nat.sub_add_cancel (by omega)]
  exact Nat.log2_self_le hq

theorem le_spacing {k : Nat} (h : 2 ^ (k + 52) ≤ u) : k ≤ spacing u := by
  have hu : u ≠ 0 := Nat.ne_of_gt (Nat.lt_of_lt_of_le (Nat.two_pow_pos _) h)
  have hl : k + 52 ≤ u.log2 := (Nat.le_log2 hu).mpr h
  unfold spacing
  omega

theorem roundUnits_le (num den : Nat) :
    roundUnits num den ≤ 2 ^ (53 + spacing (num / den)) := by
  have hq : num / (den * 2 ^ spacing (num / den)) < 2 ^ 53 := by
    rw [← Nat.div_div_eq_div_mul]
    refine Nat.div_lt_of_lt_mul ?_
    rw [← Nat.pow_add]
    refine Nat.lt_of_lt_of_le Nat.lt_log2_self (Nat.pow_le_pow_right (by decide) ?_)
    unfold spacing
    omega
  rw [Nat.pow_add]
  refine Nat.mul_le_mul_right _ (Nat.le_trans (roundQuotient_le _ _) ?_)
  omega

-- The number nearest to a number of hundred-thousandths, in units.
def ofPlaces (n : Nat) : Nat := roundUnits (n * one) (10 ^ 5)

-- Up to this spacing numbers are closer together than decimals of five places.
def fineness : Nat := 1057

theorem one_eq : one = 131072 * 2 ^ fineness := by
  have he : 1074 = 17 + fineness := rfl
  unfold one
  rw [he, Nat.pow_add]

theorem scaled_ofPlaces_of_fine {n : Nat} (h : spacing (n * one / 10 ^ 5) ≤ fineness) :
    scaled 5 (ofPlaces n) = n := by
  have hk : 2 ^ spacing (n * one / 10 ^ 5) ≤ 2 ^ fineness := Nat.pow_le_pow_right (by decide) h
  have hd : 0 < 10 ^ 5 * 2 ^ spacing (n * one / 10 ^ 5) :=
    Nat.mul_pos (by decide) (Nat.two_pow_pos _)
  have hn := roundQuotient_near (n * one) hd
  have he := one_eq
  have ho : 0 < 2 ^ fineness := Nat.two_pow_pos _
  have hm : ofPlaces n * 10 ^ 5 =
      roundQuotient (n * one) (10 ^ 5 * 2 ^ spacing (n * one / 10 ^ 5)) *
        (10 ^ 5 * 2 ^ spacing (n * one / 10 ^ 5)) := by
    rw [ofPlaces, roundUnits, Nat.mul_assoc, Nat.mul_comm (2 ^ _)]
  rw [← hm] at hn
  exact roundQuotient_of_near (by omega) (by omega)

theorem scaled_near (u : Nat) :
    2 * (u * 10 ^ 5) ≤ 2 * (scaled 5 u * one) + one ∧
      2 * (scaled 5 u * one) ≤ 2 * (u * 10 ^ 5) + one :=
  roundQuotient_near (u * 10 ^ 5) one_pos

-- Where numbers are further apart, the decimal is less than half a spacing away from its number. So
-- the number keeps to the spacing at the decimal, even across a power of two, below which numbers
-- are half as far apart: the last one there is half a spacing away already.
theorem pow_spacing_dvd_of_coarse (hu : 2 ^ spacing u ∣ u)
    (h : fineness < spacing (scaled 5 u * one / 10 ^ 5)) :
    2 ^ spacing (scaled 5 u * one / 10 ^ 5) ∣ u := by
  have hq := pow_le_of_spacing (Nat.zero_lt_of_lt h)
  have hd : scaled 5 u * one / 10 ^ 5 * 10 ^ 5 ≤ scaled 5 u * one := Nat.div_mul_le_self _ _
  obtain ⟨_, hn⟩ := scaled_near u
  have he := one_eq
  generalize spacing (scaled 5 u * one / 10 ^ 5) = k at h hq ⊢
  rcases Nat.lt_or_ge u (2 ^ (k + 52)) with hlt | hge
  · obtain ⟨j, rfl⟩ := Nat.exists_eq_add_of_lt h
    have hj : 2 ^ fineness ≤ 2 ^ (fineness + j) :=
      Nat.pow_le_pow_right (by decide) (Nat.le_add_right _ _)
    have hp : 2 ^ (fineness + j + 1 + 52) = 2 ^ 53 * 2 ^ (fineness + j) := by
      rw [Nat.mul_comm, ← Nat.pow_add]
    have hp' : 2 ^ (fineness + j + 52) = 2 ^ 52 * 2 ^ (fineness + j) := by
      rw [Nat.mul_comm, ← Nat.pow_add]
    have hl : 2 ^ (fineness + j + 52) ≤ u := by omega
    obtain ⟨v, hv⟩ := Nat.dvd_trans (Nat.pow_dvd_pow 2 (le_spacing hl)) hu
    rw [hp, hv, Nat.mul_comm (2 ^ 53)] at hlt
    have hm := Nat.mul_le_mul_left (2 ^ (fineness + j))
      (Nat.succ_le_of_lt (Nat.lt_of_mul_lt_mul_left hlt))
    rw [Nat.mul_succ, ← hv] at hm
    omega
  · exact Nat.dvd_trans (Nat.pow_dvd_pow 2 (le_spacing hge)) hu

theorem ofPlaces_scaled_of_coarse (hu : 2 ^ spacing u ∣ u)
    (h : fineness < spacing (scaled 5 u * one / 10 ^ 5)) : ofPlaces (scaled 5 u) = u := by
  obtain ⟨v, hv⟩ := pow_spacing_dvd_of_coarse hu h
  have hn := scaled_near u
  have hk : 2 ^ (fineness + 1) ≤ 2 ^ spacing (scaled 5 u * one / 10 ^ 5) :=
    Nat.pow_le_pow_right (by decide) h
  have he := one_eq
  have ho : 0 < 2 ^ fineness := Nat.two_pow_pos _
  have hr : roundQuotient (scaled 5 u * one)
      (10 ^ 5 * 2 ^ spacing (scaled 5 u * one / 10 ^ 5)) = v := by
    have hm : v * (10 ^ 5 * 2 ^ spacing (scaled 5 u * one / 10 ^ 5)) = u * 10 ^ 5 := by
      rw [Nat.mul_left_comm, Nat.mul_comm v, ← hv, Nat.mul_comm]
    exact roundQuotient_of_near (by omega) (by omega)
  rw [ofPlaces, roundUnits, hr, Nat.mul_comm, ← hv]

theorem scaled_mul_one (h : one ∣ u) : scaled 5 u * one = u * 10 ^ 5 := by
  have hd : one ∣ u * 10 ^ 5 := Nat.dvd_mul_right_of_dvd h _
  rw [scaled, roundQuotient_of_dvd one_pos hd, Nat.div_mul_cancel hd]

theorem ofPlaces_scaled_of_whole (hu : 2 ^ spacing u ∣ u) (h : one ∣ u) :
    ofPlaces (scaled 5 u) = u := by
  have hm := roundUnits_mul_right u 1 (c := 10 ^ 5) (by decide)
  rw [Nat.one_mul, roundUnits_of_dvd hu] at hm
  rw [ofPlaces, scaled_mul_one h, hm]

theorem scaled_ofPlaces_scaled (hu : 2 ^ spacing u ∣ u) :
    scaled 5 (ofPlaces (scaled 5 u)) = scaled 5 u := by
  rcases Nat.lt_or_ge fineness (spacing (scaled 5 u * one / 10 ^ 5)) with h | h
  · rw [ofPlaces_scaled_of_coarse hu h]
  · exact scaled_ofPlaces_of_fine h

theorem ofPlaces_scaled_lt (hu : 2 ^ spacing u ∣ u) (hl : u < limit) :
    ofPlaces (scaled 5 u) < limit := by
  rcases Nat.lt_or_ge fineness (spacing (scaled 5 u * one / 10 ^ 5)) with h | h
  · rwa [ofPlaces_scaled_of_coarse hu h]
  · refine Nat.lt_of_le_of_lt (roundUnits_le _ _) ?_
    have hp : 53 + spacing (scaled 5 u * one / 10 ^ 5) < 2098 := by
      unfold fineness at h
      omega
    have hlt {a b : Nat} (h : a < b) : 2 ^ a < 2 ^ b := Nat.pow_lt_pow_right (by decide) h
    unfold limit
    exact hlt (b := 2098) hp

end Number

end PatternAction
