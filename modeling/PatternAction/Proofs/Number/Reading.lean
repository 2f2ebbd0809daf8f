import PatternAction.Proofs.Number.Grammar

namespace PatternAction

namespace Numeral

open Number (IsNearest Nearest)

variable {n : Numeral}

theorem two_pow_le_ten_pow {a s : ℕ} (h : a ≤ 3 * s) : 2 ^ a ≤ 10 ^ s :=
  calc 2 ^ a ≤ 2 ^ (3 * s) := Nat.pow_le_pow_right (by decide) h
    _ = 8 ^ s := Nat.pow_mul 2 3 s
    _ ≤ 10 ^ s := Nat.pow_le_pow_left (by decide) s

theorem limit_le {digits s : ℕ} (hd : 0 < digits) (hs : 400 ≤ s) :
    Number.limit ≤ digits * 10 ^ s * Number.one := by
  have hp {a b c : ℕ} (h : c ≤ a + b) (ha : a ≤ 3 * s) : 2 ^ c ≤ digits * 10 ^ s * 2 ^ b :=
    calc 2 ^ c ≤ 2 ^ (a + b) := Nat.pow_le_pow_right (by decide) h
      _ = 2 ^ a * 2 ^ b := Nat.pow_add ..
      _ ≤ digits * 10 ^ s * 2 ^ b := Nat.mul_le_mul_right _
        ((two_pow_le_ten_pow ha).trans (Nat.le_mul_of_pos_left _ hd))
  unfold Number.limit Number.one
  exact hp (a := 1024) (b := 1074) (c := 2098) (by decide) (by omega)

theorem two_mul_le {digits s : ℕ} (hs : digits.log2 + 2000 ≤ 3 * s) :
    2 * (digits * Number.one) ≤ 10 ^ (s + 1) := by
  have hp {b : ℕ} (hb : b ≤ 1900) : 2 * (digits * 2 ^ b) ≤ 10 ^ (s + 1) :=
    calc 2 * (digits * 2 ^ b) = digits * 2 ^ (b + 1) := by rw [Nat.pow_succ]; ring
      _ ≤ 2 ^ (digits.log2 + 1) * 2 ^ (b + 1) :=
        Nat.mul_le_mul_right _ (Nat.le_of_lt Nat.lt_log2_self)
      _ = 2 ^ (digits.log2 + 1 + (b + 1)) := (Nat.pow_add ..).symm
      _ ≤ 10 ^ (s + 1) := two_pow_le_ten_pow (by omega)
  unfold Number.one
  exact hp (b := 1074) (by decide)

theorem isNearest_zero {x : ℚ} (negative : Bool) (h : Nearest (x * Number.one) 0) :
    IsNearest negative x (.ofUnits negative 0) := by
  have hz : Number.roundUnits 0 1 = 0 := Number.roundUnits_of_dvd (Nat.dvd_zero _)
  rw [← hz] at h
  rw [Number.ofUnits]
  exact .ofRatio negative 0 1 h

theorem isNearest_scale (negative : Bool) {digits : ℕ} (hd : 0 < digits) (s : ℕ) :
    IsNearest negative (digits * 10 ^ s)
      (if s < 400 then .ofUnits negative (digits * 10 ^ s * Number.one)
        else .infinite negative) := by
  have hx : (digits * 10 ^ s * Number.one : ℚ) = (digits * 10 ^ s * Number.one : ℕ) / (1 : ℕ) := by
    push_cast
    rw [div_one]
  have hn : Nearest (digits * 10 ^ s * Number.one)
      (Number.roundUnits (digits * 10 ^ s * Number.one) 1) := by
    rw [hx]
    exact Number.nearest_roundUnits Nat.one_pos
  split
  case isTrue =>
    rw [Number.ofUnits]
    exact .ofRatio negative _ 1 hn
  case isFalse hs =>
    have hl : Number.limit ≤ digits * 10 ^ s * Number.one := limit_le hd (Nat.le_of_not_lt hs)
    have hl : (Number.limit : ℚ) ≤ digits * 10 ^ s * Number.one := by exact_mod_cast hl
    exact .infinite hn (hn.le_of_le Number.keepsSpacing_limit hl)

theorem isNearest_negScale (negative : Bool) (digits s : ℕ) :
    IsNearest negative (digits / 10 ^ (s + 1))
      (if 3 * s < digits.log2 + 2000 then .ofRatio negative (digits * Number.one) (10 ^ (s + 1))
        else .ofUnits negative 0) := by
  have hp : 0 < 10 ^ (s + 1) := Nat.pow_pos (by decide)
  have hq : (0 : ℚ) < 10 ^ (s + 1) := by positivity
  have hx : (digits / 10 ^ (s + 1) * Number.one : ℚ) =
      (digits * Number.one : ℕ) / (10 ^ (s + 1) : ℕ) := by
    push_cast
    rw [div_mul_eq_mul_div]
  split
  case isTrue =>
    refine .ofRatio negative _ _ ?_
    rw [hx]
    exact Number.nearest_roundUnits hp
  case isFalse hs =>
    have hle := two_mul_le (Nat.le_of_not_lt hs)
    have hle : (2 * (digits * Number.one : ℕ) : ℚ) ≤ (10 ^ (s + 1) : ℕ) := by exact_mod_cast hle
    refine isNearest_zero negative (.zero ?_ ?_)
    · rw [hx]
      exact div_nonneg (Nat.cast_nonneg _) (Nat.cast_nonneg _)
    · rw [hx, div_le_iff₀ (by exact_mod_cast hp)]
      linarith

theorem isNearest_toNumber (n : Numeral) :
    IsNearest n.negative (n.digits * 10 ^ n.scale) n.toNumber := by
  unfold toNumber
  split
  case isTrue hd =>
    refine isNearest_zero _ ?_
    rw [hd, Nat.cast_zero, zero_mul, zero_mul]
    exact .zero (le_refl _) (by norm_num)
  case isFalse hd =>
    split
    case h_1 s hs =>
      rw [hs, Int.ofNat_eq_natCast, zpow_natCast]
      exact isNearest_scale _ (Nat.pos_of_ne_zero hd) s
    case h_2 s hs =>
      rw [hs, zpow_negSucc, ← div_eq_mul_inv]
      exact isNearest_negScale _ _ s

end Numeral

theorem Literal.isNearest_toNumber (l : Literal) :
    Number.IsNearest l.sign.isMinus l.size l.numeral.toNumber := by
  rw [l.size_eq]
  exact Numeral.isNearest_toNumber l.numeral

theorem Text.mem_of_mem_trimList {p : Char → Bool} {cs : List Char} {c : Char}
    (h : c ∈ trimList p cs) : c ∈ cs := by
  have hr := (List.dropWhile_suffix _).subset (List.mem_reverse.mp h)
  exact (List.dropWhile_suffix _).subset (List.mem_reverse.mp hr)

namespace Number

variable {s : String} {x : Number}

theorem ofString?_eq_some_iff : ofString? s = some x ↔
    ∃ l : Literal, l.chars = (Text.trim s).toList ∧ IsNearest l.sign.isMinus l.size x := by
  rw [Text.trim, String.toList_ofList, ofString?, Option.map_eq_some_iff]
  constructor
  case mp =>
    rintro ⟨n, h, rfl⟩
    obtain ⟨l, hl⟩ := Numeral.exists_literal h
    rw [← hl, Numeral.ofChars?_chars] at h
    obtain rfl := Option.some.inj h
    exact ⟨l, hl, l.isNearest_toNumber⟩
  case mpr =>
    rintro ⟨l, hl, hx⟩
    refine ⟨l.numeral, ?_, l.isNearest_toNumber.unique hx⟩
    rw [← hl]
    exact Numeral.ofChars?_chars l

theorem isSome_ofString?_iff :
    (ofString? s).isSome ↔ (Text.trim s).toList ∈ Grammar.numeral := by
  rw [Grammar.mem_numeral, Option.isSome_iff_exists]
  constructor
  case mp =>
    rintro ⟨x, hx⟩
    obtain ⟨l, hl, _⟩ := ofString?_eq_some_iff.mp hx
    exact ⟨l, hl⟩
  case mpr =>
    rintro ⟨l, hl⟩
    exact ⟨l.numeral.toNumber, ofString?_eq_some_iff.mpr ⟨l, hl, l.isNearest_toNumber⟩⟩

-- Reading digits alone, where neither a sign nor a point nor an exponent has to be looked for.
def ofDigits (cs : List Char) : Number := .ofNat (Numeral.natOfDigits cs)

theorem ofString?_of_digits (hn : Text.trim s ≠ "")
    (h : ∀ c ∈ (Text.trim s).toList, c.isDigit) :
    ofString? s = some (ofDigits (Text.trim s).toList) := by
  have hn : (Text.trim s).toList ≠ [] := fun he => hn (String.toList_eq_nil_iff.mp he)
  rw [Text.trim, String.toList_ofList] at hn h ⊢
  rw [ofString?, Numeral.ofChars?_digits hn h, Option.map_some, Numeral.toNumber_whole]
  rfl

theorem ofString?_ne_nan : ofString? s ≠ some nan := by
  intro h
  obtain ⟨l, _, hx⟩ := ofString?_eq_some_iff.mp h
  cases hx

theorem ofString?_eq_none (h : ∀ c ∈ s.toList, c.isDigit = false) : ofString? s = none := by
  rw [Option.eq_none_iff_forall_ne_some]
  intro x hx
  obtain ⟨l, hl, _⟩ := ofString?_eq_some_iff.mp hx
  rw [Text.trim, String.toList_ofList] at hl
  obtain ⟨c, hc⟩ := List.exists_mem_of_ne_nil _ l.ne_nil
  have hd := h c (Text.mem_of_mem_trimList (hl ▸ Literal.mem_chars hc))
  rw [l.isDigit c hc] at hd
  cases hd

end Number

-- A text reads as a number just if it is a numeral with white space around it, and then as the
-- number nearest to the value of the numeral, also where it is read as digits alone. So no text
-- reads as something that is not a number, and none without digits reads as anything.
theorem numerals_read :
    (∀ s, (Number.ofString? s).isSome ↔ (Text.trim s).toList ∈ Grammar.numeral) ∧
    (∀ s x, Number.ofString? s = some x ↔ ∃ l : Literal, l.chars = (Text.trim s).toList ∧
      Number.IsNearest l.sign.isMinus l.size x) ∧
    (∀ s, Text.trim s ≠ "" → (∀ c ∈ (Text.trim s).toList, c.isDigit) →
      Number.ofString? s = some (Number.ofDigits (Text.trim s).toList)) ∧
    (∀ s, Number.ofString? s ≠ some .nan) ∧
    ∀ s, (∀ c ∈ s.toList, c.isDigit = false) → Number.ofString? s = none :=
  ⟨fun _ => Number.isSome_ofString?_iff, fun _ _ => Number.ofString?_eq_some_iff,
    fun _ => Number.ofString?_of_digits, fun _ => Number.ofString?_ne_nan,
    fun _ => Number.ofString?_eq_none⟩

-- A small number with a point in front and an exponent, digits alone, and a word.
theorem numerals_read_half :
    (∃ x, Number.ofString? " -.5e1\u00a0" = some x ∧ Number.IsNearest true 5 x) ∧
    Number.ofString? " 007" = some (.ofNat 7) ∧
    (∀ c ∈ " -Infinity".toList, c.isDigit = false) ∧ Number.ofString? " -Infinity" = none := by
  let e : Literal.Exponent := ⟨'e', .none, ['1'], .inl rfl, List.forall_mem_singleton.mpr rfl,
    by decide⟩
  let l : Literal := ⟨.minus, [], some ['5'], some e, List.forall_mem_singleton.mpr rfl,
    by decide⟩
  have hs : l.size = 5 := by
    have h₀ : decimal [] = 0 := rfl
    have h₁ : decimal ['1'] = 1 := rfl
    have h₅ : decimal ['5'] = 5 := rfl
    norm_num [l, e, Literal.size, Literal.places, Literal.exponent, Literal.Exponent.value,
      Literal.Sign.isMinus, h₀, h₁, h₅]
  have hn : Number.IsNearest true 5 l.numeral.toNumber := hs ▸ l.isNearest_toNumber
  have hw : ∀ c ∈ " -Infinity".toList, c.isDigit = false := by
    have ha : " -Infinity".toList.all (!·.isDigit) := by decide
    simpa only [List.all_eq_true, Bool.not_eq_true'] using ha
  have hd : ∀ c ∈ (Text.trim " 007").toList, c.isDigit := by
    have ha : (Text.trim " 007").toList.all (·.isDigit) := by decide
    exact List.all_eq_true.mp ha
  exact ⟨⟨_, (numerals_read.2.1 _ _).mpr ⟨l, by decide, hs.symm ▸ hn⟩, hn⟩,
    numerals_read.2.2.1 _ (by decide) hd, hw, numerals_read.2.2.2.2 _ hw⟩

end PatternAction
