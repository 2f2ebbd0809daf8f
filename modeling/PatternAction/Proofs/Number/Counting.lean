import Mathlib.Data.List.TakeWhile
import PatternAction.Value

namespace PatternAction

theorem roundQuotient_of_dvd {num den : Nat} (hd : 0 < den) (h : den ∣ num) :
    roundQuotient num den = num / den := by
  have hr : 2 * (num % den) < den := by rwa [Nat.mod_eq_zero_of_dvd h]
  rw [roundQuotient, if_pos (.inl hr)]

namespace Number

theorem roundUnits_of_dvd {units : Nat} (h : 2 ^ spacing units ∣ units) :
    roundUnits units 1 = units := by
  rw [roundUnits, Nat.div_one, Nat.one_mul, roundQuotient_of_dvd (Nat.two_pow_pos _) h]
  exact Nat.div_mul_cancel h

theorem one_pos : 0 < one := by
  unfold one
  exact Nat.two_pow_pos 1074

theorem exists_ofUnits (negative : Bool) {n : Nat} (h : n ≤ 2 ^ 53) :
    ∃ size : Magnitude, ofUnits negative (n * one) = .finite negative size ∧
      size.units = n * one := by
  have hd : 2 ^ spacing (n * one) ∣ n * one := by
    unfold one
    exact pow_spacing_dvd h 1074
  have hr : roundUnits (n * one) 1 = n * one := roundUnits_of_dvd hd
  have hl : roundUnits (n * one) 1 < limit := by
    have hlt {a b c : Nat} (h : n ≤ 2 ^ a) (hc : a + b < c) : n * 2 ^ b < 2 ^ c :=
      calc n * 2 ^ b ≤ 2 ^ a * 2 ^ b := Nat.mul_le_mul_right _ h
        _ = 2 ^ (a + b) := (Nat.pow_add ..).symm
        _ < 2 ^ c := Nat.pow_lt_pow_right (by decide) hc
    rw [hr]
    unfold one limit
    exact hlt (a := 53) (b := 1074) (c := 2098) h (by omega)
  refine ⟨⟨roundUnits (n * one) 1, hl, pow_spacing_dvd_roundUnits _ _⟩, ?_, hr⟩
  rw [ofUnits, ofRatio, dif_pos hl]

theorem exists_ofNat {n : Nat} (h : n ≤ 2 ^ 53) :
    ∃ size : Magnitude, ofNat n = .finite false size ∧ size.units = n * one :=
  exists_ofUnits false h

theorem add_one {n : Nat} (h : n < 2 ^ 53) : (ofNat n).add (ofNat 1) = ofNat (n + 1) := by
  obtain ⟨x, hx, hxu⟩ := exists_ofNat (Nat.le_of_lt h)
  obtain ⟨y, hy, hyu⟩ := exists_ofNat (n := 1) (by decide)
  have hs : signed false x + signed false y = ((n + 1) * one : Nat) := by
    simp only [signed, hxu, hyu, Bool.false_eq_true, if_false]
    rw [← Int.natCast_add, ← Nat.add_mul]
  have hp : 0 < (n + 1) * one := Nat.mul_pos (Nat.succ_pos n) one_pos
  rw [hx, hy, add, hs, ofNat]
  generalize (n + 1) * one = k at hp
  rw [if_neg (by omega), decide_eq_false (by omega), Int.natAbs_natCast]

end Number

section Digits

theorem dropWhile_of_forall {p : Char → Bool} {cs : List Char} (h : ∀ c ∈ cs, p c = false) :
    cs.dropWhile p = cs := by
  cases cs
  case nil => rfl
  case cons c cs => rw [List.dropWhile_cons_of_neg (by simp [h c (.head _)])]

variable {n : Nat} {c : Char}

theorem isDigit_of_mem_digits (h : c ∈ Number.digits 10 n) : c.isDigit :=
  Nat.isDigit_of_mem_toDigits (by decide) (by decide) h

theorem ne_of_isDigit {d : Char} (h : c.isDigit) (hd : d.isDigit = false) : c ≠ d := by
  rintro rfl
  exact Bool.false_ne_true (hd.symm.trans h)

theorem digits_ne_nil : Number.digits 10 n ≠ [] := Nat.toDigits_ne_nil

theorem ofList_digits : String.ofList (Number.digits 10 n) = toString n := rfl

theorem natOfDigits_digits (n : Nat) : Numeral.natOfDigits (Number.digits 10 n) = n :=
  Nat.ofDigitChars_toDigits (by decide) (by decide)

theorem toString_inj {m : Nat} (h : toString m = toString n) : m = n := by
  have h := congrArg (fun s => Numeral.natOfDigits s.toList) h
  rwa [← ofList_digits, ← ofList_digits, String.toList_ofList, String.toList_ofList,
    natOfDigits_digits, natOfDigits_digits] at h

theorem toNat_of_isDigit (h : c.isDigit) : 48 ≤ c.toNat ∧ c.toNat ≤ 57 := by
  simpa [Char.isDigit, UInt32.le_iff_toNat_le] using h

theorem isBlank_of_isDigit (h : c.isDigit) : Text.isBlank c = false := by
  have h := toNat_of_isDigit h
  simp only [Text.isBlank, Bool.or_eq_false_iff, Bool.and_eq_false_iff, decide_eq_false_iff_not,
    beq_eq_false_iff_ne]
  omega

end Digits

namespace Number

theorem pointed_of_whole (n : Nat) :
    pointed 5 (n * 10 ^ 5) = digits 10 n ++ ['.', '0', '0', '0', '0', '0'] := by
  rw [pointed, if_neg (by decide), Nat.mul_div_cancel _ (by decide), Nat.mul_mod_left]
  rfl

theorem trimFraction_of_whole {ds : List Char} (h : ∀ c ∈ ds, c.isDigit) :
    trimFraction (ds ++ ['.', '0', '0', '0', '0', '0']) = ds := by
  have hd : ds.reverse.dropWhile (· = '.') = ds.reverse := by
    refine dropWhile_of_forall fun c hc => ?_
    rw [List.mem_reverse] at hc
    have := toNat_of_isDigit (h c hc)
    simp only [decide_eq_false_iff_not]
    rintro rfl
    exact absurd this (by decide)
  rw [trimFraction, if_pos (by simp), List.reverse_append]
  change ((ds.reverse.dropWhile (· = '.')).reverse) = ds
  rw [hd, List.reverse_reverse]

theorem canonical_of_whole (negative : Bool) {size : Magnitude} {n : Nat}
    (h : size.units = n * one) : (finite negative size).canonical =
      String.ofList ((if negative && n ≠ 0 then ['-'] else []) ++ digits 10 n) := by
  have hs : scaled 5 size.units = n * 10 ^ 5 := by
    have he : size.units * 10 ^ 5 = n * 10 ^ 5 * one := by rw [h, Nat.mul_right_comm]
    rw [scaled, he, roundQuotient_of_dvd one_pos (Nat.dvd_mul_left _ _)]
    exact Nat.mul_div_cancel _ one_pos
  have hz : (n * 10 ^ 5 ≠ 0) = (n ≠ 0) := propext (by omega)
  rw [canonical, hs, pointed_of_whole, trimFraction_of_whole fun _ => isDigit_of_mem_digits]
  simp only [hz]
  split <;> rfl

theorem canonical_ofNat {n : Nat} (h : n ≤ 2 ^ 53) : (ofNat n).canonical = toString n := by
  obtain ⟨size, hn, hu⟩ := exists_ofNat h
  rw [hn, canonical_of_whole false hu]
  rfl

end Number

theorem Numeral.sign_of_isDigit {c : Char} (cs : List Char) (h : c.isDigit) :
    sign (c :: cs) = (false, c :: cs) := by
  unfold sign
  split
  case h_1 hc =>
    cases hc
    cases h
  case h_2 hc =>
    cases hc
    cases h
  case h_3 => rfl

theorem Numeral.ofChars?_digits {ds : List Char} (hn : ds ≠ []) (h : ∀ c ∈ ds, c.isDigit) :
    ofChars? ds = some ⟨false, natOfDigits ds, 0⟩ := by
  have ht : ds.takeWhile Char.isDigit = ds := List.takeWhile_eq_self_iff.mpr h
  have hd : ds.dropWhile Char.isDigit = [] := List.dropWhile_eq_nil_iff.mpr h
  obtain ⟨c, cs, rfl⟩ := List.exists_cons_of_ne_nil hn
  rw [ofChars?, sign_of_isDigit cs (h c (.head _))]
  simp only [ht, hd, fraction, List.append_nil, exponent?]
  rw [if_neg (by simp)]
  rfl

theorem Numeral.toNumber_whole (n : Nat) : toNumber ⟨false, n, 0⟩ = .ofNat n := by
  unfold toNumber
  by_cases h : n = 0
  case pos =>
    subst h
    rw [if_pos rfl, Number.ofNat, Nat.zero_mul]
  case neg =>
    change (if n = 0 then _ else if 0 < 400 then Number.ofUnits false (n * 10 ^ 0 * Number.one)
      else _) = _
    rw [if_neg h, if_pos (by decide), Nat.pow_zero, Nat.mul_one]
    rfl

namespace Value

theorem number_toString (n : Nat) : (⟨toString n⟩ : Value).number = .ofNat n := by
  have hd (c : Char) (h : c ∈ Number.digits 10 n) : c.isDigit := isDigit_of_mem_digits h
  have ht : Text.trimList Text.isBlank (Number.digits 10 n) = Number.digits 10 n := by
    have hb (cs : List Char) (h : ∀ c ∈ cs, c.isDigit) : cs.dropWhile Text.isBlank = cs :=
      dropWhile_of_forall fun c hc => isBlank_of_isDigit (h c hc)
    rw [Text.trimList, hb _ hd, hb, List.reverse_reverse]
    exact fun c hc => hd c (List.mem_reverse.mp hc)
  rw [number, number?, Number.ofString?, ← ofList_digits, String.toList_ofList, ht,
    Numeral.ofChars?_digits digits_ne_nil hd, natOfDigits_digits, Option.map_some, Option.getD_some,
    Numeral.toNumber_whole]

theorem ofNat_eq {n : Nat} (h : n ≤ 2 ^ 53) : ofNat n = ⟨toString n⟩ := by
  rw [ofNat, ofNumber, Number.canonical_ofNat h]

theorem ofNumber_count {n : Nat} (h : n < 2 ^ 53) :
    ofNumber ((⟨toString n⟩ : Value).number.add (.ofNat 1)) = ⟨toString (n + 1)⟩ := by
  rw [number_toString, Number.add_one h, ofNumber, Number.canonical_ofNat h]

end Value

end PatternAction
