import Mathlib.Order.Bounds.Basic
import PatternAction.Proofs.Number.Truncation
import PatternAction.Proofs.Text.Encoding
import PatternAction.Text.Position

namespace PatternAction

namespace Number

-- A number whose value is whole. Zero has two of them.
def IsWhole (x : Number) (i : ℤ) : Prop :=
  ∃ negative size, x = .finite negative size ∧ value negative size = i

variable {x y : Number} {i j : ℤ} {negative : Bool} {size : Magnitude}

theorem value_eq_iff : value negative size = i ↔ signed negative size = i * one := by
  have ho : (one : ℚ) ≠ 0 := Nat.cast_ne_zero.mpr one_pos.ne'
  rw [value, div_eq_iff ho]
  exact_mod_cast Iff.rfl

theorem units_of_value (h : value negative size = i) : size.units = i.natAbs * one := by
  have hs := congrArg Int.natAbs (value_eq_iff.mp h)
  rw [Int.natAbs_mul, Int.natAbs_natCast] at hs
  rw [← hs, signed]
  cases negative <;> simp

theorem isWhole_ofUnits (negative : Bool) {n : ℕ} (h : n ≤ 2 ^ 53) :
    (ofUnits negative (n * one)).IsWhole (if negative then -(n : ℤ) else n) := by
  obtain ⟨size, hs, hu⟩ := exists_ofUnits negative h
  exact ⟨negative, size, hs, value_of_whole negative hu⟩

theorem isWhole_ofNat {n : ℕ} (h : n ≤ 2 ^ 53) : (ofNat n).IsWhole n := isWhole_ofUnits false h

theorem isWhole_zero : zero.IsWhole 0 := by
  have h := isWhole_ofNat (n := 0) (by decide)
  rwa [ofNat, Nat.zero_mul] at h

theorem isWhole_ofInt (h : i.natAbs ≤ 2 ^ 53) :
    (ofUnits (i < 0) (i.natAbs * one)).IsWhole i := by
  have hi := isWhole_ofUnits (i < 0) h
  have he : (if decide (i < 0) then -(i.natAbs : ℤ) else i.natAbs) = i := by
    simp only [decide_eq_true_eq]
    split <;> omega
  rwa [he] at hi

namespace IsWhole

theorem isNan (h : x.IsWhole i) : x.isNan = false := by
  obtain ⟨_, _, rfl, _⟩ := h
  rfl

theorem isNegative (h : x.IsWhole i) : x.isNegative ↔ i < 0 := by
  obtain ⟨negative, size, rfl, hv⟩ := h
  rw [isNegative_iff, hv, Int.cast_lt_zero]

theorem isZero (h : x.IsWhole i) : x.isZero ↔ i = 0 := by
  obtain ⟨negative, size, rfl, hv⟩ := h
  rw [Number.isZero, units_of_value hv, beq_iff_eq, Nat.mul_eq_zero, Int.natAbs_eq_zero]
  exact or_iff_left one_pos.ne'

theorem add (hx : x.IsWhole i) (hy : y.IsWhole j) (h : (i + j).natAbs ≤ 2 ^ 53) :
    (x.add y).IsWhole (i + j) := by
  obtain ⟨a, u, rfl, hu⟩ := hx
  obtain ⟨b, v, rfl, hv⟩ := hy
  have hs : signed a u + signed b v = (i + j) * one := by
    rw [value_eq_iff.mp hu, value_eq_iff.mp hv, Int.add_mul]
  have ho : (0 : ℤ) < one := Int.natCast_pos.mpr one_pos
  rw [Number.add, hs]
  split
  case isTrue h₀ =>
    have hij : i + j = 0 := (Int.mul_eq_zero.mp h₀).resolve_right (Int.ne_of_gt ho)
    have hz := isWhole_ofUnits (a && b) (n := 0) (by decide)
    rwa [Nat.zero_mul, Int.natCast_zero, Int.neg_zero, ite_self, ← hij] at hz
  case isFalse =>
    have hn : ((i + j) * one < 0) = (i + j < 0) := by
      rw [mul_neg_iff]
      exact propext (by omega)
    simp only [hn, Int.natAbs_mul, Int.natAbs_natCast]
    exact isWhole_ofInt h

theorem position (h : x.IsWhole i) (hi : i < 2 ^ 64) : Text.position x = i.toNat := by
  obtain ⟨negative, size, rfl, hv⟩ := h
  have ht : truncate (i : ℚ) = i := by
    unfold truncate
    split
    case isTrue => exact Int.floor_intCast i
    case isFalse => exact Int.ceil_intCast i
  have hw := truncate_value negative size
  rw [hv, ht] at hw
  rw [Text.position, toIntWithin, ← hw]
  omega

end IsWhole

theorem ofUnits_units (negative : Bool) (size : Magnitude) :
    ofUnits negative size.units = .finite negative size := by
  have hr : roundUnits size.units 1 = size.units := roundUnits_of_dvd size.dvd
  have hl : roundUnits size.units 1 < limit := by
    rw [hr]
    exact size.lt_limit
  rw [ofUnits, ofRatio, dif_pos hl]
  exact congrArg _ (Magnitude.eq_of_units_eq hr)

theorem zero_add (h : x.isZero = false) : zero.add x = x := by
  obtain ⟨size₀, hz, hu⟩ := exists_ofUnits false (n := 0) (by decide)
  rw [Nat.zero_mul] at hz hu
  rw [zero, hz]
  cases x
  case nan | infinite => rfl
  case finite negative size =>
    have hn : 0 < size.units := Nat.pos_of_ne_zero (by simpa [isZero] using h)
    have hs : signed false size₀ + signed negative size = signed negative size := by
      simp [signed, hu]
    rw [Number.add, hs, ← ofUnits_units negative size]
    cases negative
    case false =>
      have hn' : ¬(size.units : ℤ) < 0 := by omega
      simp [signed, hn.ne', hn']
    case true => simp [signed, hn.ne', hn]

theorem position_of_isZero (h : x.isZero) : Text.position x = 0 := by
  cases x
  case nan | infinite => cases h
  case finite negative size =>
    have hu : size.units = 0 := by simpa [isZero] using h
    rw [Text.position, toIntWithin, hu, Int.natCast_zero, Int.zero_ediv, Int.neg_zero, ite_self]
    rfl

end Number

namespace Text

variable {c : Char} {cs part : List Char} {start length : Number} {i j : ℤ}

-- A start before the text counts as its beginning.
def beginning (start : Number) : Number :=
  if start.isNan || start.isNegative then .zero else start

-- The position where a part begins, and the one where it ends.
def first (size : ℕ) (start : Number) : ℕ := min (position (beginning start)) size

def last (size : ℕ) (start : Number) : Option Number → ℕ
  | none => size
  | some length =>
    if length.isNan || length.isNegative || length.isZero then first size start
    else max (first size start) (min (position ((beginning start).add length)) size)

theorem substring_eq (cs : List Char) (start : Number) (length : Option Number) :
    substring cs start length = (cs.drop (first cs.length start)).take
      (last cs.length start length - first cs.length start) := by
  cases length <;> rfl

theorem first_le (size : ℕ) (start : Number) : first size start ≤ size := Nat.min_le_right _ _

theorem first_le_last (size : ℕ) (start : Number) (length : Option Number) :
    first size start ≤ last size start length := by
  cases length
  case none => exact first_le size start
  case some =>
    rw [last]
    split
    case isTrue => exact Nat.le_refl _
    case isFalse => exact Nat.le_max_left _ _

theorem last_le (size : ℕ) (start : Number) (length : Option Number) :
    last size start length ≤ size := by
  cases length
  case none => exact Nat.le_refl _
  case some =>
    rw [last]
    split
    case isTrue => exact first_le size start
    case isFalse => exact Nat.max_le.mpr ⟨first_le size start, Nat.min_le_right _ _⟩

theorem position_zero : position .zero = 0 :=
  Number.position_of_isZero (Number.isWhole_zero.isZero.mpr rfl)

theorem beginning_zero : beginning .zero = .zero := ite_self _

theorem first_zero (size : ℕ) : first size .zero = 0 := by
  rw [first, beginning_zero, position_zero, Nat.zero_min]

theorem last_zero (size : ℕ) (k : Number) : last size .zero (some k) = first size k := by
  have hz := position_zero
  rw [last, first_zero, beginning_zero, first, beginning]
  by_cases hn : k.isNan || k.isNegative
  case pos => simp [hn, hz]
  case neg =>
    rw [Bool.not_eq_true] at hn
    by_cases h₀ : k.isZero
    case pos => simp [hn, h₀, Number.position_of_isZero h₀]
    case neg =>
      rw [Bool.not_eq_true] at h₀
      simp [hn, h₀, Number.zero_add h₀]

theorem substring_append (cs : List Char) (k : Number) :
    substring cs .zero (some k) ++ substring cs k none = cs := by
  have hl : (cs.drop (first cs.length k)).length ≤ cs.length - first cs.length k := by simp
  rw [substring_eq, substring_eq, last_zero, first_zero, last, List.take_of_length_le hl]
  exact List.take_append_drop _ _

theorem beginning_whole (h : start.IsWhole i) : (beginning start).IsWhole (max i 0) := by
  rw [beginning, h.isNan, Bool.false_or]
  split
  case isTrue hn =>
    rw [Int.max_eq_right (Int.le_of_lt (h.isNegative.mp hn))]
    exact Number.isWhole_zero
  case isFalse hn =>
    rwa [Int.max_eq_left (Int.not_lt.mp (mt h.isNegative.mpr hn))]

theorem substring_whole (hx : start.IsWhole i) (hy : length.IsWhole j) (hi : i.natAbs < 2 ^ 52)
    (hj : j.natAbs < 2 ^ 52) :
    substring cs start (some length) = (cs.drop i.toNat).take j.toNat := by
  have hb := beginning_whole hx
  have hf : first cs.length start = min i.toNat cs.length := by
    rw [first, hb.position (by omega)]
    omega
  rw [substring_eq, last, hy.isNan, Bool.false_or, hf]
  split
  case isTrue h =>
    have hj₀ : j.toNat = 0 := by
      rw [Bool.or_eq_true, hy.isNegative, hy.isZero] at h
      omega
    rw [Nat.sub_self, hj₀, List.take_zero, List.take_zero]
  case isFalse h =>
    rw [Bool.or_eq_true, hy.isNegative, hy.isZero] at h
    have hs := (hb.add hy (by omega)).position (by omega)
    rw [hs]
    rcases Nat.le_total i.toNat cs.length with hle | hle
    · rw [Nat.min_eq_left hle, List.take_eq_take_iff, List.length_drop]
      omega
    · rw [Nat.min_eq_right hle, List.drop_length, List.drop_of_length_le hle, List.take_nil,
        List.take_nil]

theorem take_drop_eq (cs : List Char) (m n : ℕ) :
    (cs.drop m).take n = (List.range' m n).filterMap (cs[·]?) := by
  induction n generalizing m
  case zero => rfl
  case succ n ih =>
    rw [List.range'_succ, List.filterMap_cons, ← ih]
    rcases Nat.lt_or_ge m cs.length with hm | hm
    · rw [List.drop_eq_getElem_cons hm, List.getElem?_eq_getElem hm, List.take_succ_cons]
    · rw [List.drop_of_length_le hm, List.getElem?_eq_none hm,
        List.drop_of_length_le (Nat.le_succ_of_le hm), List.take_nil, List.take_nil]

def places (part cs : List Char) : Set ℕ := {p | part <+: cs.drop p ∧ p + part.length ≤ cs.length}

theorem zero_mem_places : 0 ∈ places part cs ↔ part <+: cs := by
  rw [places, Set.mem_ofPred_eq, List.drop_zero, Nat.zero_add]
  exact and_iff_left_of_imp List.IsPrefix.length_le

theorem succ_mem_places {p : ℕ} : p + 1 ∈ places part (c :: cs) ↔ p ∈ places part cs := by
  rw [places, Set.mem_ofPred_eq, List.drop_succ_cons, List.length_cons, Nat.add_right_comm,
    Nat.add_le_add_iff_right]
  rfl

theorem isLeast_of_zero_mem (h : 0 ∈ places part cs) : IsLeast (places part cs) 0 :=
  ⟨h, fun _ _ => Nat.zero_le _⟩

theorem isLeast_of_indexOf? {p : ℕ} (h : indexOf? part cs = some p) :
    IsLeast (places part cs) p := by
  fun_induction indexOf? part cs generalizing p
  case case1 hp =>
    cases h
    exact isLeast_of_zero_mem (zero_mem_places.mpr (by simpa using hp))
  case case2 => cases h
  case case3 hp =>
    cases h
    exact isLeast_of_zero_mem (zero_mem_places.mpr (List.isPrefixOf_iff_prefix.mp hp))
  case case4 c cs hp ih =>
    obtain ⟨q, hq, rfl⟩ := Option.map_eq_some_iff.mp h
    refine ⟨succ_mem_places.mpr (ih hq).1, fun r hr => ?_⟩
    cases r
    case zero => exact absurd (List.isPrefixOf_iff_prefix.mpr (zero_mem_places.mp hr)) hp
    case succ r => exact Nat.succ_le_succ ((ih hq).2 (succ_mem_places.mp hr))

theorem places_of_indexOf? (h : indexOf? part cs = none) : places part cs = ∅ := by
  refine Set.eq_empty_iff_forall_notMem.mpr fun p hm => ?_
  fun_induction indexOf? part cs generalizing p
  case case1 | case3 => cases h
  case case2 hp =>
    have hl := hm.2
    have hn : part.length ≠ 0 := by simpa using hp
    rw [List.length_nil] at hl
    omega
  case case4 c cs hp ih =>
    cases p
    case zero => exact hp (List.isPrefixOf_iff_prefix.mpr (zero_mem_places.mp hm))
    case succ p => exact ih (Option.map_eq_none_iff.mp h) p (succ_mem_places.mp hm)

theorem indexOf?_eq_some_iff {p : ℕ} :
    indexOf? part cs = some p ↔ IsLeast (places part cs) p := by
  refine ⟨isLeast_of_indexOf?, fun h => ?_⟩
  cases hi : indexOf? part cs
  case none => exact absurd (places_of_indexOf? hi ▸ h.1) (Set.notMem_empty p)
  case some q => rw [(isLeast_of_indexOf? hi).unique h]

theorem indexOf?_eq_none_iff : indexOf? part cs = none ↔ places part cs = ∅ := by
  refine ⟨places_of_indexOf?, fun h => ?_⟩
  cases hi : indexOf? part cs
  case none => rfl
  case some q => exact absurd (h ▸ (isLeast_of_indexOf? hi).1) (Set.notMem_empty q)

def offset (cs : List Char) (p : ℕ) : ℕ := (bytes (cs.take p)).length

theorem offset_monotone (cs : List Char) : Monotone (offset cs) := by
  intro p q h
  obtain ⟨rest, hr⟩ := List.take_prefix_take_left h (l := cs)
  rw [offset, offset, ← hr, bytes_append, List.length_append]
  exact Nat.le_add_right _ _

theorem bytes_places (hp : part ≠ []) :
    {b | bytes part <+: (bytes cs).drop b} = offset cs '' places part cs := by
  refine Set.ext fun b => (bytes_prefix_drop_iff hp).trans (exists_congr fun p => ?_)
  refine and_congr_left fun _ => ⟨fun h => ⟨h, ?_⟩, And.left⟩
  have hl := h.length_le
  have hn := List.length_pos_iff.mpr hp
  rw [List.length_drop] at hl
  omega

theorem isLeast_bytes_iff (hp : part ≠ []) {b : ℕ} :
    IsLeast {b | bytes part <+: (bytes cs).drop b} b ↔
      ∃ p, indexOf? part cs = some p ∧ offset cs p = b := by
  rw [bytes_places hp]
  constructor
  case mp =>
    intro h
    obtain ⟨q, hq, _⟩ := h.1
    cases hi : indexOf? part cs
    case none => exact absurd (places_of_indexOf? hi ▸ hq) (Set.notMem_empty q)
    case some p =>
      have hl := (offset_monotone cs).map_isLeast (isLeast_of_indexOf? hi)
      exact ⟨p, rfl, hl.unique h⟩
  case mpr =>
    rintro ⟨p, hi, rfl⟩
    exact (offset_monotone cs).map_isLeast (isLeast_of_indexOf? hi)

theorem places_eq (hc : cs.length < 2 ^ 52) (hp : part.length < 2 ^ 52) : places part cs =
    {p | substring cs (.ofNat p) (some (.ofNat part.length)) = part ∧
      p + part.length ≤ cs.length} := by
  refine Set.ext fun p => and_congr_left fun hle => ?_
  have hx := Number.isWhole_ofNat (n := p) (by omega)
  have hy := Number.isWhole_ofNat (n := part.length) (by omega)
  rw [substring_whole hx hy (by omega) (by omega), Int.toNat_natCast, Int.toNat_natCast,
    List.prefix_iff_eq_take, eq_comm]

end Text

-- A text cut in two at any number is whole again. The part from a whole number on, as long as
-- another one, is made of the characters at those positions that there are; a negative number
-- counts as zero. A text stands in another one first at the least position where the part of its
-- length is that text, and among the bytes of the other one first at the offset of that position.
-- Where a part begins is never after where it ends, and neither is after the end of the text,
-- whatever numbers are given.
theorem positions_agree (s : String) :
    (∀ k, Text.substring s.toList .zero (some k) ++ Text.substring s.toList k none = s.toList) ∧
    (∀ (start length : ℤ) (x y : Number), start.natAbs < 2 ^ 52 → length.natAbs < 2 ^ 52 →
      x.IsWhole start → y.IsWhole length →
      Text.substring s.toList x (some y) =
        (List.range' (max start 0).toNat (max length 0).toNat).filterMap (s.toList[·]?)) ∧
    (∀ part : String, s.length < 2 ^ 52 → part.length < 2 ^ 52 →
      let places := {p | Text.substring s.toList (.ofNat p) (some (.ofNat part.length)) =
        part.toList ∧ p + part.length ≤ s.length}
      (∀ p, Text.indexOf? part.toList s.toList = some p ↔ IsLeast places p) ∧
      (Text.indexOf? part.toList s.toList = none ↔ places = ∅)) ∧
    (∀ (part : String) (b : ℕ), part ≠ "" →
      (IsLeast {b | part.toUTF8.data.toList <+: s.toUTF8.data.toList.drop b} b ↔
        ∃ p, Text.indexOf? part.toList s.toList = some p ∧ Text.offset s.toList p = b)) ∧
    ∀ start length,
      let first := Text.first s.length start
      let last := Text.last s.length start length
      Text.substring s.toList start length = (s.toList.drop first).take (last - first) ∧
      first ≤ last ∧ first ≤ s.length ∧ last ≤ s.length := by
  refine ⟨Text.substring_append s.toList, fun start length x y hs hl hx hy => ?_,
    fun part hs hp => ?_, fun part b hp => ?_,
    fun start length => ⟨?_, ?_, Text.first_le _ _, Text.last_le _ _ _⟩⟩
  · have hm (i : ℤ) : (max i 0).toNat = i.toNat := by omega
    rw [Text.substring_whole hx hy hs hl, Text.take_drop_eq, hm, hm]
  · rw [← String.length_toList] at hs hp ⊢
    rw [← String.length_toList, ← Text.places_eq hs hp]
    exact ⟨fun _ => Text.indexOf?_eq_some_iff, Text.indexOf?_eq_none_iff⟩
  · rw [Text.toUTF8_eq, Text.toUTF8_eq]
    exact Text.isLeast_bytes_iff (mt String.toList_eq_nil_iff.mp hp)
  · rw [← String.length_toList]
    exact Text.substring_eq s.toList start length
  · exact Text.first_le_last _ _ _

-- Characters of two bytes each, a start before the text, and a part that stands there twice.
theorem positions_agree_greek :
    (∃ x y : Number, x.IsWhole (-1) ∧ y.IsWhole 2 ∧
      Text.substring "αβγβ".toList x (some y) = "αβ".toList) ∧
    Text.indexOf? "β".toList "αβγβ".toList = some 1 ∧
    IsLeast {p | Text.substring "αβγβ".toList (.ofNat p) (some (.ofNat "β".length)) = "β".toList ∧
      p + "β".length ≤ "αβγβ".length} 1 ∧
    IsLeast {b | "β".toUTF8.data.toList <+: "αβγβ".toUTF8.data.toList.drop b} 2 := by
  obtain ⟨_, hpart, hindex, hbytes, _⟩ := positions_agree "αβγβ"
  have hx := Number.isWhole_ofInt (i := -1) (by decide)
  have hy := Number.isWhole_ofInt (i := 2) (by decide)
  have hi : Text.indexOf? "β".toList "αβγβ".toList = some 1 := by decide
  exact ⟨⟨_, _, hx, hy, hpart (-1) 2 _ _ (by decide) (by decide) hx hy⟩, hi,
    ((hindex "β" (by decide) (by decide)).1 1).mp hi,
    (hbytes "β" 2 (by decide)).mpr ⟨1, hi, by decide⟩⟩

end PatternAction
