import PatternAction.Proofs.Format.Padding
import PatternAction.Proofs.Number.Truncation

namespace PatternAction

-- A way to write whole numbers: its digits, from zero up, and its mark.
structure Base where
  conversion : Char
  digits     : List Char
  mark       : List Char
deriving DecidableEq

namespace Base

def octal : Base := ⟨'o', "01234567".toList, "0".toList⟩

def lower : Base := ⟨'x', "0123456789abcdef".toList, "0x".toList⟩

def upper : Base := ⟨'X', "0123456789ABCDEF".toList, "0X".toList⟩

def all : List Base := [octal, lower, upper]

variable (b : Base)

-- The value of digits, each counting by its place.
def value (cs : List Char) : ℕ :=
  cs.foldl (fun n c => b.digits.length * n + b.digits.idxOf c) 0

-- The digits of a number, after a mark.
def Spells (mark cs : List Char) (n : ℕ) : Prop :=
  ∃ ds, mark ++ ds = cs ∧ ds ≠ [] ∧ (∀ c ∈ ds, c ∈ b.digits) ∧ b.value ds = n

theorem value_concat (cs : List Char) (c : Char) :
    b.value (cs ++ [c]) = b.digits.length * b.value cs + b.digits.idxOf c := by
  simp [value]

def letter : Char → Char := if b.conversion = 'X' then Char.toUpper else id

def write (n : ℕ) : List Char := (Number.digits b.digits.length n).map b.letter

variable {b} (hb : b ∈ all)
include hb

theorem cases_of_mem_all : b = octal ∨ b = lower ∨ b = upper := by
  simpa [all] using hb

theorem one_lt_length : 1 < b.digits.length := by
  rcases cases_of_mem_all hb with rfl | rfl | rfl <;> decide

theorem digit_spells {k : ℕ} (h : k < b.digits.length) :
    b.letter k.digitChar ∈ b.digits ∧ b.digits.idxOf (b.letter k.digitChar) = k := by
  revert k
  rcases cases_of_mem_all hb with rfl | rfl | rfl <;> decide

theorem write_spells (n : ℕ) : (∀ c ∈ b.write n, c ∈ b.digits) ∧ b.value (b.write n) = n := by
  have hl := one_lt_length hb
  induction n using Nat.strong_induction_on
  case h n ih =>
    rcases Nat.lt_or_ge n b.digits.length with h | h
    · obtain ⟨hm, hv⟩ := digit_spells hb h
      rw [write, Number.digits, Nat.toDigits_of_lt_base h, List.map_singleton]
      refine ⟨List.forall_mem_singleton.mpr hm, ?_⟩
      rw [← List.nil_append [_], value_concat, hv]
      exact Nat.zero_add n
    · obtain ⟨hm, hv⟩ := digit_spells hb (Nat.mod_lt n (Nat.zero_lt_of_lt hl))
      obtain ⟨hd, hw⟩ := ih _ (Nat.div_lt_self (Nat.lt_of_lt_of_le (Nat.zero_lt_of_lt hl) h) hl)
      have he : b.write n = b.write (n / b.digits.length) ++
          [b.letter (n % b.digits.length).digitChar] := by
        rw [write, Number.digits, Nat.toDigits_of_base_le hl h, List.map_append]
        rfl
      rw [he]
      refine ⟨List.forall_mem_append.mpr ⟨hd, List.forall_mem_singleton.mpr hm⟩, ?_⟩
      rw [value_concat, hw, hv]
      exact Nat.div_add_mod n _

theorem length_write_le {n k : ℕ} (hk : 0 < k) :
    (b.write n).length ≤ k ↔ n < b.digits.length ^ k := by
  rw [write, List.length_map]
  exact Nat.length_toDigits_le_iff (one_lt_length hb) hk

omit hb in
theorem write_ne_nil {n : ℕ} : b.write n ≠ [] := by
  simp [write, Number.digits]

theorem zeros_spell (k : ℕ) {ds : List Char} (h : ∀ c ∈ ds, c ∈ b.digits) :
    (∀ c ∈ List.replicate k '0' ++ ds, c ∈ b.digits) ∧
      b.value (List.replicate k '0' ++ ds) = b.value ds := by
  have hz : '0' ∈ b.digits ∧ b.digits.idxOf '0' = 0 := by
    rcases cases_of_mem_all hb with rfl | rfl | rfl <;> decide
  induction k
  case zero => exact ⟨h, rfl⟩
  case succ k ih =>
    refine ⟨List.forall_mem_cons.mpr ⟨hz.1, ih.1⟩, ?_⟩
    rw [← ih.2, List.replicate_succ, List.cons_append, value, value, List.foldl_cons, hz.2]
    rfl

theorem notSign_of_mem : ∀ c ∈ b.mark ++ b.digits, c ≠ '-' ∧ c ≠ '+' ∧ c ≠ ' ' := by
  have h : (b.mark ++ b.digits).all fun c => c ≠ '-' ∧ c ≠ '+' ∧ c ≠ ' ' := by
    rcases cases_of_mem_all hb with rfl | rfl | rfl <;> rfl
  simpa only [List.all_eq_true, decide_eq_true_eq] using h

theorem conversion_ne : b.conversion ≠ '%' := by
  rcases cases_of_mem_all hb with rfl | rfl | rfl <;> decide

theorem spells_zeros (k n : ℕ) : b.Spells [] (List.replicate k '0' ++ b.write n) n := by
  obtain ⟨hd, hv⟩ := write_spells hb n
  obtain ⟨hz, hw⟩ := zeros_spell hb k hd
  exact ⟨_, rfl, by simp [write_ne_nil], hz, hw.trans hv⟩

-- After zeros a mark is still at the front if it is a zero, but not if it has a letter.
theorem spells_mark_iff (k n : ℕ) :
    b.Spells b.mark (List.replicate k '0' ++ (b.mark ++ b.write n)) n ↔ ¬(b ≠ octal ∧ 0 < k) := by
  constructor
  case mp =>
    rintro ⟨ds, he, _⟩ ⟨ho, hk⟩
    obtain ⟨j, rfl⟩ := Nat.exists_eq_add_one.mpr hk
    rw [List.replicate_succ] at he
    rcases cases_of_mem_all hb with rfl | rfl | rfl
    · exact ho rfl
    all_goals cases j <;> cases he
  case mpr =>
    intro h
    obtain ⟨ds, he, hs⟩ := spells_zeros hb k n
    rcases Nat.eq_zero_or_pos k with rfl | hk
    · exact ⟨ds, congrArg (b.mark ++ ·) he, hs⟩
    · obtain rfl : b = octal := not_not.mp fun ho => h ⟨ho, hk⟩
      have hc : '0' :: List.replicate k '0' = List.replicate k '0' ++ ['0'] := by
        rw [← List.replicate_succ, List.replicate_succ']
      refine ⟨ds, (congrArg ('0' :: ·) he).trans ?_, hs⟩
      change ('0' :: List.replicate k '0') ++ octal.write n = _ ++ (['0'] ++ octal.write n)
      rw [hc, List.append_assoc]

end Base

namespace Directive

variable (d : Directive) {b : Base}

-- What is written in a base, with the mark if it is asked for.
def marked (b : Base) (n : ℕ) : List Char :=
  (if d.alternate ∧ n ≠ 0 then b.mark else []) ++ b.write n

theorem render_base (hb : b ∈ Base.all) (v : Value) : d.render b.conversion v =
    d.pad true (d.marked b (v.number.toIntWithin (-2 ^ 63) (2 ^ 63 - 1) % 2 ^ 64).toNat) := by
  have he (base : ℕ) (mark : String) (upper : Bool) : d.based base mark upper v.number =
      (if d.alternate ∧ (v.number.toIntWithin (-2 ^ 63) (2 ^ 63 - 1) % 2 ^ 64).toNat ≠ 0
        then mark.toList else []) ++ (Number.digits base
          (v.number.toIntWithin (-2 ^ 63) (2 ^ 63 - 1) % 2 ^ 64).toNat).map
            (if upper then Char.toUpper else id) := by
    unfold based
    dsimp only
    cases upper <;> split <;> simp
  rcases Base.cases_of_mem_all hb with rfl | rfl | rfl
  · exact congrArg (d.pad true) (he 8 "0" false)
  · exact congrArg (d.pad true) (he 16 "0x" false)
  · exact congrArg (d.pad true) (he 16 "0X" true)

theorem notSign_of_mem_marked (hb : b ∈ Base.all) {n : ℕ} :
    ∀ c ∈ d.marked b n, c ≠ '-' ∧ c ≠ '+' ∧ c ≠ ' ' := by
  intro c hc
  refine b.notSign_of_mem hb c ?_
  unfold marked at hc
  rcases List.mem_append.mp hc with hc | hc
  · split at hc
    case isTrue => exact List.mem_append_left _ hc
    case isFalse => cases hc
  · exact List.mem_append_right _ ((b.write_spells hb n).1 c hc)

theorem marked_ne_nil {n : ℕ} : d.marked b n ≠ [] := by
  simp [marked, Base.write_ne_nil]

theorem trimList_based (hb : b ∈ Base.all) (n : ℕ) :
    Text.trimList (· = ' ') (d.pad true (d.marked b n)) =
      List.replicate (d.zeros (d.marked b n).length) '0' ++ d.marked b n :=
  trimList_pad (s := .none) (.inl rfl) d.marked_ne_nil (d.notSign_of_mem_marked hb)

end Directive

namespace Number

variable {negative : Bool} {size : Magnitude} {n : ℕ}

theorem toIntWithin_of_truncate (h : truncate (value negative size) = n) (hu : n < 2 ^ 63) :
    ((finite negative size).toIntWithin (-2 ^ 63) (2 ^ 63 - 1) % 2 ^ 64).toNat = n := by
  rw [truncate_value] at h
  rw [toIntWithin, h]
  omega

end Number

-- Whether zeros are put before a mark.
def Directive.Parts.SplitsMark (p : Directive.Parts) (b : Base) (n : ℕ) : Prop :=
  '#' ∈ p.flags ∧ '0' ∈ p.flags ∧ '-' ∉ p.flags ∧ b ≠ .octal ∧ n ≠ 0 ∧ n < 16 ^ (p.fieldWidth - 3)

theorem Directive.Parts.zeros_pos_iff (p : Directive.Parts) {b : Base} (hb : b ∈ Base.all)
    (ho : b ≠ .octal) {n : ℕ} (hn : n ≠ 0) :
    0 < p.directive.zeros (b.mark ++ b.write n).length ↔
      '0' ∈ p.flags ∧ '-' ∉ p.flags ∧ n < 16 ^ (p.fieldWidth - 3) := by
  have hb' : b.mark.length = 2 ∧ b.digits.length = 16 := by
    rcases Base.cases_of_mem_all hb with rfl | rfl | rfl
    · exact absurd rfl ho
    all_goals decide
  have hl : 0 < (b.write n).length := List.length_pos_iff.mpr Base.write_ne_nil
  have hw : 0 < p.fieldWidth - (b.mark ++ b.write n).length ↔ n < 16 ^ (p.fieldWidth - 3) := by
    rw [List.length_append, hb'.1]
    rcases Nat.eq_zero_or_pos (p.fieldWidth - 3) with h | h
    · rw [h, Nat.pow_zero]
      omega
    · have hk := b.length_write_le hb (n := n) h
      rw [hb'.2] at hk
      rw [← hk]
      omega
  rw [← hw, ← width_directive, Directive.zeros]
  by_cases h₀ : '0' ∈ p.flags <;> by_cases h₁ : '-' ∈ p.flags <;> simp [directive, h₀, h₁]

section Fields

variable (p : Directive.Parts) {b : Base} (hb : b ∈ Base.all) (hp : p.conversion = b.conversion)
  (v : Value) {negative : Bool} {size : Magnitude} (hv : v.number = .finite negative size) {n : ℕ}
  (hn : truncate (Number.value negative size) = n) (hu : n < 2 ^ 63)
include hb hp hv hn hu

theorem Directive.Parts.field_base :
    p.field v = String.ofList (p.directive.pad true (p.directive.marked b n)) := by
  have hc : p.conversion ≠ '%' := hp ▸ b.conversion_ne hb
  rw [p.field_eq hc, hp, Directive.render_base _ hb, hv, Number.toIntWithin_of_truncate hn hu]

-- A field without the spaces around it is a numeral, unless zeros are put before the mark.
theorem Directive.Parts.spells_field_iff :
    b.Spells (if '#' ∈ p.flags ∧ n ≠ 0 then b.mark else [])
      (Text.trimList (· = ' ') (p.field v).toList) n ↔ ¬p.SplitsMark b n := by
  rw [p.field_base hb hp v hv hn hu, String.toList_ofList, Directive.trimList_based _ hb]
  by_cases hm : '#' ∈ p.flags ∧ n ≠ 0
  case neg =>
    have hs : ¬p.SplitsMark b n := fun h => hm ⟨h.1, h.2.2.2.2.1⟩
    have he : p.directive.marked b n = b.write n := by
      rw [Directive.marked, if_neg (by simpa [Directive.Parts.directive] using hm)]
      exact List.nil_append _
    rw [if_neg hm, he]
    exact iff_of_true (b.spells_zeros hb _ n) hs
  case pos =>
    have he : p.directive.marked b n = b.mark ++ b.write n := by
      rw [Directive.marked, if_pos (by simpa [Directive.Parts.directive] using hm)]
    rw [if_pos hm, he, b.spells_mark_iff hb]
    refine not_congr (Iff.intro ?_ ?_)
    · rintro ⟨ho, hz⟩
      obtain ⟨h₀, h₁, hw⟩ := (p.zeros_pos_iff hb ho hm.2).mp hz
      exact ⟨hm.1, h₀, h₁, ho, hm.2, hw⟩
    · rintro ⟨_, h₀, h₁, ho, _, hw⟩
      exact ⟨ho, (p.zeros_pos_iff hb ho hm.2).mpr ⟨h₀, h₁, hw⟩⟩

end Fields

-- What `%o`, `%x` and `%X` write for a whole part of sixty-three bits is as wide as the directive
-- says. But for spaces around it, it is the digits of that number in the base, after the mark if
-- that is asked for and the number is not zero: just if no zeros are put before a mark with a
-- letter.
theorem based_field_spells (p : Directive.Parts) {b : Base} (hb : b ∈ Base.all)
    (hp : p.conversion = b.conversion) (v : Value) {negative : Bool} {size : Magnitude}
    (hv : v.number = .finite negative size) {n : ℕ}
    (hn : truncate (Number.value negative size) = n) (hu : n < 2 ^ 63) :
    p.fieldWidth ≤ (p.field v).length ∧
    (b.Spells (if '#' ∈ p.flags ∧ n ≠ 0 then b.mark else [])
        (Text.trimList (· = ' ') (p.field v).toList) n ↔ ¬p.SplitsMark b n) := by
  refine ⟨?_, p.spells_field_iff hb hp v hv hn hu⟩
  rw [p.field_base hb hp v hv hn hu]
  exact p.fieldWidth_le true _

section Marks

def markedField (left : Bool) : Directive.Parts where
  flags      := '#' :: '0' :: if left then ['-'] else []
  width      := ['6']
  places?    := none
  conversion := 'x'
  isFlag     := by cases left <;> simp [Directive.isFlag]
  isDigit    := by simp
  notFlag    := by simp [Directive.isFlag]
  notDigit   := rfl
  notPoint _ := by decide

theorem number_255 : ∃ size, (⟨"255"⟩ : Value).number = .finite false size ∧
    truncate (Number.value false size) = (255 : ℕ) := by
  obtain ⟨size, hn, hu⟩ := Number.exists_ofNat (n := 255) (by decide)
  exact ⟨size, (Value.number_toString 255).trans hn, Number.truncate_of_whole false size hu⟩

-- A mark stays in front where spaces are put after it,
theorem based_field_spells_left :
    Base.lower.Spells ['0', 'x']
      (Text.trimList (· = ' ') ((markedField true).field ⟨"255"⟩).toList) 255 := by
  obtain ⟨size, hv, hn⟩ := number_255
  have h := (based_field_spells (markedField true) (b := .lower) (by simp [Base.all])
    rfl _ hv hn (by decide)).2
  rw [if_pos ⟨.head _, by decide⟩] at h
  exact h.mpr fun hs => hs.2.2.1 (by decide)

-- but not where zeros are put before it.
theorem not_based_field_spells :
    ¬∀ (p : Directive.Parts) (b : Base), b ∈ Base.all → p.conversion = b.conversion →
      ∀ (v : Value) (negative : Bool) (size : Magnitude), v.number = .finite negative size →
      ∀ n : ℕ, truncate (Number.value negative size) = n → n < 2 ^ 63 →
        p.fieldWidth ≤ (p.field v).length ∧
        b.Spells (if '#' ∈ p.flags ∧ n ≠ 0 then b.mark else [])
          (Text.trimList (· = ' ') (p.field v).toList) n := by
  intro h
  obtain ⟨size, hv, hn⟩ := number_255
  have hb : Base.lower ∈ Base.all := by simp [Base.all]
  have hs := (h (markedField false) .lower hb rfl _ false size hv 255 hn (by decide)).2
  refine ((markedField false).spells_field_iff hb rfl _ hv hn (by decide)).mp hs ?_
  exact ⟨by decide, by decide, by decide, by decide, by decide, by decide⟩

end Marks

end PatternAction
