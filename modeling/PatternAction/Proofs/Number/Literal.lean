import Mathlib.Computability.Language
import PatternAction.Proofs.Number.Nearest
import PatternAction.Proofs.Text.Pieces

namespace PatternAction

def decimal (digits : List Char) : ℕ := Nat.ofDigitChars 10 digits 0

namespace Literal

-- What can stand before digits.
inductive Sign
  | none | plus | minus

namespace Sign

def chars : Sign → List Char
  | none  => []
  | plus  => ['+']
  | minus => ['-']

def isMinus : Sign → Bool
  | minus => true
  | _     => false

end Sign

structure Exponent where
  mark    : Char
  sign    : Sign
  digits  : List Char
  isMark  : mark = 'e' ∨ mark = 'E'
  isDigit : ∀ c ∈ digits, c.isDigit
  ne_nil  : digits ≠ []

namespace Exponent

def chars (e : Exponent) : List Char := e.mark :: (e.sign.chars ++ e.digits)

def value (e : Exponent) : ℤ := if e.sign.isMinus then -decimal e.digits else decimal e.digits

end Exponent

end Literal

-- A number as it is written. There may be no point, and then there are no places after it.
structure Literal where
  sign      : Literal.Sign
  whole     : List Char
  places?   : Option (List Char)
  exponent? : Option Literal.Exponent
  isDigit   : ∀ c ∈ whole ++ places?.getD [], c.isDigit
  ne_nil    : whole ++ places?.getD [] ≠ []

namespace Literal

variable (l : Literal)

def places : List Char := l.places?.getD []

-- The point and the exponent, with all that comes after them.
def fraction : List Char := l.places?.elim [] ('.' :: ·)

def power : List Char := l.exponent?.elim [] Exponent.chars

def chars : List Char := l.sign.chars ++ (l.whole ++ (l.fraction ++ l.power))

def exponent : ℤ := l.exponent?.elim 0 Exponent.value

def size : ℚ := (decimal l.whole + decimal l.places / 10 ^ l.places.length) * 10 ^ l.exponent

end Literal

theorem decimal_append (cs ds : List Char) :
    decimal (cs ++ ds) = decimal cs * 10 ^ ds.length + decimal ds := by
  rw [decimal, Nat.ofDigitChars_append, Nat.ofDigitChars_eq_ofDigitChars_zero, Nat.mul_comm]
  rfl

section Reading

variable {ds rest : List Char} {l : Literal}

theorem takeWhile_digits (hd : ∀ c ∈ ds, c.isDigit) (hr : ∀ c ∈ rest.head?, c.isDigit = false) :
    (ds ++ rest).takeWhile Char.isDigit = ds := by
  rw [List.takeWhile_append_of_pos hd]
  cases rest
  case nil => exact List.append_nil _
  case cons c cs =>
    rw [List.takeWhile_cons_of_neg (by simp [hr c rfl]), List.append_nil]

theorem dropWhile_digits (hd : ∀ c ∈ ds, c.isDigit) (hr : ∀ c ∈ rest.head?, c.isDigit = false) :
    (ds ++ rest).dropWhile Char.isDigit = rest :=
  Text.dropWhile_append_of hd hr

namespace Literal

theorem mark_of_head?_power : ∀ c ∈ l.power.head?, c = 'e' ∨ c = 'E' := by
  intro c hc
  unfold power at hc
  cases h : l.exponent?
  case none => simp [h] at hc
  case some e =>
    simp only [h, Option.elim_some, Exponent.chars, List.head?_cons, Option.mem_some_iff] at hc
    exact hc ▸ e.isMark

theorem isDigit_of_head?_power : ∀ c ∈ l.power.head?, c.isDigit = false := by
  intro c hc
  rcases mark_of_head?_power c hc with rfl | rfl
  all_goals rfl

theorem isDigit_of_head?_fraction : ∀ c ∈ (l.fraction ++ l.power).head?, c.isDigit = false := by
  intro c hc
  unfold fraction at hc
  cases h : l.places?
  case none =>
    rw [h] at hc
    exact isDigit_of_head?_power c hc
  case some ps =>
    simp only [h, Option.elim_some, List.cons_append, List.head?_cons, Option.mem_some_iff] at hc
    exact hc ▸ rfl

theorem isDigit_whole (l : Literal) : ∀ c ∈ l.whole, c.isDigit := fun c hc =>
  l.isDigit c (List.mem_append_left _ hc)

theorem isDigit_places (l : Literal) : ∀ c ∈ l.places, c.isDigit := fun c hc =>
  l.isDigit c (List.mem_append_right _ hc)

theorem mem_chars {c : Char} (h : c ∈ l.whole ++ l.places?.getD []) : c ∈ l.chars := by
  refine List.mem_append_right _ ?_
  rcases List.mem_append.mp h with h | h
  · exact List.mem_append_left _ h
  · refine List.mem_append_right _ (List.mem_append_left _ ?_)
    unfold fraction
    cases hp : l.places?
    case none => simp [hp] at h
    case some ps =>
      rw [hp] at h
      exact List.mem_cons_of_mem _ h

theorem notSign_of_head? :
    ∀ c ∈ (l.whole ++ (l.fraction ++ l.power)).head?, c ≠ '-' ∧ c ≠ '+' := by
  intro c hc
  have hd : c.isDigit ∨ c = '.' := by
    cases hw : l.whole
    case cons d ds =>
      rw [hw, List.cons_append, List.head?_cons, Option.mem_some_iff] at hc
      exact .inl (l.isDigit_whole c (hw ▸ hc ▸ .head _))
    case nil =>
      cases hp : l.places?
      case none => exact absurd (by rw [hw, hp]; rfl) l.ne_nil
      case some ps =>
        rw [hw, fraction, hp] at hc
        exact .inr (Option.some.inj hc).symm
  constructor
  all_goals
    rintro rfl
    rcases hd with hd | hd <;> cases hd

def numeral (l : Literal) : Numeral where
  negative := l.sign.isMinus
  digits   := decimal (l.whole ++ l.places)
  scale    := l.exponent - l.places.length

theorem size_eq (l : Literal) : l.size = l.numeral.digits * 10 ^ l.numeral.scale := by
  have h10 : (10 : ℚ) ≠ 0 := by norm_num
  simp only [size, numeral]
  rw [decimal_append, zpow_sub₀ h10, zpow_natCast]
  push_cast
  field_simp

end Literal

namespace Numeral

theorem sign_chars (s : Literal.Sign) {cs : List Char} (h : ∀ c ∈ cs.head?, c ≠ '-' ∧ c ≠ '+') :
    sign (s.chars ++ cs) = (s.isMinus, cs) := by
  cases s
  case none =>
    change sign cs = (false, cs)
    unfold sign
    split
    case h_1 => exact absurd rfl (h '-' rfl).1
    case h_2 => exact absurd rfl (h '+' rfl).2
    case h_3 => rfl
  case plus | minus => rfl

theorem exponent?_power (l : Literal) : exponent? l.power = some l.exponent := by
  unfold Literal.power Literal.exponent
  cases l.exponent?
  case none => rfl
  case some e =>
    have hs : sign (e.sign.chars ++ e.digits) = (e.sign.isMinus, e.digits) := by
      refine sign_chars e.sign fun c hc => ?_
      have hd : c.isDigit := e.isDigit c (List.mem_of_mem_head? hc)
      exact ⟨ne_of_isDigit hd rfl, ne_of_isDigit hd rfl⟩
    have ha : e.digits.all Char.isDigit := List.all_eq_true.mpr e.isDigit
    change exponent? (e.mark :: (e.sign.chars ++ e.digits)) = some e.value
    rw [exponent?, hs]
    dsimp only
    rw [if_pos ⟨e.isMark, e.ne_nil, ha⟩]
    rfl

theorem fraction_power (l : Literal) : fraction (l.fraction ++ l.power) = (l.places, l.power) := by
  have hr : ∀ c ∈ l.power.head?, c.isDigit = false := Literal.isDigit_of_head?_power
  have hm : ∀ c ∈ l.power.head?, c = 'e' ∨ c = 'E' := Literal.mark_of_head?_power
  unfold Literal.fraction Literal.places
  cases h : l.places?
  case none =>
    change fraction l.power = ([], l.power)
    generalize l.power = cs at hm
    unfold fraction
    split
    case h_1 => rcases hm '.' rfl with h | h <;> cases h
    case h_2 => rfl
  case some ps =>
    have hp : ∀ c ∈ ps, c.isDigit := fun c hc => l.isDigit_places c (by rwa [Literal.places, h])
    change ((ps ++ l.power).takeWhile Char.isDigit, (ps ++ l.power).dropWhile Char.isDigit) =
      (ps, l.power)
    rw [takeWhile_digits hp hr, dropWhile_digits hp hr]

theorem ofChars?_chars (l : Literal) : ofChars? l.chars = some l.numeral := by
  have hr : ∀ c ∈ (l.fraction ++ l.power).head?, c.isDigit = false :=
    Literal.isDigit_of_head?_fraction
  have hs : sign l.chars = (l.sign.isMinus, l.whole ++ (l.fraction ++ l.power)) :=
    sign_chars l.sign Literal.notSign_of_head?
  have hn : ¬(l.whole = [] ∧ l.places = []) := fun h =>
    l.ne_nil (List.append_eq_nil_iff.mpr h)
  rw [ofChars?, hs]
  dsimp only
  rw [takeWhile_digits l.isDigit_whole hr, dropWhile_digits l.isDigit_whole hr, fraction_power]
  dsimp only
  rw [if_neg hn, exponent?_power]
  rfl

theorem exists_sign (cs : List Char) :
    ∃ s : Literal.Sign, s.chars ++ (sign cs).2 = cs ∧ s.isMinus = (sign cs).1 := by
  unfold sign
  split
  case h_1 => exact ⟨.minus, rfl, rfl⟩
  case h_2 => exact ⟨.plus, rfl, rfl⟩
  case h_3 => exact ⟨.none, rfl, rfl⟩

theorem exists_power {cs : List Char} {e : ℤ} (h : exponent? cs = some e) :
    ∃ x : Option Literal.Exponent, x.elim [] Literal.Exponent.chars = cs := by
  cases cs
  case nil => exact ⟨none, rfl⟩
  case cons c cs =>
    obtain ⟨s, hs, _⟩ := exists_sign cs
    rw [exponent?] at h
    dsimp only at h
    split at h
    case isFalse => cases h
    case isTrue hd =>
      obtain ⟨hm, hn, ha⟩ := hd
      exact ⟨some ⟨c, s, _, hm, List.all_eq_true.mp ha, hn⟩, congrArg (c :: ·) hs⟩

theorem exists_fraction (cs : List Char) : ∃ ps : Option (List Char),
    ps.elim [] ('.' :: ·) ++ (fraction cs).2 = cs ∧ ps.getD [] = (fraction cs).1 ∧
      ∀ c ∈ ps.getD [], c.isDigit := by
  unfold fraction
  split
  case h_1 cs =>
    exact ⟨some (cs.takeWhile Char.isDigit), congrArg ('.' :: ·) List.takeWhile_append_dropWhile,
      rfl, fun c hc => List.mem_takeWhile_imp hc⟩
  case h_2 => exact ⟨none, rfl, rfl, by simp⟩

theorem exists_literal {cs : List Char} {n : Numeral} (h : ofChars? cs = some n) :
    ∃ l : Literal, l.chars = cs := by
  obtain ⟨s, hs, _⟩ := exists_sign cs
  obtain ⟨ps, hps, hp, hd⟩ := exists_fraction ((sign cs).2.dropWhile Char.isDigit)
  rw [ofChars?] at h
  dsimp only at h
  split at h
  case isTrue => cases h
  case isFalse hn =>
    obtain ⟨e, he, _⟩ := Option.map_eq_some_iff.mp h
    obtain ⟨x, hx⟩ := exists_power he
    refine ⟨⟨s, (sign cs).2.takeWhile Char.isDigit, ps, x, fun c hc => ?_, fun h => hn ?_⟩, ?_⟩
    case refine_1 =>
      rcases List.mem_append.mp hc with hc | hc
      · exact List.mem_takeWhile_imp hc
      · exact hd c hc
    case refine_2 =>
      rw [← hp]
      exact List.append_eq_nil_iff.mp h
    case refine_3 =>
      change s.chars ++ (_ ++ (ps.elim [] ('.' :: ·) ++ x.elim [] Literal.Exponent.chars)) = cs
      rw [hx, hps, List.takeWhile_append_dropWhile, hs]

end Numeral

end Reading

end PatternAction
