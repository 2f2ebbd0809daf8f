import PatternAction.Proofs.Number.Literal

namespace PatternAction

open scoped Computability

namespace Grammar

def char (p : Char → Bool) : Language Char := {w | ∃ c, p c = true ∧ w = [c]}

def optional (L : Language Char) : Language Char := 1 + L

def digit : Language Char := char Char.isDigit

def digits : Language Char := digit * digit∗

def sign : Language Char := char fun c => c = '+' || c = '-'

def point : Language Char := char (· = '.')

-- `[+-]?([0-9]+(\.[0-9]*)?|\.[0-9]+)([eE][+-]?[0-9]+)?`
def numeral : Language Char :=
  optional sign * ((digits * optional (point * digit∗) + point * digits) *
    optional (char (fun c => c = 'e' || c = 'E') * (optional sign * digits)))

variable {w : List Char} {p : Char → Bool}

theorem mem_char : w ∈ char p ↔ ∃ c, p c = true ∧ w = [c] := .rfl

theorem mem_optional {L : Language Char} : w ∈ optional L ↔ w = [] ∨ w ∈ L := by
  rw [optional, Language.mem_add, Language.mem_one]

theorem mem_kstar : w ∈ (char p)∗ ↔ ∀ c ∈ w, p c := by
  rw [Language.mem_kstar]
  constructor
  case mp =>
    rintro ⟨ws, rfl, hws⟩ c hc
    obtain ⟨v, hv, hc⟩ := List.mem_flatten.mp hc
    obtain ⟨d, hd, rfl⟩ := hws v hv
    rwa [List.mem_singleton.mp hc]
  case mpr =>
    refine fun h => ⟨w.map ([·]), ?_, fun v hv => ?_⟩
    · rw [← List.flatMap_def, List.flatMap_singleton']
    · obtain ⟨c, hc, rfl⟩ := List.mem_map.mp hv
      exact ⟨c, h c hc, rfl⟩

theorem mem_digits : w ∈ digits ↔ w ≠ [] ∧ ∀ c ∈ w, c.isDigit := by
  rw [digits, digit, Language.mem_mul]
  constructor
  case mp =>
    rintro ⟨_, ⟨c, hc, rfl⟩, v, hv, rfl⟩
    exact ⟨by simp, List.forall_mem_cons.mpr ⟨hc, mem_kstar.mp hv⟩⟩
  case mpr =>
    rintro ⟨hn, hd⟩
    obtain ⟨c, cs, rfl⟩ := List.exists_cons_of_ne_nil hn
    obtain ⟨hc, hd⟩ := List.forall_mem_cons.mp hd
    exact ⟨[c], ⟨c, hc, rfl⟩, cs, mem_kstar.mpr hd, rfl⟩

theorem mem_optional_sign : w ∈ optional sign ↔ ∃ s : Literal.Sign, s.chars = w := by
  rw [mem_optional, sign, mem_char]
  constructor
  case mp =>
    rintro (rfl | ⟨c, hc, rfl⟩)
    · exact ⟨.none, rfl⟩
    · simp only [Bool.or_eq_true, decide_eq_true_eq] at hc
      rcases hc with rfl | rfl
      · exact ⟨.plus, rfl⟩
      · exact ⟨.minus, rfl⟩
  case mpr =>
    rintro ⟨s, rfl⟩
    cases s
    case none => exact .inl rfl
    case plus => exact .inr ⟨'+', rfl, rfl⟩
    case minus => exact .inr ⟨'-', rfl, rfl⟩

theorem mem_point_mul {L : Language Char} : w ∈ point * L ↔ ∃ v ∈ L, '.' :: v = w := by
  rw [point, Language.mem_mul]
  simp [mem_char]

theorem mem_power :
    w ∈ optional (char (fun c => c = 'e' || c = 'E') * (optional sign * digits)) ↔
      ∃ x : Option Literal.Exponent, x.elim [] Literal.Exponent.chars = w := by
  rw [mem_optional, Language.mem_mul]
  simp only [mem_char, Language.mem_mul, mem_optional_sign, mem_digits]
  constructor
  case mp =>
    rintro (rfl | ⟨_, ⟨c, hc, rfl⟩, _, ⟨_, ⟨s, rfl⟩, ds, ⟨hn, hd⟩, rfl⟩, rfl⟩)
    · exact ⟨none, rfl⟩
    · exact ⟨some ⟨c, s, ds, by simpa using hc, hd, hn⟩, rfl⟩
  case mpr =>
    rintro ⟨x, rfl⟩
    cases x
    case none => exact .inl rfl
    case some e =>
      exact .inr ⟨[e.mark], ⟨e.mark, by simpa using e.isMark, rfl⟩, _,
        ⟨_, ⟨e.sign, rfl⟩, e.digits, ⟨e.ne_nil, e.isDigit⟩, rfl⟩, rfl⟩

theorem mem_body : w ∈ digits * optional (point * digit∗) + point * digits ↔
    ∃ (whole : List Char) (ps : Option (List Char)), (∀ c ∈ whole ++ ps.getD [], c.isDigit) ∧
      whole ++ ps.getD [] ≠ [] ∧ whole ++ ps.elim [] ('.' :: ·) = w := by
  rw [Language.mem_add, Language.mem_mul, mem_point_mul]
  simp only [mem_digits, mem_optional, mem_point_mul, digit, mem_kstar]
  constructor
  case mp =>
    rintro (⟨ds, ⟨hn, hd⟩, _, rfl | ⟨ps, hp, rfl⟩, rfl⟩ | ⟨ps, ⟨hn, hp⟩, rfl⟩)
    · exact ⟨ds, none, by simpa using hd, by simpa using hn, rfl⟩
    · exact ⟨ds, some ps, List.forall_mem_append.mpr ⟨hd, hp⟩, by simp [hn], rfl⟩
    · exact ⟨[], some ps, hp, hn, rfl⟩
  case mpr =>
    rintro ⟨ds, ps, hd, hn, rfl⟩
    rw [List.forall_mem_append] at hd
    obtain ⟨hd, hp⟩ := hd
    cases ds
    case nil =>
      cases ps
      case none => exact absurd rfl hn
      case some ps => exact .inr ⟨ps, ⟨hn, hp⟩, rfl⟩
    case cons d es =>
      refine .inl ⟨d :: es, ⟨by simp, hd⟩, _, ?_, rfl⟩
      cases ps
      case none => exact .inl rfl
      case some ps => exact .inr ⟨ps, hp, rfl⟩

theorem mem_numeral : w ∈ numeral ↔ ∃ l : Literal, l.chars = w := by
  rw [numeral, Language.mem_mul]
  simp only [Language.mem_mul, mem_optional_sign, mem_body, mem_power]
  constructor
  case mp =>
    rintro ⟨_, ⟨s, rfl⟩, _, ⟨_, ⟨ds, ps, hd, hn, rfl⟩, _, ⟨x, rfl⟩, rfl⟩, rfl⟩
    exact ⟨⟨s, ds, ps, x, hd, hn⟩, by simp [Literal.chars, Literal.fraction, Literal.power]⟩
  case mpr =>
    rintro ⟨l, rfl⟩
    refine ⟨_, ⟨l.sign, rfl⟩, _, ⟨_, ⟨l.whole, l.places?, l.isDigit, l.ne_nil, rfl⟩, _,
      ⟨l.exponent?, rfl⟩, rfl⟩, ?_⟩
    simp [Literal.chars, Literal.fraction, Literal.power]

end Grammar

end PatternAction
