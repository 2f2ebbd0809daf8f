import PatternAction.Matcher
import PatternAction.Pattern.Reader

namespace PatternAction

namespace Pattern

-- A step that goes no way back, and not beyond the end of a text.
def Advances (size : Nat) (step : Nat → List Nat) : Prop :=
  ∀ i ≤ size, ∀ j ∈ step i, i ≤ j ∧ j ≤ size

section Steps

variable {size : Nat} {step next : Nat → List Nat} {i j : Nat} {js : List Nat}

theorem mem_of_mem_go {seen : Nat} (h : j ∈ distinct.go seen js) : j ∈ js := by
  induction js generalizing seen
  case nil => exact h
  case cons k js ih =>
    rw [distinct.go] at h
    split at h
    case isTrue => exact .tail _ (ih h)
    case isFalse =>
      rcases List.mem_cons.mp h with rfl | h
      · exact .head _
      · exact .tail _ (ih h)

theorem mem_of_mem_distinct (h : j ∈ distinct js) : j ∈ js := mem_of_mem_go h

namespace Advances

theorem stay : Advances size ([·]) := fun i hi j hj => by
  obtain rfl := List.mem_singleton.mp hj
  exact ⟨Nat.le_refl _, hi⟩

theorem distinct (h : Advances size step) : Advances size fun i => distinct (step i) :=
  fun i hi j hj => h i hi j (mem_of_mem_distinct hj)

theorem append (h : Advances size step) (hn : Advances size next) :
    Advances size fun i => step i ++ next i := fun i hi j hj =>
  (List.mem_append.mp hj).elim (h i hi j) (hn i hi j)

theorem flatMap (h : Advances size step) (hn : Advances size next) :
    Advances size fun i => (step i).flatMap next := fun i hi k hk => by
  obtain ⟨j, hj, hk⟩ := List.mem_flatMap.mp hk
  obtain ⟨hij, hjs⟩ := h i hi j hj
  obtain ⟨hjk, hks⟩ := hn j hjs k hk
  exact ⟨Nat.le_trans hij hjk, hks⟩

theorem times (h : Advances size step) : ∀ n, Advances size (times step n)
  | 0     => stay
  | n + 1 => (h.flatMap (h.times n)).distinct

theorem atMost (h : Advances size step) (greedy : Bool) : ∀ n, Advances size (atMost step greedy n)
  | 0     => stay
  | n + 1 => by
    have hm := h.flatMap (h.atMost greedy n)
    cases greedy
    case false => exact (stay.append hm).distinct
    case true => exact (hm.append stay).distinct

-- Rounds begun at `i` find nothing before `i`.
theorem rounds (h : Advances size step) (greedy : Bool) {low : Nat} (n : Nat)
    {state : List Nat × Nat} (hs : ∀ j ∈ state.1, low ≤ j ∧ j ≤ size) (hl : low ≤ i)
    (hi : i ≤ size) : ∀ j ∈ (rounds step greedy n state i).1, low ≤ j ∧ j ≤ size := by
  induction n generalizing state i
  case zero => exact hs
  case succ n ih =>
    obtain ⟨found, begun⟩ := state
    rw [Pattern.rounds]
    split
    case isTrue => exact hs
    case isFalse =>
      refine List.foldlRecOn (step i) _ (motive := fun state : List Nat × Nat =>
        ∀ j ∈ state.1, low ≤ j ∧ j ≤ size) hs fun state hs j hj => ?_
      obtain ⟨hij, hj⟩ := h i hi j hj
      have hlj := Nat.le_trans hl hij
      split
      case isTrue => exact List.forall_mem_cons.mpr ⟨⟨hlj, hj⟩, ih hs hlj hj⟩
      case isFalse => exact ih (List.forall_mem_cons.mpr ⟨⟨hlj, hj⟩, hs⟩) hlj hj

theorem oneOrMore (h : Advances size step) (greedy : Bool) :
    Advances size (oneOrMore step greedy size) := fun i hi j hj => by
  have hj := List.mem_reverse.mp (mem_of_mem_distinct hj)
  exact h.rounds greedy _ (List.forall_mem_nil _) (Nat.le_refl i) hi j hj

end Advances

end Steps

variable {text : Array Char} {p : Pattern} {i s e : Nat}

theorem advances_ends (text : Array Char) (p : Pattern) : Advances text.size (ends text p) := by
  induction p
  case empty => exact .stay
  case one s =>
    intro i _ j hj
    rw [ends] at hj
    split at hj
    case isTrue h =>
      obtain rfl := List.mem_singleton.mp hj
      obtain ⟨c, hc, _⟩ := (Option.any_eq_true ..).mp h
      have hi := (Array.getElem?_eq_some_iff.mp hc).1
      exact ⟨Nat.le_succ i, hi⟩
    case isFalse => cases hj
  case look holds =>
    intro i hi j hj
    dsimp only [ends] at hj
    generalize (if i = 0 then none else text[i - 1]?) = before at hj
    split at hj
    case isTrue => exact Advances.stay i hi j hj
    case isFalse => cases hj
  case seq hp hq => exact (hp.flatMap hq).distinct
  case alt hp hq => exact (hp.append hq).distinct
  case repeated min max greedy p hp =>
    cases max
    case some m =>
      intro i hi j hj
      rw [ends] at hj
      exact ((hp.times min).flatMap (hp.atMost greedy (m - min))).distinct i hi j hj
    case none =>
      have hm := hp.oneOrMore greedy
      cases min
      case succ n => exact ((hp.times n).flatMap hm).distinct
      case zero =>
        cases greedy
        case false => exact (Advances.stay.append hm).distinct
        case true => exact (hm.append .stay).distinct

theorem search_bounds {n : Nat} (hn : i + n ≤ text.size + 1)
    (h : p.search text n i = some (s, e)) : i ≤ s ∧ s ≤ e ∧ e ≤ text.size := by
  induction n generalizing i
  case zero => cases h
  case succ n ih =>
    rw [search] at h
    split at h
    case h_1 j js hj =>
      have he := advances_ends text p i (by omega) j (hj ▸ .head _)
      cases h
      exact ⟨Nat.le_refl _, he⟩
    case h_2 =>
      obtain ⟨hs, he⟩ := ih (by omega) h
      exact ⟨Nat.le_of_succ_le hs, he⟩

theorem findFrom_bounds (h : p.findFrom text i = some (s, e)) :
    i ≤ s ∧ s ≤ e ∧ e ≤ text.size := by
  cases Nat.lt_or_ge (text.size + 1) i
  case inl hi =>
    rw [findFrom, Nat.sub_eq_zero_of_le (Nat.le_of_lt hi)] at h
    cases h
  case inr hi => exact search_bounds (by omega) h

theorem successive_spansFrom {n : Nat} {again : Bool} :
    Successive text.size i (p.spansFrom text n again i) := by
  induction n generalizing again i
  case zero => exact .nil
  case succ n ih =>
    rw [spansFrom]
    split
    case h_2 => exact .nil
    case h_1 s e hf =>
      have hb : i ≤ s ∧ s ≤ e ∧ e ≤ text.size := by
        split at hf
        case h_2 => cases hf
        case h_1 hs =>
          split at hf
          case isFalse => exact findFrom_bounds (hs.trans hf)
          case isTrue =>
            obtain ⟨hi, he⟩ := findFrom_bounds hf
            exact ⟨Nat.le_of_succ_le hi, he⟩
      exact .cons hb.1 hb.2.1 hb.2.2 ih

theorem successive_spans (p : Pattern) (text : Array Char) :
    Successive text.size 0 (p.spans text) := successive_spansFrom

theorem find?_eq (p : Pattern) (text : Array Char) : p.find? text = (p.spans text).head? := by
  rw [spans, spansFrom, find?]
  cases p.findFrom text 0 <;> simp

def matcher (p : Pattern) : Matcher where
  spans      := p.spans
  find?      := p.find?
  successive := p.successive_spans
  find?_eq   := p.find?_eq

end Pattern

-- The patterns of the command, which may be of any size.
instance : Patterns where
  matcher? s := (Pattern.ofString? s).map Pattern.matcher

end PatternAction
