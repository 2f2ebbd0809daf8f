import PatternAction.Proofs.Format.Segments

namespace PatternAction

namespace Directive

variable (d : Directive)

theorem length_pad (numeric : Bool) (cs : List Char) :
    (d.pad numeric cs).length = max d.width cs.length := by
  unfold pad
  dsimp only
  split
  case isTrue =>
    rw [List.length_append, List.length_replicate]
    omega
  case isFalse =>
    split
    case isFalse =>
      rw [List.length_append, List.length_replicate]
      omega
    case isTrue =>
      cases cs
      case nil => simp
      case cons c cs =>
        dsimp only
        split
        all_goals
          simp only [List.length_cons, List.length_append, List.length_replicate]
          omega

-- The sign that is visible, and the blank that may stand in its place.
def visibleSign (n : Number) : Literal.Sign :=
  if n.isNegative then .minus else if d.plus then .plus else .none

theorem sign_eq (n : Number) : ∃ blank, d.sign n = blank ++ (d.visibleSign n).chars ∧
    (blank = [] ∨ blank = [' '] ∧ d.visibleSign n = .none) := by
  unfold sign visibleSign
  split
  case isTrue => exact ⟨[], rfl, .inl rfl⟩
  case isFalse =>
    split
    case isTrue => exact ⟨[], rfl, .inl rfl⟩
    case isFalse =>
      split
      case isTrue => exact ⟨[' '], rfl, .inr ⟨rfl, rfl⟩⟩
      case isFalse => exact ⟨[], rfl, .inl rfl⟩

theorem isMinus_visibleSign (n : Number) : (d.visibleSign n).isMinus ↔ n.isNegative := by
  unfold visibleSign
  split
  case isTrue h => exact iff_of_true rfl h
  case isFalse h =>
    refine iff_of_false (fun hm => ?_) h
    split at hm <;> cases hm

def zeros (length : ℕ) : ℕ := if d.left then 0 else if d.zero then d.width - length else 0

section Blanks

variable {d} {blank rest : List Char} {s : Literal.Sign}
  (hb : blank = [] ∨ blank = [' '] ∧ s = .none)
  (hn : rest ≠ []) (hr : ∀ c ∈ rest, c ≠ '-' ∧ c ≠ '+' ∧ c ≠ ' ')
include hb

include hn hr in
theorem pad_zeros (hl : d.left = false) (hz : d.zero = true) :
    d.pad true (blank ++ (s.chars ++ rest)) = blank ++ (s.chars ++
      (List.replicate (d.width - (blank ++ (s.chars ++ rest)).length) '0' ++ rest)) := by
  have hp (c : Char) (cs : List Char) : d.pad true (c :: cs) =
      if c = '-' ∨ c = '+' ∨ c = ' ' then
        c :: (List.replicate (d.width - (c :: cs).length) '0' ++ cs)
      else List.replicate (d.width - (c :: cs).length) '0' ++ c :: cs := by
    simp [pad, hl, hz]
  obtain ⟨c, cs, rfl⟩ := List.exists_cons_of_ne_nil hn
  obtain ⟨h₁, h₂, h₃⟩ := hr c (.head _)
  rcases hb with rfl | ⟨rfl, rfl⟩
  · cases s
    case none => exact (hp c cs).trans (if_neg (by simp [h₁, h₂, h₃]))
    case plus => exact (hp '+' (c :: cs)).trans (if_pos (by decide))
    case minus => exact (hp '-' (c :: cs)).trans (if_pos (by decide))
  · exact (hp ' ' (c :: cs)).trans (if_pos (by decide))

include hn hr in
theorem exists_blanks : ∃ before after, d.pad true (blank ++ (s.chars ++ rest)) =
      before ++ (s.chars ++
        (List.replicate (d.zeros (blank ++ (s.chars ++ rest)).length) '0' ++ rest)) ++ after ∧
    (∀ c ∈ before, c = ' ') ∧ ∀ c ∈ after, c = ' ' := by
  have blanks (k : ℕ) : ∀ c ∈ List.replicate k ' ', c = ' ' := fun _ => List.eq_of_mem_replicate
  have hb' : ∀ c ∈ blank, c = ' ' := by
    rcases hb with rfl | ⟨rfl, _⟩ <;> simp
  cases hl : d.left
  case true =>
    refine ⟨blank, _, ?_, hb', blanks (d.width - (blank ++ (s.chars ++ rest)).length)⟩
    simp [pad, zeros, hl]
  case false =>
    cases hz : d.zero
    case true =>
      refine ⟨blank, [], ?_, hb', blanks 0⟩
      rw [pad_zeros hb hn hr hl hz, zeros, hl, hz]
      simp
    case false =>
      refine ⟨List.replicate (d.width - (blank ++ (s.chars ++ rest)).length) ' ' ++ blank, [], ?_,
        List.forall_mem_append.mpr ⟨blanks _, hb'⟩, blanks 0⟩
      simp [pad, zeros, hl, hz]

include hn hr in
theorem trimList_pad : Text.trimList (· = ' ') (d.pad true (blank ++ (s.chars ++ rest))) =
    s.chars ++ (List.replicate (d.zeros (blank ++ (s.chars ++ rest)).length) '0' ++ rest) := by
  obtain ⟨before, after, he, hb, ha⟩ := exists_blanks (d := d) hb hn hr
  have hc : ∀ c ∈ s.chars ++
      (List.replicate (d.zeros (blank ++ (s.chars ++ rest)).length) '0' ++ rest), c ≠ ' ' := by
    refine List.forall_mem_append.mpr ⟨?_, List.forall_mem_append.mpr ⟨fun c hc => ?_, ?_⟩⟩
    · cases s <;> simp [Literal.Sign.chars]
    · rw [List.eq_of_mem_replicate hc]
      decide
    · exact fun c hc => (hr c hc).2.2
  refine Text.Trims.trimList_eq ⟨⟨before, after, he, ?_, ?_⟩, ?_, ?_⟩
  · exact fun c hc => decide_eq_true (hb c hc)
  · exact fun c hc => decide_eq_true (ha c hc)
  · exact fun c h => decide_eq_false (hc c (List.mem_of_mem_head? h))
  · exact fun c h => decide_eq_false (hc c (List.mem_of_mem_getLast? h))

end Blanks

namespace Parts

variable (p : Parts)

def fieldWidth : ℕ := if decimal p.width < 2 ^ 64 then decimal p.width else 0

theorem width_directive : p.directive.width = p.fieldWidth := rfl

theorem fieldWidth_le (numeric : Bool) (cs : List Char) :
    p.fieldWidth ≤ (String.ofList (p.directive.pad numeric cs)).length := by
  rw [String.length_ofList, length_pad, width_directive]
  exact Nat.le_max_left _ _

end Parts

end Directive

end PatternAction
