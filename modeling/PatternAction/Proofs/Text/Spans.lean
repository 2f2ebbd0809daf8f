import PatternAction.Matcher
import PatternAction.Proofs.Text.Pieces

namespace PatternAction

namespace Successive

variable {size i j : Nat} {l : List (Nat × Nat)}

theorem from_le (h : Successive size j l) (hi : i ≤ j) : Successive size i l := by
  rcases h with _ | ⟨hs, he, hz, h⟩
  · exact .nil
  · exact .cons (Nat.le_trans hi hs) he hz h

theorem filter (h : Successive size i l) (f : Nat × Nat → Bool) :
    Successive size i (l.filter f) := by
  induction h
  case nil => exact .nil
  case cons hs he hz _ ih =>
    rw [List.filter_cons]
    split
    case isTrue => exact .cons hs he hz ih
    case isFalse => exact ih.from_le (Nat.le_trans hs he)

end Successive

namespace Pieces

variable {text : Array Char} {i : Nat} {l : List (Nat × Nat)}

theorem join_ofSpans (h : Successive text.size i l) :
    (ofSpans text i l).join = (text.extract i text.size).toList := by
  induction h
  case nil => simp [ofSpans, join, mapMarked]
  case cons i s e rest hs he hz h ih =>
    calc (ofSpans text i ((s, e) :: rest)).join
      _ = (text.extract i s).toList ++
            ((text.extract s e).toList ++ (ofSpans text e rest).join) := by
        simp [ofSpans, join, mapMarked]
      _ = (text.extract i s ++ (text.extract s e ++ text.extract e text.size)).toList := by
        rw [ih, Array.toList_append, Array.toList_append]
      _ = (text.extract i text.size).toList := by
        rw [Array.extract_append_extract, Nat.min_eq_left he, Nat.max_eq_right hz,
          Array.extract_append_extract, Nat.min_eq_left hs,
          Nat.max_eq_right (Nat.le_trans he hz)]

theorem marked_ofSpans (h : Successive text.size i l) (hl : ∀ q ∈ l, q.1 ≠ q.2) :
    ∀ m ∈ (ofSpans text i l).marked, m ≠ [] := by
  induction h
  case nil => exact List.forall_mem_nil _
  case cons i s e rest hs he hz h ih =>
    obtain ⟨hn, hl⟩ := List.forall_mem_cons.mp hl
    refine List.forall_mem_cons.mpr ⟨fun hm => hn ?_, ih hl⟩
    have hm := congrArg List.length hm
    rw [Array.length_toList, Array.size_extract, List.length_nil] at hm
    omega

end Pieces

end PatternAction
