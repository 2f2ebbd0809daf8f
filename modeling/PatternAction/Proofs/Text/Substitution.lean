import PatternAction.Proofs.Text.Spans
import PatternAction.Substitution

namespace PatternAction

-- What one character of a replacement stands for, between the ones next to it.
def standsFor (matched : List Char) (before : Option Char) (c : Char) (after : Option Char) :
    List Char :=
  if c = '&' then
    if before = some '\\' then ['&'] else matched
  else if c = '\\' ∧ after = some '&' then [] else [c]

-- What a replacement stands for, after a character that is not part of it.
def filled (matched : List Char) (before : Option Char) : List Char → List Char
  | []      => []
  | c :: cs => standsFor matched before c cs.head? ++ filled matched (some c) cs

theorem expandReplacement_eq {matched r : List Char} {before : Option Char}
    (h : before = some '\\' → r.head? ≠ some '&') :
    expandReplacement matched r = filled matched before r := by
  induction r using expandReplacement.induct generalizing before
  case case1 => rfl
  case case2 cs ih =>
    have hi : expandReplacement matched cs = filled matched (some '&') cs := ih (by simp)
    rw [expandReplacement, hi]
    simp [filled, standsFor]
  case case3 cs ih =>
    have hb : before ≠ some '\\' := fun hb => h hb rfl
    have hi : expandReplacement matched cs = filled matched (some '&') cs := ih (by simp)
    rw [expandReplacement, hi]
    simp [filled, standsFor, hb]
  case case4 c cs hc ha ih =>
    have hn : c = '\\' → cs.head? ≠ some '&' := by
      intro hb hs
      obtain ⟨ds, hd⟩ := List.head?_eq_some_iff.mp hs
      exact hc ds hb hd
    have hs : ¬(c = '\\' ∧ cs.head? = some '&') := fun h => hn h.1 h.2
    have he : expandReplacement matched (c :: cs) = c :: expandReplacement matched cs := by
      rw [expandReplacement]
      case x_1 => exact hc
      case x_2 => exact ha
    rw [he, ih fun h => hn (Option.some.inj h), filled, standsFor, if_neg ha, if_neg hs]
    rfl

namespace Matcher

-- The matches in a text, from left to right,
def found (q : Matcher) (text : List Char) : List (List Char) :=
  (q.spans text.toArray).map fun span => text.extract span.1 span.2

-- and what is before them, between them and after them.
def gaps (q : Matcher) (text : List Char) : List (List Char) :=
  let spans := q.spans text.toArray
  List.zipWith (text.extract · ·) (0 :: spans.map Prod.snd) (spans.map Prod.fst ++ [text.length])

-- The text with all matches rewritten,
def rewriteAll (q : Matcher) (f : List Char → List Char) (text : List Char) : List Char :=
  (byTurns (q.gaps text) ((q.found text).map f)).flatten

-- or just the first one, if there is one.
def rewriteFirst (q : Matcher) (f : List Char → List Char) (text : List Char) : List Char :=
  match q.spans text.toArray with
  | []          => text
  | (s, e) :: _ => text.take s ++ f (text.extract s e) ++ text.drop e

end Matcher

namespace Pieces

variable {text : List Char} {i : Nat} {l : List (Nat × Nat)}

theorem marked_ofSpans_eq :
    (ofSpans text.toArray i l).marked = l.map fun q => text.extract q.1 q.2 := by
  induction l generalizing i
  case nil => rfl
  case cons q l ih =>
    have ih := ih (i := q.2)
    simp only [marked] at ih
    simp [ofSpans, marked, ih]

theorem plain_ofSpans_eq : (ofSpans text.toArray i l).plain =
    List.zipWith (text.extract · ·) (i :: l.map Prod.snd) (l.map Prod.fst ++ [text.length]) := by
  induction l generalizing i
  case nil => simp [ofSpans, plain]
  case cons q l ih =>
    have ih := ih (i := q.2)
    simp only [plain] at ih
    simp [ofSpans, plain, ih]

end Pieces

namespace Matcher

variable {q : Matcher} {text : List Char} {f : List Char → List Char}

theorem plain_pieces : (q.pieces text).plain = q.gaps text := Pieces.plain_ofSpans_eq

theorem marked_pieces : (q.pieces text).marked = q.found text := Pieces.marked_ofSpans_eq

theorem length_found : (q.found text).length = (q.pieces text).tail.length := by
  rw [← marked_pieces, Pieces.marked, List.length_map]

theorem mapMarked_pieces : (q.pieces text).mapMarked f = q.rewriteAll f text := by
  rw [Pieces.mapMarked_eq, plain_pieces, marked_pieces, rewriteAll]

theorem mapFirst_pieces : (q.pieces text).mapFirst f = q.rewriteFirst f text := by
  have ho := q.successive text.toArray
  rw [rewriteFirst, pieces]
  rcases hs : q.spans text.toArray with _ | ⟨⟨s, e⟩, rest⟩
  case nil => simp [Pieces.ofSpans, Pieces.mapFirst]
  case cons =>
    rw [hs] at ho
    cases ho
    case cons ho =>
      have hj := Pieces.join_ofSpans ho
      simp only [Pieces.ofSpans, Pieces.mapFirst]
      rw [hj]
      simp [List.take_of_length_le]

theorem rewriteAll_id : q.rewriteAll id text = text := by
  have hj := Pieces.join_ofSpans (q.successive text.toArray)
  rw [Array.extract_size, List.toList_toArray] at hj
  rw [← mapMarked_pieces]
  exact hj

theorem rewriteFirst_id : q.rewriteFirst id text = text := by
  have ho := q.successive text.toArray
  rw [rewriteFirst]
  split
  case h_1 => rfl
  case h_2 s e rest hs =>
    rw [hs] at ho
    cases ho
    case cons _ _ he _ =>
      obtain ⟨k, rfl⟩ := Nat.exists_eq_add_of_le he
      rw [id, List.extract, Nat.add_sub_cancel_left, ← List.take_add, List.take_append_drop]

theorem found_eq_nil_iff : q.found text = [] ↔ q.spans text.toArray = [] := List.map_eq_nil_iff

theorem rewriteAll_of_found_eq_nil (h : q.found text = []) : q.rewriteAll f text = text := by
  have hi : q.rewriteAll id text = text := rewriteAll_id
  rw [rewriteAll, h] at hi ⊢
  exact hi

theorem rewriteFirst_of_found_eq_nil (h : q.found text = []) : q.rewriteFirst f text = text := by
  rw [rewriteFirst, found_eq_nil_iff.mp h]

theorem found_eq_nil_iff_find? : q.found text = [] ↔ q.find? text.toArray = none := by
  rw [found_eq_nil_iff, q.find?_eq, List.head?_eq_none_iff]

theorem isFound_eq : q.isFound text.toArray = !(q.found text).isEmpty := by
  rw [isFound]
  cases hf : q.find? text.toArray
  case none => rw [found_eq_nil_iff_find?.mpr hf]; rfl
  case some =>
    have hn : q.found text ≠ [] := fun h => by cases hf.symm.trans (found_eq_nil_iff_find?.mp h)
    rw [List.isEmpty_eq_false_iff.mpr hn]
    rfl

end Matcher

theorem substitute_eq (q : Matcher) (r text : List Char) (all : Bool) :
    substitute q r text all =
      (if all then q.rewriteAll (filled · none r) text else q.rewriteFirst (filled · none r) text,
        (q.found text).length) := by
  have he : (fun matched => expandReplacement matched r) = (filled · none r) :=
    funext fun _ => expandReplacement_eq (fun h => by cases h)
  rw [substitute, he, Matcher.mapMarked_pieces, Matcher.mapFirst_pieces, ← Matcher.length_found]

theorem filled_ampersand : (filled · none ['&']) = id := by
  funext matched
  simp [filled, standsFor]

end PatternAction
