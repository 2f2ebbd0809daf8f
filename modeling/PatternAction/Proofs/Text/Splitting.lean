import PatternAction.Proofs.Text.Spans
import PatternAction.Split

namespace PatternAction

-- What a text is split into, and what stood between the fields.
structure Parted (sep text : String) (fields separators : List String) : Prop where
  join     : String.join (byTurns fields separators) = text
  empty    : text = "" → fields = [] ∧ separators = []
  letters  : sep = "" → fields = text.toList.map String.singleton ∧ separators = []
  length   : sep ≠ "" → text ≠ "" → fields.length = separators.length + 1
  nonempty : ∀ s ∈ separators, s ≠ ""
  blanks   : sep = " " → ∀ f ∈ fields, f ≠ "" ∧ ∀ c ∈ f.toList, Text.isBlank c = false
  char     : ∀ c ≠ ' ', sep = String.singleton c →
               (∀ s ∈ separators, s = sep) ∧ ∀ f ∈ fields, c ∉ f.toList

variable {sep : String} {cs : List Char} {c : Char}

theorem join_byTurns (xs ys : List (List Char)) :
    String.join (byTurns (xs.map String.ofList) (ys.map String.ofList)) =
      String.ofList (byTurns xs ys).flatten := by
  rw [← map_byTurns, ← String.toList_inj, String.toList_join, String.toList_ofList,
    List.flatMap_map, ← List.flatMap_id]
  simp only [String.toList_ofList]
  rfl

theorem singleton_inj {d : Char} : String.singleton c = String.singleton d ↔ c = d := by
  rw [← String.toList_inj, String.toList_singleton, String.toList_singleton, List.singleton_inj]

theorem Separator.ofString?_cases [Patterns] {s : Separator} (h : ofString? sep = some s) :
    sep = "" ∧ s = .nothing ∨ sep = " " ∧ s = .blanks ∨
      (∃ c ≠ ' ', sep = String.singleton c ∧ s = .char c) ∨
      sep ≠ "" ∧ (∀ c, sep ≠ String.singleton c) ∧ ∃ q, s = .pattern q := by
  rw [ofString?] at h
  split at h
  case h_1 hs => exact .inl ⟨String.toList_eq_nil_iff.mp hs, (Option.some.inj h).symm⟩
  case h_2 c hs =>
    have hs : sep = String.singleton c := by
      rw [← String.toList_inj, hs, String.toList_singleton]
    have h := Option.some.inj h
    split at h
    case isTrue hc =>
      rw [hc] at hs
      exact .inr (.inl ⟨hs, h.symm⟩)
    case isFalse hc => exact .inr (.inr (.inl ⟨c, hc, hs, h.symm⟩))
  case h_3 hn hc =>
    obtain ⟨q, _, hq⟩ := Option.map_eq_some_iff.mp h
    refine .inr (.inr (.inr ⟨?_, fun c => ?_, q, hq.symm⟩))
    · rintro rfl
      exact hn rfl
    · rintro rfl
      exact hc c (String.toList_singleton c)

namespace Parted

variable {p : Pieces}

theorem of_pieces (hp : p.join = cs) (hn : cs ≠ []) (hm : ∀ l ∈ p.marked, l ≠ []) (hs : sep ≠ "")
    (hb : sep = " " → ∀ l ∈ p.plain, l ≠ [] ∧ ∀ c ∈ l, Text.isBlank c = false)
    (hc : ∀ c ≠ ' ', sep = String.singleton c →
      (∀ l ∈ p.marked, l = [c]) ∧ ∀ l ∈ p.plain, c ∉ l) :
    Parted sep (String.ofList cs) (p.plain.map String.ofList) (p.marked.map String.ofList) where
  join         := by rw [join_byTurns, ← Pieces.join_eq, hp]
  empty h      := absurd (String.ofList_eq_empty_iff.mp h) hn
  letters h    := absurd h hs
  length _ _   := by rw [List.length_map, List.length_map, Pieces.length_plain]
  nonempty     := List.forall_mem_map.mpr fun l hl =>
    mt String.ofList_eq_empty_iff.mp (hm l hl)
  blanks h     := List.forall_mem_map.mpr fun l hl => by
    obtain ⟨hn, hl⟩ := hb h l hl
    exact ⟨mt String.ofList_eq_empty_iff.mp hn, by rwa [String.toList_ofList]⟩
  char c hn hs := by
    obtain ⟨hm, hp⟩ := hc c hn hs
    refine ⟨List.forall_mem_map.mpr fun l hl => ?_, List.forall_mem_map.mpr fun l hl => ?_⟩
    · rw [hm l hl, hs, String.singleton_eq_ofList]
    · rw [String.toList_ofList]
      exact hp l hl

theorem of_nothing : Parted "" (String.ofList cs)
    ((Separator.nothing.split cs).1.map String.ofList) [] := by
  have hl : (Separator.nothing.split cs).1.map String.ofList = cs.map String.singleton := by
    rw [Separator.split, List.map_map]
    exact List.map_congr_left fun c _ => String.singleton_eq_ofList.symm
  rw [hl]
  constructor
  case join =>
    cases cs
    case nil => rfl
    case cons c cs =>
      rw [List.map_cons, byTurns, ← String.toList_inj]
      simp [List.flatMap_map]
  case empty =>
    intro h
    rw [String.ofList_eq_empty_iff.mp h]
    exact ⟨rfl, rfl⟩
  case letters => exact fun _ => ⟨by rw [String.toList_ofList], rfl⟩
  case length => exact fun h => absurd rfl h
  case nonempty => exact List.forall_mem_nil _
  case blanks => exact fun h => absurd h (by decide)
  case char => exact fun c _ h => absurd (congrArg String.toList h) (by simp)

theorem of_empty : Parted sep "" [] [] where
  join       := rfl
  empty _    := ⟨rfl, rfl⟩
  letters _  := ⟨rfl, rfl⟩
  length _ h := absurd rfl h
  nonempty   := List.forall_mem_nil _
  blanks _   := List.forall_mem_nil _
  char _ _ _ := ⟨List.forall_mem_nil _, List.forall_mem_nil _⟩

theorem of_blanks (hn : cs ≠ []) (hh : ∀ c ∈ cs.head?, Text.isBlank c = false)
    (hl : ∀ c ∈ cs.getLast?, Text.isBlank c = false) :
    Parted " " (String.ofList cs)
      ((Pieces.ofMarks Text.isBlank true cs).plain.map String.ofList)
      ((Pieces.ofMarks Text.isBlank true cs).marked.map String.ofList) := by
  refine of_pieces Pieces.join_ofMarks hn (fun l hl => (Pieces.marked_ofMarks l hl).1)
    (by decide) (fun _ l hm => ⟨?_, Pieces.plain_ofMarks l hm⟩) fun c hc hs => ?_
  · exact Pieces.plain_ofMarks_ne_nil hn hh hl l hm
  · exact absurd (singleton_inj (c := ' ').mp hs).symm hc

theorem of_char (hn : cs ≠ []) (hc : c ≠ ' ') :
    Parted (String.singleton c) (String.ofList cs)
      ((Pieces.ofMarks (· = c) false cs).plain.map String.ofList)
      ((Pieces.ofMarks (· = c) false cs).marked.map String.ofList) := by
  refine of_pieces Pieces.join_ofMarks hn (fun l hl => (Pieces.marked_ofMarks l hl).1)
    (by simp [← String.toList_inj]) (fun hs => ?_) fun d _ hs => ?_
  · exact absurd (singleton_inj.mp hs) hc
  · obtain rfl := singleton_inj.mp hs
    refine ⟨fun l hl => ?_, fun l hl hm => ?_⟩
    · obtain ⟨e, rfl⟩ := List.length_eq_one_iff.mp (Pieces.marked_ofMarks_single l hl)
      have he := (Pieces.marked_ofMarks _ hl).2 e (.head _)
      rw [of_decide_eq_true he]
    · exact absurd rfl (of_decide_eq_false (Pieces.plain_ofMarks l hl c hm))

theorem of_pattern (hn : cs ≠ []) (hs : sep ≠ "") (hc : ∀ c, sep ≠ String.singleton c)
    (q : Matcher) :
    Parted sep (String.ofList cs)
      ((Separator.pattern q |>.split cs).1.map String.ofList)
      ((Separator.pattern q |>.split cs).2.map String.ofList) := by
  have ho := (q.successive cs.toArray).filter fun span => span.1 ≠ span.2
  have hj := Pieces.join_ofSpans ho
  rw [Array.extract_size, List.toList_toArray] at hj
  have hm := Pieces.marked_ofSpans ho fun span h => by simpa using (List.mem_filter.mp h).2
  exact of_pieces hj hn hm hs (fun h => absurd h (hc ' ')) fun c _ h => absurd h (hc c)

theorem of_splitText [Patterns] {text : String} {fields separators : List String}
    (h : splitText? text sep = some (fields, separators)) :
    ∃ t, (if sep = " " then Text.Trims Text.isBlank text.toList t.toList else t = text) ∧
      Parted sep t fields separators := by
  rw [splitText?] at h
  generalize hcs : (if sep = " " then Text.trimList Text.isBlank text.toList else text.toList) = cs
    at h
  have ht : if sep = " " then Text.Trims Text.isBlank text.toList cs
      else String.ofList cs = text := by
    rw [← hcs]
    split
    case isTrue => exact Text.trims_trimList Text.isBlank text.toList
    case isFalse => exact String.ofList_toList
  refine ⟨String.ofList cs, by rwa [String.toList_ofList], ?_⟩
  dsimp only at h
  split at h
  case isTrue hn =>
    cases h
    rw [hn]
    exact of_empty
  case isFalse hn =>
    obtain ⟨s, hs, hf⟩ := Option.map_eq_some_iff.mp h
    cases hf
    rcases Separator.ofString?_cases hs with ⟨rfl, rfl⟩ | ⟨rfl, rfl⟩ | ⟨c, hc, rfl, rfl⟩ |
      ⟨he, hc, q, rfl⟩
    · exact of_nothing
    · rw [if_pos rfl] at ht
      exact of_blanks hn ht.head ht.last
    · exact of_char hn hc
    · exact of_pattern hn he hc q

end Parted

end PatternAction
