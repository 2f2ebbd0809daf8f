import Mathlib.Data.List.DropRight
import PatternAction.Pieces
import PatternAction.Text.WhiteSpace

namespace PatternAction

-- The members of two lists by turns.
def byTurns {α : Type} : List α → List α → List α
  | [], ys           => ys
  | x :: xs, []      => x :: xs
  | x :: xs, y :: ys => x :: y :: byTurns xs ys

theorem map_byTurns {α β : Type} (f : α → β) (xs ys : List α) :
    (byTurns xs ys).map f = byTurns (xs.map f) (ys.map f) := by
  induction xs, ys using byTurns.induct
  case case1 => rfl
  case case2 => rfl
  case case3 ih => simp [byTurns, ih]

namespace Text

variable {p : Char → Bool} {cs : List Char} {c : Char}

-- A text without the characters around it that suit.
structure Trims (p : Char → Bool) (cs trimmed : List Char) : Prop where
  around : ∃ before after, cs = before ++ trimmed ++ after ∧
             (∀ c ∈ before, p c) ∧ ∀ c ∈ after, p c
  head   : ∀ c ∈ trimmed.head?, p c = false
  last   : ∀ c ∈ trimmed.getLast?, p c = false

theorem head?_dropWhile (h : c ∈ (cs.dropWhile p).head?) : p c = false := by
  have hd := List.head?_dropWhile_not p cs
  rwa [Option.mem_def.mp h] at hd

theorem trims_trimList (p : Char → Bool) (cs : List Char) : Trims p cs (trimList p cs) where
  around := by
    have hr : trimList p cs ++ (cs.dropWhile p).rtakeWhile p = cs.dropWhile p :=
      List.rdropWhile_append_rtakeWhile
    refine ⟨cs.takeWhile p, (cs.dropWhile p).rtakeWhile p, ?_, ?_, ?_⟩
    · rw [List.append_assoc, hr, List.takeWhile_append_dropWhile]
    · exact fun c hc => List.mem_takeWhile_imp hc
    · exact fun c hc => List.mem_rtakeWhile_imp hc
  head c hc := by
    obtain ⟨after, hr⟩ : trimList p cs <+: cs.dropWhile p := List.rdropWhile_prefix _ _
    have hd : c ∈ (cs.dropWhile p).head? := by
      rw [← hr, List.head?_append, Option.mem_def.mp hc]
      rfl
    exact head?_dropWhile hd
  last c hc := by
    rw [trimList, List.getLast?_reverse] at hc
    exact head?_dropWhile hc

theorem dropWhile_append_of {before : List Char} (hb : ∀ c ∈ before, p c)
    (hc : ∀ c ∈ cs.head?, p c = false) : (before ++ cs).dropWhile p = cs := by
  rw [List.dropWhile_append_of_pos hb]
  cases cs
  case nil => rfl
  case cons c cs => rw [List.dropWhile_cons_of_neg (by simp [hc c rfl])]

theorem Trims.trimList_eq {trimmed : List Char} (h : Trims p cs trimmed) :
    trimList p cs = trimmed := by
  obtain ⟨⟨before, after, rfl, hb, ha⟩, hh, hl⟩ := h
  have ha : ∀ c ∈ after.reverse, p c := fun c hc => ha c (List.mem_reverse.mp hc)
  have hl : ∀ c ∈ trimmed.reverse.head?, p c = false := by rwa [List.head?_reverse]
  rw [trimList, List.append_assoc]
  by_cases hn : trimmed = []
  case pos =>
    have hd : ∀ c ∈ before ++ after, p c := List.forall_mem_append.mpr
      ⟨hb, fun c hc => ha c (List.mem_reverse.mpr hc)⟩
    rw [hn, List.nil_append, List.dropWhile_eq_nil_iff.mpr hd]
    rfl
  case neg =>
    have hh : ∀ c ∈ (trimmed ++ after).head?, p c = false := by
      rwa [List.head?_append_of_ne_nil _ hn]
    rw [dropWhile_append_of hb hh, List.reverse_append, dropWhile_append_of ha hl,
      List.reverse_reverse]

end Text

namespace Pieces

variable {isMark : Char → Bool} {runs : Bool} {cs : List Char} {p : Pieces}

theorem mapMarked_eq (p : Pieces) (f : List Char → List Char) :
    p.mapMarked f = (byTurns p.plain (p.marked.map f)).flatten := by
  obtain ⟨head, tail⟩ := p
  induction tail generalizing head
  case nil => simp [mapMarked, plain, marked, byTurns]
  case cons q rest ih =>
    have ih := ih q.2
    simp only [mapMarked, plain, marked, List.map_cons] at ih ⊢
    simp [byTurns, ih, -List.map_map]

theorem join_eq (p : Pieces) : p.join = (byTurns p.plain p.marked).flatten := by
  rw [join, mapMarked_eq, List.map_id]

theorem length_plain (p : Pieces) : p.plain.length = p.marked.length + 1 := by
  simp [plain, marked]

section Marks

-- A further character either is marked, alone or with the marked stretch that comes next, or goes
-- before the first plain stretch.
theorem ofMarks_cons (c : Char) (cs : List Char) : ofMarks isMark runs (c :: cs) =
    if isMark c then
      match runs, ofMarks isMark runs cs with
      | true, ⟨[], (m, t) :: rest⟩ => ⟨[], (c :: m, t) :: rest⟩
      | _, p => ⟨[], ([c], p.head) :: p.tail⟩
    else (ofMarks isMark runs cs).cons c :=
  rfl

theorem join_ofMarks : (ofMarks isMark runs cs).join = cs := by
  induction cs
  case nil => rfl
  case cons c cs ih =>
    rw [ofMarks_cons]
    generalize ofMarks isMark runs cs = p at ih ⊢
    subst ih
    split
    case isTrue => split <;> simp [join, mapMarked]
    case isFalse => rfl

theorem head_ofMarks : (ofMarks isMark runs cs).head = cs.takeWhile (!isMark ·) := by
  induction cs
  case nil => rfl
  case cons c cs ih =>
    rw [ofMarks_cons]
    split
    case isTrue h =>
      rw [List.takeWhile_cons_of_neg (by simp [h])]
      split <;> rfl
    case isFalse h => rw [List.takeWhile_cons_of_pos (by simpa using h), ← ih, cons]

theorem marked_ofMarks : ∀ l ∈ (ofMarks isMark runs cs).marked, l ≠ [] ∧ ∀ c ∈ l, isMark c := by
  induction cs
  case nil => exact List.forall_mem_nil _
  case cons c cs ih =>
    rw [ofMarks_cons]
    generalize ofMarks isMark runs cs = p at ih ⊢
    split
    case isFalse => exact ih
    case isTrue h =>
      split
      case h_1 m t rest =>
        obtain ⟨hm, ih⟩ := List.forall_mem_cons.mp ih
        exact List.forall_mem_cons.mpr ⟨⟨by simp, List.forall_mem_cons.mpr ⟨h, hm.2⟩⟩, ih⟩
      case h_2 => exact List.forall_mem_cons.mpr ⟨by simp [h], ih⟩

theorem plain_ofMarks : ∀ l ∈ (ofMarks isMark runs cs).plain, ∀ c ∈ l, isMark c = false := by
  induction cs
  case nil => simp [ofMarks, plain]
  case cons c cs ih =>
    rw [ofMarks_cons]
    generalize ofMarks isMark runs cs = p at ih ⊢
    split
    case isTrue => split <;> simpa [plain] using ih
    case isFalse h => 
      obtain ⟨hp, ih⟩ := List.forall_mem_cons.mp ih
      refine List.forall_mem_cons.mpr ⟨List.forall_mem_cons.mpr ⟨?_, hp⟩, ih⟩
      simpa using h

theorem marked_ofMarks_single : ∀ l ∈ (ofMarks isMark false cs).marked, l.length = 1 := by
  induction cs
  case nil => exact List.forall_mem_nil _
  case cons c cs ih =>
    rw [ofMarks_cons]
    split
    case isTrue => exact List.forall_mem_cons.mpr ⟨rfl, ih⟩
    case isFalse => exact ih

-- If they do, there is something between two of them, and after the last one if there is no mark at
-- the end.
theorem tail_ofMarks_runs (h : ∀ c ∈ cs.getLast?, isMark c = false) :
    ∀ q ∈ (ofMarks isMark true cs).tail, q.2 ≠ [] := by
  induction cs
  case nil => exact List.forall_mem_nil _
  case cons c cs ih =>
    have ht := ih fun e he => h e (by rw [List.getLast?_cons, Option.mem_def.mp he]; rfl)
    have hj : (ofMarks isMark true cs).join = cs := join_ofMarks
    rw [ofMarks_cons]
    generalize ofMarks isMark true cs = p at ht hj ⊢
    obtain ⟨head, tail⟩ := p
    split
    case isFalse => exact ht
    case isTrue hc =>
      cases head
      case cons => exact List.forall_mem_cons.mpr ⟨List.cons_ne_nil _ _, ht⟩
      case nil =>
        cases tail
        case nil =>
          subst hj
          cases hc.symm.trans (h c rfl)
        case cons => exact List.forall_mem_cons.mpr (List.forall_mem_cons.mp ht)

theorem plain_ofMarks_ne_nil (hn : cs ≠ []) (hh : ∀ c ∈ cs.head?, isMark c = false)
    (hl : ∀ c ∈ cs.getLast?, isMark c = false) :
    ∀ l ∈ (ofMarks isMark true cs).plain, l ≠ [] := by
  obtain ⟨c, cs, rfl⟩ := List.exists_cons_of_ne_nil hn
  refine List.forall_mem_cons.mpr ⟨?_, List.forall_mem_map.mpr (tail_ofMarks_runs hl)⟩
  rw [head_ofMarks, List.takeWhile_cons_of_pos (by simp [hh c rfl])]
  exact List.cons_ne_nil _ _

end Marks

end Pieces

end PatternAction
