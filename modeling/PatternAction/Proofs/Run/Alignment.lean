import PatternAction.Proofs.Run.Step

namespace PatternAction.Environment

-- What an alias may lead to. Only the global "NF" may turn from an array into a scalar, since
-- loading a record counts the fields there.
structure Shared (e : Environment) (r : Reference) : Prop where
  plain : IsPlain r
  bound : (e.cell? r).isSome
  array : r ≠ fieldCount → e.isArray r

def Aligned (e : Environment) : Prop :=
  ∀ (i : Nat) (f : Frame) (x : String) (r : Reference),
    e.frames[i]? = some f → f.aliases.get? x = some r → r.Below i ∧ e.Shared r

-- A frame for a call, made from what can be named before the call.
def Handed (e : Environment) (f : Frame) : Prop :=
  ∀ x r, f.aliases.get? x = some r → (∃ y, e.resolve y = r) ∧ e.Shared r

variable {e e' : Environment} {r : Reference} {c : Cell} {f : Frame} {x : String} {i : Nat}

namespace Shared

theorem of_cell?_eq (h : e.Shared r) (hc : e'.cell? r = e.cell? r) : e'.Shared r where
  plain := h.plain
  bound := hc ▸ h.bound
  array hr := by
    rw [isArray, hc]
    exact h.array hr

theorem setCell {q : Reference} (h : e.Shared r) (hq : q.Below e.depth)
    (hc : c.isArray ∨ e.isArray q = false ∨ q = fieldCount) : (e.setCell q c).Shared r := by
  by_cases hr : r = q
  case neg => exact h.of_cell?_eq (cell?_setCell_of_ne hr)
  case pos =>
    subst hr
    have hs := cell?_setCell_self (c := c) hq
    refine ⟨h.plain, by rw [hs]; rfl, fun hn => ?_⟩
    rw [isArray, hs]
    rcases hc with hc | hc | hc
    · exact hc
    · cases hc.symm.trans (h.array hn)
    · exact absurd hc hn

theorem setGlobal {v : Value} (h : e.Shared r)
    (hx : isFieldName x ∨ x = "NF" ∨ e.isArray ⟨.globals, x⟩ = false) :
    (e.setGlobal x v).Shared r := by
  rcases hx with hx | rfl | hx
  · exact h.of_cell?_eq (cell?_setGlobal_of_ne (h.plain.ne_of_isFieldName hx))
  · exact h.setCell .globals (.inr (.inr rfl))
  · exact h.setCell .globals (.inr (.inl hx))

end Shared

theorem Step.cases_of {may : Use → String → Prop} {handed : Environment → Frame → Prop}
    (h : Step may handed e e') :
    (∃ x c, (c.isArray ∨ e.isArray (e.resolve x) = false) ∧ e' = e.store x c) ∨
    (e'.frames = e.frames ∧ ∀ r, e.Shared r → e'.Shared r) ∨
    (∃ f, handed e f ∧ e' = e.push f) ∨
    (0 < e.depth ∧ e' = e.pop) := by
  cases h
  case write h        =>
    cases h
    case same           => exact .inr (.inl ⟨rfl, fun _ h => h⟩)
    case scalar x v _ h => exact .inl ⟨x, .scalar v, .inr h, rfl⟩
    case array x t _ _  => exact .inl ⟨x, .array t, .inl rfl, rfl⟩
    case split x t _    => exact .inl ⟨x, .array t, .inl rfl, rfl⟩
    case field h        => exact .inr (.inl ⟨rfl, fun _ hr => hr.setGlobal (.inl h)⟩)
  case drop           =>
    exact .inr (.inl ⟨rfl, fun _ hr => hr.of_cell?_eq (cell?_dropFields hr.plain)⟩)
  case fields         =>
    refine .inr (.inl ⟨frames_setFields, fun r hr => ?_⟩)
    refine setFields_induction (P := (Shared · r)) hr fun _ _ _ hr hx => ?_
    exact hr.setGlobal (hx.imp_right .inl)
  case count hn hf    =>
    refine .inr (.inl ⟨rfl, fun _ hr => ?_⟩)
    refine (hr.setGlobal (.inr (.inr hn))).setGlobal (.inr (.inr ?_))
    rwa [isArray, cell?_setGlobal_of_ne (by decide)]
  case push f h       => exact .inr (.inr (.inl ⟨f, h, rfl⟩))
  case pop h          => exact .inr (.inr (.inr ⟨h, rfl⟩))

namespace Aligned

theorem of_frames_empty (h : e.frames = #[]) : e.Aligned := by
  intro i f x r hf
  simp [h] at hf

theorem below_resolve (h : e.Aligned) (x : String) : (e.resolve x).Below e.depth := by
  rcases e.resolve_cases x with hr | ⟨f, hf, hd, ha | ⟨hr, _⟩⟩
  · exact hr ▸ .globals
  · exact (h _ _ _ _ hf ha).1.mono (Nat.sub_le _ _)
  · rw [hr]
    rintro i ⟨⟩
    omega

theorem plain_resolve (h : e.Aligned) (hx : isFieldName x = false) : IsPlain (e.resolve x) := by
  rcases e.resolve_cases x with hr | ⟨f, hf, _, ha | ⟨hr, _⟩⟩
  · rw [hr]
    exact fun _ => hx
  · exact (h _ f x _ hf ha).2.plain
  · rw [hr]
    exact fun h => nomatch h

theorem bound_resolve (h : e.Aligned) (hx : (e.resolve x).scope = .frame i) :
    (e.cell? (e.resolve x)).isSome := by
  rcases e.resolve_cases x with hr | ⟨f, hf, _, ha | ⟨hr, hl⟩⟩
  · rw [hr] at hx
    cases hx
  · exact (h _ _ _ _ hf ha).2.bound
  · rw [hr]
    exact cell?_frame_eq_some_iff.mpr ⟨f, hf, hl⟩

theorem alike_store (h : e.Aligned) : e.Alike (e.store x c) where
  depth := depth_setCell
  frames i f hf := by
    refine ⟨_, frames_setCell hf, ?_⟩
    split
    case isFalse => exact .refl f
    case isTrue hs =>
      have hb := h.bound_resolve hs
      generalize e.resolve x = r at hs hb
      obtain ⟨_, y⟩ := r
      subst hs
      have ⟨g, hg, hy⟩ := cell?_frame_eq_some_iff.mp hb
      cases hf.symm.trans hg
      exact ⟨rfl, fun _ => Table.contains_insert_of_contains hy⟩

theorem of_alike (h : e.Aligned) (ha : e.Alike e')
    (hs : ∀ r, r.Below e.depth → e.Shared r → e'.Shared r) : e'.Aligned := by
  intro i g x r hg hr
  have ⟨hi, _⟩ := Array.getElem?_eq_some_iff.mp hg
  have hi : i < e.frames.size := Nat.lt_of_lt_of_eq hi ha.depth
  have ⟨g', hg', hfg⟩ := ha.frames i _ (Array.getElem?_eq_getElem hi)
  cases hg.symm.trans hg'
  have ⟨hb, hsh⟩ := h i _ x r (Array.getElem?_eq_getElem hi) (hfg.aliases ▸ hr)
  exact ⟨hb, hs r (hb.mono (Nat.le_of_lt hi)) hsh⟩

theorem push (h : e.Aligned) (hf : e.Handed f) : (e.push f).Aligned := by
  intro i g x r hg hr
  rw [Environment.push, Array.getElem?_push] at hg
  split at hg
  case isTrue hi =>
    cases hg
    obtain ⟨⟨y, hy⟩, hs⟩ := hf x r hr
    have hb : r.Below e.depth := hy ▸ h.below_resolve y
    exact ⟨hi ▸ hb, hs.of_cell?_eq (cell?_push hb)⟩
  case isFalse =>
    obtain ⟨hi, _⟩ := Array.getElem?_eq_some_iff.mp hg
    obtain ⟨hb, hs⟩ := h i g x r hg hr
    exact ⟨hb, hs.of_cell?_eq (cell?_push (hb.mono (Nat.le_of_lt hi)))⟩

theorem pop (h : e.Aligned) : e.pop.Aligned := by
  intro i g x r hg hr
  rw [Environment.pop, Array.getElem?_pop] at hg
  split at hg
  case isFalse => cases hg
  case isTrue hi =>
    obtain ⟨hb, hs⟩ := h i g x r hg hr
    exact ⟨hb, hs.of_cell?_eq (cell?_pop (hb.mono (Nat.le_of_lt hi)))⟩

theorem step {may : Use → String → Prop} (h : e.Aligned) (hs : Step may Handed e e') :
    e'.Aligned := by
  rcases hs.cases_of with ⟨x, c, hc, rfl⟩ | ⟨hf, hs⟩ | ⟨f, hf, rfl⟩ | ⟨_, rfl⟩
  · refine h.of_alike h.alike_store fun r _ hr => ?_
    exact hr.setCell (h.below_resolve x) (hc.imp_right .inl)
  · exact h.of_alike (.of_frames_eq hf) fun r _ => hs r
  · exact h.push hf
  · exact h.pop

end Aligned

end PatternAction.Environment
