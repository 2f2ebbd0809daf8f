import PatternAction.Proofs.Run.Alignment

namespace PatternAction.Environment

variable {a e e' : Environment} {r : Reference} {f : Frame} {x : String} {i : Nat}
variable {may : Use → String → Prop}

def Targets (e : Environment) (r : Reference) : Prop :=
  ∃ f x, e.frames[e.depth - 1]? = some f ∧ f.aliases.get? x = some r

-- A cell is as it was, unless it is an array that the innermost call was handed.
def Spared (a e : Environment) (r : Reference) : Prop :=
  e.cell? r = a.cell? r ∨ a.Targets r ∧ a.isArray r ∧ e.isArray r

theorem Spared.of_cell?_eq (h : Spared a e r) (hc : e'.cell? r = e.cell? r) : Spared a e' r :=
  h.imp hc.trans fun ⟨ht, ha, he⟩ => ⟨ht, ha, by rwa [isArray, hc]⟩

-- What an environment can become while its innermost call and those that it makes are under way.
-- The last condition is for the induction: it tells where the aliases of those calls lead.
structure Evolves (a e : Environment) : Prop where
  depth  : a.depth ≤ e.depth
  frames : ∀ (i : Nat) (f : Frame), a.frames[i]? = some f → ∃ g, e.frames[i]? = some g ∧ f.Alike g
  cells  : ∀ i x, i + 1 < a.depth → Spared a e ⟨.frame i, x⟩
  shared : ∀ r, r.Below a.depth → a.Shared r → e.Shared r
  rooted : ∀ (i : Nat) (f : Frame) (x : String) (r : Reference), a.depth ≤ i →
             e.frames[i]? = some f → f.aliases.get? x = some r → r.Below (a.depth - 1) →
             r.scope = .globals ∨ a.Targets r

-- What a call leaves as it is, as long as it is under way and when it ends: the names that are
-- bound in each frame, and the cells of all frames below that are not arrays it was handed.
structure Isolated (a e : Environment) : Prop where
  names : ∀ (i : Nat) (f g : Frame), a.frames[i]? = some f → e.frames[i]? = some g →
            ∀ x, g.locals.contains x = f.locals.contains x
  cells : ∀ i x, i + 1 < a.depth → Spared a e ⟨.frame i, x⟩

namespace Evolves

theorem refl (a : Environment) : a.Evolves a where
  depth := Nat.le_refl _
  frames _ f hf := ⟨f, hf, .refl f⟩
  cells _ _ _ := .inl rfl
  shared _ _ h := h
  rooted i f x r hi hf := by
    have ⟨hl, _⟩ := Array.getElem?_eq_some_iff.mp hf
    exact absurd hl (Nat.not_lt_of_le hi)

theorem alike (h : a.Evolves e) (hd : e.depth = a.depth) : a.Alike e := ⟨hd, h.frames⟩

-- Names lead to arrays that were handed down, to globals and to the calls above.
theorem rooted_resolve (h : a.Evolves e) (hr : (e.resolve x).Below (a.depth - 1)) :
    (e.resolve x).scope = .globals ∨ a.Targets (e.resolve x) := by
  rcases e.resolve_cases x with hx | ⟨f, hf, hd, ha | ⟨hx, _⟩⟩
  · exact .inl (by rw [hx])
  · by_cases he : e.depth = a.depth
    case neg => exact h.rooted _ f x _ (by have := h.depth; omega) hf ha hr
    case pos =>
      have hi : a.depth - 1 < a.frames.size := by
        rw [he] at hd
        exact Nat.sub_lt hd Nat.one_pos
      have ⟨g, hg, hfg⟩ := h.frames _ _ (Array.getElem?_eq_getElem hi)
      rw [he] at hf
      cases hf.symm.trans hg
      exact .inr ⟨_, x, Array.getElem?_eq_getElem hi, hfg.aliases ▸ ha⟩
  · have := hr _ (by rw [hx])
    have := h.depth
    omega

theorem store (ha : a.Aligned) (he : e.Aligned) (h : a.Evolves e) {c : Cell}
    (hc : c.isArray ∨ e.isArray (e.resolve x) = false) : a.Evolves (e.store x c) := by
  have hs r (hr : e.Shared r) : (e.store x c).Shared r :=
    hr.setCell (he.below_resolve x) (hc.imp_right .inl)
  have hl : e.Alike (e.store x c) := he.alike_store
  refine ⟨by rw [hl.depth]; exact h.depth, fun i f hf => ?_, fun i y hi => ?_, fun r hb hr => ?_,
    fun i g y r hi hg hy hb => ?_⟩
  case refine_1 =>
    have ⟨g, hg, hfg⟩ := h.frames i f hf
    have ⟨g', hg', hgg⟩ := hl.frames i g hg
    exact ⟨g', hg', hfg.trans hgg⟩
  case refine_2 =>
    by_cases hx : (⟨.frame i, y⟩ : Reference) = e.resolve x
    case neg => exact (h.cells i y hi).of_cell?_eq (cell?_setCell_of_ne hx)
    case pos =>
      -- The store goes through an alias, which leads to an array before and after it.
      have hb : Reference.Below (a.depth - 1) ⟨.frame i, y⟩ := by
        rintro _ ⟨⟩
        omega
      have ht := (h.rooted_resolve (hx ▸ hb)).resolve_left (by rw [← hx]; simp)
      rw [← hx] at ht
      have ⟨f, z, hf, hz⟩ := ht
      have hr := (ha _ f z _ hf hz).2
      have hr' := hs _ (h.shared _ (hb.mono (Nat.sub_le _ _)) hr)
      have hn : (⟨.frame i, y⟩ : Reference) ≠ fieldCount := by simp [fieldCount]
      exact .inr ⟨ht, hr.array hn, hr'.array hn⟩
  case refine_3 => exact hs r (h.shared r hb hr)
  case refine_4 =>
    have ⟨hi', _⟩ := Array.getElem?_eq_some_iff.mp hg
    have hi' : i < e.frames.size := Nat.lt_of_lt_of_eq hi' hl.depth
    have ⟨g', hg', hfg⟩ := hl.frames i _ (Array.getElem?_eq_getElem hi')
    cases hg.symm.trans hg'
    exact h.rooted i _ y r hi (Array.getElem?_eq_getElem hi') (hfg.aliases ▸ hy) hb

theorem of_frames_eq (h : a.Evolves e) (hf : e'.frames = e.frames)
    (hs : ∀ r, e.Shared r → e'.Shared r) : a.Evolves e' where
  depth := Nat.le_trans h.depth (Nat.le_of_eq (congrArg Array.size hf.symm))
  frames := hf ▸ h.frames
  cells i x hi := (h.cells i x hi).of_cell?_eq (by simp only [cell?, hf])
  shared r hb hr := hs r (h.shared r hb hr)
  rooted := hf ▸ h.rooted

theorem push (h : a.Evolves e) (hf : e.Handed f) : a.Evolves (e.push f) := by
  have hd := h.depth
  refine ⟨by rw [depth_push]; omega, fun i g hg => ?_, fun i x hi => ?_, fun r hb hr => ?_,
    fun i g x r hi hg hx hb => ?_⟩
  case refine_1 =>
    obtain ⟨g', hg', hgg⟩ := h.frames i g hg
    refine ⟨g', ?_, hgg⟩
    obtain ⟨hi, _⟩ := Array.getElem?_eq_some_iff.mp hg'
    simp only [Environment.push, Array.getElem?_push, Nat.ne_of_lt hi, if_false, hg']
  case refine_2 =>
    have hb : Reference.Below e.depth ⟨.frame i, x⟩ := by
      rintro _ ⟨⟩
      omega
    exact (h.cells i x hi).of_cell?_eq (cell?_push hb)
  case refine_3 => exact (h.shared r hb hr).of_cell?_eq (cell?_push (hb.mono hd))
  case refine_4 =>
    rw [Environment.push, Array.getElem?_push] at hg
    split at hg
    case isTrue =>
      cases hg
      obtain ⟨⟨y, hy⟩, _⟩ := hf x r hx
      exact hy ▸ h.rooted_resolve (hy ▸ hb)
    case isFalse => exact h.rooted i g x r hi hg hx hb

theorem pop (h : a.Evolves e) (hd : a.depth < e.depth) : a.Evolves e.pop := by
  have hd' : a.depth ≤ e.depth - 1 := Nat.le_sub_one_of_lt hd
  have hp i (hi : i < e.depth - 1) : e.pop.frames[i]? = e.frames[i]? := by
    rw [Environment.pop, Array.getElem?_pop]
    exact if_pos hi
  refine ⟨by rwa [depth_pop], fun i g hg => ?_, fun i x hi => ?_, fun r hb hr => ?_,
    fun i g x r hi hg hx hb => ?_⟩
  case refine_1 =>
    obtain ⟨hi, _⟩ := Array.getElem?_eq_some_iff.mp hg
    rw [hp i (Nat.lt_of_lt_of_le hi hd')]
    exact h.frames i g hg
  case refine_2 =>
    have hb : Reference.Below (e.depth - 1) ⟨.frame i, x⟩ := by
      rintro _ ⟨⟩
      omega
    exact (h.cells i x hi).of_cell?_eq (cell?_pop hb)
  case refine_3 => exact (h.shared r hb hr).of_cell?_eq (cell?_pop (hb.mono hd'))
  case refine_4 =>
    obtain ⟨hi', _⟩ := Array.getElem?_eq_some_iff.mp hg
    rw [hp i (Nat.lt_of_lt_of_eq hi' depth_pop)] at hg
    exact h.rooted i g x r hi hg hx hb

theorem step (ha : a.Aligned) (he : e.Aligned) (h : a.Evolves e) (hs : Step may Handed e e')
    (hd : a.depth ≤ e'.depth) : a.Evolves e' := by
  rcases hs.cases_of with ⟨x, c, hc, rfl⟩ | ⟨hf, hs⟩ | ⟨f, hf, rfl⟩ | ⟨hp, rfl⟩
  · exact h.store ha he hc
  · exact h.of_frames_eq hf hs
  · exact h.push hf
  · rw [depth_pop] at hd
    exact h.pop (by omega)

theorem handed (h : a.Evolves e) (hd : e.depth = a.depth) (ha : a.Aligned) (hf : a.Handed f) :
    e.Handed f := by
  intro x r hx
  have ⟨⟨y, hy⟩, hs⟩ := hf x r hx
  exact ⟨⟨y, ((h.alike hd).resolve y).trans hy⟩, h.shared r (hy ▸ ha.below_resolve y) hs⟩

theorem isolated (h : a.Evolves e) : a.Isolated e where
  names i f g hf hg := by
    have ⟨g', hg', hfg⟩ := h.frames i f hf
    cases hg.symm.trans hg'
    exact hfg.locals
  cells := h.cells

theorem isolated_pop (h : a.Evolves e) (hd : e.depth = a.depth) : a.Isolated e.pop where
  names i f g hf hg := by
    rw [Environment.pop, Array.getElem?_pop] at hg
    split at hg
    case isTrue => exact h.isolated.names i f g hf hg
    case isFalse => cases hg
  cells i x hi := by
    refine (h.cells i x hi).of_cell?_eq (cell?_pop ?_)
    rintro _ ⟨⟩
    omega

theorem isolated_step (ha : a.Aligned) (he : e.Aligned) (h : a.Evolves e)
    (hs : Step may Handed e e') : a.Isolated e' := by
  by_cases hd : a.depth ≤ e'.depth
  case pos => exact (h.step ha he hs hd).isolated
  case neg =>
    have hd' := h.depth
    rcases hs.cases_of with ⟨x, c, _, rfl⟩ | ⟨hf, _⟩ | ⟨f, _, rfl⟩ | ⟨_, rfl⟩
    · rw [Environment.store, depth_setCell] at hd
      exact absurd hd' hd
    · have hf : e'.depth = e.depth := congrArg Array.size hf
      exact absurd hd' (hf ▸ hd)
    · rw [depth_push] at hd
      omega
    · rw [depth_pop] at hd
      exact h.isolated_pop (by omega)

end Evolves

end PatternAction.Environment
