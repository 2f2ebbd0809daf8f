import PatternAction.Proofs.Number.Counting
import PatternAction.Proofs.Run.Operations

namespace PatternAction

def spares (u : Use) (x : String) : Prop :=
  u = .assigned ∨ u = .split → x ≠ "NR" ∧ x ≠ "FNR"

namespace Environment

-- The counts of records, in all and in the present input, which are the same.
def counters : List Reference := [⟨.globals, "NR"⟩, ⟨.globals, "FNR"⟩]

def Avoids (f : Frame) : Prop := ∀ x r, f.aliases.get? x = some r → r ∉ counters

-- Both counters hold a number, and no name in a call is an alias of one.
structure Counts (e : Environment) (n : Nat) : Prop where
  cells  : ∀ r ∈ counters, e.cell? r = some (.scalar ⟨toString n⟩)
  avoids : ∀ (i : Nat) (f : Frame), e.frames[i]? = some f → Avoids f

variable {e e' : Environment} {r : Reference} {n : Nat} {x : String} {f : Frame}

theorem isPlain_of_mem_counters (h : r ∈ counters) : IsPlain r := by
  simp only [counters, List.mem_cons, List.not_mem_nil, or_false] at h
  rcases h with rfl | rfl
  all_goals exact fun _ => by decide

theorem ne_fieldCount_of_mem_counters (h : r ∈ counters) : r ≠ fieldCount := by
  rintro rfl
  exact absurd h (by decide)

theorem below_of_mem_counters (h : r ∈ counters) : r.Below n := by
  simp only [counters, List.mem_cons, List.not_mem_nil, or_false] at h
  rcases h with rfl | rfl
  all_goals exact .globals

theorem aliases_setCell {c : Cell} {i : Nat} {g : Frame}
    (hg : (e.setCell r c).frames[i]? = some g) :
    ∃ f, e.frames[i]? = some f ∧ g.aliases = f.aliases := by
  cases hf : e.frames[i]?
  case none =>
    have hi : e.frames.size ≤ i := Array.getElem?_eq_none_iff.mp hf
    have hd : (e.setCell r c).frames.size = e.frames.size := depth_setCell
    rw [Array.getElem?_eq_none (by omega)] at hg
    cases hg
  case some f =>
    rw [frames_setCell hf] at hg
    refine ⟨f, rfl, ?_⟩
    cases hg
    split <;> rfl

namespace Counts

variable (h : e.Counts n)
include h

theorem of_frames_eq (hf : e'.frames = e.frames) (hc : ∀ r ∈ counters, e'.cell? r = e.cell? r) :
    e'.Counts n where
  cells r hr := (hc r hr).trans (h.cells r hr)
  avoids := hf ▸ h.avoids

theorem global (hx : ⟨.globals, x⟩ ∈ counters) : e.global x = .ok ⟨toString n⟩ := by
  have hc : e.globals.get? x = some (.scalar ⟨toString n⟩) := h.cells _ hx
  rw [Environment.global, hc]

theorem resolve_notMem (hx : x ≠ "NR" ∧ x ≠ "FNR") : e.resolve x ∉ counters := by
  rcases e.resolve_cases x with hr | ⟨f, hf, _, ha | ⟨hr, _⟩⟩
  · rw [hr]
    simp [counters, hx]
  · exact h.avoids _ f hf x _ ha
  · rw [hr]
    simp [counters]

theorem notMem_of_isArray (hr : e.isArray r) : r ∉ counters := fun hm => by
  rw [isArray, h.cells r hm] at hr
  cases hr

theorem setCell {c : Cell} (hr : r ∉ counters) : (e.setCell r c).Counts n where
  cells q hq := by
    have hne : q ≠ r := fun hqr => hr (hqr ▸ hq)
    rw [cell?_setCell_of_ne hne]
    exact h.cells q hq
  avoids i g hg := by
    obtain ⟨f, hf, ha⟩ := aliases_setCell hg
    intro x q hx
    exact h.avoids i f hf x q (ha ▸ hx)

theorem write (hw : e.Write spares e') : e'.Counts n := by
  cases hw
  case same => exact h
  case scalar hx _ => exact h.setCell (h.resolve_notMem (hx (.inl rfl)))
  case array hl => exact h.setCell fun hr => hl _ (h.cells _ hr)
  case split hx => exact h.setCell (h.resolve_notMem (hx (.inr rfl)))
  case field hx =>
    refine h.of_frames_eq rfl fun r hr => cell?_setGlobal_of_ne ?_
    exact (isPlain_of_mem_counters hr).ne_of_isFieldName hx

theorem dropFields : e.dropFields.Counts n :=
  h.of_frames_eq rfl fun _ hr => cell?_dropFields (isPlain_of_mem_counters hr)

theorem setFields {record : String} {fs : List String} : (e.setFields record fs).Counts n :=
  h.of_frames_eq frames_setFields fun _ hr =>
    cell?_setFields (isPlain_of_mem_counters hr) (ne_fieldCount_of_mem_counters hr)

theorem push (hf : Avoids f) : (e.push f).Counts n where
  cells r hr := by
    rw [cell?_push (below_of_mem_counters hr)]
    exact h.cells r hr
  avoids i g hg := by
    rw [Environment.push, Array.getElem?_push] at hg
    split at hg
    case isTrue =>
      cases hg
      exact hf
    case isFalse => exact h.avoids i g hg

theorem pop : e.pop.Counts n where
  cells r hr := by
    rw [cell?_pop (below_of_mem_counters hr)]
    exact h.cells r hr
  avoids i g hg := by
    rw [Environment.pop, Array.getElem?_pop] at hg
    split at hg
    case isTrue => exact h.avoids i g hg
    case isFalse => cases hg

theorem count {v : Value} (hv : v = ⟨toString (n + 1)⟩) :
    ((e.setGlobal "NR" v).setGlobal "FNR" v).Counts (n + 1) where
  cells r hr := by
    subst hv
    simp only [counters, List.mem_cons, List.not_mem_nil, or_false] at hr
    rcases hr with rfl | rfl
    · rw [cell?_setGlobal_of_ne (by decide)]
      exact cell?_setCell_self (r := ⟨.globals, "NR"⟩) .globals
    · exact cell?_setCell_self (r := ⟨.globals, "FNR"⟩) .globals
  avoids := h.avoids

end Counts

end Environment

end PatternAction
