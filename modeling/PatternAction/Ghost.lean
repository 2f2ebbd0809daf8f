namespace PatternAction

-- A value that is known by what it is, not by how to compute it.
structure Ghost (α : Type) where
  is : α → Prop
  unique : ∃ a, ∀ b, is b ↔ b = a

namespace Ghost

variable {α β : Type}

@[inline] def of (a : α) : Ghost α := ⟨(· = a), a, fun _ => .rfl⟩

@[inline] def map (f : α → β) (g : Ghost α) : Ghost β where
  is b := ∃ a, g.is a ∧ b = f a
  unique := by
    obtain ⟨a, h⟩ := g.unique
    exact ⟨f a, fun b => by simp [h]⟩

noncomputable def get (g : Ghost α) : α := g.unique.choose

theorem is_iff (g : Ghost α) (a : α) : g.is a ↔ a = g.get := g.unique.choose_spec a

@[simp] theorem get_of (a : α) : (of a).get = a := (((of a).is_iff a).mp rfl).symm

@[simp] theorem get_map (f : α → β) (g : Ghost α) : (g.map f).get = f g.get :=
  (((g.map f).is_iff _).mp ⟨g.get, (g.is_iff _).mpr rfl, rfl⟩).symm

end Ghost

end PatternAction
