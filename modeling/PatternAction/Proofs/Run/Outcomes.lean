import PatternAction.Machine.Eval

namespace PatternAction

-- An argument was asked for that a call does not have.
def Fault.isStuck : Fault → Bool
  | .missingArgument _ => true
  | _                  => false

def Failure.isStuck : Failure → Bool
  | .fault cause _ => cause.isStuck
  | _              => false

-- An operation gives a result with a property, or a fault that is not about arguments.
def Meets {α : Type} (r : Except Fault α) (Q : α → Prop) : Prop :=
  match r with
  | .ok a    => Q a
  | .error c => c.isStuck = false

theorem Meets.bind {α β : Type} {r : Except Fault α} {f : α → Except Fault β} {P : α → Prop}
    {Q : β → Prop} (h : Meets r P) (hf : ∀ a, P a → Meets (f a) Q) : Meets (r >>= f) Q := by
  cases r
  case error => exact h
  case ok a => exact hf a h

theorem Meets.map {α β : Type} {r : Except Fault α} {f : α → β} {P : α → Prop} {Q : β → Prop}
    (h : Meets r P) (hf : ∀ a, P a → Q (f a)) : Meets (f <$> r) Q := by
  cases r
  case error => exact h
  case ok a => exact hf a h

namespace Run

section

variable {α β : Type} {x : Run α} {f : α → Run β} {m m' : Machine}

abbrev on (x : Run α) (m : Machine) : Except Failure α × Machine := x m

theorem on_bind_ok {a : α} (h : x.on m = (.ok a, m')) : (x >>= f).on m = (f a).on m' := by
  change ExceptT.bindCont f (x m).1 (x m).2 = _
  rw [show x m = _ from h]
  rfl

theorem on_bind_error {g : Failure} (h : x.on m = (.error g, m')) :
    (x >>= f).on m = (.error g, m') := by
  change ExceptT.bindCont f (x m).1 (x m).2 = _
  rw [show x m = _ from h]
  rfl

theorem on_bind_eq_ok {b : β} {m₂ : Machine} (h : (x >>= f).on m = (.ok b, m₂)) :
    ∃ a m₁, x.on m = (.ok a, m₁) ∧ (f a).on m₁ = (.ok b, m₂) := by
  rcases ho : x.on m with ⟨g | a, m₁⟩
  case error =>
    rw [on_bind_error ho] at h
    cases h
  case ok =>
    rw [on_bind_ok ho] at h
    exact ⟨a, m₁, rfl, h⟩

theorem guard_on {a : α} : (do if ← isHalted then return a else x : Run α).on m =
    if m.halted then (.ok a, m) else x.on m := by
  have hh : isHalted.on m = (.ok m.halted, m) := rfl
  rw [on_bind_ok hh]
  cases m.halted <;> rfl

end

-- What the result of a step is like, if there is one.
def Gives {α : Type} (x : Run α) (Q : α → Prop) : Prop :=
  ∀ m a, (x.on m).1 = .ok a → Q a

namespace Gives

variable {α β : Type} {x : Run α} {f : α → Run β} {P : α → Prop} {Q : β → Prop}

theorem pure {a : α} (h : P a) : Gives (pure a : Run α) P := fun _ _ ha =>
  Except.ok.inj ha ▸ h

theorem throw {g : Failure} : Gives (throw g : Run α) P := fun _ _ ha => nomatch ha

theorem bind (hx : x.Gives P) (hf : ∀ a, P a → Gives (f a) Q) : Gives (x >>= f) Q :=
  fun m b hb => by
    have ⟨a, m₁, hm, h⟩ := on_bind_eq_ok (Prod.ext hb rfl)
    have ha := hx m a (by rw [hm])
    exact hf a ha m₁ b (by rw [h])

theorem some (hx : x.Gives P) : Gives (some <$> x) fun o => ∃ a, o = some a ∧ P a := by
  rw [← bind_pure_comp]
  exact hx.bind fun a ha => .pure ⟨a, rfl, ha⟩

theorem any : x.Gives fun _ => True := fun _ _ _ => trivial

theorem check {o : Option Location} {r : Except Fault α} (h : Meets r P) : Gives (check o r) P := by
  cases r
  case error => exact throw
  case ok => exact pure h

end Gives

end Run

end PatternAction
