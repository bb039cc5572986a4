/-!
# Results of fallible steps
-/

namespace Fluxcope.Library

variable {ε α β : Type}

/-- A sequence of steps succeeds if each step does. -/
theorem bind_eq_ok {step : Except ε α} {next : α → Except ε β} {value : β} :
    (step >>= next) = .ok value ↔ ∃ x, step = .ok x ∧ next x = .ok value := by
  cases step with
  | error error =>
    constructor
    · intro h
      cases h
    · rintro ⟨x, hx, -⟩
      cases hx
  | ok x =>
    constructor
    · intro h
      exact ⟨x, rfl, h⟩
    · rintro ⟨_, ⟨⟩, h⟩
      exact h

theorem map_eq_ok {step : Except ε α} {f : α → β} {value : β} :
    step.map f = .ok value ↔ ∃ x, step = .ok x ∧ f x = value := by
  cases step with
  | error error =>
    constructor
    · intro h
      cases h
    · rintro ⟨x, hx, -⟩
      cases hx
  | ok x =>
    constructor
    · intro h
      cases h
      exact ⟨x, rfl, rfl⟩
    · rintro ⟨_, ⟨⟩, rfl⟩
      rfl

end Fluxcope.Library
