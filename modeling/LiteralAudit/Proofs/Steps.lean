/-!
# Readings in steps

A reading that succeeds did so step by step.
-/

namespace LiteralAudit

variable {ε α β : Type} {b : β}

/-- A reading in two steps succeeds if both do. -/
theorem exists_of_bind_eq_ok {first : Except ε α} {next : α → Except ε β}
    (h : (first >>= next) = .ok b) : ∃ a, first = .ok a ∧ next a = .ok b := by
  cases first with
  | error fault => cases h
  | ok a => exact ⟨a, rfl, h⟩

/-- Behind a first step that succeeds only the second one is left. -/
theorem bind_of_eq_ok {first : Except ε α} {a : α} (h : first = .ok a) (next : α → Except ε β) :
    (first >>= next) = next a := by
  rw [h]
  rfl

/-- What is made of the value of a reading is there only if the value is. -/
theorem exists_of_map_eq_ok {reading : Except ε α} {f : α → β} (h : reading.map f = .ok b) :
    ∃ a, reading = .ok a ∧ f a = b := by
  cases reading with
  | error fault => cases h
  | ok a => exact ⟨a, rfl, Except.ok.inj h⟩

end LiteralAudit
