import LiteralAudit.Proofs.CommandLine.Reader

/-!
# The flag that asks for details

The flag has no value, and nothing that comes behind it is read in another way. So arguments with
the flag in front are read as they are without it, and the flag is the only difference. One that
is given again is refused, so this is said of arguments that do not hold it.
-/

namespace LiteralAudit.CommandLine

namespace State

variable {st next : State} {slot : Slot}

/-- The state with the flag put away in front of everything else. -/
def withDetails (st : State) : State := { st with stored := (.verbose, []) :: st.stored }

theorem orComplain_eq_ok {result : State × Option Complaint} :
    orComplain result = .ok next ↔ result = (next, none) := by
  obtain ⟨st, _ | complaint⟩ := result <;> simp [orComplain]

/-- An argument is put away if it was not given before and all its values are there. -/
theorem store_eq {values : List Text} :
    st.store slot values = (next, none) ↔
      st.has slot = false ∧ [] ∉ values ∧
        next = { st with stored := st.stored ++ [(slot, values)] } := by
  unfold store
  by_cases hhas : st.has slot
  · simp [hhas]
  · by_cases hempty : [] ∈ values
    · simp [hhas, hempty]
    · simp [hhas, hempty, eq_comm]

/-- A step keeps the flag, and it is taken with the flag as it is without, as long as it does not
set the flag itself. -/
def Transparent (step : State → Except Complaint State) : Prop :=
  ∀ st next, step st = .ok next →
    (st.has .verbose → next.has .verbose) ∧
    (¬ next.has .verbose → step st.withDetails = .ok next.withDetails)

theorem Transparent.bind {first second : State → Except Complaint State}
    (hfirst : Transparent first) (hsecond : Transparent second) :
    Transparent fun st => first st >>= second := by
  intro st next h
  obtain ⟨between, h₁, h₂⟩ := exists_of_bind_eq_ok h
  obtain ⟨hkeeps₁, hsame₁⟩ := hfirst st between h₁
  obtain ⟨hkeeps₂, hsame₂⟩ := hsecond between next h₂
  refine ⟨fun hv => hkeeps₂ (hkeeps₁ hv), ?_⟩
  intro hnot
  have hbetween : ¬ between.has .verbose := fun hv => hnot (hkeeps₂ hv)
  simp only [hsame₁ hbetween]
  exact hsame₂ hnot

end State

/-! ## Command lines -/

end LiteralAudit.CommandLine
