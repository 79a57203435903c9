import LiteralAudit.Finding
import LiteralAudit.Proofs.Candidate
import LiteralAudit.Proofs.Finding.Rescan
import LiteralAudit.Proofs.Literal.Search

/-!
# Live entries

An entry of a table is live if some file makes it a suggestion. The search hands out only
interiors of the grammar, so the key has to be the literal of one, and its interior has to pass
the filter. Such a key is a source text of its own, and then it is found there: nothing else
has to be tried to tell whether an entry is live.
-/

namespace LiteralAudit

open Literal (IsInterior ofInterior)

/-! ## Literals that a source can show -/

/-- The filter admits the literals of the grammar whose interiors it accepts. -/
def Filter.Admits (f : Filter) (literal : Text) : Prop :=
  ∃ interior, literal = ofInterior interior ∧ IsInterior interior ∧ f.accepts interior

/-- A literal is put together from one interior only. -/
theorem Filter.admits_ofInterior_iff {f : Filter} {interior : Text} :
    f.Admits (ofInterior interior) ↔ IsInterior interior ∧ f.accepts interior := by
  constructor
  · rintro ⟨i, heq, hi, haccepts⟩
    rw [Literal.ofInterior_injective heq]
    exact ⟨hi, haccepts⟩
  · intro h
    exact ⟨interior, rfl, h⟩

theorem Filter.admits_of_mem_candidates {f : Filter} {source literal : Text}
    (h : literal ∈ candidates f source) : f.Admits literal := by
  obtain ⟨interior, hmem, haccepts, rfl⟩ := mem_candidates_iff.1 h
  exact ⟨interior, rfl, Literal.isInterior_of_mem_interiors source hmem, haccepts⟩

theorem Literal.IsInterior.interiors_ofInterior {interior : Text} (h : IsInterior interior) :
    interiors (ofInterior interior) = [interior] := by
  have hfirst := h.interiors_ofInterior_append []
  rwa [List.append_nil, interiors_nil] at hfirst

/-- As a source, a literal that is admitted shows itself and nothing else. -/
theorem Filter.Admits.candidates_eq {f : Filter} {literal : Text} (h : f.Admits literal) :
    candidates f literal = [literal] := by
  obtain ⟨interior, rfl, hi, haccepts⟩ := h
  rw [candidates, hi.interiors_ofInterior, List.filter_cons_of_pos haccepts]
  rfl

/-! ## Keys that are suggested -/

namespace Finding

variable {context : Context} {key expression : Text}

theorem admits_of_suggestion {path : Path} {source : Text} {s : Suggestion}
    (hs : s ∈ (ofText context path source).suggestions) : context.filter.Admits s.literal :=
  Filter.admits_of_mem_candidates (literal_mem_candidates hs)

/-- A key that the filter admits is suggested in the text that it is. -/
theorem suggestions_of_admits (hlimit : 1 ≤ context.previewLimit)
    (hkey : context.table.find? key = some expression) (h : context.filter.Admits key)
    (path : Path) : (ofText context path key).suggestions = [⟨key, expression⟩] := by
  have hpreview : (candidates context.filter key).take context.previewLimit = [key] := by
    rw [h.candidates_eq]
    exact List.take_of_length_le hlimit
  show suggestionsFor context.table ((candidates context.filter key).take _) = _
  rw [hpreview]
  simp [suggestionsFor, hkey]

/-- An entry is live exactly if its key is an interior of the grammar that the filter accepts,
between double quotes. Then the key alone is a text in which it is suggested, with its
expression, and nothing else is. -/
theorem exists_suggestion_iff (hlimit : 1 ≤ context.previewLimit)
    (hkey : context.table.find? key = some expression) (path : Path) :
    ((∃ source, ∃ s ∈ (ofText context path source).suggestions, s.literal = key) ↔
      ∃ interior, key = ofInterior interior ∧ IsInterior interior ∧
        context.filter.accepts interior) ∧
    ((∃ source, ∃ s ∈ (ofText context path source).suggestions, s.literal = key) →
      (ofText context path key).suggestions = [⟨key, expression⟩]) := by
  have hadmits : (∃ source, ∃ s ∈ (ofText context path source).suggestions, s.literal = key) →
      context.filter.Admits key := by
    rintro ⟨source, s, hs, rfl⟩
    exact admits_of_suggestion hs
  refine ⟨⟨hadmits, ?_⟩, ?_⟩
  · intro h
    have hself := suggestions_of_admits hlimit hkey h path
    refine ⟨key, ⟨key, expression⟩, ?_, rfl⟩
    rw [hself]
    exact List.mem_singleton_self _
  · intro h
    exact suggestions_of_admits hlimit hkey (hadmits h) path

/-- An interior with escaped quotes and a line end. -/
def greeting : Text := "Say \\\"hi\\\"\n".toList

/-- An interior with a quote too many, which is none. -/
def overquoted : Text := "Save\"".toList

/-- A table with both as keys. -/
def quotingContext : Context where
  marker := []
  filter := ⟨2, ['/', '#']⟩
  previewLimit := 1
  table := .ofList [(ofInterior greeting, ['x']), (ofInterior overquoted, ['y'])]

/-- The first of the keys is suggested in its own text, and the second one in none. -/
theorem exists_suggestion_iff_quoting :
    (ofText quotingContext [] (ofInterior greeting)).suggestions =
      [⟨ofInterior greeting, ['x']⟩] ∧
    ¬ ∃ source, ∃ s ∈ (ofText quotingContext [] source).suggestions,
      s.literal = ofInterior overquoted := by
  have hlimit : 1 ≤ quotingContext.previewLimit := Nat.le_refl 1
  constructor
  · have hkey : quotingContext.table.find? (ofInterior greeting) = some ['x'] := by decide
    obtain ⟨hiff, hself⟩ := exists_suggestion_iff hlimit hkey []
    apply hself
    rw [hiff]
    exact ⟨greeting, rfl, by decide +kernel, by decide⟩
  · have hkey : quotingContext.table.find? (ofInterior overquoted) = some ['y'] := by decide
    obtain ⟨hiff, -⟩ := exists_suggestion_iff hlimit hkey []
    rw [hiff]
    rintro ⟨interior, heq, hi, -⟩
    rw [← Literal.ofInterior_injective heq] at hi
    revert hi
    decide +kernel

end Finding

end LiteralAudit
