import LiteralAudit.Finding
import LiteralAudit.Proofs.Candidate
import LiteralAudit.Proofs.Literal.Substitution

/-!
# Looking again after a suggestion was applied

A suggestion names a candidate. Writing its expression in place of the candidate
takes that one candidate out of the file and leaves all others as they were, unless
the expression brings quotes of its own.
-/

namespace LiteralAudit

/-- The text with the suggested expression wherever the literal is found. -/
def Suggestion.apply (s : Suggestion) (source : Text) : Text :=
  Literal.substitute s.literal s.expression source

theorem candidates_substitute {expression : Text} (hquote : '"' ∉ expression) (literal : Text)
    (f : Filter) (source : Text) :
    candidates f (Literal.substitute literal expression source) =
      (candidates f source).filter (· ≠ literal) := by
  have hcomm : ((Literal.interiors source).filter fun i => Literal.ofInterior i ≠ literal).filter
        f.accepts =
      ((Literal.interiors source).filter f.accepts).filter
        fun i => Literal.ofInterior i ≠ literal := by
    simp only [List.filter_filter, Bool.and_comm]
  rw [candidates, candidates, Literal.interiors_substitute hquote, hcomm, eraseDups_filter,
    List.filter_map]
  rfl

/-- What is suggested is a candidate with its expression from the table. -/
theorem Finding.mem_suggestionsFor {table : Replacements} {literals : List Text}
    {s : Suggestion} (hs : s ∈ suggestionsFor table literals) :
    s.literal ∈ literals ∧ table.find? s.literal = some s.expression := by
  obtain ⟨literal, hmem, hfind⟩ := List.mem_filterMap.1 hs
  obtain ⟨expression, hexpr, rfl⟩ := Option.map_eq_some_iff.1 hfind
  exact ⟨hmem, hexpr⟩

theorem Finding.literal_mem_candidates {context : Context} {path : Path} {source : Text}
    {s : Suggestion} (hs : s ∈ (ofText context path source).suggestions) :
    s.literal ∈ candidates context.filter source :=
  List.mem_of_mem_take (mem_suggestionsFor hs).1

/-- Once a suggestion is applied, its literal is gone and nothing else has changed:
the other interiors and candidates are there in their old order, and one candidate
fewer is counted. -/
theorem Finding.ofText_apply {context : Context} {path : Path} {source : Text}
    {s : Suggestion} (hs : s ∈ (ofText context path source).suggestions)
    (hquote : '"' ∉ s.expression) :
    Literal.interiors (s.apply source) =
      (Literal.interiors source).filter (fun i => Literal.ofInterior i ≠ s.literal) ∧
    candidates context.filter (s.apply source) =
      (candidates context.filter source).filter (· ≠ s.literal) ∧
    (ofText context path (s.apply source)).candidateCount + 1 =
      (ofText context path source).candidateCount := by
  have hcandidates := candidates_substitute hquote s.literal context.filter source
  refine ⟨Literal.interiors_substitute hquote source, hcandidates, ?_⟩
  have hcount := length_filter_ne_add_one (nodup_candidates context.filter source)
    (literal_mem_candidates hs)
  simpa [ofText, Suggestion.apply, hcandidates] using hcount

/-! ## One such text -/

/-- A table with one entry, whose expression ends in a backslash. -/
def savingContext : Context where
  marker := []
  filter := ⟨2, ['/', '#']⟩
  previewLimit := 5
  table := .ofList [("\"Save\"".toList, "t('\\save')\\".toList)]

def savingSuggestion : Suggestion := ⟨"\"Save\"".toList, "t('\\save')\\".toList⟩

/-- An attempt that dies in front of the first literal, and one that does not end. -/
def savingSource : Text := "\"a\\\"b\\\n\"Save\" x \"Old\\\"er\" \"Save\" \"tail\\".toList

/-- Both occurrences are taken out, and the literal between them stays. -/
theorem Finding.ofText_apply_saving :
    savingSuggestion ∈ (ofText savingContext [] savingSource).suggestions ∧
    '"' ∉ savingSuggestion.expression ∧
    Literal.interiors (savingSuggestion.apply savingSource) = ["Old\\\"er".toList] ∧
    candidates savingContext.filter (savingSuggestion.apply savingSource) =
      ["\"Old\\\"er\"".toList] ∧
    (ofText savingContext [] (savingSuggestion.apply savingSource)).candidateCount + 1 = 2 := by
  have hs : savingSuggestion ∈ (ofText savingContext [] savingSource).suggestions := by decide
  have hquote : '"' ∉ savingSuggestion.expression := by decide
  obtain ⟨hinteriors, hcandidates, hcount⟩ := ofText_apply hs hquote
  exact ⟨hs, hquote, hinteriors.trans (by decide), hcandidates.trans (by decide),
    hcount.trans (by decide)⟩

end LiteralAudit
