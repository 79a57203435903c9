import LiteralAudit.Proofs.Finding.Rescan
import LiteralAudit.Proofs.Replacements
import LiteralAudit.Wording

/-!
# What a finding says

A finding says of a text whether the marker occurs in it, how many different candidates there
are, and which of the first few have an entry in the table. The candidates are counted and cut
off before any of them is looked up. So the suggestions are a part of the first candidates, in
their order, and a section that mentions no candidates leaves no suggestion out.
-/

namespace LiteralAudit

theorem Text.holds_iff_exists {t part : Text} :
    t.holds part ↔ ∃ front behind, t = front ++ part ++ behind := by
  simp only [Text.holds_iff, List.IsInfix, eq_comm (a := t)]

namespace Finding

/-! ## Suggestions for a list of candidates -/

section

variable {table : Replacements} {literals : List Text}

/-- The suggestions are the entries of the table for the candidates. -/
theorem mem_suggestionsFor_iff {s : Suggestion} :
    s ∈ suggestionsFor table literals ↔
      s.literal ∈ literals ∧ table.find? s.literal = some s.expression := by
  refine ⟨mem_suggestionsFor, ?_⟩
  rintro ⟨hmem, hfind⟩
  exact List.mem_filterMap.2 ⟨s.literal, hmem, by rw [hfind]; rfl⟩

/-- Candidates without an entry are passed over, and the others stay in their order. -/
theorem map_literal_suggestionsFor (table : Replacements) (literals : List Text) :
    (suggestionsFor table literals).map Suggestion.literal =
      literals.filter (· ∈ table.keys) := by
  unfold suggestionsFor
  induction literals with
  | nil => rfl
  | cons literal rest ih =>
    rw [List.filterMap_cons, List.filter_cons]
    cases hfind : table.find? literal with
    | none =>
      have hkey : literal ∉ table.keys := by simp [Replacements.mem_keys_iff, hfind]
      simpa [hkey] using ih
    | some expression =>
      have hkey : literal ∈ table.keys := by simp [Replacements.mem_keys_iff, hfind]
      simpa [hkey] using ih

theorem literals_sublist (table : Replacements) (literals : List Text) :
    ((suggestionsFor table literals).map Suggestion.literal).Sublist literals := by
  rw [map_literal_suggestionsFor]
  exact List.filter_sublist

end

/-! ## A whole finding -/

variable (context : Context) (path : Path) (source : Text)

theorem literals_sublist_take :
    ((ofText context path source).suggestions.map Suggestion.literal).Sublist
      ((candidates context.filter source).take context.previewLimit) :=
  literals_sublist context.table _

theorem nodup_literals : ((ofText context path source).suggestions.map Suggestion.literal).Nodup :=
  (nodup_candidates context.filter source).sublist
    ((literals_sublist_take context path source).trans (List.take_sublist _ _))

theorem length_suggestions_le :
    (ofText context path source).suggestions.length ≤
      min context.previewLimit (ofText context path source).candidateCount := by
  have hlength := (literals_sublist_take context path source).length_le
  rwa [List.length_map, List.length_take] at hlength

theorem ofText_suggestions_eq_nil (h : (ofText context path source).candidateCount = 0) :
    (ofText context path source).suggestions = [] := by
  have hlength := length_suggestions_le context path source
  rw [h, Nat.min_zero] at hlength
  exact List.eq_nil_of_length_eq_zero (Nat.le_zero.1 hlength)

/-- The section of a file ends with its suggestions. -/
theorem suggestionLines_suffix (colour : Bool) (labels : Labels) :
    (ofText context path source).suggestions.flatMap (Wording.suggestionLine colour) <:+
      Wording.fileSection colour labels (ofText context path source) := by
  unfold Wording.fileSection
  split
  · next hcount =>
    rw [ofText_suggestions_eq_nil context path source hcount]
    exact List.nil_suffix
  · rw [← List.append_assoc]
    exact List.suffix_append _ _

/-- A finding says exactly this of a text: whether the marker is somewhere in it; how many
different literals there are whose interiors the filter accepts; and which entries the table has
for the first of them, as many as the preview takes, each once and in their order. A look-up finds
an entry if the key is the literal itself. Where no candidates are counted there are no
suggestions, so the section of a file always ends with a line for each suggestion. -/
theorem ofText_exact :
    ((ofText context path source).wired ↔
      ∃ front behind, source = front ++ context.marker ++ behind) ∧
    ((candidates context.filter source).Nodup ∧
      (∀ literal, literal ∈ candidates context.filter source ↔
        ∃ interior ∈ Literal.interiors source, context.filter.accepts interior ∧
          literal = Literal.ofInterior interior) ∧
      (ofText context path source).candidateCount = (candidates context.filter source).length) ∧
    (((ofText context path source).suggestions.map Suggestion.literal).Nodup ∧
      (ofText context path source).suggestions.length ≤
        min context.previewLimit (ofText context path source).candidateCount ∧
      ((ofText context path source).suggestions.map Suggestion.literal).Sublist
        (candidates context.filter source)) ∧
    ((∀ literal expression, ⟨literal, expression⟩ ∈ (ofText context path source).suggestions ↔
        literal ∈ (candidates context.filter source).take context.previewLimit ∧
          context.table.find? literal = some expression) ∧
      ∀ literal expression, context.table.find? literal = some expression ↔
        (literal, expression) ∈ context.table.entries) ∧
    ((ofText context path source).candidateCount = 0 →
      (ofText context path source).suggestions = []) ∧
    ∀ colour labels,
      (ofText context path source).suggestions.flatMap (Wording.suggestionLine colour) <:+
        Wording.fileSection colour labels (ofText context path source) := by
  refine ⟨Text.holds_iff_exists, ⟨nodup_candidates _ _, fun _ => mem_candidates_iff, rfl⟩,
    ⟨nodup_literals context path source, length_suggestions_le context path source, ?_⟩,
    ⟨fun _ _ => mem_suggestionsFor_iff, ?_⟩, ofText_suggestions_eq_nil context path source,
    suggestionLines_suffix context path source⟩
  · exact (literals_sublist_take context path source).trans (List.take_sublist _ _)
  · intro literal expression
    exact Replacements.lookup_eq_some_iff_mem context.table.hasDistinctKeys

/-- A marker that can begin inside itself, and a preview of two candidates. -/
def overlappingContext : Context where
  marker := "aab".toList
  filter := ⟨2, ['/', '#']⟩
  previewLimit := 2
  table := .ofList [("\"Save\"".toList, ['x']), ("\"Open\"".toList, ['y'])]

/-- The marker stands behind a beginning of its own, and of the three candidates the second has
no entry. -/
def overlappingSource : Text := "aaab \"Save\" \"/x/y\" \"Gone\" \"Save\" \"Open\"".toList

/-- The third candidate is counted, but it is not looked up, although the second gives no
suggestion. A file without candidates has no suggestions. -/
theorem ofText_exact_overlapping :
    (ofText overlappingContext [] overlappingSource).wired ∧
    (ofText overlappingContext [] overlappingSource).candidateCount = 3 ∧
    ⟨"\"Save\"".toList, ['x']⟩ ∈ (ofText overlappingContext [] overlappingSource).suggestions ∧
    ⟨"\"Open\"".toList, ['y']⟩ ∉ (ofText overlappingContext [] overlappingSource).suggestions ∧
    (ofText overlappingContext [] "\"\" \"/x/y\"".toList).suggestions = [] := by
  obtain ⟨hwired, ⟨-, -, hcount⟩, -, ⟨hsuggested, -⟩, -⟩ :=
    ofText_exact overlappingContext [] overlappingSource
  obtain ⟨-, -, -, -, hnone, -⟩ := ofText_exact overlappingContext [] "\"\" \"/x/y\"".toList
  refine ⟨?_, hcount.trans (by decide), ?_, ?_, hnone (by decide)⟩
  · rw [hwired]
    exact ⟨['a'], " \"Save\" \"/x/y\" \"Gone\" \"Save\" \"Open\"".toList, by decide⟩
  · rw [hsuggested]
    decide
  · rw [hsuggested]
    decide

end Finding

end LiteralAudit
