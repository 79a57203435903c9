import LiteralAudit.Proofs.Finding.Exact
import LiteralAudit.Proofs.Replacements.History

/-!
# Other previews and other tables

How many candidates are looked up, and in which table, makes no difference to what is counted. A
longer preview goes on where a shorter one ends. Entries that are laid over a table never take a
suggestion away or push one out, because the preview is cut off before the table is asked; they
add suggestions in between, and new expressions for the keys that they have.
-/

namespace LiteralAudit

open Replacements (IsLatest)

/-- The context with another preview. -/
def Context.previewing (context : Context) (limit : Nat) : Context :=
  { context with previewLimit := limit }

/-- The context with further entries laid over its table. -/
def Context.layered (context : Context) (extra : List (Text × Text)) : Context :=
  { context with table := context.table.layer extra }

namespace Finding

/-! ## Suggestions from a table with a further layer -/

section

variable {table : Replacements} {extra : List (Text × Text)} {literals : List Text}
  {s : Suggestion}

/-- The candidates with an entry keep it when more entries are laid over it. -/
theorem literals_sublist_layer (table : Replacements) (extra : List (Text × Text))
    (literals : List Text) :
    ((suggestionsFor table literals).map Suggestion.literal).Sublist
      ((suggestionsFor (table.layer extra) literals).map Suggestion.literal) := by
  rw [map_literal_suggestionsFor, map_literal_suggestionsFor]
  apply List.monotone_filter_right
  intro literal hkey
  rw [decide_eq_true_eq] at hkey ⊢
  exact Replacements.mem_keys_layer.2 (.inr hkey)

/-- A suggestion comes from the last of the further entries for its literal, or from the table
below if there is none. -/
theorem mem_suggestionsFor_layer_iff :
    s ∈ suggestionsFor (table.layer extra) literals ↔
      s.literal ∈ literals ∧ IsLatest extra s.literal s.expression ∨
        s.literal ∉ extra.map Prod.fst ∧ s ∈ suggestionsFor table literals := by
  rw [mem_suggestionsFor_iff, mem_suggestionsFor_iff, Replacements.find?_layer_eq_some_iff,
    and_or_left, and_left_comm]

theorem mem_suggestionsFor_layer (hs : s ∈ suggestionsFor table literals)
    (hkey : s.literal ∉ extra.map Prod.fst) : s ∈ suggestionsFor (table.layer extra) literals :=
  mem_suggestionsFor_layer_iff.2 (.inr ⟨hkey, hs⟩)

/-- The literal of a suggestion is suggested with its new expression. -/
theorem mem_suggestionsFor_layer_of_isLatest (hs : s ∈ suggestionsFor table literals)
    {expression : Text} (hlatest : IsLatest extra s.literal expression) :
    ⟨s.literal, expression⟩ ∈ suggestionsFor (table.layer extra) literals :=
  mem_suggestionsFor_layer_iff.2 (.inl ⟨(mem_suggestionsFor hs).1, hlatest⟩)

theorem mem_suggestionsFor_of_layer (hs : s ∈ suggestionsFor (table.layer extra) literals)
    (hkey : s.literal ∉ extra.map Prod.fst) : s ∈ suggestionsFor table literals := by
  rcases mem_suggestionsFor_layer_iff.1 hs with ⟨-, hlatest⟩ | ⟨-, hmem⟩
  · exact absurd hlatest.mem_keys hkey
  · exact hmem

theorem isLatest_of_mem_layer (hs : s ∈ suggestionsFor (table.layer extra) literals)
    (hkey : s.literal ∈ extra.map Prod.fst) : IsLatest extra s.literal s.expression := by
  rcases mem_suggestionsFor_layer_iff.1 hs with ⟨-, hlatest⟩ | ⟨hnot, -⟩
  · exact hlatest
  · exact absurd hkey hnot

end

/-! ## Two contexts -/

variable (context : Context) (path : Path) (source : Text)

theorem suggestions_prefix {n m : Nat} (h : n ≤ m) :
    (ofText (context.previewing n) path source).suggestions <+:
      (ofText (context.previewing m) path source).suggestions :=
  (List.take_prefix_take_left h).filterMap _

/-- A preview that is long enough shows every candidate that has an entry. -/
theorem map_literal_suggestions {limit : Nat}
    (h : (ofText context path source).candidateCount ≤ limit) :
    (ofText (context.previewing limit) path source).suggestions.map Suggestion.literal =
      (candidates context.filter source).filter (· ∈ context.table.keys) := by
  have hall : (candidates context.filter source).take limit = candidates context.filter source :=
    List.take_of_length_le h
  show (suggestionsFor context.table ((candidates context.filter source).take limit)).map _ = _
  rw [hall, map_literal_suggestionsFor]

/-- Contexts that differ in the preview and the table find the same marker and count the same
candidates. With one table, a shorter preview gives the first suggestions of a longer one, and a
preview as long as the count gives all candidates that the table has, with their expressions. With
one preview, further entries over the table keep all candidates suggested that were, in their
order; what is suggested has the value of the last of these entries for it, or else the expression
that it had without them. -/
theorem ofText_tuned :
    (∀ other : Context, other.marker = context.marker → other.filter = context.filter →
      (ofText other path source).wired = (ofText context path source).wired ∧
      (ofText other path source).candidateCount = (ofText context path source).candidateCount) ∧
    (∀ n m, n ≤ m →
      (ofText (context.previewing n) path source).suggestions <+:
        (ofText (context.previewing m) path source).suggestions) ∧
    (∀ limit, (ofText context path source).candidateCount ≤ limit →
      (ofText (context.previewing limit) path source).suggestions.map Suggestion.literal =
        (candidates context.filter source).filter (· ∈ context.table.keys) ∧
      ∀ s ∈ (ofText (context.previewing limit) path source).suggestions,
        context.table.find? s.literal = some s.expression) ∧
    ∀ extra,
      ((ofText context path source).suggestions.map Suggestion.literal).Sublist
        ((ofText (context.layered extra) path source).suggestions.map Suggestion.literal) ∧
      (∀ s ∈ (ofText context path source).suggestions,
        (s.literal ∉ extra.map Prod.fst →
          s ∈ (ofText (context.layered extra) path source).suggestions) ∧
        ∀ expression, IsLatest extra s.literal expression →
          ⟨s.literal, expression⟩ ∈ (ofText (context.layered extra) path source).suggestions) ∧
      ∀ s ∈ (ofText (context.layered extra) path source).suggestions,
        (s.literal ∉ extra.map Prod.fst → s ∈ (ofText context path source).suggestions) ∧
        (s.literal ∈ extra.map Prod.fst → IsLatest extra s.literal s.expression) := by
  refine ⟨?_, fun _ _ => suggestions_prefix context path source, ?_, ?_⟩
  · intro other hmarker hfilter
    simp only [ofText, hmarker, hfilter, and_self]
  · intro limit hlimit
    exact ⟨map_literal_suggestions context path source hlimit,
      fun s hs => (mem_suggestionsFor hs).2⟩
  · intro extra
    refine ⟨literals_sublist_layer context.table extra _, ?_, ?_⟩
    · intro s hs
      exact ⟨mem_suggestionsFor_layer hs, fun _ => mem_suggestionsFor_layer_of_isLatest hs⟩
    · intro s hs
      exact ⟨mem_suggestionsFor_of_layer hs, isLatest_of_mem_layer hs⟩

/-- Entries for a candidate that has one already, and two for a candidate that has none. -/
def revisedEntries : List (Text × Text) :=
  [("\"Gone\"".toList, ['a']), ("\"Save\"".toList, ['b']), ("\"Gone\"".toList, ['c'])]

/-- With a preview of two, the new entries bring a suggestion behind the old one, and both have
their last values; the third candidate stays out, as it does without them. -/
theorem ofText_tuned_overlapping :
    (ofText (overlappingContext.previewing 0) [] overlappingSource).candidateCount = 3 ∧
    (ofText (overlappingContext.previewing 1) [] overlappingSource).suggestions <+:
      (ofText (overlappingContext.previewing 3) [] overlappingSource).suggestions ∧
    (ofText (overlappingContext.previewing 3) [] overlappingSource).suggestions.map
      Suggestion.literal = ["\"Save\"".toList, "\"Open\"".toList] ∧
    ⟨"\"Save\"".toList, ['b']⟩ ∈
      (ofText (overlappingContext.layered revisedEntries) [] overlappingSource).suggestions ∧
    (∀ s ∈ (ofText (overlappingContext.layered revisedEntries) [] overlappingSource).suggestions,
      s.literal = "\"Gone\"".toList → IsLatest revisedEntries s.literal s.expression) ∧
    (ofText (overlappingContext.layered revisedEntries) [] overlappingSource).suggestions =
      [⟨"\"Save\"".toList, ['b']⟩, ⟨"\"Gone\"".toList, ['c']⟩] := by
  obtain ⟨hsame, hprefix, hall, hlayer⟩ := ofText_tuned overlappingContext [] overlappingSource
  obtain ⟨-, hkept, hnew⟩ := hlayer revisedEntries
  refine ⟨(hsame _ rfl rfl).2.trans (by decide), hprefix 1 3 (by decide),
    (hall 3 (by decide)).1.trans (by decide), ?_, ?_, by decide⟩
  · have hlatest : IsLatest revisedEntries "\"Save\"".toList ['b'] :=
      Replacements.isLatest_iff_lookup_reverse.2 (by decide)
    exact (hkept ⟨"\"Save\"".toList, ['x']⟩ (by decide)).2 _ hlatest
  · intro s hs heq
    exact (hnew s hs).2 (by rw [heq]; decide)

end Finding

end LiteralAudit
