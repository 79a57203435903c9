import LiteralAudit.Proofs.Candidate.FirstSeen
import LiteralAudit.Proofs.Finding.Live
import LiteralAudit.Proofs.Literal.Layout
import Mathlib.Data.Set.List

/-!
# Candidates laid out again

The candidates of a source are a normal form of it. Laid out in any text, with any gaps
around them, they are the candidates of that text. What makes a list of literals one of
candidates is that the filter admits each of them and that none is there twice.
-/

namespace LiteralAudit

open Literal (IsInterior Layout interiors ofInterior)

variable {f : Filter}

/-- Different literals that the filter admits are the candidates of each text in which
they are laid out. -/
theorem candidates_text {page : Layout} (hnodup : (page.contents.map ofInterior).Nodup)
    (hadmits : ∀ literal ∈ page.contents.map ofInterior, f.Admits literal) :
    candidates f page.text = page.contents.map ofInterior := by
  have hall : ∀ interior ∈ page.contents, IsInterior interior ∧ f.accepts interior := by
    intro interior hmem
    exact Filter.admits_ofInterior_iff.1 (hadmits _ (List.mem_map_of_mem hmem))
  have hread : interiors page.text = page.contents :=
    Layout.interiors_text fun interior hmem => (hall interior hmem).1
  have hself : IsFirstSeen f.accepts page.contents page.contents :=
    .of_nodup hnodup.of_map fun interior hmem => (hall interior hmem).2
  rw [candidates, hread, (isFirstSeen_eraseDups f.accepts page.contents).unique hself]

/-- The lists of candidates that there are for a filter. -/
theorem exists_candidates_eq_iff {literals : List Text} :
    (∃ source, candidates f source = literals) ↔
      literals.Nodup ∧ ∀ literal ∈ literals, f.Admits literal := by
  constructor
  · rintro ⟨source, rfl⟩
    exact ⟨nodup_candidates f source, fun _ => Filter.admits_of_mem_candidates⟩
  · rintro ⟨hnodup, hadmits⟩
    have hrange : literals ∈ Set.range (List.map ofInterior) := by
      rw [Set.range_list_map]
      intro literal hmem
      obtain ⟨interior, rfl, -⟩ := hadmits literal hmem
      exact ⟨interior, rfl⟩
    obtain ⟨contents, rfl⟩ := hrange
    rw [← Layout.contents_bare contents] at hnodup hadmits ⊢
    exact ⟨_, candidates_text hnodup hadmits⟩

/-- Laid out in their order, whatever the gaps are, the candidates of a source have
themselves as candidates. -/
theorem candidates_text_candidates (source : Text) (page : Layout)
    (hpage : page.contents.map ofInterior = candidates f source) :
    candidates f page.text = candidates f source := by
  obtain ⟨hnodup, hadmits⟩ := exists_candidates_eq_iff.1 ⟨source, hpage.symm⟩
  rw [candidates_text hnodup hadmits, hpage]

/-- Two candidates, one of them twice, among literals that are too short or excluded,
an attempt that dies and one that does not end. -/
def noisySource : Text :=
  "\"OK\" \"Save\" \"#fff\" \"a\\\n\"Old\\\"er\" \"Save\" \"".toList

/-- The same candidates, with backslashes in front of and behind their quotes. -/
def tidyLayout : Layout :=
  .next ⟨"x = \\".toList, by decide⟩ "Save".toList
    (.next ⟨[], by decide⟩ "Old\\\"er".toList (.last ⟨"\\\n".toList, by decide⟩))

theorem candidates_text_tidyLayout :
    tidyLayout.contents.map ofInterior = candidates ⟨2, ['/', '#']⟩ noisySource ∧
    candidates ⟨2, ['/', '#']⟩ tidyLayout.text =
      ["\"Save\"".toList, "\"Old\\\"er\"".toList] := by
  have hpage : tidyLayout.contents.map ofInterior = candidates ⟨2, ['/', '#']⟩ noisySource := by
    decide
  exact ⟨hpage, (candidates_text_candidates noisySource tidyLayout hpage).trans (by decide)⟩

end LiteralAudit
