import LiteralAudit.Finding
import LiteralAudit.Proofs.Candidate
import LiteralAudit.Proofs.Literal.Pass
import Mathlib.Data.List.Infix

/-!
# Files that grow

Text added at the end of a file takes back nothing that was found in it. The pass
hands out an interior at its closing quote, before it sees what follows; so what it
has handed out for the beginning of a text comes first for the whole. First
occurrences and the preview keep beginnings, too.
-/

namespace LiteralAudit

theorem Literal.interiors_prefix_append (a b : Text) : interiors a <+: interiors (a ++ b) := by
  rw [interiors, interiors, interiorsFrom_append]
  exact List.prefix_append _ _

theorem candidates_prefix_append (f : Filter) (a b : Text) :
    candidates f a <+: candidates f (a ++ b) :=
  (prefix_eraseDups ((Literal.interiors_prefix_append a b).filter f.accepts)).map _

theorem Finding.prefix_suggestionsFor (table : Replacements) {a b : List Text} (h : a <+: b) :
    suggestionsFor table a <+: suggestionsFor table b :=
  h.filterMap _

theorem Text.holds_append {a part : Text} (h : a.holds part) (b : Text) :
    Text.holds (a ++ b) part := by
  rw [Text.holds_iff] at h ⊢
  exact h.trans (List.infix_append' [] a b)

/-- Text at the end of a file only adds to what there is to find in it. -/
theorem Finding.ofText_append (context : Context) (path : Path) (a b : Text) :
    Literal.interiors a <+: Literal.interiors (a ++ b) ∧
    candidates context.filter a <+: candidates context.filter (a ++ b) ∧
    (ofText context path a).suggestions <+: (ofText context path (a ++ b)).suggestions ∧
    (ofText context path a).candidateCount ≤ (ofText context path (a ++ b)).candidateCount ∧
    ((ofText context path a).wired → (ofText context path (a ++ b)).wired) := by
  have hcandidates := candidates_prefix_append context.filter a b
  refine ⟨Literal.interiors_prefix_append a b, hcandidates, ?_, hcandidates.length_le, ?_⟩
  · exact prefix_suggestionsFor context.table (hcandidates.take context.previewLimit)
  · intro h
    exact Text.holds_append h b

end LiteralAudit
