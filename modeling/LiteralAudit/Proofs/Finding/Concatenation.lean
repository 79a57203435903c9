import LiteralAudit.Finding
import LiteralAudit.Proofs.Candidate
import LiteralAudit.Proofs.Literal.SelfContained

/-!
# Files put together

Behind a self-contained text a file is read as if it stood alone. So the candidates of
both are those of the first and then the new ones of the second, and a self-contained
file that is repeated shows nothing that it did not show once.
-/

namespace LiteralAudit

open Literal (DiesAt IsCovered IsSelfContained interiors)

/-- Where the interiors of two texts are put together, the second text adds its new
candidates. -/
theorem candidates_append_of_interiors (f : Filter) {a b : Text}
    (h : interiors (a ++ b) = interiors a ++ interiors b) :
    candidates f (a ++ b) = candidates f a ++ (candidates f b).filter (· ∉ candidates f a) := by
  rw [candidates, candidates, candidates, h, List.filter_append, eraseDups_append_eq,
    List.map_append, filter_notMem_map Literal.ofInterior_injective]

/-- Repeated, a self-contained text has the candidates that it has once. -/
theorem candidates_replicate (f : Filter) {a : Text} (h : IsSelfContained a) (n : Nat) :
    candidates f (List.replicate (n + 1) a).flatten = candidates f a := by
  induction n with
  | zero => simp
  | succ n ih =>
    have happend := (Literal.isSelfContained_iff_forall_append a).1 h
    rw [List.replicate_succ, List.flatten_cons, candidates_append_of_interiors f (happend _), ih]
    simp

/-- A text that leaves no attempt open at its end, because a line end stops one around each of
its quotes outside of literals, has its interiors and candidates in front of those of any text
behind it; no other text has. Repeating it adds no candidate and no suggestion. -/
theorem Finding.ofText_concatenated (a : Text) :
    (IsSelfContained a ↔
      ∀ q, a[q]? = some '"' → IsCovered a q ∨
        ∃ i p, a[i]? = some '"' ∧ i ≤ q ∧ q < p ∧ DiesAt a i p ∧ a[p]? = some '\n') ∧
    (IsSelfContained a ↔ ∀ b, interiors (a ++ b) = interiors a ++ interiors b) ∧
    (IsSelfContained a → ∀ (f : Filter) (b : Text),
      candidates f (a ++ b) = candidates f a ++ (candidates f b).filter (· ∉ candidates f a)) ∧
    (IsSelfContained a → ∀ (context : Context) (path : Path) (n : Nat),
      candidates context.filter (List.replicate (n + 1) a).flatten =
        candidates context.filter a ∧
      (ofText context path (List.replicate (n + 1) a).flatten).candidateCount =
        (ofText context path a).candidateCount ∧
      (ofText context path (List.replicate (n + 1) a).flatten).suggestions =
        (ofText context path a).suggestions) := by
  have happend := Literal.isSelfContained_iff_forall_append a
  refine ⟨Literal.isSelfContained_iff_forall_quote a, happend, ?_, ?_⟩
  · intro h f b
    exact candidates_append_of_interiors f (happend.1 h b)
  · intro h context path n
    have hcandidates := candidates_replicate context.filter h n
    refine ⟨hcandidates, ?_, ?_⟩
    · simp only [ofText, hcandidates]
    · simp only [ofText, hcandidates]

/-! ## One such text -/

/-- An attempt with an escaped quote in it that a line end stops, a literal, and a backslash
that escapes nothing. -/
def severedSource : Text := "\"a\\\"b\\\n\"Save\" \\".toList

def severedContext : Context where
  marker := []
  filter := ⟨2, ['/', '#']⟩
  previewLimit := 5
  table := .ofList [("\"Save\"".toList, "t('save')".toList)]

/-- The quote behind the backslash opens a literal. -/
theorem Finding.ofText_concatenated_severed :
    IsSelfContained severedSource ∧
    interiors (severedSource ++ "\"Save\" \"Open\"".toList) =
      ["Save".toList, "Save".toList, "Open".toList] ∧
    candidates severedContext.filter (severedSource ++ "\"Save\" \"Open\"".toList) =
      ["\"Save\"".toList, "\"Open\"".toList] ∧
    (ofText severedContext [] (List.replicate 3 severedSource).flatten).candidateCount = 1 ∧
    (ofText severedContext [] (List.replicate 3 severedSource).flatten).suggestions =
      [⟨"\"Save\"".toList, "t('save')".toList⟩] := by
  have hself : IsSelfContained severedSource :=
    (Literal.isSelfContained_iff_after severedSource).2 (by decide)
  obtain ⟨-, hinteriors, hcandidates, hrepeated⟩ := ofText_concatenated severedSource
  obtain ⟨-, hcount, hsuggestions⟩ := hrepeated hself severedContext [] 2
  exact ⟨hself, (hinteriors.1 hself _).trans (by decide),
    (hcandidates hself severedContext.filter _).trans (by decide), hcount.trans (by decide),
    hsuggestions.trans (by decide)⟩

end LiteralAudit
