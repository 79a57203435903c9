import LiteralAudit.Finding
import LiteralAudit.Proofs.Candidate

/-!
# Stricter filters

A filter is asked before repetitions are dropped, but it gives the same answer for each of them. So
a stricter filter can just as well be asked afterwards, about the candidates that another filter has
left: it takes some of them away, adds none, and leaves the others in their order.
-/

namespace LiteralAudit

/-- What stands between the quotes of a literal. -/
def Literal.inner (literal : Text) : Text := literal.tail.dropLast

@[simp] theorem Literal.inner_ofInterior (interior : Text) :
    inner (ofInterior interior) = interior := by
  simp [inner, ofInterior]

namespace Filter

/-- Another filter is at least as strict: it drops interiors up to the same length or a greater
one, and it excludes the same prefixes and perhaps more. -/
structure IsTightened (f g : Filter) : Prop where
  minLength : f.minLength ≤ g.minLength
  excludedPrefixes : f.excludedPrefixes ⊆ g.excludedPrefixes

variable {f g : Filter}

/-- What passes the stricter filter passes the other one. -/
theorem IsTightened.accepts (h : f.IsTightened g) {interior : Text} (hg : g.accepts interior) :
    f.accepts interior := by
  rw [accepts_iff] at hg ⊢
  obtain ⟨hlength, hfirst⟩ := hg
  refine ⟨Nat.lt_of_le_of_lt h.minLength hlength, ?_⟩
  intro c hc hexcluded
  exact hfirst c hc (h.excludedPrefixes hexcluded)

end Filter

open Literal (interiors inner ofInterior)

/-- A filter that lets through no more than another one can be asked about the candidates that the
other one leaves. -/
theorem candidates_eq_filter {f g : Filter}
    (h : ∀ interior, g.accepts interior → f.accepts interior) (source : Text) :
    candidates g source =
      (candidates f source).filter fun literal => g.accepts (inner literal) := by
  have hboth : (interiors source).filter g.accepts =
      ((interiors source).filter f.accepts).filter g.accepts := by
    rw [List.filter_filter]
    refine List.filter_congr ?_
    intro interior _
    cases hg : g.accepts interior with
    | false => rfl
    | true => simp [h interior hg]
  -- the quotes hide nothing from the filter
  have hinner : (fun literal => g.accepts (inner literal)) ∘ ofInterior = g.accepts := by
    funext interior
    simp
  calc candidates g source
      = (((interiors source).filter f.accepts).filter g.accepts).eraseDups.map ofInterior := by
        rw [candidates, hboth]
    _ = (((interiors source).filter f.accepts).eraseDups.filter g.accepts).map ofInterior := by
        rw [eraseDups_filter]
    _ = (candidates f source).filter fun literal => g.accepts (inner literal) := by
        rw [candidates, List.filter_map, hinner]

/-- With a stricter filter the candidates are those that the stricter filter accepts among the
candidates of the other one, in the same order. So a file has no more of them. -/
theorem candidates_tightened {f g : Filter} (h : f.IsTightened g) (source : Text) :
    candidates g source =
      (candidates f source).filter (fun literal => g.accepts (inner literal)) ∧
    (candidates g source).Sublist (candidates f source) ∧
    ∀ (context : Context) (path : Path),
      (Finding.ofText { context with filter := g } path source).candidateCount ≤
        (Finding.ofText { context with filter := f } path source).candidateCount := by
  have heq := candidates_eq_filter (fun _ => h.accepts) source
  have hsublist : (candidates g source).Sublist (candidates f source) := by
    rw [heq]
    exact List.filter_sublist
  exact ⟨heq, hsublist, fun _ _ => hsublist.length_le⟩

/-- Literals of several lengths, two of them twice, with a prefix that only one filter excludes. -/
def assortedSource : Text :=
  "\"Save\" \"OK\" \"Sign in\" \"+1 more\" \"Save\" \"Sign in\" \"é\"".toList

/-- The stricter filter takes a literal that is too short and one with its prefix away from among
those of the other filter. -/
theorem candidates_tightened_assortedSource :
    candidates ⟨1, ['/']⟩ assortedSource =
      ["\"Save\"".toList, "\"OK\"".toList, "\"Sign in\"".toList, "\"+1 more\"".toList] ∧
    candidates ⟨2, ['+', '/']⟩ assortedSource = ["\"Save\"".toList, "\"Sign in\"".toList] ∧
    (candidates ⟨2, ['+', '/']⟩ assortedSource).Sublist
      (candidates ⟨1, ['/']⟩ assortedSource) := by
  have h : Filter.IsTightened ⟨1, ['/']⟩ ⟨2, ['+', '/']⟩ := ⟨by decide, by decide⟩
  have hwide : candidates ⟨1, ['/']⟩ assortedSource =
      ["\"Save\"".toList, "\"OK\"".toList, "\"Sign in\"".toList, "\"+1 more\"".toList] := by
    decide
  obtain ⟨heq, hsublist, -⟩ := candidates_tightened h assortedSource
  refine ⟨hwide, ?_, hsublist⟩
  rw [heq, hwide]
  decide

end LiteralAudit
