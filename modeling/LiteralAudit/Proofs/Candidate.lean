import LiteralAudit.Candidate
import Mathlib.Data.List.Nodup

/-!
# First occurrences

Candidates are the first occurrences in a list of interiors, with quotes put around
them. Keeping first occurrences commutes with dropping elements by a test. What is
kept of a list stays kept when the list grows at its end, and the new elements of what
is added come behind it.
-/

namespace LiteralAudit

/-! ## Lists without repetitions -/

theorem nodup_eraseDups {α : Type} [BEq α] [LawfulBEq α] (l : List α) : l.eraseDups.Nodup := by
  match l with
  | [] => simp
  | a :: l =>
    rw [List.eraseDups_cons, List.nodup_cons]
    exact ⟨by simp, nodup_eraseDups _⟩
termination_by l.length
decreasing_by
  exact Nat.lt_succ_of_le (List.length_filter_le _ _)

theorem eraseDups_sublist {α : Type} [BEq α] (l : List α) : l.eraseDups.Sublist l := by
  match l with
  | [] => simp
  | a :: l =>
    rw [List.eraseDups_cons]
    exact ((eraseDups_sublist _).trans List.filter_sublist).cons_cons a
termination_by l.length
decreasing_by
  exact Nat.lt_succ_of_le (List.length_filter_le _ _)

theorem eraseDups_filter {α : Type} [BEq α] [LawfulBEq α] (p : α → Bool) (l : List α) :
    (l.filter p).eraseDups = l.eraseDups.filter p := by
  match l with
  | [] => simp
  | a :: l =>
    have ih := eraseDups_filter p (l.filter fun b => !b == a)
    rw [List.eraseDups_cons, List.filter_cons, List.filter_cons, ← ih, List.filter_filter]
    split
    · rw [List.eraseDups_cons, List.filter_filter]
      simp only [Bool.and_comm]
    · next hp =>
      -- the head is dropped, and so are the later elements that equal it
      congr 1
      refine List.filter_congr ?_
      intro b _
      cases hb : b == a <;> simp_all
termination_by l.length
decreasing_by
  exact Nat.lt_succ_of_le (List.length_filter_le _ _)

theorem prefix_eraseDups {α : Type} [BEq α] [LawfulBEq α] {a b : List α} (h : a <+: b) :
    a.eraseDups <+: b.eraseDups := by
  obtain ⟨c, rfl⟩ := h
  rw [List.eraseDups_append]
  exact List.prefix_append _ _

/-- A list that is added adds the elements that are new. -/
theorem eraseDups_append_eq {α : Type} [BEq α] [LawfulBEq α] (a b : List α) :
    (a ++ b).eraseDups = a.eraseDups ++ b.eraseDups.filter (· ∉ a.eraseDups) := by
  rw [List.eraseDups_append, List.removeAll, eraseDups_filter]
  simp

/-- An injective function keeps apart what is new and what is not. -/
theorem filter_notMem_map {α β : Type} [BEq α] [LawfulBEq α] [BEq β] [LawfulBEq β] {f : α → β}
    (hf : Function.Injective f) (l m : List α) :
    (l.map f).filter (· ∉ m.map f) = (l.filter (· ∉ m)).map f := by
  rw [List.filter_map]
  simp only [Function.comp_def, List.mem_map_of_injective hf]

/-- Dropping an element of a list without repetitions takes one off its length. -/
theorem length_filter_ne_add_one {α : Type} [DecidableEq α] {a : α} {l : List α}
    (hl : l.Nodup) (ha : a ∈ l) : (l.filter (· ≠ a)).length + 1 = l.length := by
  have herase : l.filter (· ≠ a) = l.erase a := by
    rw [hl.erase_eq_filter]
    refine List.filter_congr ?_
    intro b _
    by_cases hb : b = a <;> simp [hb]
  rw [herase, List.length_erase_add_one ha]

/-! ## Candidates -/

theorem Literal.ofInterior_injective : Function.Injective Literal.ofInterior := by
  intro i j h
  simpa [Literal.ofInterior] using h

theorem Filter.accepts_iff {f : Filter} {interior : Text} :
    f.accepts interior ↔
      f.minLength < interior.length ∧ ∀ c, interior.head? = some c → c ∉ f.excludedPrefixes := by
  cases interior <;> simp [accepts]

theorem mem_candidates_iff {f : Filter} {source literal : Text} :
    literal ∈ candidates f source ↔
      ∃ interior ∈ Literal.interiors source, f.accepts interior ∧
        literal = Literal.ofInterior interior := by
  simp only [candidates, List.mem_map, List.mem_eraseDups, List.mem_filter, and_assoc,
    eq_comm (a := literal)]

/-- Candidates are literals of the source, in the order in which they stand there. -/
theorem candidates_sublist (f : Filter) (source : Text) :
    (candidates f source).Sublist ((Literal.interiors source).map Literal.ofInterior) :=
  ((eraseDups_sublist _).trans List.filter_sublist).map Literal.ofInterior

theorem nodup_candidates (f : Filter) (source : Text) : (candidates f source).Nodup :=
  (nodup_eraseDups _).map Literal.ofInterior_injective

end LiteralAudit
