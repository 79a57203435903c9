import LiteralAudit.Proofs.Candidate
import Mathlib.Data.List.Induction

/-!
# First-seen order

What candidates are can be said without a way to compute them: the accepted interiors,
each once, sorted by the place at which the source first shows them. One list is like
that. A loop that keeps an interior unless it was kept before arrives at it, and so does
dropping repetitions before the filter is asked.
-/

namespace LiteralAudit

section

variable {α : Type} [BEq α] {p : α → Bool} {seen kept : List α}

/-- The elements of a list that pass a test, each once, in the order in which the list
first shows them. -/
structure IsFirstSeen (p : α → Bool) (seen kept : List α) : Prop where
  mem_iff : ∀ a, a ∈ kept ↔ a ∈ seen ∧ p a
  ordered : kept.Pairwise fun a b => seen.idxOf a < seen.idxOf b

theorem IsFirstSeen.nodup (h : IsFirstSeen p seen kept) : kept.Nodup := by
  refine h.ordered.imp ?_
  rintro a b hlt rfl
  exact Nat.lt_irrefl _ hlt

/-- Membership and order leave one list only. -/
theorem IsFirstSeen.unique {other : List α} (h : IsFirstSeen p seen kept)
    (h' : IsFirstSeen p seen other) : kept = other := by
  have hperm : kept.Perm other := (List.perm_ext_iff_of_nodup h.nodup h'.nodup).2
    fun a => (h.mem_iff a).trans (h'.mem_iff a).symm
  refine hperm.eq_of_pairwise ?_ h.ordered h'.ordered
  -- no two elements are each in front of the other
  intro a b _ _ hab hba
  omega

variable [LawfulBEq α]

namespace IsFirstSeen

/-- Of two elements that are kept, the one that is seen first comes first. -/
theorem idxOf_lt_iff (h : IsFirstSeen p seen kept) {a b : α} (ha : a ∈ kept) (hb : b ∈ kept) :
    kept.idxOf a < kept.idxOf b ↔ seen.idxOf a < seen.idxOf b := by
  have hbefore {x y : α} (hx : x ∈ kept) (hy : y ∈ kept) (hlt : kept.idxOf x < kept.idxOf y) :
      seen.idxOf x < seen.idxOf y := by
    have hordered := List.pairwise_iff_getElem.1 h.ordered _ _ (List.idxOf_lt_length_of_mem hx)
      (List.idxOf_lt_length_of_mem hy) hlt
    rwa [List.getElem_idxOf, List.getElem_idxOf] at hordered
  constructor
  · exact hbefore ha hb
  · intro hlt
    rcases Nat.lt_trichotomy (kept.idxOf a) (kept.idxOf b) with hab | heq | hba
    · exact hab
    · obtain rfl := (List.idxOf_inj ha).1 heq
      exact absurd hlt (Nat.lt_irrefl _)
    · have := hbefore hb ha hba
      omega

/-- A list without repetitions whose elements all pass is its own first-seen list. -/
theorem of_nodup (hnodup : kept.Nodup) (hpass : ∀ a ∈ kept, p a) : IsFirstSeen p kept kept where
  mem_iff := fun a => ⟨fun ha => ⟨ha, hpass a ha⟩, And.left⟩
  ordered := by
    refine List.pairwise_iff_getElem.2 ?_
    intro i j hi hj hij
    rwa [hnodup.idxOf_getElem i hi, hnodup.idxOf_getElem j hj]

/-! ## One more element -/

section

variable (h : IsFirstSeen p seen kept) (a : α)
include h

theorem idxOf_append {x : α} (hx : x ∈ kept) : (seen ++ [a]).idxOf x = seen.idxOf x :=
  List.idxOf_append_of_mem ((h.mem_iff x).1 hx).1

theorem ordered_append :
    kept.Pairwise fun x y => (seen ++ [a]).idxOf x < (seen ++ [a]).idxOf y := by
  refine h.ordered.imp_of_mem ?_
  intro x y hx hy hlt
  rwa [h.idxOf_append a hx, h.idxOf_append a hy]

/-- An element that passes the test and is new comes last. -/
theorem concat {a : α} (hp : p a) (ha : a ∉ seen) :
    IsFirstSeen p (seen ++ [a]) (kept ++ [a]) where
  mem_iff := by
    intro x
    simp only [List.mem_append, List.mem_singleton, h.mem_iff]
    constructor
    · rintro (⟨hx, hpx⟩ | rfl)
      · exact ⟨.inl hx, hpx⟩
      · exact ⟨.inr rfl, hp⟩
    · rintro ⟨hx | rfl, hpx⟩
      · exact .inl ⟨hx, hpx⟩
      · exact .inr rfl
  ordered := by
    refine List.pairwise_append.2 ⟨h.ordered_append a, List.pairwise_singleton _ _, ?_⟩
    intro x hx y hy
    obtain rfl := List.mem_singleton.1 hy
    have hlt : seen.idxOf x < seen.length :=
      List.idxOf_lt_length_of_mem ((h.mem_iff x).1 hx).1
    rw [h.idxOf_append y hx, List.idxOf_append_of_notMem ha]
    omega

/-- An element that fails the test, or was kept before, changes nothing. -/
theorem skip {a : α} (ha : p a → a ∈ kept) : IsFirstSeen p (seen ++ [a]) kept where
  mem_iff := by
    intro x
    simp only [List.mem_append, List.mem_singleton]
    constructor
    · intro hx
      obtain ⟨hmem, hpx⟩ := (h.mem_iff x).1 hx
      exact ⟨.inl hmem, hpx⟩
    · rintro ⟨hx | rfl, hpx⟩
      · exact (h.mem_iff x).2 ⟨hx, hpx⟩
      · exact ha hpx
  ordered := h.ordered_append a

end

end IsFirstSeen

/-! ## The loop -/

/-- One step of the loop: an element is kept if it passes the test and was not kept
before. -/
def keepNew (p : α → Bool) (kept : List α) (a : α) : List α :=
  if p a ∧ a ∉ kept then kept ++ [a] else kept

/-- A step keeps the first-seen elements of what has been seen. -/
theorem IsFirstSeen.step (h : IsFirstSeen p seen kept) (a : α) :
    IsFirstSeen p (seen ++ [a]) (keepNew p kept a) := by
  unfold keepNew
  split
  · next hnew => exact h.concat hnew.1 fun ha => hnew.2 ((h.mem_iff a).2 ⟨ha, hnew.1⟩)
  · next hold => exact h.skip fun hp => by_contra fun ha => hold ⟨hp, ha⟩

/-- So does a run. -/
theorem IsFirstSeen.run (h : IsFirstSeen p seen kept) (rest : List α) :
    IsFirstSeen p (seen ++ rest) (rest.foldl (keepNew p) kept) := by
  induction rest generalizing seen kept with
  | nil => simpa using h
  | cons a rest ih =>
    have hstep := ih (h.step a)
    simpa using hstep

theorem isFirstSeen_loop (p : α → Bool) (l : List α) :
    IsFirstSeen p l (l.foldl (keepNew p) []) := by
  have hnil : IsFirstSeen p ([] : List α) [] := ⟨by simp, List.Pairwise.nil⟩
  exact hnil.run l

/-- The loop arrives where filtering first and dropping repetitions then does. -/
theorem foldl_keepNew_eq (p : α → Bool) (l : List α) :
    l.foldl (keepNew p) [] = (l.filter p).eraseDups := by
  induction l using List.reverseRecOn with
  | nil => simp
  | append_singleton l a ih =>
    rw [List.foldl_append, ih, List.filter_append, List.eraseDups_append]
    by_cases hp : p a
    · by_cases ha : a ∈ l <;> simp [keepNew, List.removeAll, List.eraseDups_cons, hp, ha]
    · simp [keepNew, List.removeAll, hp]

theorem isFirstSeen_eraseDups (p : α → Bool) (l : List α) :
    IsFirstSeen p l (l.filter p).eraseDups := by
  rw [← foldl_keepNew_eq]
  exact isFirstSeen_loop p l

end

/-! ## Candidates -/

open Literal (interiors ofInterior)

variable {f : Filter} {source : Text}

theorem Filter.accepts_iff_exists {interior : Text} :
    f.accepts interior ↔
      f.minLength < interior.length ∧
        ∃ first, interior.head? = some first ∧ first ∉ f.excludedPrefixes := by
  cases interior <;> simp [accepts]

theorem mem_candidates_iff_exists {literal : Text} :
    literal ∈ candidates f source ↔
      ∃ interior ∈ interiors source, literal = ofInterior interior ∧
        f.minLength < interior.length ∧
        ∃ first, interior.head? = some first ∧ first ∉ f.excludedPrefixes := by
  simp only [mem_candidates_iff, Filter.accepts_iff_exists, and_comm]

theorem ofInterior_nil_notMem_candidates : ofInterior [] ∉ candidates f source := by
  intro h
  obtain ⟨interior, -, haccepts, heq⟩ := mem_candidates_iff.1 h
  rw [← Literal.ofInterior_injective heq, Filter.accepts_nil] at haccepts
  cases haccepts

/-- Quotes around all elements of a list leave them where they are. -/
theorem idxOf_map_ofInterior (l : List Text) (interior : Text) :
    (l.map ofInterior).idxOf (ofInterior interior) = l.idxOf interior := by
  induction l with
  | nil => rfl
  | cons first l ih =>
    by_cases h : first = interior
    · simp [h]
    · have hne : ofInterior first ≠ ofInterior interior :=
        fun heq => h (Literal.ofInterior_injective heq)
      rw [List.map_cons, List.idxOf_cons_ne _ hne, List.idxOf_cons_ne _ h, ih]

/-- Of two candidates, the one that the source shows first comes first. -/
theorem idxOf_candidates_lt_iff {i j : Text} (hi : ofInterior i ∈ candidates f source)
    (hj : ofInterior j ∈ candidates f source) :
    (candidates f source).idxOf (ofInterior i) < (candidates f source).idxOf (ofInterior j) ↔
      (interiors source).idxOf i < (interiors source).idxOf j := by
  have hkept := isFirstSeen_eraseDups f.accepts (interiors source)
  rw [candidates, List.mem_map_of_injective Literal.ofInterior_injective] at hi hj
  rw [candidates, idxOf_map_ofInterior, idxOf_map_ofInterior]
  exact hkept.idxOf_lt_iff hi hj

/-- The candidates are the literals of the accepted interiors, each once, in the order in which
the source first shows their interiors. A loop over the interiors that remembers what it kept
finds them, and it makes no difference whether repetitions are dropped before or after the
filter is asked. The empty literal is never among them. -/
theorem candidates_firstSeen (f : Filter) (source : Text) :
    (candidates f source).Nodup ∧
    (∀ literal, literal ∈ candidates f source ↔
      ∃ interior ∈ interiors source, literal = ofInterior interior ∧
        f.minLength < interior.length ∧
        ∃ first, interior.head? = some first ∧ first ∉ f.excludedPrefixes) ∧
    ofInterior [] ∉ candidates f source ∧
    (∀ i j, ofInterior i ∈ candidates f source → ofInterior j ∈ candidates f source →
      ((candidates f source).idxOf (ofInterior i) < (candidates f source).idxOf (ofInterior j) ↔
        (interiors source).idxOf i < (interiors source).idxOf j)) ∧
    candidates f source = ((interiors source).foldl (keepNew f.accepts) []).map ofInterior ∧
    candidates f source = ((interiors source).eraseDups.filter f.accepts).map ofInterior := by
  refine ⟨nodup_candidates f source, fun _ => mem_candidates_iff_exists,
    ofInterior_nil_notMem_candidates, fun i j => idxOf_candidates_lt_iff, ?_, ?_⟩
  · rw [foldl_keepNew_eq, candidates]
  · rw [← eraseDups_filter, candidates]

end LiteralAudit
