import LiteralAudit.Proofs.Literal.Grammar

/-!
# Matches of the grammar

A span is a place in a text together with the interior read there. It is a match
if the text has the literal of that interior at that place. Nothing is said about
other matches: an escaped quote inside of a literal may begin a match too.
-/

namespace LiteralAudit.Literal

/-- A place in a text where a literal with the given interior may stand. -/
structure Span where
  /-- The number of characters in front of the opening quote. -/
  start : Nat
  interior : Text
deriving DecidableEq, Repr

namespace Span

/-- The number of characters up to the closing quote, and with it. -/
def stop (s : Span) : Nat := s.start + (ofInterior s.interior).length

/-- Whether the literal stands in the text. -/
def IsMatch (source : Text) (s : Span) : Prop :=
  IsInterior s.interior ∧ ofInterior s.interior <+: source.drop s.start

/-- The same literal, further right. -/
def shift (k : Nat) (s : Span) : Span := { s with start := k + s.start }

theorem start_lt_stop (s : Span) : s.start < s.stop := by
  simp only [stop, ofInterior, List.length_append, List.length_singleton]
  omega

@[simp] theorem shift_interior (k : Nat) (s : Span) : (s.shift k).interior = s.interior := rfl

@[simp] theorem shift_start (k : Nat) (s : Span) : (s.shift k).start = k + s.start := rfl

@[simp] theorem shift_stop (k : Nat) (s : Span) : (s.shift k).stop = k + s.stop :=
  Nat.add_assoc ..

/-- A match is an opening quote behind which an interior is read. -/
theorem isMatch_iff {source : Text} {s : Span} :
    s.IsMatch source ↔ source[s.start]? = some '"' ∧
      ∃ behind, close (source.drop (s.start + 1)) = some (s.interior, behind) := by
  constructor
  · rintro ⟨hi, behind, hdrop⟩
    replace hdrop : source.drop s.start = '"' :: (s.interior ++ '"' :: behind) := by
      simpa [ofInterior] using hdrop.symm
    constructor
    · rw [← Nat.add_zero s.start, ← List.getElem?_drop, hdrop]
      rfl
    · rw [← List.drop_drop, hdrop]
      exact ⟨behind, hi.close_append behind⟩
  · rintro ⟨hq, behind, hclose⟩
    obtain ⟨hi, hdrop⟩ := close_eq_some_iff.1 hclose
    obtain ⟨hlt, hq⟩ := List.getElem?_eq_some_iff.1 hq
    refine ⟨hi, behind, ?_⟩
    rw [List.drop_eq_getElem_cons hlt, hq, hdrop]
    simp [ofInterior]

/-- At one place there is at most one match. -/
theorem IsMatch.eq_of_start_eq {source : Text} {s t : Span} (hs : s.IsMatch source)
    (ht : t.IsMatch source) (h : s.start = t.start) : s = t := by
  obtain ⟨-, _, hclose⟩ := isMatch_iff.1 hs
  obtain ⟨-, _, hclose'⟩ := isMatch_iff.1 ht
  rw [h, hclose'] at hclose
  obtain ⟨hinterior, -⟩ := Prod.mk.inj (Option.some.inj hclose)
  cases s
  cases t
  simp_all

/-- Text in front of a text moves its matches and makes none among them. -/
theorem isMatch_shift_append {front rest : Text} {s : Span} :
    (s.shift front.length).IsMatch (front ++ rest) ↔ s.IsMatch rest := by
  simp only [IsMatch, shift_interior, shift_start, ← List.drop_drop, List.drop_left]

/-- A match that does not begin in the text in front is one of the moved ones. -/
theorem IsMatch.exists_shift {front rest : Text} {s : Span} (hs : s.IsMatch (front ++ rest))
    (h : front.length ≤ s.start) :
    ∃ t : Span, t.IsMatch rest ∧ s = t.shift front.length := by
  have hshift : s = Span.shift front.length ⟨s.start - front.length, s.interior⟩ := by
    simp only [shift, Nat.add_sub_cancel' h]
  rw [hshift, isMatch_shift_append] at hs
  exact ⟨_, hs, hshift⟩

end Span

end LiteralAudit.Literal
