import LiteralAudit.Proofs.Literal.Search

/-!
# Leftmost matches that do not overlap

What it means that a list of spans is the result of a leftmost search that never
goes back is said without a search: the spans are matches, they follow one another
without overlapping, and no match begins outside of them. One list at most is like
that for a text, and the interiors that the pass finds are those of that list.
-/

namespace LiteralAudit.Literal

/-- The spans are the leftmost matches in a text that do not overlap. -/
structure IsLeftmost (source : Text) (spans : List Span) : Prop where
  matched : ∀ s ∈ spans, s.IsMatch source
  /-- Each span ends before the next one starts. -/
  apart : spans.Pairwise fun s t => s.stop ≤ t.start
  /-- No match begins in front of the first span, between two of them or behind the
  last one. -/
  covered : ∀ t : Span, t.IsMatch source → ∃ s ∈ spans, s.start ≤ t.start ∧ t.start < s.stop

/-! ## The list is unique -/

section

variable {source : Text} {a b : List Span}

theorem IsLeftmost.increasing (h : IsLeftmost source a) :
    a.Pairwise fun s t => s.start < t.start := by
  refine h.apart.imp ?_
  intro s t hle
  exact Nat.lt_of_lt_of_le s.start_lt_stop hle

theorem IsLeftmost.nodup (h : IsLeftmost source a) : a.Nodup := by
  refine h.increasing.imp ?_
  rintro s t hlt rfl
  exact Nat.lt_irrefl _ hlt

theorem IsLeftmost.stop_le (h : IsLeftmost source a) {s t : Span} (hs : s ∈ a) (ht : t ∈ a)
    (hlt : s.start < t.start) : s.stop ≤ t.start := by
  obtain ⟨i, hi, rfl⟩ := List.mem_iff_getElem.1 hs
  obtain ⟨j, hj, rfl⟩ := List.mem_iff_getElem.1 ht
  have hapart := List.pairwise_iff_getElem.1 h.apart
  rcases Nat.lt_trichotomy i j with hij | rfl | hij
  · exact hapart i j hi hj hij
  · exact absurd hlt (Nat.lt_irrefl _)
  · have hstop := hapart j i hj hi hij
    have hpos := a[j].start_lt_stop
    omega

/-- A span of one list is in the other, by induction on where it starts: the span
that covers its start cannot start earlier, for it would be in the first list too
and overlap there. -/
theorem IsLeftmost.subset (ha : IsLeftmost source a) (hb : IsLeftmost source b) {s : Span}
    (hs : s ∈ a) : s ∈ b := by
  induction hn : s.start using Nat.strong_induction_on generalizing a b s with
  | _ n ih =>
    subst hn
    obtain ⟨t, ht, hle, hlt⟩ := hb.covered s (ha.matched s hs)
    rcases Nat.eq_or_lt_of_le hle with heq | hearlier
    · rwa [← (hb.matched t ht).eq_of_start_eq (ha.matched s hs) heq]
    · have hta : t ∈ a := ih t.start hearlier hb ha ht rfl
      have hstop := ha.stop_le hta hs hearlier
      omega

theorem IsLeftmost.unique (ha : IsLeftmost source a) (hb : IsLeftmost source b) : a = b := by
  have hperm : a.Perm b := (List.perm_ext_iff_of_nodup ha.nodup hb.nodup).2
    fun s => ⟨ha.subset hb, hb.subset ha⟩
  refine hperm.eq_of_pairwise ?_ ha.increasing hb.increasing
  intro s t _ _ hst hts
  omega

end

/-! ## The search has these spans -/

/-- The spans of the literals in a list of segments. -/
def spans : List Segment → List Span
  | [] => []
  | .gap _ :: rest => (spans rest).map (Span.shift 1)
  | .literal interior :: rest =>
    ⟨0, interior⟩ :: (spans rest).map (Span.shift (ofInterior interior).length)

theorem map_interior_spans (parts : List Segment) :
    (spans parts).map Span.interior = parts.filterMap Segment.interior? := by
  have hshift (k : Nat) : Span.interior ∘ Span.shift k = Span.interior := rfl
  induction parts with
  | nil => rfl
  | cons part parts ih =>
    cases part with
    | gap c => simp [spans, List.filterMap_cons, hshift, ih]
    | literal interior => simp [spans, hshift, ih]

section

variable {rest : Text} {found : List Span} (h : IsLeftmost rest found) (front : Text)
include h

theorem IsLeftmost.matched_shift :
    ∀ s ∈ found.map (Span.shift front.length), s.IsMatch (front ++ rest) := by
  intro s hs
  obtain ⟨t, ht, rfl⟩ := List.mem_map.1 hs
  exact Span.isMatch_shift_append.2 (h.matched t ht)

theorem IsLeftmost.apart_shift :
    (found.map (Span.shift front.length)).Pairwise fun s t => s.stop ≤ t.start :=
  List.pairwise_map.2 (h.apart.imp fun hle => by simpa using hle)

theorem IsLeftmost.covered_shift {t : Span} (ht : t.IsMatch (front ++ rest))
    (hle : front.length ≤ t.start) :
    ∃ s ∈ found.map (Span.shift front.length), s.start ≤ t.start ∧ t.start < s.stop := by
  obtain ⟨u, hu, rfl⟩ := ht.exists_shift hle
  obtain ⟨s, hs, hstart, hstop⟩ := h.covered u hu
  exact ⟨s.shift front.length, List.mem_map_of_mem hs, by simpa using hstart,
    by simpa using hstop⟩

/-- A character in front at which no match begins moves the leftmost matches. -/
theorem IsLeftmost.cons {c : Char}
    (hnone : ∀ s : Span, s.IsMatch (c :: rest) → s.start ≠ 0) :
    IsLeftmost (c :: rest) (found.map (Span.shift 1)) where
  matched := h.matched_shift [c]
  apart := h.apart_shift [c]
  covered := fun t ht => h.covered_shift [c] ht (Nat.pos_of_ne_zero (hnone t ht))

/-- A literal in front moves them too and is the first of them itself. -/
theorem IsLeftmost.literal {interior : Text} (hi : IsInterior interior) :
    IsLeftmost (ofInterior interior ++ rest)
      (⟨0, interior⟩ :: found.map (Span.shift (ofInterior interior).length)) where
  matched := by
    intro s hs
    rcases List.mem_cons.1 hs with rfl | hs
    · exact ⟨hi, List.prefix_append _ _⟩
    · exact h.matched_shift _ s hs
  apart := by
    refine List.pairwise_cons.2 ⟨fun t ht => ?_, h.apart_shift _⟩
    obtain ⟨u, _, rfl⟩ := List.mem_map.1 ht
    simp [Span.stop]
  covered := by
    intro t ht
    by_cases hlt : t.start < (ofInterior interior).length
    · exact ⟨⟨0, interior⟩, List.mem_cons_self, Nat.zero_le _, by simpa [Span.stop] using hlt⟩
    · obtain ⟨s, hs, hcover⟩ := h.covered_shift _ ht (Nat.le_of_not_lt hlt)
      exact ⟨s, List.mem_cons_of_mem _ hs, hcover⟩

end

theorem isLeftmost_spans_segments (source : Text) : IsLeftmost source (spans (segments source)) := by
  induction source using segments_induction with
  | nil =>
    refine ⟨by simp [spans], by simp [spans], ?_⟩
    intro t ht
    simpa using (Span.isMatch_iff.1 ht).1
  | literal interior behind hi ih =>
    rw [hi.segments_ofInterior_append]
    exact ih.literal hi
  | dead rest hdies ih =>
    rw [segments_quote_of_dies hdies]
    refine ih.cons ?_
    intro s hs h0
    obtain ⟨-, behind, hclose⟩ := Span.isMatch_iff.1 hs
    simp [h0, hdies] at hclose
  | other c rest hq ih =>
    rw [segments_cons_of_ne hq]
    refine ih.cons ?_
    intro s hs h0
    obtain ⟨hquote, -⟩ := Span.isMatch_iff.1 hs
    simp [h0, hq] at hquote

/-- The interiors of a text are those of its leftmost matches that do not overlap.
There is exactly one such list of matches, and one match at most at each place;
what can stand between the quotes of a match is what the pattern says. -/
theorem interiors_of_leftmost_matches (source : Text) :
    (∀ interior, IsInterior interior ↔ interior ∈ interiorPattern) ∧
    (∀ s t : Span, s.IsMatch source → t.IsMatch source → s.start = t.start → s = t) ∧
    ∃ found : List Span, IsLeftmost source found ∧ found.map Span.interior = interiors source ∧
      ∀ other, IsLeftmost source other → other = found := by
  have hleftmost := isLeftmost_spans_segments source
  refine ⟨fun _ => isInterior_iff_mem_interiorPattern, fun s t hs ht => hs.eq_of_start_eq ht,
    spans (segments source), hleftmost, ?_, fun other h => h.unique hleftmost⟩
  rw [map_interior_spans, ← search_eq_interiors, search]

end LiteralAudit.Literal
