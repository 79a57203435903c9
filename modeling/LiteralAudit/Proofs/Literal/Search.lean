import LiteralAudit.Proofs.Literal.Attempt
import LiteralAudit.Proofs.Literal.Span

/-!
# The search for literals

The search tries every place from left to right. Where an attempt closes it takes
the literal and goes on behind it; where one dies it goes on with the very next
character, inside of what the attempt has read. The pass does not go back, but
finds the same interiors, for no match begins inside of a dying attempt.
-/

namespace LiteralAudit.Literal

/-- What the search makes of a text: characters that belong to no literal, and
literals. -/
inductive Segment where
  | gap (c : Char)
  | literal (interior : Text)
deriving DecidableEq, Repr

namespace Segment

def interior? : Segment → Option Text
  | .gap _ => none
  | .literal interior => some interior

@[simp] theorem interior?_gap (c : Char) : (gap c).interior? = none := rfl

@[simp] theorem interior?_literal (interior : Text) :
    (literal interior).interior? = some interior := rfl

end Segment

/-- The segments of a text. After an attempt that dies the search goes on with the
next character. -/
def segments : Text → List Segment
  | [] => []
  | c :: rest =>
    if c = '"' then
      match _h : close rest with
      | some (interior, behind) => .literal interior :: segments behind
      | none => .gap c :: segments rest
    else .gap c :: segments rest
termination_by source => source.length
decreasing_by
  · have := length_lt_of_close _h
    simp only [List.length_cons]
    omega
  · simp
  · simp

/-- The interiors that the search finds. -/
def search (source : Text) : List Text := (segments source).filterMap Segment.interior?

/-! ## Segments -/

@[simp] theorem segments_nil : segments [] = [] := by
  rw [segments]

theorem segments_cons_of_ne {c : Char} (hq : c ≠ '"') (rest : Text) :
    segments (c :: rest) = .gap c :: segments rest := by
  rw [segments, if_neg hq]

theorem segments_quote_of_close {rest interior behind : Text}
    (h : close rest = some (interior, behind)) :
    segments ('"' :: rest) = .literal interior :: segments behind := by
  rw [segments, if_pos rfl]
  split <;> simp_all

theorem segments_quote_of_dies {rest : Text} (h : close rest = none) :
    segments ('"' :: rest) = .gap '"' :: segments rest := by
  rw [segments, if_pos rfl]
  split <;> simp_all

/-- A literal in front of a text is a segment of its own. -/
theorem IsInterior.segments_ofInterior_append {interior : Text} (h : IsInterior interior)
    (rest : Text) : segments (ofInterior interior ++ rest) = .literal interior :: segments rest := by
  have hclose := h.close_append rest
  simpa [ofInterior] using segments_quote_of_close hclose

/-- A case for each kind of place: the end of the text, a literal, a quote whose
attempt dies, and any other character. -/
theorem segments_induction {motive : Text → Prop} (nil : motive [])
    (literal : ∀ interior behind, IsInterior interior → motive behind →
      motive (ofInterior interior ++ behind))
    (dead : ∀ rest, close rest = none → motive rest → motive ('"' :: rest))
    (other : ∀ c rest, c ≠ '"' → motive rest → motive (c :: rest)) (source : Text) :
    motive source := by
  fun_induction segments source with
  | case1 => exact nil
  | case2 rest interior behind hclose ih =>
    obtain ⟨hi, rfl⟩ := close_eq_some_iff.1 hclose
    simpa [ofInterior] using literal interior behind hi ih
  | case3 rest hclose ih => exact dead rest hclose ih
  | case4 c rest hq ih => exact other c rest hq ih

/-- The pass finds what the search finds. -/
theorem search_eq_interiors (source : Text) : search source = interiors source := by
  induction source using segments_induction with
  | nil => simp [search]
  | literal interior behind hi ih =>
    rw [hi.interiors_ofInterior_append, ← ih]
    simp [search, hi.segments_ofInterior_append]
  | dead rest hdies ih =>
    rw [interiors_quote_of_dies hdies, ← ih]
    simp [search, segments_quote_of_dies hdies, List.filterMap_cons]
  | other c rest hq ih =>
    rw [interiors_cons_of_ne hq, ← ih]
    simp [search, segments_cons_of_ne hq, List.filterMap_cons]

/-- Whatever a source is, the pass hands out nothing but interiors. -/
theorem isInterior_of_mem_interiors {interior : Text} (source : Text)
    (h : interior ∈ interiors source) : IsInterior interior := by
  induction source using segments_induction with
  | nil => cases h
  | literal first behind hfirst ih =>
    rw [hfirst.interiors_ofInterior_append] at h
    rcases List.mem_cons.1 h with rfl | h
    · exact hfirst
    · exact ih h
  | dead rest hdies ih =>
    rw [interiors_quote_of_dies hdies] at h
    exact ih h
  | other c rest hq ih =>
    rw [interiors_cons_of_ne hq] at h
    exact ih h

/-! ## Dying attempts in a text -/

/-- The attempt from the quote at one place of a text dies at another. -/
def DiesAt (source : Text) (i p : Nat) : Prop :=
  ∃ n, DiesAfter (source.drop (i + 1)) n ∧ p = i + 1 + n

theorem DiesAt.unique {source : Text} {i p q : Nat} (hp : DiesAt source i p)
    (hq : DiesAt source i q) : p = q := by
  obtain ⟨n, hn, rfl⟩ := hp
  obtain ⟨m, hm, rfl⟩ := hq
  rw [hn.unique hm]

theorem DiesAt.lt {source : Text} {i p : Nat} (h : DiesAt source i p) : i < p := by
  obtain ⟨n, -, rfl⟩ := h
  omega

/-- Where no match begins at a quote, the attempt from it dies. -/
theorem exists_diesAt {source : Text} {i : Nat} (hq : source[i]? = some '"')
    (hnone : ∀ s : Span, s.IsMatch source → s.start ≠ i) : ∃ p, DiesAt source i p := by
  cases hclose : close (source.drop (i + 1)) with
  | none =>
    obtain ⟨n, hn⟩ := exists_diesAfter_of_close_eq_none hclose
    exact ⟨_, n, hn, rfl⟩
  | some pair =>
    exact absurd rfl (hnone ⟨i, pair.1⟩ (Span.isMatch_iff.2 ⟨hq, pair.2, hclose⟩))

/-- From a quote inside of a dying attempt the attempt dies at the same place. -/
theorem DiesAt.inner {source : Text} {i p q : Nat} (h : DiesAt source i p) (hi : i ≤ q)
    (hp : q < p) (hq : source[q]? = some '"') : DiesAt source q p := by
  obtain ⟨n, hn, rfl⟩ := h
  rcases Nat.eq_or_lt_of_le hi with rfl | hlt
  · exact ⟨n, hn, rfl⟩
  · obtain ⟨k, rfl⟩ := Nat.exists_eq_add_of_lt hlt
    have hinner := hn.inner (k := k) (by omega) (by simpa [Nat.add_right_comm] using hq)
    rw [List.drop_drop, show i + 1 + (k + 1) = i + k + 1 + 1 by omega] at hinner
    exact ⟨_, hinner, by omega⟩

/-- No match begins at the quote of a dying attempt or behind it, before its end. -/
theorem DiesAt.not_isMatch {source : Text} {i p : Nat} (h : DiesAt source i p) {s : Span}
    (hi : i ≤ s.start) (hp : s.start < p) : ¬ s.IsMatch source := by
  intro hs
  obtain ⟨hq, behind, hclose⟩ := Span.isMatch_iff.1 hs
  obtain ⟨n, hdies, -⟩ := h.inner hi hp hq
  rw [hdies.close_eq_none] at hclose
  cases hclose

/-- One pass is enough. At a quote that begins no match the attempt dies at one
definite place, and up to there no other match begins. So the search, which tries
every quote in between, finds the interiors that the machine hands out step by
step. -/
theorem interiors_eq_search_and_machine (source : Text) :
    (∀ i, source[i]? = some '"' → (∀ s : Span, s.IsMatch source → s.start ≠ i) →
      ∃ p, DiesAt source i p ∧ (∀ q, DiesAt source i q → q = p) ∧
        ∀ s : Span, i < s.start → s.start < p → ¬ s.IsMatch source) ∧
    interiors source = search source ∧
    interiors source = (source.foldl Mode.step (.outside, [])).2 := by
  refine ⟨?_, (search_eq_interiors source).symm, ?_⟩
  · intro i hq hnone
    obtain ⟨p, hp⟩ := exists_diesAt hq hnone
    refine ⟨p, hp, fun q hq => hq.unique hp, ?_⟩
    intro s hi hlt
    exact hp.not_isMatch hi.le hlt
  · rw [foldl_step, List.nil_append, interiors]

/-- An attempt with an escaped quote that dies at the line end behind it. -/
def brokenSource : Text := "\"a\\\"b\\\n\"c\"".toList

/-- The escaped quote begins no match, and the literal behind the line end is found. -/
theorem interiors_brokenSource :
    brokenSource[0]? = some '"' ∧ (∀ s : Span, s.IsMatch brokenSource → s.start ≠ 0) ∧
    DiesAt brokenSource 0 6 ∧
    brokenSource[3]? = some '"' ∧ (∀ s : Span, s.IsMatch brokenSource → s.start ≠ 3) ∧
    search brokenSource = ["c".toList] := by
  have hdies : DiesAt brokenSource 0 6 :=
    ⟨5, .plain (by decide) (by decide) (.escape (by decide)
      (.plain (by decide) (by decide) (.lineEnd _))), rfl⟩
  have hnone : ∀ s : Span, s.IsMatch brokenSource → s.start ≠ 0 := by
    intro s hs h0
    exact hdies.not_isMatch (by omega) (by omega) hs
  obtain ⟨hinner, hsearch, -⟩ := interiors_eq_search_and_machine brokenSource
  obtain ⟨p, -, hunique, hno⟩ := hinner 0 (by decide) hnone
  obtain rfl : 6 = p := hunique 6 hdies
  refine ⟨by decide, hnone, hdies, by decide, ?_, hsearch.symm.trans (by decide)⟩
  intro s hs h3
  exact hno s (by omega) (by omega) hs

end LiteralAudit.Literal
