import LiteralAudit.Proofs.Literal.Leftmost

/-!
# Texts that leave nothing open

At the end of a text an attempt may still be open, and then it goes on in whatever is
added to the text. A text is self-contained if no quote outside of its literals leaves
one open: each such quote lies in an attempt that a line end stops. The pass is outside
behind these texts and behind no others, and they are the texts to which others can be
added without a change to what is found in either.
-/

namespace LiteralAudit.Literal

/-! ## Attempts that are open at the end -/

/-- The attempt that reads the text behind its opening quote gets to the end of it, or to
a backslash that is the last character. -/
def StaysOpen (t : Text) : Prop := ∃ n, DiesAfter t n ∧ t[n]? ≠ some '\n'

/-- A dying attempt is open at the end unless it dies of a line end. -/
theorem DiesAfter.staysOpen_iff {t : Text} {n : Nat} (h : DiesAfter t n) :
    StaysOpen t ↔ t[n]? ≠ some '\n' := by
  constructor
  · rintro ⟨m, hm, hne⟩
    rwa [h.unique hm]
  · intro hne
    exact ⟨n, h, hne⟩

/-- Behind an attempt that dies of a line end the pass is where it would be had no quote
opened it. -/
theorem DiesAfter.after_inside_eq {t : Text} {n : Nat} (h : DiesAfter t n)
    (hn : t[n]? = some '\n') (read : Text) :
    (Mode.inside read).after t = Mode.outside.after t := by
  induction h generalizing read with
  | atEnd => simp at hn
  | dangling => simp at hn
  | lineEnd t => simp [Mode.next]
  | plain hq hb _ ih => simp [Mode.next, hq, hb, ih (by simpa using hn)]
  | @escape c t n hc _ ih =>
    -- an escaped quote opens an attempt when nothing is open, and it dies of the same line end
    have hinside (read : Text) : (Mode.inside read).after t = Mode.outside.after t :=
      ih (by simpa using hn) read
    by_cases hq : c = '"' <;> simp [Mode.next, hc, hq, hinside]

/-- Otherwise it is not outside. -/
theorem DiesAfter.after_inside_ne {t : Text} {n : Nat} (h : DiesAfter t n)
    (hn : t[n]? ≠ some '\n') (read : Text) : (Mode.inside read).after t ≠ .outside := by
  induction h generalizing read with
  | atEnd => simp
  | dangling => simp [Mode.next]
  | lineEnd t => simp at hn
  | plain hq hb _ ih => simpa [Mode.next, hq, hb] using ih (by simpa using hn) _
  | escape hc _ ih => simpa [Mode.next, hc] using ih (by simpa using hn) _

/-! ## Places in literals -/

/-- A place in one of the literals that the search finds. -/
def IsCovered (source : Text) (q : Nat) : Prop :=
  ∃ s ∈ spans (segments source), s.start ≤ q ∧ q < s.stop

theorem IsCovered.of_isMatch {source : Text} {s : Span} (h : s.IsMatch source) :
    IsCovered source s.start :=
  (isLeftmost_spans_segments source).covered s h

section

variable {c : Char} {rest : Text} (h : segments (c :: rest) = .gap c :: segments rest)
include h

theorem not_isCovered_zero : ¬ IsCovered (c :: rest) 0 := by
  simp [IsCovered, h, spans]

theorem isCovered_succ_iff {q : Nat} : IsCovered (c :: rest) (q + 1) ↔ IsCovered rest q := by
  simp [IsCovered, h, spans, Nat.add_comm 1]

end

section

variable {interior : Text} (hi : IsInterior interior) (rest : Text)
include hi

theorem IsInterior.isCovered_of_lt {q : Nat} (hq : q < (ofInterior interior).length) :
    IsCovered (ofInterior interior ++ rest) q := by
  rw [IsCovered, hi.segments_ofInterior_append]
  exact ⟨⟨0, interior⟩, List.mem_cons_self, Nat.zero_le q, by simpa [Span.stop] using hq⟩

theorem IsInterior.isCovered_add_iff {q : Nat} :
    IsCovered (ofInterior interior ++ rest) ((ofInterior interior).length + q) ↔
      IsCovered rest q := by
  have hstop : Span.stop ⟨0, interior⟩ = (ofInterior interior).length := Nat.zero_add _
  have hbehind : ¬ (ofInterior interior).length + q < (ofInterior interior).length := by omega
  simp [IsCovered, hi.segments_ofInterior_append, spans, hstop, hbehind]

end

/-! ## Self-contained texts -/

/-- No attempt from a quote outside of the literals is open at the end of the text. -/
def IsSelfContained (source : Text) : Prop :=
  ∀ q, source[q]? = some '"' → ¬ IsCovered source q → ¬ StaysOpen (source.drop (q + 1))

theorem isSelfContained_nil : IsSelfContained [] := by
  simp [IsSelfContained]

theorem isSelfContained_cons_iff {c : Char} {rest : Text}
    (h : segments (c :: rest) = .gap c :: segments rest) :
    IsSelfContained (c :: rest) ↔ (c = '"' → ¬ StaysOpen rest) ∧ IsSelfContained rest := by
  constructor
  · intro hself
    constructor
    · intro hc
      simpa using hself 0 (by simp [hc]) (not_isCovered_zero h)
    · intro q hq hcov
      simpa using hself (q + 1) (by simpa using hq) (mt (isCovered_succ_iff h).1 hcov)
  · rintro ⟨hfirst, hrest⟩ q hq hcov
    cases q with
    | zero => simpa using hfirst (by simpa using hq)
    | succ q => simpa using hrest q (by simpa using hq) (mt (isCovered_succ_iff h).2 hcov)

theorem IsInterior.isSelfContained_append_iff {interior : Text} (hi : IsInterior interior)
    (rest : Text) : IsSelfContained (ofInterior interior ++ rest) ↔ IsSelfContained rest := by
  have hplace (q : Nat) :
      (ofInterior interior ++ rest)[(ofInterior interior).length + q]? = rest[q]? := by
    rw [List.getElem?_append_right (Nat.le_add_right _ _), Nat.add_sub_cancel_left]
  have hdrop (q : Nat) :
      (ofInterior interior ++ rest).drop ((ofInterior interior).length + q + 1) =
        rest.drop (q + 1) := by
    rw [Nat.add_assoc, ← List.drop_drop, List.drop_left]
  constructor
  · intro hself q hq hcov
    rw [← hdrop]
    exact hself _ (by rwa [hplace]) (mt (hi.isCovered_add_iff rest).1 hcov)
  · intro hrest q hq hcov
    by_cases hlt : q < (ofInterior interior).length
    · exact absurd (hi.isCovered_of_lt rest hlt) hcov
    · obtain ⟨k, rfl⟩ := Nat.exists_eq_add_of_le (Nat.le_of_not_lt hlt)
      rw [hdrop]
      exact hrest k (by rwa [← hplace]) (mt (hi.isCovered_add_iff rest).2 hcov)

/-- The pass is outside behind the self-contained texts. -/
theorem isSelfContained_iff_after (source : Text) :
    IsSelfContained source ↔ Mode.outside.after source = .outside := by
  induction source using segments_induction with
  | nil => simp [isSelfContained_nil]
  | literal interior behind hi ih =>
    have hliteral : Mode.outside.after (ofInterior interior) = .outside := by
      simpa [ofInterior, Mode.next] using hi.after_inside []
    rw [hi.isSelfContained_append_iff, ih, Mode.after_append, hliteral]
  | dead rest hdies ih =>
    -- the quote opens an attempt; if a line end stops it, what comes behind the quote decides
    obtain ⟨n, hn⟩ := exists_diesAfter_of_close_eq_none hdies
    have hquote : Mode.outside.after ('"' :: rest) = (Mode.inside []).after rest := rfl
    rw [isSelfContained_cons_iff (segments_quote_of_dies hdies), hn.staysOpen_iff, ih, hquote]
    by_cases hline : rest[n]? = some '\n'
    · simp [hline, hn.after_inside_eq hline]
    · simp [hline, hn.after_inside_ne hline]
  | other c rest hq ih =>
    rw [isSelfContained_cons_iff (segments_cons_of_ne hq rest), ih]
    simp [Mode.next, hq]

/-- They are the texts behind which others are read as if they stood alone. -/
theorem isSelfContained_iff_forall_append (a : Text) :
    IsSelfContained a ↔ ∀ b, interiors (a ++ b) = interiors a ++ interiors b := by
  rw [isSelfContained_iff_after]
  constructor
  · intro h b
    rw [interiors, interiorsFrom_append, h]
    rfl
  · intro h
    -- a literal that is still open would take a quote, or a character and a quote, for its end
    cases hmode : Mode.outside.after a with
    | outside => rfl
    | inside read =>
      have hadded := h ['"']
      simp [interiors, interiorsFrom_append, hmode, interiorsFrom] at hadded
    | escaped read =>
      have hadded := h ['a', '"']
      simp [interiors, interiorsFrom_append, hmode, interiorsFrom] at hadded

theorem DiesAt.staysOpen_iff {source : Text} {q p : Nat} (h : DiesAt source q p) :
    StaysOpen (source.drop (q + 1)) ↔ source[p]? ≠ some '\n' := by
  obtain ⟨n, hn, rfl⟩ := h
  rw [hn.staysOpen_iff, List.getElem?_drop]

/-- A line end stops an attempt around each quote outside of the literals. -/
theorem isSelfContained_iff_forall_quote (source : Text) :
    IsSelfContained source ↔
      ∀ q, source[q]? = some '"' → IsCovered source q ∨
        ∃ i p, source[i]? = some '"' ∧ i ≤ q ∧ q < p ∧ DiesAt source i p ∧
          source[p]? = some '\n' := by
  constructor
  · intro hself q hq
    by_cases hcov : IsCovered source q
    · exact .inl hcov
    · obtain ⟨p, hp⟩ := exists_diesAt hq fun s hs heq => hcov (heq ▸ IsCovered.of_isMatch hs)
      have hline : source[p]? = some '\n' := by
        simpa [hp.staysOpen_iff] using hself q hq hcov
      exact .inr ⟨q, p, hq, Nat.le_refl q, hp.lt, hp, hline⟩
  · intro h q hq hcov
    rcases h q hq with hcov' | ⟨i, p, -, hi, hp, hdies, hline⟩
    · exact absurd hcov' hcov
    · rw [(hdies.inner hi hp hq).staysOpen_iff, hline]
      simp

end LiteralAudit.Literal
