import LiteralAudit.Proofs.Literal.Search

/-!
# Other text in place of a literal

A literal is substituted wherever the search finds it. If the text put there has no
quote, the pass is outside of literals before it and behind it, as it was with the
literal; so all other literals are found as before. Attempts that die keep what
they read, for no literal is found inside of them, and die as before.
-/

namespace LiteralAudit.Literal

/-- The text of a segment, with an expression in place of one literal. -/
def Segment.replace (literal expression : Text) : Segment → Text
  | .gap c => [c]
  | .literal interior => if ofInterior interior = literal then expression else ofInterior interior

/-- The text with an expression in place of one literal, wherever the search finds
the literal. -/
def substitute (literal expression source : Text) : Text :=
  (segments source).flatMap (Segment.replace literal expression)

section

variable {literal expression : Text}

@[simp] theorem substitute_nil : substitute literal expression [] = [] := by
  simp [substitute]

theorem substitute_cons_of_ne {c : Char} (hq : c ≠ '"') (rest : Text) :
    substitute literal expression (c :: rest) = c :: substitute literal expression rest := by
  simp [substitute, segments_cons_of_ne hq, Segment.replace]

theorem substitute_quote_of_dies {rest : Text} (h : close rest = none) :
    substitute literal expression ('"' :: rest) = '"' :: substitute literal expression rest := by
  simp [substitute, segments_quote_of_dies h, Segment.replace]

theorem IsInterior.substitute_ofInterior_append {interior : Text} (h : IsInterior interior)
    (rest : Text) :
    substitute literal expression (ofInterior interior ++ rest) =
      (if ofInterior interior = literal then expression else ofInterior interior) ++
        substitute literal expression rest := by
  simp [substitute, h.segments_ofInterior_append, Segment.replace]

/-- An attempt dies where it died before. -/
theorem DiesAfter.substitute {t : Text} {n : Nat} (h : DiesAfter t n) :
    DiesAfter (substitute literal expression t) n := by
  have hb : '\\' ≠ '"' := by decide
  induction h with
  | atEnd => simpa using DiesAfter.atEnd
  | dangling => simpa [substitute_cons_of_ne hb] using DiesAfter.dangling
  | lineEnd t =>
    rw [substitute_cons_of_ne hb, substitute_cons_of_ne (by decide)]
    exact .lineEnd _
  | plain hq hb _ ih =>
    rw [substitute_cons_of_ne hq]
    exact .plain hq hb ih
  | @escape c t _ hn h ih =>
    rw [substitute_cons_of_ne hb]
    by_cases hq : c = '"'
    · rw [hq, substitute_quote_of_dies h.close_eq_none]
      exact .escape (by decide) ih
    · rw [substitute_cons_of_ne hq]
      exact .escape hn ih

/-- Without quotes in the expression, the text has the literals that it had before,
but for the one that was substituted. -/
theorem interiors_substitute (hquote : '"' ∉ expression) (source : Text) :
    interiors (substitute literal expression source) =
      (interiors source).filter fun interior => ofInterior interior ≠ literal := by
  induction source using segments_induction with
  | nil => simp
  | literal interior behind hi ih =>
    rw [hi.substitute_ofInterior_append, hi.interiors_ofInterior_append]
    split
    · next heq => simp [interiors_append_of_not_mem hquote, ih, heq]
    · next hne => simp [hi.interiors_ofInterior_append, ih, hne]
  | dead rest hdies ih =>
    obtain ⟨_, hafter⟩ := exists_diesAfter_of_close_eq_none hdies
    rw [substitute_quote_of_dies hdies, interiors_quote_of_dies hafter.substitute.close_eq_none,
      ih, interiors_quote_of_dies hdies]
  | other c rest hq ih =>
    rw [substitute_cons_of_ne hq, interiors_cons_of_ne hq, ih, interiors_cons_of_ne hq]

end

end LiteralAudit.Literal
