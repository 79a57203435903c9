import LiteralAudit.Proofs.Literal.Search

/-!
# Literals laid out in a text

Interiors are laid out as literals with gaps around them, and a gap has no quotes.
Reading the text gives back what was laid out if and only if that is made of
interiors of the grammar. The pass is outside again behind each gap and behind each
literal: a backslash at the end of a gap does not escape the quote behind it, one at
the end of an interior is itself escaped, and two literals may touch.
-/

namespace LiteralAudit.Literal

/-- Text between literals. -/
structure Gap where
  text : Text
  quoteless : '"' ∉ text

/-- Interiors laid out one behind the other, with a gap in front of each and a gap
behind the last. -/
inductive Layout where
  | last (gap : Gap)
  | next (gap : Gap) (interior : Text) (behind : Layout)

namespace Layout

/-- The gaps and the literals, as one text. -/
def text : Layout → Text
  | .last gap => gap.text
  | .next gap interior behind => gap.text ++ (ofInterior interior ++ behind.text)

/-- The interiors that are laid out. -/
def contents : Layout → List Text
  | .last _ => []
  | .next _ interior behind => interior :: behind.contents

/-- Interiors laid out without any text between them. -/
def bare : List Text → Layout
  | [] => .last ⟨[], List.not_mem_nil⟩
  | interior :: rest => .next ⟨[], List.not_mem_nil⟩ interior (bare rest)

@[simp] theorem contents_bare (contents : List Text) : (bare contents).contents = contents := by
  induction contents with
  | nil => rfl
  | cons interior rest ih => simp only [bare, Layout.contents, ih]

/-- Interiors of the grammar are read back. -/
theorem interiors_text {page : Layout} (h : ∀ interior ∈ page.contents, IsInterior interior) :
    interiors page.text = page.contents := by
  induction page with
  | last gap => exact interiorsFrom_outside_of_not_mem gap.quoteless
  | next gap interior behind ih =>
    have hinterior : IsInterior interior := h interior List.mem_cons_self
    have hbehind : interiors behind.text = behind.contents :=
      ih fun other hother => h other (List.mem_cons_of_mem _ hother)
    rw [text, interiors_append_of_not_mem gap.quoteless,
      hinterior.interiors_ofInterior_append, hbehind, contents]

/-- What is laid out is read back exactly if all of it is of the grammar, for nothing
else is ever read. -/
theorem interiors_text_iff (page : Layout) :
    interiors page.text = page.contents ↔ ∀ interior ∈ page.contents, IsInterior interior := by
  constructor
  · intro h interior hmem
    rw [← h] at hmem
    exact isInterior_of_mem_interiors _ hmem
  · exact interiors_text

/-- A gap that ends in a backslash, an interior that ends in an escaped one, and
literals that touch. -/
example : interiors "\\\"C:\\\\\"\"\"\"say \\\"\n\"\\".toList =
    ["C:\\\\".toList, [], "say \\\"\n".toList] := by decide

end Layout

end LiteralAudit.Literal
