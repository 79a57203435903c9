import LiteralAudit.Literal

/-!
Candidates: the literals that look like text a reader of the screen sees.
A filter drops interiors that are too short and those that begin with a
character that marks something else, such as a path or a colour. Candidates
are written with their quotes, each once, in the order in which the source
first shows them.
-/

namespace LiteralAudit

/-- What an interior must be like to count as visible text. -/
structure Filter where
  /-- Interiors with this many characters or fewer are dropped. -/
  minLength : Nat
  /-- Interiors that begin with one of these are dropped. -/
  excludedPrefixes : List Char
deriving DecidableEq, Repr

namespace Filter

/-- Whether the filter lets an interior through. The empty interior never
passes, for it is too short for every filter. -/
def accepts (f : Filter) (interior : Text) : Bool :=
  f.minLength < interior.length && interior.head?.all (· ∉ f.excludedPrefixes)

theorem accepts_nil (f : Filter) : f.accepts [] = false := by
  simp [accepts]

end Filter

/-- The candidates of a source text. -/
def candidates (f : Filter) (source : Text) : List Text :=
  ((Literal.interiors source).filter f.accepts).eraseDups.map Literal.ofInterior

end LiteralAudit
