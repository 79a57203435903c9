import LiteralAudit.Text

/-!
String literals of a source text: a double quote, an interior, a double
quote. A backslash in an interior takes the next character with it, so an
escaped quote does not close the literal. A line end cannot be escaped, but
it may stand in an interior on its own.

The interiors are found in one pass from left to right. A quote outside a
literal opens one. An attempt that meets a backslash before a line end is
given up, and every quote read since it opened was escaped and opens nothing
either, so the pass goes on from there as if nothing had been open. An
attempt that meets the end of the text is given up too.
-/

namespace LiteralAudit.Literal

/-- What the pass knows at a place in the text. An open literal carries the
characters of its interior so far, the latest first. -/
inductive Mode where
  /-- No literal is open. -/
  | outside
  /-- A literal is open. -/
  | inside (read : Text)
  /-- A literal is open and the latest character is a backslash that takes the
  next one with it. -/
  | escaped (read : Text)
deriving DecidableEq, Repr

/-- The interiors of the literals that close in the text, when the pass is in
the given mode at its start. -/
def interiorsFrom : Mode → Text → List Text
  | _, [] => []
  | .outside, c :: rest =>
    if c = '"' then interiorsFrom (.inside []) rest else interiorsFrom .outside rest
  | .inside read, c :: rest =>
    if c = '"' then read.reverse :: interiorsFrom .outside rest
    else if c = '\\' then interiorsFrom (.escaped (c :: read)) rest
    else interiorsFrom (.inside (c :: read)) rest
  | .escaped read, c :: rest =>
    if c = '\n' then interiorsFrom .outside rest
    else interiorsFrom (.inside (c :: read)) rest

/-- The interiors of the literals of a text, in order, with their escapes as
they are written. -/
def interiors (source : Text) : List Text := interiorsFrom .outside source

/-- The literal with the given interior. -/
def ofInterior (interior : Text) : Text := ['"'] ++ interior ++ ['"']

/-- The interior that follows an opening quote, and the text behind the closing
one; nothing if the literal never closes. -/
def close : Text → Option (Text × Text)
  | [] => none
  | c :: rest =>
    if c = '"' then some ([], rest)
    else if c = '\\' then
      match rest with
      | [] => none
      | d :: rest =>
        if d = '\n' then none
        else (close rest).map fun (interior, behind) => (c :: d :: interior, behind)
    else (close rest).map fun (interior, behind) => (c :: interior, behind)

/-- Interiors are made of characters other than quotes and backslashes, and of
backslashes that each take one character, not a line end, with them. -/
inductive IsInterior : Text → Prop where
  | nil : IsInterior []
  | plain {c : Char} {t : Text} (hq : c ≠ '"') (hb : c ≠ '\\') :
      IsInterior t → IsInterior (c :: t)
  | escape {c : Char} {t : Text} (hn : c ≠ '\n') :
      IsInterior t → IsInterior ('\\' :: c :: t)

@[simp] theorem interiors_nil : interiors [] = [] := rfl

/-- Without a quote there is no literal. -/
theorem interiorsFrom_outside_of_not_mem {source : Text} (h : '"' ∉ source) :
    interiorsFrom .outside source = [] := by
  induction source with
  | nil => rfl
  | cons c rest ih =>
    simp only [List.mem_cons, not_or] at h
    simp [interiorsFrom, Ne.symm h.1, ih h.2]

end LiteralAudit.Literal
