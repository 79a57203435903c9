import LiteralAudit.Text

/-!
Places in a text, as an editor shows them. Lines are counted from one. A
column is the number of bytes since the last line end, so the place before
the first byte of a line has column zero.
-/

namespace LiteralAudit.Text

/-- A place in a text. -/
structure Position where
  line : Nat
  column : Nat
deriving DecidableEq, Repr

namespace Position

/-- The start of every text. -/
def start : Position := ⟨1, 0⟩

/-- The place reached from `p` by reading `n` more bytes of the text. A
character may be read in part; the column then counts the bytes that were
read. -/
def advance (p : Position) : Text → Nat → Position
  | [], _ => p
  | c :: rest, n =>
    if n = 0 then p
    else if c = '\n' then advance ⟨p.line + 1, 0⟩ rest (n - 1)
    else if n ≤ c.utf8Size then ⟨p.line, p.column + n⟩
    else advance ⟨p.line, p.column + c.utf8Size⟩ rest (n - c.utf8Size)

/-- The place after the first `n` bytes of the text. -/
def after (t : Text) (n : Nat) : Position := start.advance t n

/-- The wording that ends every message about a place. -/
def describe (p : Position) : Text :=
  "line ".toList ++ ofNat p.line ++ " column ".toList ++ ofNat p.column

end Position

end LiteralAudit.Text
