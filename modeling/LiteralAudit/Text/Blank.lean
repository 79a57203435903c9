import LiteralAudit.Text

/-!
White space in the sense of Unicode's `White_Space` property. It is wider
than the four characters that separate the tokens of a JSON text: it has the
no-break and the typographic spaces too. The zero-width space (U+200B), the
byte order mark (U+FEFF) and the Mongolian vowel separator (U+180E) are not
in it.
-/

namespace LiteralAudit.Text

/-- The characters with the property `White_Space`, as closed ranges of code
points in ascending order. -/
def whiteSpace : List (Nat × Nat) :=
  [(0x09, 0x0d), (0x20, 0x20), (0x85, 0x85), (0xa0, 0xa0), (0x1680, 0x1680),
   (0x2000, 0x200a), (0x2028, 0x2029), (0x202f, 0x202f), (0x205f, 0x205f),
   (0x3000, 0x3000)]

/-- A character is blank if it is white space. -/
def isBlank (c : Char) : Bool :=
  whiteSpace.any fun (low, high) => low ≤ c.toNat && c.toNat ≤ high

/-- A text is blank if it holds nothing but white space; the empty text is. -/
def blank (t : Text) : Bool := t.all isBlank

end LiteralAudit.Text
