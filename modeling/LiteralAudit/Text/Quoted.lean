import LiteralAudit.Text
import LiteralAudit.Text.Printable

/-!
The quoted form of a text inside a message: double quotes around it, and an
escape for every character that would end the quotation, break the line or
not be seen.
-/

namespace LiteralAudit.Text

/-- One character of a quoted text. Characters that are not shown are named by
their code point; a single quote needs no escape between double quotes. -/
def quotedChar (c : Char) : Text :=
  if c = '\x00' then ['\\', '0']
  else if c = '\t' then ['\\', 't']
  else if c = '\r' then ['\\', 'r']
  else if c = '\n' then ['\\', 'n']
  else if c = '\\' then ['\\', '\\']
  else if c = '"' then ['\\', '"']
  else if isShown c then [c]
  else ['\\', 'u', '\x7b'] ++ hexOfNat c.toNat ++ ['\x7d']

/-- The text in double quotes, with escapes. -/
def quoted (t : Text) : Text := ['"'] ++ t.flatMap quotedChar ++ ['"']

end LiteralAudit.Text
