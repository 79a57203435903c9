import LiteralAudit.Text

/-!
Writing JSON texts for people to read: each element of a list and each member
of an object stands on a line of its own, indented by two spaces more than the
bracket that holds it. A bracket that holds nothing is closed at once.
-/

namespace LiteralAudit.Json

/-- One character inside a written string. Quotes, backslashes and control
characters are escaped, and nothing else is. -/
def writtenChar (c : Char) : Text :=
  if c = '"' then ['\\', '"']
  else if c = '\\' then ['\\', '\\']
  else if c = '\x08' then ['\\', 'b']
  else if c = '\x0c' then ['\\', 'f']
  else if c = '\n' then ['\\', 'n']
  else if c = '\r' then ['\\', 'r']
  else if c = '\t' then ['\\', 't']
  else if c.toNat < 0x20 then
    ['\\', 'u', '0', '0', Nat.digitChar (c.toNat / 16), Nat.digitChar (c.toNat % 16)]
  else [c]

/-- A string with its quotes. -/
def writtenString (t : Text) : Text := ['"'] ++ t.flatMap writtenChar ++ ['"']

/-- The space at the front of a line at the given depth. -/
def indentation (depth : Nat) : Text := List.replicate (2 * depth) ' '

/-- Items between brackets, at the given depth of nesting. -/
def writtenBlock (opening closing : Char) (depth : Nat) (items : List Text) : Text :=
  if items.isEmpty then [opening, closing]
  else
    [opening, '\n'] ++
      List.intercalate [',', '\n'] (items.map fun item => indentation (depth + 1) ++ item) ++
      ['\n'] ++ indentation depth ++ [closing]

/-- A list of written values. -/
def writtenList (depth : Nat) (items : List Text) : Text := writtenBlock '[' ']' depth items

/-- One member of an object: its key, and its value as it is written. -/
def writtenMember (key value : Text) : Text := writtenString key ++ ": ".toList ++ value

/-- An object of written members. -/
def writtenObject (depth : Nat) (members : List Text) : Text :=
  writtenBlock '\x7b' '\x7d' depth members

end LiteralAudit.Json
