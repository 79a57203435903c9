import LiteralAudit.Path
import LiteralAudit.Text.Quoted

/-!
Paths in messages. A message is a text, so the bytes of a path are read as UTF-8
for it, one letter after the other. Bytes that are the form of no character are
strays: those of them that could have begun one character are one letter, and a
message has a single mark for it, or their numbers if it quotes the path.
-/

namespace LiteralAudit

/-- A part of a path that a message tells of. -/
inductive Letter where
  | char (c : Char)
  | stray (bytes : List UInt8)
deriving DecidableEq, Repr

namespace Letter

/-- The part of the path. -/
def bytes : Letter → Path
  | char c => String.utf8EncodeChar c
  | stray bytes => bytes

/-- The mark for strays. -/
def strayMark : Char := '\uFFFD'

def shown : Letter → Char
  | char c => c
  | stray _ => strayMark

/-- The number of a byte, in two digits of base sixteen with capital letters. -/
def hexByte (b : UInt8) : Text :=
  ((if b < 16 then ['0'] else []) ++ Text.hexOfNat b.toNat).map Char.toUpper

def quoted : Letter → Text
  | char c => Text.quotedChar c
  | stray bytes => bytes.flatMap fun b => ['\\', 'x'] ++ hexByte b

end Letter

namespace Path

/-- The character whose form is at the beginning of the path, if there is one. -/
def firstChar? (p : Path) : Option Char := (p.take 4).toByteArray.utf8DecodeChar? 0

/-- Whether a byte goes on with a character of several bytes. -/
def goesOn (b : UInt8) : Bool := 0x80 ≤ b && b ≤ 0xBF

/-- Whether one byte begins a character of three or four bytes and the other can be the second
byte of it. -/
def beginsLong (first second : UInt8) : Bool :=
  if first = 0xE0 then 0xA0 ≤ second && second ≤ 0xBF
  else if first = 0xED then 0x80 ≤ second && second ≤ 0x9F
  else if first = 0xF0 then 0x90 ≤ second && second ≤ 0xBF
  else if first = 0xF4 then 0x80 ≤ second && second ≤ 0x8F
  else 0xE1 ≤ first && first ≤ 0xF3 && goesOn second

/-- The number of strays at the beginning of a path that begins with no character. -/
def strayLength : Path → Nat
  | first :: second :: rest =>
    if !beginsLong first second then 1
    else if 0xF0 ≤ first && rest.head?.any goesOn then 3
    else 2
  | _ => 1

/-- The letters of a path behind so many bytes. -/
def lettersFrom : Nat → Path → List Letter
  | _, [] => []
  | n + 1, _ :: rest => lettersFrom n rest
  | 0, first :: rest =>
    match firstChar? (first :: rest) with
    | some c => .char c :: lettersFrom (c.utf8Size - 1) rest
    | none =>
      let length := strayLength (first :: rest)
      .stray ((first :: rest).take length) :: lettersFrom (length - 1) rest

def letters (p : Path) : List Letter := lettersFrom 0 p

/-- The path as it is shown in a message. -/
def shown (p : Path) : Text := p.letters.map Letter.shown

/-- The path in double quotes, with escapes. -/
def quoted (p : Path) : Text := ['"'] ++ p.letters.flatMap Letter.quoted ++ ['"']

end Path

end LiteralAudit
