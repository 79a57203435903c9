import LiteralAudit.Text

/-!
What a terminal shows of a text. A terminal obeys control characters and the sequences
that an escape character begins; all other characters are shown. Tab, line end, form
feed and carriage return are kept with the characters that are shown, even where they
stand in the middle of an escape or control sequence.

Taken out of a text as a whole, a sequence ends where such white space interrupts it.
Taken out of a stream, it is only held up: the next control character that is neither
white space nor the start of another sequence goes on with it.
-/

namespace LiteralAudit.Terminal

/-- What a terminal is in the middle of. -/
inductive Mode where
  /-- Text that is shown. -/
  | text
  /-- An escape sequence, behind the escape character. -/
  | escape
  /-- An escape sequence that goes on behind its first character. -/
  | escapeRest
  /-- A control sequence, which begins with an escape and `[`. -/
  | control
  /-- A device control string, which begins with an escape and `P`. -/
  | device
  /-- The parameters of a device control string. -/
  | deviceParameters
  /-- What stands between the parameters of a device control string and its body. -/
  | deviceIntermediate
  /-- The body of a string for a device or for a program. -/
  | body
  /-- A system command, which begins with an escape and `]`. -/
  | command
  /-- Text that is shown while a sequence is held up. -/
  | heldUp (sequence : Mode)
deriving DecidableEq, Repr

/-- White space that is kept wherever it stands. -/
def isBreak (c : Char) : Bool := c = '\t' || c = '\n' || c = '\x0c' || c = '\r'

/-- Whether a character is shown where nothing else is going on. -/
def isPrintable (c : Char) : Bool := (0x20 ≤ c.toNat && c ≠ '\x7f') || isBreak c

/-- Whether the UTF-8 form of a character has the byte `0x9c`, which ends the body of a
string for those who read single bytes. Only bytes behind the first can be `0x9c`, and
each of them holds six bits of the code point. -/
def hasTerminator (c : Char) : Bool :=
  (0x80 ≤ c.toNat && c.toNat % 64 = 0x1c) ||
  (0x800 ≤ c.toNat && c.toNat / 64 % 64 = 0x1c) ||
  (0x10000 ≤ c.toNat && c.toNat / 4096 % 64 = 0x1c)

/-- What a printable character of ASCII leads to in the middle of a sequence. -/
def advance (mode : Mode) (c : Char) : Mode :=
  match mode with
  | .escape =>
    if c ≤ '/' then .escapeRest
    else if c = '[' then .control
    else if c = ']' then .command
    else if c = 'P' then .device
    else if c = 'X' ∨ c = '^' ∨ c = '_' then .body
    else .text
  | .escapeRest => if c ≤ '/' then .escapeRest else .text
  | .control => if c ≤ '?' then .control else .text
  | .device =>
    if c ≤ '/' then .deviceIntermediate else if c ≤ '?' then .deviceParameters else .body
  | .deviceParameters =>
    if c ≤ '/' then .deviceIntermediate else if c ≤ ';' then .deviceParameters else .body
  | .deviceIntermediate => if c ≤ '/' then .deviceIntermediate else .body
  | mode => mode

/-- Whether white space can interrupt a sequence. -/
def isInterruptible : Mode → Bool
  | .escape | .escapeRest | .control => true
  | _ => false

/-- What a character leads to, and whether it is shown. -/
def step (inStream : Bool) (mode : Mode) (c : Char) : Mode × Bool :=
  if c = '\x1b' then (.escape, false)
  else if c = '\x18' ∨ c = '\x1a' then (.text, false)
  else match mode with
    | .text => (.text, isPrintable c)
    | .heldUp sequence =>
      if isPrintable c then (if 0x80 ≤ c.toNat then .text else mode, true) else (sequence, false)
    | .body => (if hasTerminator c then .text else .body, false)
    | .command => (if c = '\x07' then .text else .command, false)
    | mode =>
      if isInterruptible mode && isBreak c then
        (if inStream then .heldUp mode else .text, true)
      else if 0x20 ≤ c.toNat && c.toNat < 0x7f then (advance mode c, false)
      else (mode, false)

/-- What is shown of a text in the middle of something. -/
def shownFrom (inStream : Bool) : Mode → Text → Text
  | _, [] => []
  | mode, c :: rest =>
    match step inStream mode c with
    | (mode, true) => c :: shownFrom inStream mode rest
    | (mode, false) => shownFrom inStream mode rest

/-- What is shown of a text. -/
def shown (t : Text) : Text := shownFrom false .text t

/-- What is shown of a text that is written to a stream. -/
def shownInStream (t : Text) : Text := shownFrom true .text t

end LiteralAudit.Terminal
