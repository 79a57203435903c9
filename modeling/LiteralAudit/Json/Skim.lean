import LiteralAudit.Json.Strings

/-!
Passing over a value that nobody asked for. Only its form is checked, and a
little less strictly than that of a value that is kept: numerals may be of any
size, surrogates need no partner, and values may be nested to any depth.

The value is read one character at a time by a machine with a stack of the
brackets that are open. A numeral ends before the first character that cannot
belong to it, and that character is then looked at again.
-/

namespace LiteralAudit.Json.Skim

/-- The two kinds of brackets that hold values. -/
inductive Bracket where
  | list
  | object
deriving DecidableEq, Repr

/-- What the machine is reading. -/
inductive Place where
  /-- The start of a value. -/
  | value
  /-- Behind an opening bracket. -/
  | opened
  /-- Behind a value in a bracket. -/
  | closed
  /-- Behind a comma in an object. -/
  | key
  /-- Behind a key. -/
  | colon
  /-- In a string that is a key or a value. -/
  | string (isKey : Bool)
  /-- Behind a backslash in a string. -/
  | escape (isKey : Bool)
  /-- In an escape of four digits, of which some are read. -/
  | hex (isKey : Bool) (read : Nat)
  /-- In a word of which some letters are left. -/
  | word (left : List Char)
  /-- Behind the sign of a numeral. -/
  | minus
  /-- Behind a zero that is the whole part of a numeral. -/
  | zero
  /-- In the whole part of a numeral. -/
  | whole
  /-- Behind the point of a numeral. -/
  | point
  /-- In the digits behind the point. -/
  | fraction
  /-- Behind the letter of an exponent. -/
  | exponentLetter
  /-- Behind the sign of an exponent. -/
  | exponentSign
  /-- In the digits of an exponent. -/
  | exponent
deriving DecidableEq, Repr

/-- What one character leads to. -/
inductive Move where
  | go (place : Place) (stack : List Bracket)
  /-- The value ended with this character. -/
  | finish
  /-- The value ended before this character. -/
  | stop
  /-- The text is refused, this character counting as read. -/
  | refuse (cause : Cause)
  /-- The text is refused before this character. -/
  | refuseBefore (cause : Cause)
deriving DecidableEq, Repr

/-- The white space between tokens. -/
def isSpace (c : Char) : Bool := c = ' ' || c = '\n' || c = '\t' || c = '\r'

/-- A value has ended with the latest character. -/
def ended (stack : List Bracket) : Move :=
  if stack.isEmpty then .finish else .go .closed stack

/-- A string has ended with the latest character. -/
def endedString (isKey : Bool) (stack : List Bracket) : Move :=
  if isKey then .go .colon stack else ended stack

/-- The first character of a value. -/
def startValue (stack : List Bracket) (c : Char) : Move :=
  if isSpace c then .go .value stack
  else if c = '"' then .go (.string false) stack
  else if c = '[' then .go .opened (.list :: stack)
  else if c = '\x7b' then .go .opened (.object :: stack)
  else if c = 'n' then .go (.word ['u', 'l', 'l']) stack
  else if c = 't' then .go (.word ['r', 'u', 'e']) stack
  else if c = 'f' then .go (.word ['a', 'l', 's', 'e']) stack
  else if c = '-' then .go .minus stack
  else if c = '0' then .go .zero stack
  else if c.isDigit then .go .whole stack
  else .refuse .valueExpected

/-- The first character of a key. -/
def startKey (stack : List Bracket) (c : Char) : Move :=
  if isSpace c then .go .key stack
  else if c = '"' then .go (.string true) stack
  else .refuse .keyMustBeString

/-- A character behind a value in the given brackets. -/
def afterValue (stack : List Bracket) (c : Char) : Move :=
  match stack with
  | [] => .stop
  | .list :: outer =>
    if isSpace c then .go .closed stack
    else if c = ',' then .go .value stack
    else if c = ']' then ended outer
    else .refuse .listCommaOrEnd
  | .object :: outer =>
    if isSpace c then .go .closed stack
    else if c = ',' then .go .key stack
    else if c = '\x7d' then ended outer
    else .refuse .objectCommaOrEnd

/-- A character behind the digits of a numeral that may end here. -/
def afterNumeral (stack : List Bracket) (mayHavePoint : Bool) (c : Char) : Move :=
  if mayHavePoint && c = '.' then .go .point stack
  else if c = 'e' || c = 'E' then .go .exponentLetter stack
  else afterValue stack c

/-- A digit that has to be there. -/
def requireDigit (place : Place) (stack : List Bracket) (c : Char) : Move :=
  if c.isDigit then .go place stack else .refuse .invalidNumber

/-- The move of the machine at a character. -/
def move (place : Place) (stack : List Bracket) (c : Char) : Move :=
  match place with
  | .value => startValue stack c
  | .opened =>
    if isSpace c then .go .opened stack
    else match stack with
      | .object :: outer => if c = '\x7d' then ended outer else startKey stack c
      | .list :: outer => if c = ']' then ended outer else startValue stack c
      | [] => startValue stack c
  | .closed => afterValue stack c
  | .key => startKey stack c
  | .colon =>
    if isSpace c then .go .colon stack
    else if c = ':' then .go .value stack
    else .refuse .colonExpected
  | .string isKey =>
    if c = '"' then endedString isKey stack
    else if c = '\\' then .go (.escape isKey) stack
    else if isControl c then .refuseBefore .controlCharacter
    else .go (.string isKey) stack
  | .escape isKey =>
    if (shortEscape? c).isSome then .go (.string isKey) stack
    else if c = 'u' then .go (.hex isKey 0) stack
    else .refuse .invalidEscape
  | .hex isKey read =>
    if (hexDigit? c).isSome then
      .go (if read = 3 then .string isKey else .hex isKey (read + 1)) stack
    else .refuse .invalidEscape
  | .word [] => afterValue stack c
  | .word (letter :: left) =>
    if c ≠ letter then .refuse .wordExpected
    else if left.isEmpty then ended stack
    else .go (.word left) stack
  | .minus =>
    if c = '0' then .go .zero stack else requireDigit .whole stack c
  | .zero => if c.isDigit then .refuse .invalidNumber else afterNumeral stack true c
  | .whole => if c.isDigit then .go .whole stack else afterNumeral stack true c
  | .point => requireDigit .fraction stack c
  | .fraction => if c.isDigit then .go .fraction stack else afterNumeral stack false c
  | .exponentLetter =>
    if c = '+' || c = '-' then .go .exponentSign stack else requireDigit .exponent stack c
  | .exponentSign => requireDigit .exponent stack c
  | .exponent => if c.isDigit then .go .exponent stack else afterValue stack c

/-- What is missing when the text ends in brackets. -/
def endInside : List Bracket → Except Fault Text
  | [] => .ok []
  | .list :: _ => .error (.atEnd .endOfList)
  | .object :: _ => .error (.atEnd .endOfObject)

/-- What is missing when the text ends; nothing if it may end there. -/
def atEnd (place : Place) (stack : List Bracket) : Except Fault Text :=
  match place with
  | .value => .error (.atEnd .endOfValue)
  | .word (_ :: _) => .error (.atEnd .endOfValue)
  | .key | .colon => .error (.atEnd .endOfObject)
  | .string _ | .escape _ | .hex _ _ => .error (.atEnd .endOfString)
  | .minus | .point | .exponentLetter | .exponentSign => .error (.atEnd .invalidNumber)
  | .opened | .closed | .word [] | .zero | .whole | .fraction | .exponent => endInside stack

/-- The fault of a character at which the machine refuses the text. The four
digits of an escape count as read together, so a fault in them lies behind the
last. -/
def refusal (place : Place) (cause : Cause) (rest : Text) : Fault :=
  match place with
  | .hex _ read =>
    if rest.byteSize + read < 4 then .atEnd .endOfString
    else ⟨cause, rest.byteSize + read - 4⟩
  | _ => .past cause rest

/-- Runs the machine, and answers with the text behind the value. -/
def run : Place → List Bracket → Text → Except Fault Text
  | place, stack, [] => atEnd place stack
  | place, stack, c :: rest =>
    match move place stack c with
    | .go place stack => run place stack rest
    | .finish => .ok rest
    | .stop => .ok (c :: rest)
    | .refuse cause => .error (refusal place cause (c :: rest))
    | .refuseBefore cause => .error (.before cause (c :: rest))

end LiteralAudit.Json.Skim

namespace LiteralAudit.Json

/-- Passes over a value at the front of a text. -/
def skim (text : Text) : Except Fault Text := Skim.run .value [] text

end LiteralAudit.Json
