import LiteralAudit.Binary64.Shortest
import LiteralAudit.Text.Position
import LiteralAudit.Text.Quoted

/-!
What can be wrong with a JSON text, and where. A fault says how many bytes of
the text were still unread when it was found, which is all that a reader knows
that sees only the rest of the text. The place in the whole text is worked out
when the fault is described.
-/

namespace LiteralAudit.Json

/-- What a reader was ready to take. -/
inductive Expected where
  | settings
  | string
  | sequence
  | map
  | character
  | natural
deriving DecidableEq, Repr

/-- What stood in the text instead. -/
inductive Found where
  | null
  | boolean (value : Bool)
  | integer (value : Int)
  | real (minus : Bool) (magnitude : Binary64)
  | string (value : Text)
  | sequence
  | map
deriving DecidableEq, Repr

/-- The ways in which a JSON text can be refused. -/
inductive Cause where
  | endOfValue
  | endOfString
  | endOfList
  | endOfObject
  | valueExpected
  | wordExpected
  | colonExpected
  | listCommaOrEnd
  | objectCommaOrEnd
  | keyMustBeString
  | trailingComma
  | trailingCharacters
  | invalidNumber
  | numberOutOfRange
  | invalidEscape
  /-- A low surrogate without a high one before it, or a high one that another
  escape follows that is not a low one. -/
  | loneSurrogate
  /-- A high surrogate that no escape follows. -/
  | unpairedSurrogate
  | controlCharacter
  | wrongType (found : Found) (expected : Expected)
  | wrongValue (found : Found) (expected : Expected)
  | duplicateField (name : Text)
deriving DecidableEq, Repr

/-- A fault at the place before the last `unread` bytes of a text. -/
structure Fault where
  cause : Cause
  unread : Nat
deriving DecidableEq, Repr

/-- The result of reading a value from the front of a text: the value and the
text behind it. -/
abbrev Reading (α : Type) := Except Fault (α × Text)

def Expected.describe : Expected → Text
  | .settings => "struct Config".toList
  | .string => "a string".toList
  | .sequence => "a sequence".toList
  | .map => "a map".toList
  | .character => "a character".toList
  | .natural => "usize".toList

/-- The decimal numeral of a whole number, with a minus sign if it is negative. -/
def integerText (n : Int) : Text :=
  if n < 0 then '-' :: Text.ofNat n.natAbs else Text.ofNat n.natAbs

/-- Values of the program's own words stand between grave accents. -/
def marked (t : Text) : Text := ['\x60'] ++ t ++ ['\x60']

def Found.describe : Found → Text
  | .null => "null".toList
  | .boolean value => "boolean ".toList ++ marked (if value then "true" else "false").toList
  | .integer value => "integer ".toList ++ marked (integerText value)
  | .real minus magnitude =>
    "floating point ".toList ++
      marked ((if minus then ['-'] else []) ++ magnitude.toText)
  | .string value => "string ".toList ++ value.quoted
  | .sequence => "sequence".toList
  | .map => "map".toList

def Cause.describe : Cause → Text
  | .endOfValue => "EOF while parsing a value".toList
  | .endOfString => "EOF while parsing a string".toList
  | .endOfList => "EOF while parsing a list".toList
  | .endOfObject => "EOF while parsing an object".toList
  | .valueExpected => "expected value".toList
  | .wordExpected => "expected ident".toList
  | .colonExpected => "expected ".toList ++ marked [':']
  | .listCommaOrEnd => "expected ".toList ++ marked [','] ++ " or ".toList ++ marked [']']
  | .objectCommaOrEnd =>
    "expected ".toList ++ marked [','] ++ " or ".toList ++ marked ['\x7d']
  | .keyMustBeString => "key must be a string".toList
  | .trailingComma => "trailing comma".toList
  | .trailingCharacters => "trailing characters".toList
  | .invalidNumber => "invalid number".toList
  | .numberOutOfRange => "number out of range".toList
  | .invalidEscape => "invalid escape".toList
  | .loneSurrogate => "lone leading surrogate in hex escape".toList
  | .unpairedSurrogate => "unexpected end of hex escape".toList
  | .controlCharacter =>
    "control character (\\u0000-\\u001F) found while parsing a string".toList
  | .wrongType found expected =>
    "invalid type: ".toList ++ found.describe ++ ", expected ".toList ++ expected.describe
  | .wrongValue found expected =>
    "invalid value: ".toList ++ found.describe ++ ", expected ".toList ++ expected.describe
  | .duplicateField name => "duplicate field ".toList ++ marked name

namespace Fault

/-- The fault at the front of the given rest of a text. -/
def before (cause : Cause) (rest : Text) : Fault := ⟨cause, rest.byteSize⟩

/-- The fault behind the next byte of the given rest of a text, or at its end if
nothing is left: the offending byte counts as read. -/
def past (cause : Cause) (rest : Text) : Fault := ⟨cause, rest.byteSize - 1⟩

/-- The fault at the end of a text. -/
def atEnd (cause : Cause) : Fault := ⟨cause, 0⟩

/-- The message about a fault in the given text. -/
def describe (f : Fault) (text : Text) : Text :=
  f.cause.describe ++ " at ".toList ++
    (Text.Position.after text (text.byteSize - f.unread)).describe

end Fault

end LiteralAudit.Json
