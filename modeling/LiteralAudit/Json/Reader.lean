import LiteralAudit.Json.Numbers
import LiteralAudit.Json.Skim
import LiteralAudit.Replacements

/-!
Reading values of a known type from the front of a JSON text. A value of
another type is read far enough to name it, so that faults in its own form are
reported before its type is. A list or an object is not read at all: the fault
lies before its bracket.

Lists and objects of any length are read with a clock, a number that is at
least the count of characters left; each element takes at least one of them, so
the clock never runs out first.
-/

namespace LiteralAudit.Json

/-- The text without the white space at its front. -/
def skipSpace (text : Text) : Text := text.dropWhile Skim.isSpace

/-- Reads the letters of a word, and answers with the text behind it. -/
def word : List Char → Text → Except Fault Text
  | [], rest => .ok rest
  | _ :: _, [] => .error (.atEnd .endOfValue)
  | letter :: left, c :: rest =>
    if c = letter then word left rest else .error (.past .wordExpected (c :: rest))

/-- The fault of a value whose type is not the expected one. The text begins with
the value. -/
def refuse (expected : Expected) (text : Text) : Fault :=
  let named : Reading Found → Fault
    | .ok (found, rest) => .before (.wrongType found expected) rest
    | .error fault => fault
  let after (letters : String) (found : Found) (rest : Text) : Fault :=
    named ((word letters.toList rest).map fun rest => (found, rest))
  match text with
  | [] => .atEnd .endOfValue
  | 'n' :: rest => after "ull" .null rest
  | 't' :: rest => after "rue" (.boolean true) rest
  | 'f' :: rest => after "alse" (.boolean false) rest
  | '-' :: rest => named ((number true rest).map fun (n, rest) => (n.found, rest))
  | '"' :: rest => named ((characters rest).map fun (s, rest) => (.string s, rest))
  | '[' :: _ => .before (.wrongType .sequence expected) text
  | '\x7b' :: _ => .before (.wrongType .map expected) text
  | c :: _ =>
    if c.isDigit then named ((number false text).map fun (n, rest) => (n.found, rest))
    else .past .valueExpected text

/-- Reads a string. -/
def string (text : Text) : Reading Text :=
  match skipSpace text with
  | '"' :: rest => characters rest
  | text => .error (refuse .string text)

/-- Reads a string of one character. -/
def character (text : Text) : Except Fault (Char × Text) :=
  match skipSpace text with
  | '"' :: rest => do
    match ← characters rest with
    | ([c], rest) => .ok (c, rest)
    | (s, rest) => .error (.before (.wrongValue (.string s) .character) rest)
  | text => .error (refuse .character text)

/-- Reads a whole number that is not negative. -/
def natural (text : Text) : Reading Nat :=
  let take : Reading Number → Reading Nat
    | .ok (.natural n, rest) => .ok (n, rest)
    | .ok (.negative n, rest) =>
      .error (.before (.wrongValue (Number.negative n).found .natural) rest)
    | .ok (.real minus x, rest) => .error (.before (.wrongType (.real minus x) .natural) rest)
    | .error fault => .error fault
  match skipSpace text with
  | '-' :: rest => take (number true rest)
  | c :: rest =>
    if c.isDigit then take (number false (c :: rest)) else .error (refuse .natural (c :: rest))
  | [] => .error (refuse .natural [])

/-- Looks for the next element of a list: the text at which it begins, or nothing
if the closing bracket comes next. -/
def nextElement (first : Bool) (text : Text) : Except Fault (Option Text) :=
  match skipSpace text with
  | [] => .error (.atEnd .endOfList)
  | c :: rest =>
    if c = ']' then .ok none
    else if first then .ok (some (c :: rest))
    else if c = ',' then
      match skipSpace rest with
      | [] => .error (.atEnd .endOfValue)
      | d :: rest =>
        if d = ']' then .error (.past .trailingComma (d :: rest)) else .ok (some (d :: rest))
    else .error (.past .listCommaOrEnd (c :: rest))

/-- Reads the closing bracket of a list that takes no further elements. -/
def endList (text : Text) : Except Fault Text :=
  match skipSpace text with
  | [] => .error (.atEnd .endOfList)
  | c :: rest =>
    if c = ']' then .ok rest
    else if c = ',' then
      match skipSpace rest with
      | ']' :: behind => .error (.past .trailingComma (']' :: behind))
      | behind => .error (.past .trailingCharacters behind)
    else .error (.past .trailingCharacters (c :: rest))

/-- Reads the elements of a list up to its closing bracket. -/
def elements {α : Type} (item : Text → Reading α) : Nat → Bool → Text →
    Except Fault (List α × Text)
  | 0, _, text => .error (.before .endOfList text)
  | clock + 1, first, text => do
    match ← nextElement first text with
    | none => return ([], ← endList text)
    | some text =>
      let (a, text) ← item text
      let (rest, text) ← elements item clock false text
      return (a :: rest, text)

/-- Reads a list of such items. -/
def list {α : Type} (item : Text → Reading α) (text : Text) : Reading (List α) :=
  match skipSpace text with
  | '[' :: rest => elements item (rest.length + 1) true rest
  | text => .error (refuse .sequence text)

/-- Looks for the next member of an object: the text behind the opening quote of
its key, or nothing if the closing bracket comes next. -/
def nextKey (first : Bool) (text : Text) : Except Fault (Option Text) :=
  match skipSpace text with
  | [] => .error (.atEnd .endOfObject)
  | c :: rest =>
    if c = '\x7d' then .ok none
    else if first then
      if c = '"' then .ok (some rest) else .error (.past .keyMustBeString (c :: rest))
    else if c = ',' then
      match skipSpace rest with
      | [] => .error (.atEnd .endOfValue)
      | d :: rest =>
        if d = '"' then .ok (some rest)
        else if d = '\x7d' then .error (.past .trailingComma (d :: rest))
        else .error (.past .keyMustBeString (d :: rest))
    else .error (.past .objectCommaOrEnd (c :: rest))

/-- Reads the closing bracket of an object. -/
def endObject (text : Text) : Except Fault Text :=
  match skipSpace text with
  | [] => .error (.atEnd .endOfObject)
  | c :: rest =>
    if c = '\x7d' then .ok rest
    else if c = ',' then .error (.past .trailingComma (c :: rest))
    else .error (.past .trailingCharacters (c :: rest))

/-- Reads the colon between a key and its value. -/
def colon (text : Text) : Except Fault Text :=
  match skipSpace text with
  | [] => .error (.atEnd .endOfObject)
  | c :: rest => if c = ':' then .ok rest else .error (.past .colonExpected (c :: rest))

/-- Reads the members of an object whose values are strings, up to its closing
bracket. -/
def members : Nat → Bool → Text → Except Fault (List (Text × Text) × Text)
  | 0, _, text => .error (.before .endOfObject text)
  | clock + 1, first, text => do
    match ← nextKey first text with
    | none => return ([], ← endObject text)
    | some text =>
      let (key, text) ← characters text
      let (value, text) ← string (← colon text)
      let (rest, text) ← members clock false text
      return ((key, value) :: rest, text)

/-- Reads an object whose values are strings. Of the members with one key the last
counts. -/
def table (text : Text) : Reading Replacements :=
  match skipSpace text with
  | '\x7b' :: rest =>
    (members (rest.length + 1) true rest).map fun (entries, rest) => (.ofList entries, rest)
  | text => .error (refuse .map text)

/-- Reads a text that holds one value and nothing else but white space. -/
def document {α : Type} (value : Text → Reading α) (text : Text) : Except Fault α := do
  let (a, rest) ← value text
  match skipSpace rest with
  | [] => return a
  | rest => .error (.past .trailingCharacters rest)

end LiteralAudit.Json
