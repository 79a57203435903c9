import LiteralAudit.Json.Fault

/-!
The characters of a JSON string. Apart from quotes, backslashes and control
characters a character stands for itself; every character can be written as an
escape, those beyond U+FFFF as a pair of two.
-/

namespace LiteralAudit.Json

/-- The value of a hexadecimal digit of either case. -/
def hexDigit? (c : Char) : Option Nat :=
  if '0' ≤ c ∧ c ≤ '9' then some (c.toNat - '0'.toNat)
  else if 'a' ≤ c ∧ c ≤ 'f' then some (c.toNat - 'a'.toNat + 10)
  else if 'A' ≤ c ∧ c ≤ 'F' then some (c.toNat - 'A'.toNat + 10)
  else none

/-- The number that four hexadecimal digits name. -/
def hexUnit? (a b c d : Char) : Option Nat := do
  let a ← hexDigit? a
  let b ← hexDigit? b
  let c ← hexDigit? c
  let d ← hexDigit? d
  return ((a * 16 + b) * 16 + c) * 16 + d

def isHighSurrogate (n : Nat) : Bool := 0xd800 ≤ n && n ≤ 0xdbff

def isLowSurrogate (n : Nat) : Bool := 0xdc00 ≤ n && n ≤ 0xdfff

/-- The character that a pair of surrogates stands for. -/
def pairedChar (high low : Nat) : Char :=
  Char.ofNat (0x10000 + (high - 0xd800) * 0x400 + (low - 0xdc00))

/-- The characters that have an escape of one letter. -/
def shortEscape? (letter : Char) : Option Char :=
  match letter with
  | '"' => some '"'
  | '\\' => some '\\'
  | '/' => some '/'
  | 'b' => some '\x08'
  | 'f' => some '\x0c'
  | 'n' => some '\n'
  | 'r' => some '\r'
  | 't' => some '\t'
  | _ => none

/-- Control characters have to be escaped. -/
def isControl (c : Char) : Bool := c.toNat < 0x20

/-- The fault of an escape whose four digits do not stand at the front of the
text. Four bytes are read before they are looked at. -/
def hexFault (rest : Text) : Fault :=
  if rest.byteSize < 4 then .atEnd .endOfString else ⟨.invalidEscape, rest.byteSize - 4⟩

/-- The fault of a text behind a high surrogate that does not begin with a second
escape. -/
def pairFault : Text → Fault
  | [] => .atEnd .endOfString
  | '\\' :: 'u' :: rest => hexFault rest
  | '\\' :: rest => if rest = [] then .atEnd .endOfString else .past .unpairedSurrogate rest
  | rest => .past .unpairedSurrogate rest

/-- The reading with one more character at the front of its value. -/
def Reading.prepend (c : Char) (reading : Reading Text) : Reading Text :=
  reading.map fun (value, rest) => (c :: value, rest)

/-- Reads the characters of a string up to its closing quote; the opening quote
has been read. -/
def characters : Text → Reading Text
  | [] => .error (.atEnd .endOfString)
  | c :: rest =>
    if c = '"' then .ok ([], rest)
    else if c = '\\' then
      match rest with
      | [] => .error (.atEnd .endOfString)
      | letter :: rest =>
        match shortEscape? letter with
        | some c => (characters rest).prepend c
        | none =>
          if letter = 'u' then
            match rest with
            | a :: b :: c :: d :: rest' =>
              match hexUnit? a b c d with
              | none => .error (hexFault (a :: b :: c :: d :: rest'))
              | some n =>
                if isLowSurrogate n then .error (.before .loneSurrogate rest')
                else if isHighSurrogate n then
                  match rest' with
                  | '\\' :: 'u' :: a :: b :: c :: d :: behind =>
                    match hexUnit? a b c d with
                    | none => .error (hexFault (a :: b :: c :: d :: behind))
                    | some m =>
                      if isLowSurrogate m then (characters behind).prepend (pairedChar n m)
                      else .error (.before .loneSurrogate behind)
                  | _ => .error (pairFault rest')
                else (characters rest').prepend (Char.ofNat n)
            | _ => .error (hexFault rest)
          else .error (.past .invalidEscape (letter :: rest))
    else if isControl c then .error (.past .controlCharacter (c :: rest))
    else (characters rest).prepend c

end LiteralAudit.Json
