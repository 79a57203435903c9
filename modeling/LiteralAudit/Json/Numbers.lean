import LiteralAudit.Json.Fault

/-!
JSON numerals. A numeral without a point and without an exponent is a whole
number if it fits into 64 bits, with its sign; every other numeral is a real
number. The digits of a real number are gathered into a significand of 64 bits
for as long as they fit; what is left of them only moves the point.
-/

namespace LiteralAudit.Json

/-- The value of a numeral. -/
inductive Number where
  | natural (n : Nat)
  /-- A negative whole number; zero with a sign is a real number. -/
  | negative (n : Nat)
  | real (minus : Bool) (magnitude : Binary64)
deriving DecidableEq, Repr

/-- What a numeral is in a message about it. -/
def Number.found : Number → Found
  | .natural n => .integer n
  | .negative n => .integer (-n)
  | .real minus magnitude => .real minus magnitude

/-- Whole numbers are below this bound. -/
def naturalBound : Nat := Nat.pow 2 64

/-- The greatest exponent that is told from an infinite one. -/
def exponentBound : Nat := Nat.pow 2 31

def digitValue (c : Char) : Nat := c.toNat - '0'.toNat

/-- The digits at the front of a text. -/
def leadingDigits (t : Text) : Text := t.takeWhile Char.isDigit

/-- The text behind the digits at its front. -/
def afterDigits (t : Text) : Text := t.dropWhile Char.isDigit

/-- Appends digits to a significand until one does not fit below the bound any
more. The second number counts the digits that were not appended. -/
def appendDigits (bound : Nat) (significand : Nat) : Text → Nat × Nat
  | [] => (significand, 0)
  | c :: digits =>
    let next := significand * 10 + digitValue c
    if next < bound then appendDigits bound next digits
    else (significand, digits.length + 1)

/-- The greatest power of ten in the table of powers; it is also the greatest
that does not overflow. -/
def greatestPower : Nat := 308

/-- The power of ten, rounded. -/
def powerOfTen? (n : Nat) : Option Binary64 := Binary64.ofNat? (Nat.pow 10 n)

/-- A number divided by ten as often as told. A divisor is a power of ten from the
table, so a long way down takes several steps; four are enough for a significand
of 64 bits, for the third leaves zero. -/
def divideByPower (x : Binary64) : Nat → Nat → Option Binary64
  | 0, _ => some x
  | steps + 1, power =>
    if power ≤ greatestPower then do x.div? (← powerOfTen? power)
    else if x.isZero then some x
    else do divideByPower (← x.div? (← powerOfTen? greatestPower)) steps (power - greatestPower)

/-- The real number `significand * 10 ^ power`; nothing if it is out of range. The
significand is rounded before it is multiplied or divided. -/
def scaleDecimal? (significand : Nat) (power : Int) : Option Binary64 := do
  let x ← Binary64.ofNat? significand
  if power < 0 then divideByPower x 4 power.natAbs
  else if power.natAbs ≤ greatestPower then x.mul? (← powerOfTen? power.natAbs)
  else if x.isZero then some x
  else none

/-- The real number with the given sign, behind which the text goes on. -/
def finishReal (minus : Bool) (significand : Nat) (power : Int) (rest : Text) :
    Reading Number :=
  match scaleDecimal? significand power with
  | some x => .ok (.real minus x, rest)
  | none => .error (.before .numberOutOfRange rest)

/-- Reads the exponent behind its letter. -/
def exponent (minus : Bool) (significand : Nat) (power : Int) (text : Text) :
    Reading Number :=
  let (down, text) := match text with
    | '+' :: rest => (false, rest)
    | '-' :: rest => (true, rest)
    | _ => (false, text)
  match leadingDigits text with
  | [] => .error (if text = [] then .atEnd .endOfValue else .past .invalidNumber text)
  | digits =>
    let (e, left) := appendDigits exponentBound 0 digits
    if 0 < left then
      if significand ≠ 0 ∧ down = false then
        -- found at the first digit that is too many
        .error (.before .numberOutOfRange (text.drop (digits.length - left + 1)))
      else .ok (.real minus .zero, afterDigits text)
    else finishReal minus significand (if down then power - e else power + e) (afterDigits text)

/-- Reads the digits behind the point, and the exponent if there is one. -/
def fraction (minus : Bool) (significand : Nat) (power : Int) (text : Text) :
    Reading Number :=
  match leadingDigits text with
  | [] => .error (if text = [] then .atEnd .endOfValue else .past .invalidNumber text)
  | digits =>
    let (significand, left) := appendDigits naturalBound significand digits
    let power := power - (digits.length - left : Nat)
    match afterDigits text with
    | c :: rest =>
      if c = 'e' ∨ c = 'E' then exponent minus significand power rest
      else finishReal minus significand power (c :: rest)
    | [] => finishReal minus significand power []

/-- Reads what may follow the whole part of a numeral. Of the whole part `left`
digits did not fit into the significand. -/
def afterWhole (minus : Bool) (significand left : Nat) (text : Text) : Reading Number :=
  let whole : Reading Number :=
    if 0 < left then finishReal minus significand left text
    else if minus = false then .ok (.natural significand, text)
    else if 0 < significand ∧ significand ≤ naturalBound / 2 then
      .ok (.negative significand, text)
    else finishReal true significand 0 text
  match text with
  | c :: rest =>
    if c = '.' then fraction minus significand left rest
    else if c = 'e' ∨ c = 'E' then exponent minus significand left rest
    else whole
  | [] => whole

/-- Reads a numeral; its sign has been read. A zero is not followed by further
digits of the whole part. -/
def number (minus : Bool) (text : Text) : Reading Number :=
  match text with
  | [] => .error (.atEnd .endOfValue)
  | '0' :: rest =>
    if (leadingDigits rest).isEmpty then afterWhole minus 0 0 rest
    else .error (.past .invalidNumber rest)
  | c :: _ =>
    if c.isDigit then
      let (significand, left) := appendDigits naturalBound 0 (leadingDigits text)
      afterWhole minus significand left (afterDigits text)
    else .error (.past .invalidNumber text)

end LiteralAudit.Json
