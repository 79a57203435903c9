import LiteralAudit.Text
import LiteralAudit.Binary64

/-!
The shortest decimal text of a number: the fewest digits from which the number
is read back. A decimal is read back as the number `x` if it lies in the
interval of the reals that round to `x`, whose ends belong to it when the
mantissa of `x` is even. For each count of digits only the two decimals next
to `x` have to be looked at, for if any decimal with so many digits lies in
the interval, one of these two does.
-/

namespace LiteralAudit.Binary64

/-- A positive decimal: the number `digits * 10 ^ power`. -/
structure Decimal where
  digits : Nat
  power : Int
deriving DecidableEq, Repr

/-- Twice the distance from `x` to the next smaller number, in units of
`2 ^ (x.exponent - 1)`. Numbers below a power of two lie twice as close. -/
def gapBelow (x : Binary64) : Nat :=
  if x.mantissa = Nat.pow 2 52 ∧ leastExponent < x.exponent then 1 else 2

/-- Whether the decimal rounds to `x`. -/
def Decimal.roundsTo (d : Decimal) (x : Binary64) : Bool :=
  -- both sides of each comparison are multiplied by the same positive number
  let (n, q) := if 0 ≤ d.power then (d.digits * Nat.pow 10 d.power.toNat, 1)
    else (d.digits, Nat.pow 10 (-d.power).toNat)
  let (n, q) := scale n q (2 - x.exponent)
  let low := 4 * x.mantissa - x.gapBelow
  let high := 4 * x.mantissa + 2
  if x.mantissa % 2 = 0 then low * q ≤ n && n ≤ high * q else low * q < n && n < high * q

/-- The distance between the decimal and `x`, as a numerator over a denominator
that is the same for all decimals with one power. -/
def Decimal.distance (d : Decimal) (x : Binary64) : Nat :=
  let (xn, xd) := x.fraction
  if 0 ≤ d.power then
    let n := d.digits * Nat.pow 10 d.power.toNat * xd
    max n xn - min n xn
  else
    let n := d.digits * xd
    let m := xn * Nat.pow 10 (-d.power).toNat
    max n m - min n m

/-- The power of ten of the leading digit of a positive fraction. -/
def leadingPower (num den : Nat) : Int :=
  if den ≤ num then ((Nat.toDigits 10 (num / den)).length : Int) - 1
  else
    -- the first digit of the quotient is the first of a numeral or the one before it
    let k := (Nat.toDigits 10 (den / num)).length
    if den ≤ num * Nat.pow 10 (k - 1) then -((k : Int) - 1) else -(k : Int)

/-- Of two decimals with neighbouring digits the one that is nearer to `x`; of two
that are equally near, the one with even digits. -/
def nearerDecimal (x : Binary64) (lower upper : Decimal) : Decimal :=
  if lower.distance x < upper.distance x then lower
  else if upper.distance x < lower.distance x then upper
  else if lower.digits % 2 = 0 then lower else upper

/-- The decimal with the given count of digits that rounds to `x` and is nearest
to it, if there is one. -/
def decimalOfLength? (x : Binary64) (count : Nat) : Option Decimal :=
  let (xn, xd) := x.fraction
  let power := leadingPower xn xd - (count : Int) + 1
  let below := if 0 ≤ power then xn / (xd * Nat.pow 10 power.toNat)
    else xn * Nat.pow 10 (-power).toNat / xd
  let lower : Decimal := ⟨below, power⟩
  let upper : Decimal := ⟨below + 1, power⟩
  match lower.roundsTo x, upper.roundsTo x with
  | true, true => some (nearerDecimal x lower upper)
  | true, false => some lower
  | false, true => some upper
  | false, false => none

/-- The shortest decimal that rounds to a positive number, and of these the
nearest. Seventeen digits are always enough. -/
def shortest (x : Binary64) : Decimal :=
  ((List.range 17).findSome? fun n => x.decimalOfLength? (n + 1)).getD ⟨0, 0⟩

/-- The digits of a decimal without trailing zeros, and the power of ten of the
first of them. -/
def Decimal.scientific (d : Decimal) : Text × Int :=
  let digits := Text.ofNat d.digits
  ((digits.reverse.dropWhile (· = '0')).reverse, d.power + (digits.length : Int) - 1)

/-- The least and the greatest power of ten of the first digit with which a
number is written without an exponent. -/
def plainPowers : Int × Int := (-5, 15)

/-- A number in decimal notation. Numbers from `0.00001` up to below `10 ^ 16` are
written plainly, with at least one digit after the point; all others with an
exponent that has a sign. -/
def toText (x : Binary64) : Text :=
  if x.isZero then "0.0".toList
  else
    let (digits, power) := x.shortest.scientific
    if plainPowers.1 ≤ power ∧ power ≤ plainPowers.2 then
      if power < 0 then
        "0.".toList ++ List.replicate (-power - 1).toNat '0' ++ digits
      else
        let whole := power.toNat + 1
        let fractional := digits.drop whole
        digits.take whole ++ List.replicate (whole - digits.length) '0' ++ ['.'] ++
          (if fractional = [] then ['0'] else fractional)
    else
      let (first, others) := digits.splitAt 1
      first ++ (if others = [] then [] else '.' :: others) ++ ['e'] ++
        (if power < 0 then ['-'] else ['+']) ++ Text.ofNat power.natAbs

end LiteralAudit.Binary64
