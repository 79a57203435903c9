/-!
Binary floating-point numbers with 53 significant bits, as exact values: the
number nearest to a fraction, sums, products, quotients and their order. Each
operation rounds once, to the nearest number, and a tie goes to the even
neighbour. The sign of a number is kept by its user.
-/

namespace LiteralAudit

/-- The non-negative number `mantissa * 2 ^ exponent`. -/
structure Binary64 where
  mantissa : Nat
  exponent : Int
deriving DecidableEq, Repr

namespace Binary64

/-- The exponent of the smallest positive number. -/
def leastExponent : Int := -1074

/-- The exponent of the largest number. -/
def greatestExponent : Int := 971

def zero : Binary64 := ⟨0, leastExponent⟩

def isZero (x : Binary64) : Bool := x.mantissa == 0

/-- The fraction `num / den` times a power of two, again as a fraction. -/
def scale (num den : Nat) (power : Int) : Nat × Nat :=
  if 0 ≤ power then (num * Nat.pow 2 power.toNat, den) else (num, den * Nat.pow 2 (-power).toNat)

/-- The whole number nearest to a fraction; of two, the even one. -/
def roundEven (num den : Nat) : Nat :=
  let q := num / den
  let r := num % den
  if 2 * r < den then q
  else if den < 2 * r then q + 1
  else if q % 2 = 0 then q else q + 1

/-- The exponent at which a fraction has 53 significant bits, or the least one
if it is too small for that. -/
def exponentOf (num den : Nat) : Int :=
  let guess : Int := (num.log2 : Int) - (den.log2 : Int) - 53
  let (n, d) := scale num den (-guess)
  max leastExponent (if n / d < Nat.pow 2 53 then guess else guess + 1)

/-- The number nearest to the fraction `num / den`; nothing if it is out of
range. -/
def nearest? (num den : Nat) : Option Binary64 :=
  if num = 0 then some zero
  else
    let e := exponentOf num den
    let (n, d) := scale num den (-e)
    let m := roundEven n d
    let (m, e) := if m = Nat.pow 2 53 then (Nat.pow 2 52, e + 1) else (m, e)
    if greatestExponent < e then none else some ⟨m, e⟩

/-- The number as a fraction. -/
def fraction (x : Binary64) : Nat × Nat := scale x.mantissa 1 x.exponent

/-- The sum; nothing if it is out of range. -/
def add? (x y : Binary64) : Option Binary64 :=
  nearest? (x.fraction.1 * y.fraction.2 + y.fraction.1 * x.fraction.2)
    (x.fraction.2 * y.fraction.2)

/-- The product; nothing if it is out of range. -/
def mul? (x y : Binary64) : Option Binary64 :=
  nearest? (x.fraction.1 * y.fraction.1) (x.fraction.2 * y.fraction.2)

/-- The quotient; nothing if it is out of range. -/
def div? (x y : Binary64) : Option Binary64 :=
  nearest? (x.fraction.1 * y.fraction.2) (x.fraction.2 * y.fraction.1)

/-- Whether one number is less than another. -/
def lt (x y : Binary64) : Bool :=
  x.fraction.1 * y.fraction.2 < y.fraction.1 * x.fraction.2

/-- The number nearest to a whole number. -/
def ofNat? (n : Nat) : Option Binary64 := nearest? n 1

end Binary64

end LiteralAudit
