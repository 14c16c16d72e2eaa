/-!
# Decimal numbers

A finite base-ten number `± coefficient · 10 ^ exponent`, kept in a normal form in
which equal values are equal as data.

* `Decimal.ofParts`: the normal form of any sign, coefficient and exponent.
* `Decimal.toInt?`: the exact integer, when there is one of at most 38 digits.
* `Decimal.roundHalfAway?`: the nearest integer, halves going away from zero.

Exponents live in the 64-bit range and stick to its ends (`clampExponent`).
-/

namespace SqlJson

/-- The least exponent a decimal can have. -/
def minExponent : Int := -9223372036854775808

/-- The greatest exponent a decimal can have. -/
def maxExponent : Int := 9223372036854775807

/-- An exponent outside the 64-bit range becomes the nearer end of it. -/
def clampExponent (e : Int) : Int := max minExponent (min maxExponent e)

/-- A finite base-ten number `± coefficient · 10 ^ exponent`. -/
structure Decimal where
  negative : Bool
  coefficient : Nat
  exponent : Int
deriving DecidableEq, Repr, Inhabited

namespace Decimal

/-- Zero is never negative and has exponent zero. -/
def zero : Decimal := ⟨false, 0, 0⟩

/-- The factors of ten of a natural number: what is left without them, and their number. -/
def stripZeros (n : Nat) : Nat × Nat :=
  if n ≠ 0 ∧ n % 10 = 0 then
    let (m, k) := stripZeros (n / 10)
    (m, k + 1)
  else (n, 0)
termination_by n
decreasing_by omega

/-- **The normal form.** Zero loses its sign and exponent; any other coefficient moves its
factors of ten into the exponent. -/
def ofParts (negative : Bool) (coefficient : Nat) (exponent : Int) : Decimal :=
  if coefficient = 0 then zero
  else
    let (significant, dropped) := stripZeros coefficient
    ⟨negative, significant, clampExponent (exponent + dropped)⟩

/-- An integer as a decimal. -/
def ofInt (n : Int) : Decimal := ofParts (n < 0) n.natAbs 0

/-- **Normal decimals**: zero itself, or a coefficient that does not end in the digit zero. -/
def IsNormal (d : Decimal) : Prop :=
  d = zero ∨ (d.coefficient % 10 ≠ 0 ∧ minExponent ≤ d.exponent ∧ d.exponent ≤ maxExponent)

instance (d : Decimal) : Decidable d.IsNormal := inferInstanceAs (Decidable (_ ∨ _))

def isZero (d : Decimal) : Bool := d.coefficient = 0

/-- A normal decimal is an integer when its exponent is not negative. -/
def isInteger (d : Decimal) : Bool := d.isZero || 0 ≤ d.exponent

/-- The significant digits; zero has none. -/
def digits (d : Decimal) : List Char :=
  if d.coefficient = 0 then [] else Nat.toDigits 10 d.coefficient

/-- How many digits stand left of the decimal point; zero or negative for small values. -/
def integerDigits (d : Decimal) : Int := clampExponent (d.digits.length + d.exponent)

/-- Gives an absolute value the sign of `d`. -/
def signed (d : Decimal) (magnitude : Nat) : Int :=
  if d.negative then -magnitude else magnitude

/-! ## Integers -/

/-- The most digits an integer result may have. -/
def maxIntegerDigits : Nat := 38

/-- The greatest integer of 128 bits. -/
def maxInt128 : Nat := 170141183460469231731687303715884105727

/-- A result of 128-bit arithmetic, `none` where it overflows. -/
def checked? (n : Nat) : Option Nat := if n ≤ maxInt128 then some n else none

/-- Puts digits behind an absolute value, one after another. -/
def accumulate? : List Char → Nat → Option Nat
  | [], value => some value
  | c :: rest, value => do
    let tenfold ← checked? (10 * value)
    let value ← checked? (tenfold + (c.toNat - '0'.toNat))
    accumulate? rest value

/-- Puts zeros behind an absolute value, one after another. -/
def scale? : Nat → Nat → Option Nat
  | 0, value => some value
  | zeros + 1, value => do
    let value ← checked? (10 * value)
    scale? zeros value

/-- **The exact integer**, if `d` is one of at most `maxIntegerDigits` digits. -/
def toInt? (d : Decimal) : Option Int :=
  if !d.isInteger then none
  else if d.isZero then some 0
  else if maxIntegerDigits < d.integerDigits then none
  else do
    let value ← accumulate? d.digits 0
    let value ← scale? d.exponent.toNat value
    return d.signed value

/-- The digits before the point, and the digit behind it. -/
def splitAtPoint (d : Decimal) : List Char × Char :=
  if d.integerDigits ≤ 0 then
    ([], if d.integerDigits = 0 then d.digits.head?.getD '0' else '0')
  else
    let split := d.integerDigits.toNat
    (d.digits.take split, d.digits[split]?.getD '0')

/-- **Rounding half away from zero** to an integer of at most 38 digits before rounding:
`2.5` gives `3` and `-2.5` gives `-3`. One digit decides. -/
def roundHalfAway? (d : Decimal) : Option Int :=
  if d.isInteger then d.toInt?
  else
    let (whole, next) := d.splitAtPoint
    if maxIntegerDigits < whole.length then none
    else do
      let value ← accumulate? whole 0
      let value ← if '5' ≤ next then checked? (value + 1) else some value
      return d.signed value

end Decimal

end SqlJson
