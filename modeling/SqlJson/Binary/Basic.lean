import SqlJson.Decimal.Basic

/-!
# Binary floating-point numbers

The finite numbers of one sign in a binary interchange format are numbered in increasing
order, from zero on (`Binary.finite`). The number of a value is its bit pattern without the
sign, and its parity is the parity of its significand.

* `Width.valueOf`: the value with a given number, in units of the least positive one.
* `Width.nearestIndex`: the number nearest to a fraction, ties going to the even one.
* `Binary.ofDecimal`: the floating-point number nearest to a decimal; may be infinite.
-/

namespace SqlJson

/-- The two interchange formats: single and double precision. -/
inductive Width where
  | single
  | double
deriving DecidableEq, Repr

namespace Width

/-- Bits of a significand, the hidden one included. -/
def significandBits : Width → Nat
  | .single => 24
  | .double => 53

/-- Bits of a biased exponent. -/
def exponentBits : Width → Nat
  | .single => 8
  | .double => 11

/-- The least positive value is `2 ^ -unitBits`. -/
def unitBits : Width → Nat
  | .single => 149
  | .double => 1074

/-- Enough significant decimal digits to tell all values apart. -/
def maxDigits : Width → Nat
  | .single => 9
  | .double => 17

/-- A decimal with more digits left of the point than this is beyond the format, and one with
more zeros than this right of the point is nearest to zero. -/
def digitBound : Width → Int
  | .single => 60
  | .double => 400

/-- How many values there are from one power of two up to the next. -/
def binade (w : Width) : Nat := Nat.pow 2 (w.significandBits - 1)

/-- How many finite values are not negative. -/
def indexCount (w : Width) : Nat := (Nat.pow 2 w.exponentBits - 1) * w.binade

/-- The power of two, in units of the least positive value, between neighbours from value
number `i` on. -/
def scaleOf (w : Width) (i : Nat) : Nat := i / w.binade - 1

/-- **The value with number `i`**, in units of the least positive value. -/
def valueOf (w : Width) (i : Nat) : Nat := (i - w.scaleOf i * w.binade) * Nat.pow 2 (w.scaleOf i)

/-- The quotient rounded to the nearest natural number, ties going to the even one. -/
def roundHalfEven (a b : Nat) : Nat :=
  if b < 2 * (a % b) ∨ (2 * (a % b) = b ∧ a / b % 2 = 1) then a / b + 1 else a / b

/-- **The number of the value nearest to `a / b`**, ties going to the even number; at least
`indexCount` when that value is infinite. -/
def nearestIndex (w : Width) (a b : Nat) : Nat :=
  let a := a * Nat.pow 2 w.unitBits
  let scale := (a / b).log2 + 1 - w.significandBits
  scale * w.binade + roundHalfEven a (b * Nat.pow 2 scale)

end Width

/-- **A floating-point number**: not a number, an infinity, or a finite value given by its sign
and its number in increasing order of absolute values. -/
inductive Binary (w : Width) where
  | nan
  | infinity (negative : Bool)
  | finite (negative : Bool) (index : Fin w.indexCount)
deriving DecidableEq, Repr

namespace Binary

variable {w : Width}

/-- The value of a sign and a number, an infinity if the number is out of range. -/
def ofIndex (negative : Bool) (index : Nat) : Binary w :=
  if h : index < w.indexCount then .finite negative ⟨index, h⟩ else .infinity negative

/-- Positive zero. -/
def zero : Binary w := ofIndex false 0

/-- The number with a given bit pattern. -/
def ofBits (w : Width) (bits : Nat) : Binary w :=
  let signBit := Nat.pow 2 (w.significandBits + w.exponentBits - 1)
  if bits % signBit ≤ w.indexCount then ofIndex (signBit ≤ bits) (bits % signBit) else .nan

/-- The bit pattern of a number; many stand for NaN, so that has none here. -/
def bits? : Binary w → Option Nat
  | .nan => none
  | .infinity negative => some (signed negative w.indexCount)
  | .finite negative index => some (signed negative index)
where
  signed (negative : Bool) (index : Nat) : Nat :=
    if negative then Nat.pow 2 (w.significandBits + w.exponentBits - 1) + index else index

def isFinite : Binary w → Bool
  | .finite .. => true
  | _ => false

/-- Zero of either sign. -/
def isZero : Binary w → Bool
  | .finite _ index => index.val = 0
  | _ => false

/-- **Numeric equality**: the two zeros are equal, and NaN equals nothing. -/
def numericEq : Binary w → Binary w → Bool
  | .finite n i, .finite m j => i = j && (n = m || i.val = 0)
  | .infinity n, .infinity m => n = m
  | _, _ => false

/-- Where a number stands among the absolute values; NaN stands last. -/
def magnitude : Binary w → Nat
  | .finite _ index => index
  | .infinity _ => w.indexCount
  | .nan => w.indexCount + 1

/-- The exact value of an integral number. -/
def toInt? : Binary w → Option Int
  | .finite negative index =>
    let value := w.valueOf index
    let unit := Nat.pow 2 w.unitBits
    if value % unit = 0 then
      some (if negative then -(value / unit : Nat) else (value / unit : Nat))
    else none
  | _ => none

/-- **The number nearest to a decimal**, ties going to the even significand. It is infinite
for a value too large, and a zero of the same sign for one too small. -/
def ofDecimal (w : Width) (d : Decimal) : Binary w :=
  if d.isZero then zero
  else if w.digitBound < d.integerDigits then .infinity d.negative
  else if d.integerDigits < -w.digitBound then ofIndex d.negative 0
  else ofIndex d.negative (w.nearestIndex (d.coefficient * Nat.pow 10 d.exponent.toNat)
    (Nat.pow 10 (-d.exponent).toNat))

end Binary

end SqlJson
