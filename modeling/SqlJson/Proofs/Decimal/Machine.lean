import SqlJson.Binary.Shortest
import SqlJson.Proofs.Checked
import SqlJson.Proofs.Decimal.Grammar

/-!
# Decimals on a machine

The functions on decimals as a machine runs them. A decimal is stored as a text of digits and an exponent of 64 bits.
Integers are put together in 128 bits. Where the arithmetic is said to saturate, it does; everywhere else a result that
does not fit is a fault, and so is a negative place, a cut behind the last digit, or a loop that runs too often.

* `Stored`: the stored form of a decimal.
* `Stored.parse?`: reading one.
* `Stored.toInt?`, `Stored.roundHalfAway?`: its integers.
* `Stored.toBinary`, `Stored.lossless?`: its floating-point numbers. The printer of shortest texts is a parameter.
* `Stored.canonicalChars`, `Stored.plainChars`: its texts.
-/

namespace SqlJson.Decimal

/-- **A decimal as it is stored**: its significant digits are a text. -/
structure Stored where
  negative : Bool
  digits : List Char
  exponent : Int
deriving DecidableEq, Repr

namespace Stored

/-- The stored form of a decimal. -/
def of (d : Decimal) : Stored := ⟨d.negative, d.digits, d.exponent⟩

/-! ## Reading -/

/-- Takes digits off the front and counts them: the digits, their count, and the rest. -/
def takeDigits : List Char → Int → Checked (List Char × Int × List Char)
  | [], count => return ([], count, [])
  | c :: cs, count =>
    if c.isDigit then do
      let count ← int64 (count + 1)
      let (digits, count, rest) ← takeDigits cs count
      return (c :: digits, count, rest)
    else return ([], count, c :: cs)

/-- Takes a point and the digits after it off the front, if there is a point. -/
def takeFraction : List Char → Checked (List Char × Int × List Char)
  | '.' :: rest => takeDigits rest 0
  | rest => return ([], 0, rest)

/-- Takes the digits of an exponent off the front. Its absolute value saturates. -/
def takeExponent : List Char → Int → Checked (Int × List Char)
  | [], exponent => return (exponent, [])
  | c :: cs, exponent =>
    if c.isDigit then do
      let digit ← digitValue c
      takeExponent cs (clampExponent (clampExponent (10 * exponent) + digit))
    else return (exponent, c :: cs)

/-- Reads what may follow the digits: nothing, or an exponent up to the end of the text. -/
def readExponent? : List Char → Checked (Option Int)
  | [] => return some 0
  | c :: cs =>
    if c = 'e' ∨ c = 'E' then do
      let (negative, digits) := splitSign cs
      let (magnitude, rest) ← takeExponent digits 0
      if rest.length = digits.length then return none
      let exponent ← withSign int64 negative magnitude
      return if rest = [] then some exponent else none
    else return none

/-- The digits without zeros at their ends; those dropped from the end count in the exponent, which saturates. -/
def ofParts (negative : Bool) (mantissa : List Char) (exponent : Int) : Checked Stored := do
  let digits := significant mantissa
  if digits = [] then return ⟨false, [], 0⟩
  let dropped ← toIndex ((mantissa.dropWhile (· = '0')).length - digits.length)
  let dropped ← int64 dropped
  return ⟨negative, digits, clampExponent (exponent + dropped)⟩

/-- **Reads a decimal.** The digits behind the point are taken from the exponent, which saturates. -/
def parse? (text : List Char) : Checked (Option Stored) := do
  let (negative, rest) := splitSign text
  let (whole, wholeDigits, rest) ← takeDigits rest 0
  let (fraction, fractionDigits, rest) ← takeFraction rest
  if wholeDigits = 0 ∧ fractionDigits = 0 then return none
  match ← readExponent? rest with
  | none => return none
  | some exponent =>
    let decimal ← ofParts negative (whole ++ fraction) (clampExponent (exponent - fractionDigits))
    return some decimal

/-! ## Integers -/

variable (s : Stored)

def isZero : Bool := s.digits = []

def isInteger : Bool := s.isZero || 0 ≤ s.exponent

/-- How many digits stand left of the decimal point. -/
def integerDigits : Checked Int := do
  let length ← int64 s.digits.length
  return clampExponent (length + s.exponent)

/-- Puts digits behind an absolute value, one after another. -/
def accumulate : List Char → Int → Checked Int
  | [], value => return value
  | c :: cs, value => do
    let tenfold ← int128 (10 * value)
    let digit ← digitValue c
    let value ← int128 (tenfold + digit)
    accumulate cs value

/-- How often an absolute value is multiplied by ten at most. -/
def maxRounds : Nat := 37

/-- Multiplies an absolute value by ten for each of some zeros, of which there must not be more than `rounds`. -/
def scale : (rounds zeros : Nat) → Int → Checked Int
  | _, 0, value => return value
  | 0, _ + 1, _ => throw .endless
  | rounds + 1, zeros + 1, value => do
    let value ← int128 (10 * value)
    scale rounds zeros value

/-- **The exact integer**, of at most `maxIntegerDigits` digits. -/
def toInt? : Checked (Option Int) := do
  if !s.isInteger then return none
  if s.isZero then return some 0
  let integerDigits ← s.integerDigits
  if maxIntegerDigits < integerDigits then return none
  let value ← accumulate s.digits 0
  let value ← scale maxRounds s.exponent.toNat value
  let value ← withSign int128 s.negative value
  return some value

/-- The digits before the point, and the digit behind it. -/
def splitAtPoint : Checked (List Char × Char) := do
  let integerDigits ← s.integerDigits
  if integerDigits ≤ 0 then
    return ([], if integerDigits = 0 then s.digits.head?.getD '0' else '0')
  else
    let split ← toIndex integerDigits
    let (head, _) ← cut s.digits split
    return (head, s.digits[split]?.getD '0')

/-- An absolute value goes up by one if the digit behind the point says so. -/
def roundBy (next : Char) (value : Int) : Checked Int := if '5' ≤ next then int128 (value + 1) else return value

/-- **Rounding half away from zero**, of at most `maxIntegerDigits` digits before the point. -/
def roundHalfAway? : Checked (Option Int) := do
  if s.isInteger then s.toInt?
  else
    let (head, next) ← s.splitAtPoint
    if maxIntegerDigits < head.length then return none
    let value ← accumulate head 0
    let value ← roundBy next value
    let value ← withSign int128 s.negative value
    return some value

/-! ## Floating-point numbers -/

/-- **The nearest floating-point number.** -/
def toBinary (w : Width) : Checked (Binary w) := do
  if s.isZero then return Binary.zero
  let magnitude ← s.integerDigits
  if w.digitBound < magnitude then return .infinity s.negative
  if magnitude < -w.digitBound then return Binary.ofIndex s.negative 0
  return Binary.ofIndex s.negative (w.nearestIndex (Nat.ofDigitChars 10 s.digits 0 * Nat.pow 10 s.exponent.toNat)
    (Nat.pow 10 (-s.exponent).toNat))

/-- **The floating-point number without loss.** Its shortest text is read to see whether it has the same digits. -/
def lossless? {w : Width} (print : Binary w → String) : Checked (Option (Binary w)) := do
  let x ← s.toBinary w
  if !x.isFinite then return none
  let shortest ← parse? (print x).toList
  if shortest = some s then return some x
  if s.isInteger && x.magnitude < (Binary.integerBound w).magnitude then
    let integer ← s.toInt?
    return if integer.isSome && integer = x.toInt? then some x else none
  return none

/-! ## Texts -/

/-- Writes the digits with a point and no exponent. -/
def positional : Checked (List Char) := do
  let length ← int64 s.digits.length
  let point ← int64 (length + s.exponent)
  if point ≤ 0 then
    let zeros ← int64 (-point)
    return '0' :: '.' :: List.replicate zeros.toNat '0' ++ s.digits
  else
    let point ← toIndex point
    if s.digits.length ≤ point then
      return s.digits ++ List.replicate (point - s.digits.length) '0'
    else
      let (whole, fraction) ← cut s.digits point
      return whole ++ '.' :: fraction

/-- Writes the digits with one of them before the point, and the exponent. -/
def scientific (e : Int) : Checked (List Char) := do
  let (first, rest) ← cut s.digits 1
  return first ++ (if rest = [] then [] else '.' :: rest) ++ 'e' :: exponentText e

/-- A minus sign for a negative decimal. -/
def signText : List Char := if s.negative then ['-'] else []

/-- Writes the digits with a given scientific exponent, within the places of canonical text or without. -/
def body (e : Int) : Checked (List Char) := if -5 ≤ e ∧ e < 15 then s.positional else s.scientific e

/-- **Canonical text.** -/
def canonicalChars : Checked (List Char) := do
  if s.isZero then return ['0']
  let integerDigits ← s.integerDigits
  let e ← int64 (integerDigits - 1)
  let body ← s.body e
  return s.signText ++ body

/-- **Plain text.** -/
def plainChars : Checked (List Char) := do
  if s.isZero then return ['0']
  let integerDigits ← s.integerDigits
  let magnitude ← int64 |integerDigits|
  if 1000 < magnitude then s.canonicalChars
  else
    let body ← s.positional
    return s.signText ++ body

end Stored

end SqlJson.Decimal
