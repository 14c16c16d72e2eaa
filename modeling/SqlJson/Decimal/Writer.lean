import SqlJson.Decimal.Basic

/-!
# Writing decimals

* `Decimal.canonical`: positional from `1e-5` up to below `1e15`, scientific outside.
* `Decimal.plain`: positional, unless the point is more than a thousand places away.
-/

namespace SqlJson.Decimal

/-- Writes digits times `10 ^ exponent` with a point and no exponent. -/
def positional (digits : List Char) (exponent : Int) : List Char :=
  let point := digits.length + exponent
  if point ≤ 0 then
    '0' :: '.' :: List.replicate (-point).toNat '0' ++ digits
  else if digits.length ≤ point then
    digits ++ List.replicate (point - digits.length).toNat '0'
  else
    digits.take point.toNat ++ '.' :: digits.drop point.toNat

/-- The exponent of a scientific text: a sign and at least two digits. -/
def exponentText (e : Int) : List Char :=
  let digits := Nat.toDigits 10 e.natAbs
  (if e < 0 then '-' else '+') :: (if e.natAbs < 10 then '0' :: digits else digits)

/-- Writes digits with one of them before the point, and the exponent. -/
def scientific (digits : List Char) (e : Int) : List Char :=
  digits.take 1 ++ (if digits.length ≤ 1 then [] else '.' :: digits.drop 1)
    ++ 'e' :: exponentText e

/-- A minus sign for a negative decimal. -/
def signText (d : Decimal) : List Char := if d.negative then ['-'] else []

/-- The canonical text as characters: `1200`, `0.015`, `1e+21`, `2.5e-07`. -/
def canonicalChars (d : Decimal) : List Char :=
  if d.isZero then ['0']
  else
    let e := d.integerDigits - 1
    d.signText ++ if -5 ≤ e ∧ e < 15 then positional d.digits d.exponent else scientific d.digits e

/-- **Canonical text**: positional for a scientific exponent in `[-5, 15)`, else scientific. -/
def canonical (d : Decimal) : String := String.ofList d.canonicalChars

/-- The plain text as characters. -/
def plainChars (d : Decimal) : List Char :=
  if d.isZero then ['0']
  else if 1000 < d.integerDigits.natAbs then d.canonicalChars
  else d.signText ++ positional d.digits d.exponent

/-- **Plain text**: positional, and canonical only for astronomically large or small values. -/
def plain (d : Decimal) : String := String.ofList d.plainChars

end SqlJson.Decimal
