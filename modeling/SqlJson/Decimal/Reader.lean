import SqlJson.Decimal.Basic

/-!
# Reading decimals

The grammar is `[+-] digits [. digits] [(e|E) [+-] digits]`, where the digits on one side of
the point may be missing (`.5`, `5.`). Nothing else is read, blanks included.

* `Decimal.ofChars?`, `Decimal.ofString?`: the decimal a text denotes.
-/

namespace SqlJson.Decimal

/-- Takes a sign off the front; `true` means minus. -/
def splitSign : List Char → Bool × List Char
  | '-' :: rest => (true, rest)
  | '+' :: rest => (false, rest)
  | rest => (false, rest)

/-- Takes a point and the digits after it off the front, if there is a point. -/
def splitFraction : List Char → List Char × List Char
  | '.' :: rest => (rest.takeWhile Char.isDigit, rest.dropWhile Char.isDigit)
  | rest => ([], rest)

/-- Reads what may follow the digits: nothing, or an exponent up to the end of the text. Its
absolute value sticks to `maxExponent`. -/
def readExponent? : List Char → Option Int
  | [] => some 0
  | c :: rest =>
    if c = 'e' ∨ c = 'E' then
      let (negative, digits) := splitSign rest
      if digits = [] ∨ !digits.all Char.isDigit then none
      else
        let magnitude := min maxExponent (Nat.ofDigitChars 10 digits 0)
        some (if negative then -magnitude else magnitude)
    else none

/-- **Reads a decimal**, `none` for a text outside the grammar. -/
def ofChars? (text : List Char) : Option Decimal :=
  let (negative, rest) := splitSign text
  let whole := rest.takeWhile Char.isDigit
  let (fraction, rest) := splitFraction (rest.dropWhile Char.isDigit)
  if whole = [] ∧ fraction = [] then none
  else
    (readExponent? rest).map fun exponent =>
      ofParts negative (Nat.ofDigitChars 10 (whole ++ fraction) 0)
        (clampExponent (exponent - fraction.length))

/-- Reads a decimal from a whole text. -/
def ofString? (text : String) : Option Decimal := ofChars? text.toList

end SqlJson.Decimal
