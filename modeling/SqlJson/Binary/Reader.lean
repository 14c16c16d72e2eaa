import SqlJson.Binary.Basic
import SqlJson.Decimal.Reader
import SqlJson.Text.Case

/-!
# Reading floating-point numbers

A floating-point number is written as a decimal, or as an optional sign and one of the names
`inf`, `infinity` and `nan` in any case.

* `Binary.ofChars?`: the nearest number; a zero keeps the sign it is written with.
-/

namespace SqlJson.Binary

/-- What a name stands for, whatever its case. -/
inductive Special where
  | nan
  | infinity
deriving DecidableEq, Repr

/-- The special value with a given name. -/
def Special.ofChars? (cs : List Char) : Option Special :=
  let name := String.ofList (cs.map Char.toLower)
  if name = "nan" then some .nan
  else if name = "inf" ∨ name = "infinity" then some .infinity
  else none

/-- A special value of a format. -/
def ofSpecial (w : Width) (negative : Bool) : Special → Binary w
  | .nan => .nan
  | .infinity => .infinity negative

/-- **Reads a floating-point number**, `none` for a text that is none. -/
def ofChars? (w : Width) (text : List Char) : Option (Binary w) :=
  let (negative, body) := Decimal.splitSign text
  match Special.ofChars? body with
  | some special => some (ofSpecial w negative special)
  | none =>
    (Decimal.ofChars? text).map fun d =>
      if d.isZero then ofIndex negative 0 else ofDecimal w d

end SqlJson.Binary
