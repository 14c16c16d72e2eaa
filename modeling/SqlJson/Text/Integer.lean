/-!
# Integers of a fixed range in a text

An integer is written as an optional sign and decimal digits; a minus sign is read only where
the range has negative numbers.

* `Text.readInteger`: the integer, or the first thing that is wrong with the text.
-/

namespace SqlJson.Text

/-- The ways a text can fail to be an integer of a range. -/
inductive IntegerFault where
  | empty
  | invalidDigit
  | tooLarge
  | tooSmall
deriving DecidableEq, Repr

/-- The wording of a fault. -/
def IntegerFault.message : IntegerFault → String
  | empty => "cannot parse integer from empty string"
  | invalidDigit => "invalid digit found in string"
  | tooLarge => "number too large to fit in target type"
  | tooSmall => "number too small to fit in target type"

/-- Adds digits to an absolute value. The first character that is no digit, or takes the value
above `bound`, decides the fault. -/
def readDigits (bound : Nat) (overflow : IntegerFault) : List Char → Nat → Except IntegerFault Nat
  | [], value => .ok value
  | c :: rest, value =>
    if !c.isDigit then .error .invalidDigit
    else
      let value := 10 * value + (c.toNat - '0'.toNat)
      if bound < value then .error overflow else readDigits bound overflow rest value

/-- **Reads an integer** between `lo` and `hi`, where `lo ≤ 0 ≤ hi`. -/
def readInteger (lo hi : Int) (text : List Char) : Except IntegerFault Int :=
  match text with
  | [] => .error .empty
  | ['+'] | ['-'] => .error .invalidDigit
  | '+' :: rest => (readDigits hi.toNat .tooLarge rest 0).map Int.ofNat
  | '-' :: rest =>
    if lo < 0 then (readDigits lo.natAbs .tooSmall rest 0).map fun n => -Int.ofNat n
    else .error .invalidDigit
  | rest => (readDigits hi.toNat .tooLarge rest 0).map Int.ofNat

end SqlJson.Text
