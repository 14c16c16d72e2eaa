import SqlJson.Binary.Basic
import SqlJson.Decimal.Writer

/-!
# Shortest decimals

The decimal text of a floating-point number has the fewest digits that read back as the same
number, and among those texts it is the one nearest to the exact value.

* `Binary.shortest?`: that decimal.
* `Binary.text`: its canonical text, with names for infinities and NaN.
* `Binary.lossless?`: the number that holds a decimal without loss.
-/

namespace SqlJson

namespace Width

/-- The decimal exponent of the first digit of `a / b`, for positive `a` and `b`. -/
def leadingExponent (a b : Nat) : Int :=
  if b ≤ a then (Nat.toDigits 10 (a / b)).length - 1
  else -(Nat.toDigits 10 ((b - 1) / a)).length

/-- Whether `c · 10 ^ e` reads back as value number `i`. -/
def readsBack (w : Width) (i c : Nat) (e : Int) : Bool :=
  w.nearestIndex (c * Nat.pow 10 e.toNat) (Nat.pow 10 (-e).toNat) = i

/-- **One grid of the search.** Of the two neighbours of `a / b` among the multiples of
`10 ^ e`, the nearer one that reads back as value number `i`; the even one of a tie. -/
def onGrid? (w : Width) (i a b : Nat) (e : Int) : Option Nat :=
  let a := a * Nat.pow 10 (-e).toNat
  let b := b * Nat.pow 10 e.toNat
  let below := a / b
  let twice := 2 * (a % b)
  match w.readsBack i below e, w.readsBack i (below + 1) e with
  | true, true =>
    if twice < b ∨ (twice = b ∧ below % 2 = 0) then some below else some (below + 1)
  | true, false => some below
  | false, true => some (below + 1)
  | false, false => none

/-- The multiple and the exponent of the coarsest grid that has a number reading back as value
number `i`: grids of one digit first, then of two, and so on. Should none up to `maxDigits`
have one, the exact value, which has finitely many decimal places. -/
def shortestParts (w : Width) (i : Nat) : Nat × Int :=
  let a := w.valueOf i
  let b := Nat.pow 2 w.unitBits
  let first := leadingExponent a b
  let found := (List.range w.maxDigits).findSome? fun (k : Nat) =>
    (w.onGrid? i a b (first - k)).map fun c => (c, first - k)
  found.getD (a * Nat.pow 5 w.unitBits, -w.unitBits)

end Width

namespace Binary

variable {w : Width}

/-- **The shortest decimal** that reads back as a finite number. -/
def shortest? : Binary w → Option Decimal
  | .finite negative index =>
    if index.val = 0 then some Decimal.zero
    else
      let (c, e) := w.shortestParts index
      some (Decimal.ofParts negative c e)
  | _ => none

/-- **The text of a number**: `NaN`, `Infinity`, `-Infinity`, or its shortest decimal. -/
def text : Binary w → String
  | .nan => "NaN"
  | .infinity false => "Infinity"
  | .infinity true => "-Infinity"
  | x@(.finite ..) => (x.shortest?.getD Decimal.zero).canonical

/-- Integers from here on are not compared digit by digit. -/
def integerBound (w : Width) : Binary w := ofDecimal w ⟨false, 1, 38⟩

/-- **The number that holds `d` without loss**: the nearest one, if it is finite and `d` is
either its shortest decimal or an integer below `integerBound` exactly equal to it. -/
def lossless? (w : Width) (d : Decimal) : Option (Binary w) :=
  let x := ofDecimal w d
  if !x.isFinite then none
  else if x.shortest? = some d then some x
  else if d.isInteger && x.magnitude < (integerBound w).magnitude && d.toInt?.isSome
      && d.toInt? = x.toInt? then some x
  else none

end Binary

end SqlJson
