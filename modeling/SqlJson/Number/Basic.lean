import SqlJson.Binary.Shortest
import SqlJson.Decimal.Reader
import SqlJson.Error

/-!
# JSON numbers

A number literal is stored as a 64-bit integer when it is one, as a double when the double
nearest to it holds it without loss, and word for word otherwise.

* `Number.ofLiteral`: the stored form of a literal.
* `Number.toDecimal`: the value of a stored number.
* `Number.toDouble`, `Number.toSingle`: a stored number as a floating-point number.
* `Number.numericEq`: equality by value, across the stored forms.
-/

namespace SqlJson

/-- What is done with a number that has no exact form. -/
inductive WideMode where
  /-- It is an error. -/
  | exact
  /-- The nearest double takes its place; it is an error only if there is none. -/
  | round
deriving DecidableEq, Repr

/-- The mode with a given name, in any case. -/
def WideMode.ofName? (s : String) : Option WideMode :=
  if Text.sameIgnoringCase s "exact" then some .exact
  else if Text.sameIgnoringCase s "round" then some .round
  else none

/-- The name of a mode. -/
def WideMode.name : WideMode → String
  | .exact => "exact"
  | .round => "round"

/-- **A JSON number.** -/
inductive Number where
  | int (value : Int64)
  /-- Used above the greatest signed integer only. -/
  | uint (value : UInt64)
  /-- Always finite. -/
  | double (value : Binary .double)
  /-- A literal without an exact form, word for word, with its value. -/
  | wide (literal : String) (value : Decimal)
deriving DecidableEq

/-- The SQL type of the floating-point numbers of a format. -/
def Width.type : Width → SqlType
  | .single => .float
  | .double => .double

namespace Number

/-- An integer of 64 bits, signed if it can be. -/
def ofInt? (n : Int) : Option Number :=
  if Int64.minValue.toInt ≤ n ∧ n ≤ Int64.maxValue.toInt then some (.int (Int64.ofInt n))
  else if 0 ≤ n ∧ n < UInt64.size then some (.uint (UInt64.ofNat n.toNat))
  else none

/-- A natural number of 64 bits. -/
def ofUInt64 (n : UInt64) : Number := (ofInt? n.toNat).getD (.uint n)

/-- A finite double. -/
def ofDouble? (x : Binary .double) : Option Number := if x.isFinite then some (.double x) else none

/-- **The stored form of a decimal** written as a given literal. Without a mode a decimal that
has no exact form is kept as its literal. -/
def ofDecimal (d : Decimal) (literal : String) (mode : Option WideMode) : Except Error Number :=
  match d.toInt?.bind ofInt? with
  | some number => .ok number
  | none =>
    match Binary.lossless? .double d with
    | some x => .ok (.double x)
    | none =>
      match mode with
      | some .exact => .error (.precision (.notStorable literal))
      | some .round =>
        let x := Binary.ofDecimal .double d
        if x.isFinite then .ok (.double x) else .error (.precision (.notRoundable literal))
      | none => .ok (.wide literal d)

/-- **The stored form of a literal.** -/
def ofLiteral (literal : String) (mode : Option WideMode) : Except Error Number :=
  match Decimal.ofString? literal with
  | some d => ofDecimal d literal mode
  | none => .error (.argument (.notNumeric literal))

/-- **The value of a number**; that of a double is its shortest decimal. -/
def toDecimal : Number → Decimal
  | int value => Decimal.ofInt value.toInt
  | uint value => Decimal.ofInt value.toNat
  | double value => value.shortest?.getD Decimal.zero
  | wide _ value => value

def isWide : Number → Bool
  | wide .. => true
  | _ => false

def isZero : Number → Bool
  | int value => value = 0
  | uint _ => false
  | double value => value.isZero
  | wide _ value => value.isZero

/-- **The text of a number**: digits, canonical decimal text, or the literal. -/
def text : Number → String
  | int value => toString value.toInt
  | uint value => toString value.toNat
  | double value => value.text
  | wide literal _ => literal

/-- A decimal shown by a given text as a floating-point number: without loss if possible, else
as the mode says. -/
def decimalToBinary (w : Width) (d : Decimal) (text : String) (mode : WideMode) :
    Except Error (Binary w) :=
  match Binary.lossless? w d with
  | some x => .ok x
  | none =>
    match mode with
    | .exact => .error (.precision (.notExact text w.type))
    | .round =>
      let x := Binary.ofDecimal w d
      if x.isFinite then .ok x else .error (.precision (.outsideRange text w.type))

/-- A number as a double. A number stored as a double is that double. -/
def toDouble (n : Number) (mode : WideMode) : Except Error (Binary .double) :=
  match n with
  | double value => .ok value
  | n => decimalToBinary .double n.toDecimal n.text mode

/-- A number in single precision. -/
def toSingle (n : Number) (mode : WideMode) : Except Error (Binary .single) :=
  decimalToBinary .single n.toDecimal n.text mode

/-- **Equality by value.** Two numbers stored alike are compared as stored. -/
def numericEq : Number → Number → Bool
  | int a, int b => a = b
  | uint a, uint b => a = b
  | double a, double b => a.numericEq b
  | a, b => a.toDecimal = b.toDecimal

end Number

end SqlJson
