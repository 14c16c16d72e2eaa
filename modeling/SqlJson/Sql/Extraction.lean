import SqlJson.Binary.Reader
import SqlJson.Sql.Value

/-!
# Extraction of SQL scalars from JSON

Strict extraction wants the kind of JSON value that belongs to the scalar type, and a value in
its range. Lax extraction converts what it can, and gives `NULL` for the rest.

* `Json.strict`, `Json.strictArray`: strict extraction.
* `Json.lax`, `Json.laxArray`: lax extraction.
-/

namespace SqlJson

/-- An integer as a value of an integer type, if it is in the range of the type. -/
def ScalarType.ofInt? (target : ScalarType) (n : Int) : Option SqlValue :=
  match target with
  | .integer =>
    if Int32.minValue.toInt ≤ n ∧ n ≤ Int32.maxValue.toInt then some (.integer (Int32.ofInt n))
    else none
  | .bigint =>
    if Int64.minValue.toInt ≤ n ∧ n ≤ Int64.maxValue.toInt then some (.bigint (Int64.ofInt n))
    else none
  | .uinteger =>
    if 0 ≤ n ∧ n < UInt32.size then some (.uinteger (UInt32.ofNat n.toNat)) else none
  | .ubigint =>
    if 0 ≤ n ∧ n < UInt64.size then some (.ubigint (UInt64.ofNat n.toNat)) else none
  | _ => none

/-- A floating-point number as an SQL value. -/
def Binary.toSql : {w : Width} → Binary w → SqlValue
  | .single, x => .float x
  | .double, x => .double x

namespace Json

/-! ## Strict extraction -/

/-- A number as a value of an integer type. -/
def strictInteger (target : ScalarType) (n : Number) : Except Error SqlValue :=
  let d := n.toDecimal
  if !d.isInteger then .error (.conversion (.notInteger n.text target))
  else
    match d.toInt?.bind target.ofInt? with
    | some value => .ok value
    | none => .error (.conversion (.outOfRange n.text target))

/-- **Strict extraction.** The mode matters for floating-point types only. -/
def strict (target : ScalarType) (mode : WideMode) (json : Json) : Except Error SqlValue :=
  match target, json with
  | .bool, bool value => .ok (.bool value)
  | .varchar, string value => .ok (.varchar value)
  | .float, number n => (n.toSingle mode).map .float
  | .double, number n => (n.toDouble mode).map .double
  | target, json =>
    match json with
    | number n =>
      if target.isInteger then strictInteger target n
      else .error (.conversion (.wrongKind .number target))
    | json => .error (.conversion (.wrongKind json.kind target))

/-- **Strict extraction of the elements of an array.** The first failure is that of the whole. -/
def strictArray (target : ScalarType) (mode : WideMode) (json : Json) : Except Error SqlValue :=
  match json with
  | array items => (items.mapM (strict target mode)).map .array
  | json => .error (.conversion (.notArray json.kind target))

/-! ## Lax extraction -/

/-- What a string says as a number: a decimal, or the name of a special value with a sign. -/
def laxNumber? (text : String) : Option (Decimal ⊕ (Bool × Binary.Special)) :=
  let (negative, body) := Decimal.splitSign text.toList
  match Binary.Special.ofChars? body with
  | some special => some (.inr (negative, special))
  | none => (Decimal.ofString? text).map .inl

/-- A value as a truth value: numbers by whether they are zero, strings by their names. -/
def laxBool? : Json → Option Bool
  | bool value => some value
  | number n => some (!n.isZero)
  | string text =>
    if Text.sameIgnoringCase text "true" then some true
    else if Text.sameIgnoringCase text "false" then some false
    else none
  | _ => none

/-- A value as an integer, halves being rounded away from zero. -/
def laxInteger? : Json → Option Int
  | bool value => some (if value then 1 else 0)
  | number n => n.toDecimal.roundHalfAway?
  | string text =>
    match laxNumber? text with
    | some (.inl d) => d.roundHalfAway?
    | _ => none
  | _ => none

/-- A decimal as a floating-point number, if the nearest one is finite. -/
def laxDecimal? (w : Width) (d : Decimal) : Option (Binary w) :=
  let x := Binary.ofDecimal w d
  if x.isFinite then some x else none

/-- A value as a floating-point number. -/
def laxBinary? (w : Width) : Json → Option (Binary w)
  | number n => laxDecimal? w n.toDecimal
  | string text =>
    match laxNumber? text with
    | some (.inl d) => laxDecimal? w d
    | some (.inr (negative, special)) => some (Binary.ofSpecial w negative special)
    | none => none
  | _ => none

/-- **Lax extraction.** -/
def lax (target : ScalarType) (json : Json) : SqlValue :=
  let converted :=
    match target with
    | .bool => json.laxBool?.map SqlValue.bool
    | .float => (json.laxBinary? .single).map SqlValue.float
    | .double => (json.laxBinary? .double).map SqlValue.double
    | .varchar => json.scalarText?.map SqlValue.varchar
    | target => json.laxInteger?.bind target.ofInt?
  converted.getD .null

/-- **Lax extraction of the elements of an array**, and `NULL` for anything else. -/
def laxArray (target : ScalarType) : Json → SqlValue
  | array items => .array (items.map (lax target))
  | _ => .null

end Json

end SqlJson
