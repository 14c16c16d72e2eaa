import SqlJson.Sql.Value

/-!
# SQL values as JSON

Every SQL value has a JSON form. Integers and decimals that a reader holding numbers in doubles
would change can be written as strings.

* `SqlValue.toJson`: that form.
-/

namespace SqlJson

/-- Doubles hold every integer up to this absolute value, `2 ^ 53`. -/
def maxSafeInteger : Int := 9007199254740992

/-- Whether doubles hold an integer and its neighbours. -/
def isSafeInteger (n : Int) : Bool := -maxSafeInteger ≤ n && n ≤ maxSafeInteger

namespace Decimal

/-- Whether a reader holding numbers in doubles sees a decimal as it is. -/
def isSafe (d : Decimal) : Bool :=
  if d.isInteger then d.toInt?.any isSafeInteger else (Binary.lossless? .double d).isSome

/-- **A decimal as a JSON number**, rounded to a double if need be, and its text beyond the range
of doubles. -/
def toJson (d : Decimal) : Json :=
  match Number.ofDecimal d d.plain (some .round) with
  | .ok n => .number n
  | .error _ => .string d.plain

end Decimal

namespace SqlValue

/-- A 64-bit integer, or its text if it is not safe and `stringify` asks for that. -/
def integerToJson (stringify : Bool) (n : Number) (value : Int) : Json :=
  if stringify && !isSafeInteger value then .string (toString value) else .number n

mutual

/-- **The JSON form of a value.** -/
def toJson (stringify : Bool) : SqlValue → Json
  | null => .null
  | bool value => .bool value
  | integer value => .number (.int (Int64.ofInt value.toInt))
  | uinteger value => .number (.int (Int64.ofNat value.toNat))
  | bigint value => integerToJson stringify (.int value) value.toInt
  | ubigint value => integerToJson stringify (.ofUInt64 value) value.toNat
  | numeric value => if stringify && !value.isSafe then .string value.plain else value.toJson
  | float value =>
    match value.shortest? with
    | some d => d.toJson
    | none => .string value.text
  | double value =>
    match Number.ofDouble? value with
    | some n => .number n
    | none => .string value.text
  | varchar value => .string value
  | bytes value => .string (Base64.encode value)
  | date value => .string value.text
  | time value => .string value.text
  | datetime value => .string value.text
  | timestamp value => .string value.utcText
  | array items => .array (itemsToJson stringify items)
  | struct fields => Json.ofMembers (fieldsToJson stringify fields)
  | json value => value

/-- The JSON forms of the elements of an array. -/
def itemsToJson (stringify : Bool) : List SqlValue → List Json
  | [] => []
  | item :: rest => toJson stringify item :: itemsToJson stringify rest

/-- The fields of a structure as members. -/
def fieldsToJson (stringify : Bool) : List (String × SqlValue) → List (String × Json)
  | [] => []
  | (name, value) :: rest => (name, toJson stringify value) :: fieldsToJson stringify rest

end

end SqlValue

end SqlJson
