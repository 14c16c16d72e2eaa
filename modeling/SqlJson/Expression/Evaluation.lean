import SqlJson.Engine
import SqlJson.Expression.Syntax

/-!
# Evaluating expressions

* `Expression.evaluate`: the value of an expression. In a call marked `SAFE` an error of the
  call itself becomes `NULL`; an error of an argument does not.
* `Expression.run`: the value of a text.
* `Expression.runLine`: the line that shows it.
-/

namespace SqlJson.Expression

/-- An integer literal of a type with a given range. -/
def integerLiteral (lo hi : Int) (make : Int → SqlValue) (text : String) : Except Error SqlValue :=
  match Text.readInteger lo hi (Text.trim text.toList) with
  | .ok n => .ok (make n)
  | .error fault => .error (.argument (.notInteger fault))

/-- A floating-point literal of a format. -/
def floatLiteral (w : Width) (text : String) : Except Error SqlValue :=
  let trimmed := Text.trim text.toList
  match Binary.ofChars? w trimmed with
  | some x => .ok x.toSql
  | none => .error (.argument (if trimmed = [] then .emptyFloat else .malformedFloat))

/-- The value that a text stands for in a type, JSON apart. -/
def literalOf (type : SqlType) (text : String) : Except Error SqlValue :=
  let orMalformed (value : Option SqlValue) : Except Error SqlValue :=
    match value with
    | some value => .ok value
    | none => .error (.argument (.malformedLiteral type text))
  let trimmed := Text.trim text.toList
  match type with
  | .varchar => .ok (.varchar text)
  | .bool =>
    orMalformed <|
      if Text.sameIgnoringCase text "true" then some (.bool true)
      else if Text.sameIgnoringCase text "false" then some (.bool false)
      else none
  | .integer =>
    integerLiteral Int32.minValue.toInt Int32.maxValue.toInt (.integer ∘ Int32.ofInt) text
  | .bigint =>
    integerLiteral Int64.minValue.toInt Int64.maxValue.toInt (.bigint ∘ Int64.ofInt) text
  | .uinteger =>
    integerLiteral 0 (UInt32.size - 1) (fun n => .uinteger (UInt32.ofNat n.toNat)) text
  | .ubigint =>
    integerLiteral 0 (UInt64.size - 1) (fun n => .ubigint (UInt64.ofNat n.toNat)) text
  | .float => floatLiteral .single text
  | .double => floatLiteral .double text
  | .numeric => orMalformed ((Decimal.ofChars? trimmed).map .numeric)
  | .bytes => orMalformed ((Base64.decode? trimmed).map .bytes)
  | .date => orMalformed ((Calendar.date? trimmed).map .date)
  | .time => orMalformed ((Calendar.time? trimmed).map .time)
  | .datetime => orMalformed ((Calendar.dateTime? trimmed).map .datetime)
  | .timestamp => orMalformed ((Calendar.timestamp? trimmed).map .timestamp)
  | .null | .array | .struct | .json => .error (.expression (.noLiteralForm type))

mutual

/-- **The value of an expression.** -/
def evaluate (config : Config) : Expression → Action SqlValue
  | literal value => return value
  | typed .json text => Engine.call config "parse_json" [⟨none, .varchar text⟩]
  | typed type text => literalOf type text
  | array items => return .array (← evaluateItems config items)
  | struct fields => return .struct (← evaluateFields config fields)
  | call name safe args => do
    let args ← evaluateArguments config args
    if safe then Engine.safeCall config name args else Engine.call config name args

/-- The values of the elements of an array. -/
def evaluateItems (config : Config) : List Expression → Action (List SqlValue)
  | [] => return []
  | item :: rest => return (← evaluate config item) :: (← evaluateItems config rest)

/-- The fields of a structure. -/
def evaluateFields (config : Config) :
    List (String × Expression) → Action (List (String × SqlValue))
  | [] => return []
  | (name, value) :: rest =>
    return (name, ← evaluate config value) :: (← evaluateFields config rest)

/-- The arguments of a call. -/
def evaluateArguments (config : Config) :
    List (Option String × Expression) → Action (List Argument)
  | [] => return []
  | (name, value) :: rest =>
    return ⟨name, ← evaluate config value⟩ :: (← evaluateArguments config rest)

end

/-- **The value of a text.** -/
def run (config : Config) (text : String) : Action SqlValue := do
  evaluate config (← parse text)

/-- **The line that shows the value of a text**, or its error, and whether it has a value. -/
def runLine (config : Config) (text : String) : StateM PathCache (String × Bool) := do
  match ← (run config text).run with
  | .ok value => return (value.text, true)
  | .error error => return ("ERROR: " ++ error.message, false)

end SqlJson.Expression
