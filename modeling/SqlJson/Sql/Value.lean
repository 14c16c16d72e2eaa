import SqlJson.Json.Writer
import SqlJson.Sql.CalendarReader
import SqlJson.Text.Base64

/-!
# SQL values

* `SqlValue.type`: the type of a value.
* `SqlValue.text`: the text a value is shown as. A string alone is shown as it is, a string
  inside an array or a structure in quotes.
-/

namespace SqlJson

/-- **An SQL value.** -/
inductive SqlValue where
  | null
  | bool (value : Bool)
  | integer (value : Int32)
  | bigint (value : Int64)
  | uinteger (value : UInt32)
  | ubigint (value : UInt64)
  | float (value : Binary .single)
  | double (value : Binary .double)
  | numeric (value : Decimal)
  | varchar (value : String)
  | bytes (value : List UInt8)
  | date (value : Date)
  | time (value : TimeOfDay)
  | datetime (value : DateTime)
  /-- A time in Coordinated Universal Time. -/
  | timestamp (value : DateTime)
  | array (items : List SqlValue)
  /-- Fields in the order they are declared in; names may repeat. -/
  | struct (fields : List (String × SqlValue))
  | json (value : Json)

namespace SqlValue

instance : Inhabited SqlValue := ⟨null⟩

/-- The type of a value. -/
def type : SqlValue → SqlType
  | null => .null
  | bool _ => .bool
  | integer _ => .integer
  | bigint _ => .bigint
  | uinteger _ => .uinteger
  | ubigint _ => .ubigint
  | float _ => .float
  | double _ => .double
  | numeric _ => .numeric
  | varchar _ => .varchar
  | bytes _ => .bytes
  | date _ => .date
  | time _ => .time
  | datetime _ => .datetime
  | timestamp _ => .timestamp
  | array _ => .array
  | struct _ => .struct
  | json _ => .json

mutual

/-- **The text of a value.** -/
def text : SqlValue → String
  | null => "NULL"
  | bool true => "true"
  | bool false => "false"
  | integer value => toString value.toInt
  | bigint value => toString value.toInt
  | uinteger value => toString value.toNat
  | ubigint value => toString value.toNat
  | float value => value.text
  | double value => value.text
  | numeric value => value.plain
  | varchar value => value
  | bytes value => Base64.encode value
  | date value => value.text
  | time value => value.text
  | datetime value => value.text
  | timestamp value => value.utcText
  | array items => "[" ++ ", ".intercalate (itemTexts items) ++ "]"
  | struct fields => "\x7b" ++ ", ".intercalate (fieldTexts fields) ++ "\x7d"
  | json value => value.compact

/-- The texts of the elements of an array. -/
def itemTexts : List SqlValue → List String
  | [] => []
  | varchar value :: rest => Json.quoted value :: itemTexts rest
  | item :: rest => text item :: itemTexts rest

/-- The texts of the fields of a structure. -/
def fieldTexts : List (String × SqlValue) → List String
  | [] => []
  | (name, varchar value) :: rest => (name ++ ": " ++ Json.quoted value) :: fieldTexts rest
  | (name, value) :: rest => (name ++ ": " ++ text value) :: fieldTexts rest

end

end SqlValue

end SqlJson
