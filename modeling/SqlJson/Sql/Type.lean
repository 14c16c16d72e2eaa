import SqlJson.Text.Case

/-!
# SQL types

The types of SQL values, and the scalar types that a JSON value can be extracted to.

* `SqlType.ofName?`: the type a name stands for, in any case.
* `ScalarType.toSqlType`: scalar types among all types.
-/

namespace SqlJson

/-- The type of an SQL value. -/
inductive SqlType where
  | null | bool | integer | bigint | uinteger | ubigint | float | double | numeric | varchar
  | bytes | date | time | datetime | timestamp | array | struct | json
deriving DecidableEq, Repr

namespace SqlType

/-- All types. -/
def all : List SqlType :=
  [null, bool, integer, bigint, uinteger, ubigint, float, double, numeric, varchar,
   bytes, date, time, datetime, timestamp, array, struct, json]

/-- The name of a type. -/
def name : SqlType → String
  | null => "NULL"
  | bool => "BOOL"
  | integer => "INTEGER"
  | bigint => "BIGINT"
  | uinteger => "UINTEGER"
  | ubigint => "UBIGINT"
  | float => "FLOAT"
  | double => "DOUBLE"
  | numeric => "NUMERIC"
  | varchar => "VARCHAR"
  | bytes => "BYTES"
  | date => "DATE"
  | time => "TIME"
  | datetime => "DATETIME"
  | timestamp => "TIMESTAMP"
  | array => "ARRAY"
  | struct => "STRUCT"
  | json => "JSON"

/-- The type with a given name, in any case. -/
def ofName? (s : String) : Option SqlType := all.find? fun t => t.name = Text.asciiUpper s

end SqlType

/-- The scalar types that a JSON value can be extracted to. -/
inductive ScalarType where
  | bool | integer | bigint | uinteger | ubigint | float | double | varchar
deriving DecidableEq, Repr

namespace ScalarType

/-- A scalar type as an SQL type. -/
def toSqlType : ScalarType → SqlType
  | bool => .bool
  | integer => .integer
  | bigint => .bigint
  | uinteger => .uinteger
  | ubigint => .ubigint
  | float => .float
  | double => .double
  | varchar => .varchar

/-- The name of a scalar type. -/
def name (t : ScalarType) : String := t.toSqlType.name

def isInteger : ScalarType → Bool
  | integer | bigint | uinteger | ubigint => true
  | _ => false

def isFloating : ScalarType → Bool
  | float | double => true
  | _ => false

end ScalarType

end SqlJson
