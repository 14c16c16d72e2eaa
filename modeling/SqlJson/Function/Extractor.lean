import SqlJson.Sql.Type

/-!
# Extractors

The functions that take a scalar, or an array of scalars, out of a JSON value are named after
the scalar type: `bigint`, `lax_bigint`, `bigint_array`, `lax_bigint_array`.

* `Extractor.ofName?`: the extractor of a name in lower case.
* `Extractor.name`: the one name an extractor goes by.
-/

namespace SqlJson

/-- What an extractor does: its manner, whether it works on the elements of an array, and the
scalar type. -/
structure Extractor where
  lax : Bool
  array : Bool
  target : ScalarType
deriving DecidableEq, Repr

namespace Extractor

/-- The scalar type that the middle of a name stands for. Strings have two names. -/
def target? : List Char → Option ScalarType := fun cs =>
  match String.ofList cs with
  | "bool" => some .bool
  | "integer" => some .integer
  | "bigint" => some .bigint
  | "uinteger" => some .uinteger
  | "ubigint" => some .ubigint
  | "float" => some .float
  | "double" => some .double
  | "varchar" | "string" => some .varchar
  | _ => none

/-- A text without a given beginning, and whether it had it. -/
def splitFront (front cs : List Char) : Bool × List Char :=
  if front.isPrefixOf cs then (true, cs.drop front.length) else (false, cs)

/-- A text without a given end, and whether it had it. -/
def splitEnd (tail cs : List Char) : Bool × List Char :=
  if tail.isSuffixOf cs then (true, cs.take (cs.length - tail.length)) else (false, cs)

/-- **The extractor of a name.** -/
def ofName? (name : String) : Option Extractor :=
  let (lax, rest) := splitFront "lax_".toList name.toList
  let (array, base) := splitEnd "_array".toList rest
  (target? base).map fun target => ⟨lax, array, target⟩

/-- **The name of an extractor.** The lax extractors of strings go by `string`. -/
def name (e : Extractor) : String :=
  let base := if e.target = .varchar ∧ e.lax then "string" else Text.asciiLower e.target.name
  (if e.lax then "lax_" else "") ++ base ++ (if e.array then "_array" else "")

end Extractor

end SqlJson
