import SqlJson.Function.Arguments
import SqlJson.Function.Extractor

/-!
# Calls

A call is a function together with its arguments, checked as far as that is possible without
looking into a document.

* `Call.parse`: the call that a name and arguments make.
* `Call.name`: the name of its function. An alias goes by the name it stands for.
-/

namespace SqlJson

/-- A path, or `NULL`, and the value to put there. -/
abbrev PathValue := Option String × SqlValue

/-- **A call.** A document, text or path that is `NULL` is `none`. -/
inductive Call where
  | parseJson (text : Option String) (mode : WideMode)
  | toJson (value : SqlValue) (stringify : Bool)
  | toJsonString (value : SqlValue) (pretty : Bool)
  | jsonQuery (input : Input) (path : Option String)
  | jsonQueryArray (input : Input) (path : Option String)
  | jsonValue (input : Input) (path : Option String)
  | jsonValueArray (input : Input) (path : Option String)
  | jsonSet (json : Option Json) (edits : List PathValue) (create : Bool)
  | jsonRemove (json : Option Json) (paths : List (Option String))
  | jsonArrayAppend (json : Option Json) (edits : List PathValue) (eachElement : Bool)
  | jsonArrayInsert (json : Option Json) (edits : List PathValue) (eachElement : Bool)
  | jsonType (json : Option Json)
  | jsonArray (values : List SqlValue)
  | jsonObject (members : List (String × SqlValue))
  | jsonStripNulls (json : Option Json) (path : Option String) (arrays removeEmpty : Bool)
  | extract (extractor : Extractor) (json : Option Json) (mode : WideMode)

namespace Call

/-- Pairs of a path and a value; there has to be at least one pair. -/
def pathValues (function : String) : List SqlValue → Except Error (List PathValue)
  | [] => .error (.wrongArgumentCount function)
  | values =>
    if values.length % 2 = 0 then pairs values else .error (.wrongArgumentCount function)
where
  pairs : List SqlValue → Except Error (List PathValue)
    | path :: value :: rest => do
      let path ← Arguments.textOf? function path
      return (path, value) :: (← pairs rest)
    | _ => .ok []

/-- Pairs of a key and a value. -/
def keyValues : List SqlValue → Except Error (List (String × SqlValue))
  | key :: value :: rest => do
    let key ← match key with
      | .varchar key => .ok key
      | .null => .error (.argument .nullKey)
      | other => .error (.type (.keyNotVarchar other.type))
    return (key, value) :: (← keyValues rest)
  | _ => .ok []

def parseParseJson (args : List Argument) : Except Error Call := do
  let args ← Arguments.ofList "parse_json" ["wide_number_mode"] args
  args.expectCount 1 (some 1)
  return parseJson (← args.text? 0) (← args.mode "wide_number_mode" .exact)

def parseToJson (args : List Argument) : Except Error Call := do
  let args ← Arguments.ofList "to_json" ["stringify_wide_numbers"] args
  args.expectCount 1 (some 1)
  return toJson (args.get 0) (← args.flag "stringify_wide_numbers" false)

def parseToJsonString (args : List Argument) : Except Error Call := do
  let args ← Arguments.ofList "to_json_string" ["pretty_print"] args
  args.expectCount 1 (some 1)
  return toJsonString (args.get 0) (← args.flag "pretty_print" false)

def parseQuery (args : List Argument) : Except Error Call := do
  let args ← Arguments.ofList "json_query" [] args
  args.expectCount 2 (some 2)
  return jsonQuery (← Input.ofArguments args 0) (← args.text? 1)

/-- A call with a document and a path that may be left out. -/
def parseLookup (name : String) (make : Input → Option String → Call) (args : List Argument) :
    Except Error Call := do
  let args ← Arguments.ofList name [] args
  args.expectCount 1 (some 2)
  return make (← Input.ofArguments args 0) (← args.pathOrRoot? 1)

/-- A call with a document, pairs of a path and a value, and a truth value with a name. -/
def parseEdits (name flag : String) (make : Option Json → List PathValue → Bool → Call)
    (args : List Argument) : Except Error Call := do
  let args ← Arguments.ofList name [flag] args
  args.expectCount 3 none
  return make (← args.json? 0) (← pathValues args.function args.positional.tail)
    (← args.flag flag true)

def parseRemove (args : List Argument) : Except Error Call := do
  let args ← Arguments.ofList "json_remove" [] args
  args.expectCount 2 none
  let paths ← args.positional.tail.mapM (Arguments.textOf? args.function)
  return jsonRemove (← args.json? 0) paths

def parseType (args : List Argument) : Except Error Call := do
  let args ← Arguments.ofList "json_type" [] args
  args.expectCount 1 (some 1)
  return jsonType (← args.json? 0)

def parseArray (args : List Argument) : Except Error Call := do
  let args ← Arguments.ofList "json_array" [] args
  return jsonArray args.positional

def parseObject (args : List Argument) : Except Error Call := do
  let args ← Arguments.ofList "json_object" [] args
  if args.positional.length % 2 = 0 then return jsonObject (← keyValues args.positional)
  else .error (.wrongArgumentCount args.function)

def parseStripNulls (args : List Argument) : Except Error Call := do
  let args ← Arguments.ofList "json_strip_nulls" ["include_arrays", "remove_empty"] args
  args.expectCount 1 (some 2)
  return jsonStripNulls (← args.json? 0) (← args.pathOrRoot? 1)
    (← args.flag "include_arrays" true) (← args.flag "remove_empty" false)

/-- Only strict extractors of floating-point numbers take a mode. -/
def parseExtract (extractor : Extractor) (args : List Argument) : Except Error Call := do
  let takesMode := !extractor.lax && extractor.target.isFloating
  let args ← Arguments.ofList extractor.name (if takesMode then ["wide_number_mode"] else []) args
  args.expectCount 1 (some 1)
  return extract extractor (← args.json? 0) (← args.mode "wide_number_mode" .round)

/-- **The call that a name and arguments make.** The case of the name does not matter. -/
def parse (name : String) (args : List Argument) : Except Error Call :=
  let lower := Text.asciiLower name
  match lower with
  | "parse_json" => parseParseJson args
  | "to_json" => parseToJson args
  | "to_json_string" => parseToJsonString args
  | "json_query" | "json_extract" => parseQuery args
  | "json_query_array" | "json_extract_array" => parseLookup "json_query_array" jsonQueryArray args
  | "json_value" | "json_extract_scalar" => parseLookup "json_value" jsonValue args
  | "json_value_array" | "json_extract_string_array" =>
    parseLookup "json_value_array" jsonValueArray args
  | "json_set" => parseEdits "json_set" "create_if_missing" jsonSet args
  | "json_remove" => parseRemove args
  | "json_array_append" => parseEdits "json_array_append" "append_each_element" jsonArrayAppend args
  | "json_array_insert" => parseEdits "json_array_insert" "insert_each_element" jsonArrayInsert args
  | "json_type" => parseType args
  | "json_array" => parseArray args
  | "json_object" => parseObject args
  | "json_strip_nulls" => parseStripNulls args
  | _ =>
    match Extractor.ofName? lower with
    | some extractor => parseExtract extractor args
    | none => .error (.unknownFunction (Text.upper name))

/-- **The name of the function.** -/
def name : Call → String
  | parseJson .. => "parse_json"
  | toJson .. => "to_json"
  | toJsonString .. => "to_json_string"
  | jsonQuery .. => "json_query"
  | jsonQueryArray .. => "json_query_array"
  | jsonValue .. => "json_value"
  | jsonValueArray .. => "json_value_array"
  | jsonSet .. => "json_set"
  | jsonRemove .. => "json_remove"
  | jsonArrayAppend .. => "json_array_append"
  | jsonArrayInsert .. => "json_array_insert"
  | jsonType .. => "json_type"
  | jsonArray .. => "json_array"
  | jsonObject .. => "json_object"
  | jsonStripNulls .. => "json_strip_nulls"
  | extract extractor .. => extractor.name

end Call

end SqlJson
