import Mathlib.Tactic
import SqlJson.Function.Call

/-!
# Functions by their names

What a name stands for is settled once here, so that the other modules go through the functions by their names and do
not depend on the order in which they are looked up.

* `Call.Names`: the parser of arguments that a name in lower case stands for.
* `Call.parse_of_names`: a name is parsed by its parser.
* `Call.parse_cases`: any name has a parser, or stands for no function.
-/

namespace SqlJson.Call

variable {name : String} {parser : List Argument → Except Error Call}

/-- **The parser of arguments that a name in lower case stands for.** -/
inductive Names (lower : String) : (List Argument → Except Error Call) → Prop
  | parseJson (h : lower = "parse_json") : Names lower parseParseJson
  | toJson (h : lower = "to_json") : Names lower parseToJson
  | toJsonString (h : lower = "to_json_string") : Names lower parseToJsonString
  | query (h : lower = "json_query" ∨ lower = "json_extract") : Names lower parseQuery
  | queryArray (h : lower = "json_query_array" ∨ lower = "json_extract_array") :
      Names lower (parseLookup "json_query_array" jsonQueryArray)
  | value (h : lower = "json_value" ∨ lower = "json_extract_scalar") :
      Names lower (parseLookup "json_value" jsonValue)
  | valueArray (h : lower = "json_value_array" ∨ lower = "json_extract_string_array") :
      Names lower (parseLookup "json_value_array" jsonValueArray)
  | set (h : lower = "json_set") : Names lower (parseEdits "json_set" "create_if_missing" jsonSet)
  | remove (h : lower = "json_remove") : Names lower parseRemove
  | arrayAppend (h : lower = "json_array_append") :
      Names lower (parseEdits "json_array_append" "append_each_element" jsonArrayAppend)
  | arrayInsert (h : lower = "json_array_insert") :
      Names lower (parseEdits "json_array_insert" "insert_each_element" jsonArrayInsert)
  | type (h : lower = "json_type") : Names lower parseType
  | array (h : lower = "json_array") : Names lower parseArray
  | object (h : lower = "json_object") : Names lower parseObject
  | stripNulls (h : lower = "json_strip_nulls") : Names lower parseStripNulls
  | extract {extractor : Extractor} (h : Extractor.ofName? lower = some extractor) :
      Names lower (parseExtract extractor)

/-- **A name is parsed by its parser.** No extractor has the name of another function. -/
theorem parse_of_names (h : Names (Text.asciiLower name) parser) : parse name = parser := by
  funext list
  cases h with
  | query h | queryArray h | value h | valueArray h => rcases h with h | h <;> simp only [parse, h]
  | extract h =>
    unfold parse
    dsimp only
    split
    -- no other name is that of an extractor
    all_goals try
      rename_i hname
      rw [hname] at h
      cases h
    rw [h]
  | _ h => simp only [parse, h]

/-- **Any name has a parser**, or stands for no function. -/
theorem parse_cases (name : String) (list : List Argument) :
    (∃ parser, Names (Text.asciiLower name) parser ∧ parse name list = parser list) ∨
      parse name list = .error (.unknownFunction (Text.upper name)) := by
  rcases hextractor : Extractor.ofName? (Text.asciiLower name) with _ | extractor
  · unfold parse
    simp only [hextractor]
    split
    all_goals try
      rename_i hname
      refine .inl ⟨_, ?_, rfl⟩
      constructor
      simp [hname]
    exact .inr rfl
  · exact .inl ⟨_, .extract hextractor, by rw [parse_of_names (.extract hextractor)]⟩

end SqlJson.Call
