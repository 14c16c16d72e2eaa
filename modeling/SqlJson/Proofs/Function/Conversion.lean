import Mathlib.Tactic
import SqlJson.Engine

/-!
# Calls that convert

What an engine answers to calls of `to_json`, `to_json_string` and `parse_json`. None of them touches
the path cache.

* `call_toJson`, `call_toJsonString`, `call_parseJson`: the answers.
-/

namespace SqlJson

theorem Text.asciiLower_eq {s t : String} (h : s.toList.map Char.toLower = t.toList) : asciiLower s = t := by
  rw [asciiLower, ← String.toList_inj, String.toList_map, h]

namespace Engine

variable {config : Config} {cache : PathCache} {v : SqlValue} {text : String}

/-- A call that was understood does what its function does. -/
theorem call_of_parse {name : String} {args : List Argument} {c : Call} (h : Call.parse name args = .ok c) :
    call config name args = c.run config := by
  rw [call, h]
  rfl

theorem parse_toJson : Call.parse "to_json" [⟨none, v⟩] = .ok (.toJson v false) := by
  have hname : Text.asciiLower "to_json" = "to_json" := Text.asciiLower_eq (by decide)
  simp only [Call.parse, hname]
  rfl

theorem parse_toJsonString (pretty : Bool) :
    Call.parse "to_json_string" [⟨none, v⟩, ⟨some "pretty_print", .bool pretty⟩] = .ok (.toJsonString v pretty) := by
  have hname : Text.asciiLower "to_json_string" = "to_json_string" := Text.asciiLower_eq (by decide)
  have hflag : Text.asciiLower "pretty_print" = "pretty_print" := Text.asciiLower_eq (by decide)
  simp only [Call.parse, hname, Call.parseToJsonString, Arguments.ofList, List.foldlM, Arguments.add, hflag]
  rfl

theorem parse_parseJson :
    Call.parse "parse_json" [⟨none, .varchar text⟩] = .ok (.parseJson (some text) .exact) := by
  have hname : Text.asciiLower "parse_json" = "parse_json" := Text.asciiLower_eq (by decide)
  simp only [Call.parse, hname]
  rfl

/-- `to_json` gives the JSON form of a value. -/
theorem call_toJson :
    (call config "to_json" [⟨none, v⟩]).run.run cache = (.ok (.json (v.toJson false)), cache) := by
  rw [call_of_parse parse_toJson]
  rfl

/-- The text that `to_json_string` gives. -/
def jsonString (config : Config) (pretty : Bool) (v : SqlValue) : String :=
  if pretty then (v.toJson false).pretty config.prettyIndent else (v.toJson false).compact

/-- `to_json_string` writes the JSON form of a value. -/
theorem call_toJsonString (pretty : Bool) :
    (call config "to_json_string" [⟨none, v⟩, ⟨some "pretty_print", .bool pretty⟩]).run.run cache =
      (.ok (.varchar (jsonString config pretty v)), cache) := by
  rw [call_of_parse (parse_toJsonString pretty)]
  rfl

/-- `parse_json` reads a text that is not too long, and no number is rounded. -/
theorem call_parseJson {r : Json} (hsize : text.utf8ByteSize ≤ config.maxInputBytes)
    (h : Json.read ⟨some .exact, config.maxDepth⟩ text = .ok r) :
    (call config "parse_json" [⟨none, .varchar text⟩]).run.run cache = (.ok (.json r), cache) := by
  have hrun : runParseJson config .exact text = .ok r := by
    rw [runParseJson, if_neg (by omega)]
    exact h
  rw [call_of_parse parse_parseJson, Call.run, hrun]
  rfl

end Engine

end SqlJson
