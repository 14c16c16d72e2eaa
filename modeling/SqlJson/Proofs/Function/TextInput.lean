import SqlJson.Proofs.Function.Lookups
import SqlJson.Proofs.Json.Modes

/-!
# Text in place of JSON

A function that looks into a document takes it as JSON or as text. Text is read when it is looked into, and its
numbers are kept as they are written, whereas `parse_json` reads text at once and refuses numbers without an exact
form. Where `parse_json` gives a document, the text answers all questions as the document does.

* `resolve_of_parseJson`: the document of a text that `parse_json` reads.
* `SqlValue.asText`: the answer for text, given by the answer for JSON.
* `runLookup_map`: a lookup in another document with the same content.
* `call_text`: calls with text and calls with JSON.
-/

namespace SqlJson

open Json

variable {config : Config} {cache : PathCache} {text name : String} {json : Json} {input input' : Input}
  {rest : List Argument} {l : Lookup}

/-! ## Documents -/

/-- **What is read without rounding is read in every mode.** -/
theorem Json.read_of_read_exact {maxDepth : ℕ} (h : read ⟨some .exact, maxDepth⟩ text = .ok json)
    (mode : Option WideMode) : read ⟨mode, maxDepth⟩ text = .ok json := by
  have hliterals := fun literal hmem => (stored_of_read h literal hmem).1
  have hread := read_of_restores h (restores_exact hliterals mode)
  rwa [mapNumbers_id] at hread

/-- **The document of a text** is the one that `parse_json` makes of it. -/
theorem resolve_of_parseJson
    (h : (((Call.parseJson (some text) .exact).run config).run.run cache).1 = .ok (.json json)) :
    (Input.text text).resolve config = some json := by
  have hrun : runParseJson config .exact text = .ok json := by
    rw [Call.run, Action.run_bind, Action.run_liftM] at h
    cases hparsed : runParseJson config .exact text with
    | error e =>
      rw [hparsed] at h
      cases h
    | ok parsed =>
      rw [hparsed] at h
      cases h
      rfl
  have hread : read (config.readOptions (some .exact)) text = .ok json := by
    rw [runParseJson] at hrun
    split_ifs at hrun
    exact hrun
  rw [Input.resolve, Config.readOptions, read_of_read_exact hread]
  rfl

/-! ## Answers -/

namespace SqlValue

/-- JSON as its text; all else as it is. -/
def written : SqlValue → SqlValue
  | .json value => .varchar value.compact
  | value => value

/-- **An answer with text in place of JSON**, also in an array. -/
def asText : SqlValue → SqlValue
  | .array items => .array (items.map written)
  | value => value.written

end SqlValue

/-- The functions that give scalars give the same for text and for JSON. -/
theorem Lookup.result_scalar (hl : l ∈ [value, valueArray]) (input input' : Input) :
    l.result input = l.result input' := by
  simp only [List.mem_cons, List.not_mem_nil, or_false] at hl
  rcases hl with rfl | rfl <;> rfl

/-- The functions that give parts of a document write them for text. -/
theorem Lookup.result_part (hl : l ∈ [query, queryArray]) (found : Json) :
    l.result (.text text) found = (l.result (.json json) found).map SqlValue.asText := by
  simp only [List.mem_cons, List.not_mem_nil, or_false] at hl
  rcases hl with rfl | rfl
  · rfl
  · simp only [result, Option.map_map]
    congr 1
    funext items
    simp only [Function.comp_apply, SqlValue.asText, List.map_map]
    rfl

/-- **A lookup in another document with the same content** gives what is made of the answer, if that is what is made
of what is found. -/
theorem runLookup_map {result result' : Json → Option SqlValue} {f : SqlValue → SqlValue}
    (hresolve : input.resolve config = input'.resolve config) (hnull : f .null = .null)
    (hresult : ∀ found, result found = (result' found).map f) (path : Option String) :
    runLookup config input path result = (do return f (← runLookup config input' path result')) := by
  simp only [runLookup, bind_assoc, pure_bind, hresolve, hresult]
  congr 1
  funext path
  refine congrArg pure ?_
  cases path with
  | none => exact hnull.symm
  | some path =>
    cases input'.resolve config with
    | none => exact hnull.symm
    | some root =>
      cases hfound : path.lookup root with
      | none => simp [hfound, hnull]
      | some found => cases hvalue : result' found <;> simp [hfound, hvalue, hnull]

/-! ## Calls -/

namespace Engine

/-- **A call with the same content in another form**: the other arguments are understood alike, or refused alike,
and the answer is made of the other answer. -/
theorem call_map {f : SqlValue → SqlValue} (hresolve : input.resolve config = input'.resolve config)
    (hnull : f .null = .null) (hresult : ∀ found, l.result input found = (l.result input' found).map f)
    (hname : Text.asciiLower name ∈ l.names) (rest : List Argument) :
    call config name (⟨none, input.toSql⟩ :: rest) =
      (do return f (← call config name (⟨none, input'.toSql⟩ :: rest))) := by
  obtain ⟨path, hpath⟩ := l.parser_cons rest
  rw [call, call, Lookup.parse_eq hname, hpath, hpath]
  cases path with
  | error e => rfl
  | ok path =>
    have hrun := runLookup_map hresolve hnull hresult path
    rw [← Lookup.run_call, ← Lookup.run_call] at hrun
    exact hrun

/-- **Text answers as the document that it is read as.** If `parse_json` makes a document of a text, without
rounding, then the functions that give scalars give the same for the text as for the document, and those that give
parts of it give them as text, whatever the path and whether it is one: `NULL` stays `NULL`, and the errors are the
same. -/
theorem call_text (h : (((Call.parseJson (some text) .exact).run config).run.run cache).1 = .ok (.json json))
    (rest : List Argument) :
    (∀ l ∈ [Lookup.value, Lookup.valueArray], ∀ name, Text.asciiLower name ∈ l.names →
        call config name (⟨none, .varchar text⟩ :: rest) = call config name (⟨none, .json json⟩ :: rest)) ∧
      (∀ l ∈ [Lookup.query, Lookup.queryArray], ∀ name, Text.asciiLower name ∈ l.names →
        call config name (⟨none, .varchar text⟩ :: rest) =
          (do return (← call config name (⟨none, .json json⟩ :: rest)).asText)) ∧
      SqlValue.null.asText = .null ∧ (SqlValue.json .null).asText = .varchar "null" := by
  have hresolve : (Input.text text).resolve config = (Input.json json).resolve config := resolve_of_parseJson h
  refine ⟨?_, ?_, rfl, ?_⟩
  · intro l hl name hname
    have hresult : ∀ found,
        l.result (.text text) found = (l.result (.json json) found).map id := by
      intro found
      rw [Lookup.result_scalar hl (.text text) (.json json), Option.map_id, id_eq]
    refine (call_map hresolve rfl hresult hname rest).trans ?_
    exact bind_pure _
  · intro l hl name hname
    exact call_map hresolve rfl (Lookup.result_part hl) hname rest
  · have hnull : Json.null.compact = "null" := by decide +kernel
    exact congrArg SqlValue.varchar hnull

/-- A number that is written otherwise than its document writes it; a path that is none. -/
theorem call_text_decimal : ∃ json,
    (((Call.parseJson (some " [1.50, null]") .exact).run .standard).run.run (newCache .standard)).1 =
        .ok (.json json) ∧
      json.compact = "[1.5,null]" ∧
      call .standard "JSON_QUERY_ARRAY" [⟨none, .varchar " [1.50, null]"⟩] =
        (do return (← call .standard "JSON_QUERY_ARRAY" [⟨none, .json json⟩]).asText) ∧
      call .standard "json_value" [⟨none, .varchar " [1.50, null]"⟩, ⟨none, .varchar "[0]"⟩] =
        call .standard "json_value" [⟨none, .json json⟩, ⟨none, .varchar "[0]"⟩] := by
  have hcompact : (read ⟨some .exact, Config.standard.maxDepth⟩ " [1.50, null]").toOption.map compact =
      some "[1.5,null]" := by decide +kernel
  obtain ⟨json, hjson, htext⟩ := Option.map_eq_some_iff.1 hcompact
  have hread : read ⟨some .exact, Config.standard.maxDepth⟩ " [1.50, null]" = .ok json := by
    cases hresult : read ⟨some .exact, Config.standard.maxDepth⟩ " [1.50, null]" with
    | error e =>
      rw [hresult] at hjson
      cases hjson
    | ok json' =>
      rw [hresult] at hjson
      cases hjson
      rfl
  have hparsed : (call .standard "parse_json" [⟨none, .varchar " [1.50, null]"⟩]).run.run (newCache .standard) =
      (.ok (.json json), newCache .standard) := call_parseJson (by decide) hread
  rw [call_of_parse parse_parseJson] at hparsed
  have hrun := congrArg Prod.fst hparsed
  have hname : Text.asciiLower "JSON_QUERY_ARRAY" = "json_query_array" := Text.asciiLower_eq (by decide)
  refine ⟨json, hrun, htext, ?_, ?_⟩
  · exact (call_text hrun []).2.1 .queryArray (by simp) _ (by rw [hname]; decide)
  · exact (call_text hrun [⟨none, .varchar "[0]"⟩]).1 .value (by simp) _ (asciiLower_mem_names (by decide))

end Engine

end SqlJson
