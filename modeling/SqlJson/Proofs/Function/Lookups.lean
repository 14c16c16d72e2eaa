import SqlJson.Proofs.Function.DocumentArgument
import SqlJson.Proofs.Function.Queries

/-!
# Queries and their array forms

Four functions look into a document: one gives the part that is found, one its text if it is a scalar, and the
array forms do the same for the elements of an array that is found. Each has its own rules for `NULL`, but an
array form gives element by element what the other function gives at the index.

* `Lookup`: the four functions, with what each makes of a part that is found.
* `Lookup.parser_cons`, `Lookup.run_call`, `Engine.answer_eq`: how they are called, and what they give.
* `scalarTexts?_eq`: the scalars of an array, which are given for all elements or for none.
* `answer_indexed`: the array forms, element by element.
-/

namespace SqlJson

open Json

variable {config : Config} {cache : PathCache} {input : Input} {steps : List Step} {s name : String} {p : Path}
  {items : List Json}

/-! ## Parts of documents -/

/-- **The part of a document** that steps lead to. -/
def Input.part? (config : Config) (input : Input) (steps : List Step) : Option Json :=
  (input.resolve config).bind (Path.follow steps)

/-- An index leads from a part to its element. -/
theorem Input.part?_index (config : Config) (input : Input) (steps : List Step) (n : ℕ) :
    input.part? config (steps ++ [.index n]) = ((input.part? config steps).bind items?).bind (·[n]?) := by
  rw [part?, part?, Option.bind_assoc, Option.bind_assoc]
  congr 1
  funext root
  rw [Edit.follow_append]
  congr 1
  funext part
  have hstep : Path.follow [.index n] part = (part.item? n).bind some := rfl
  rw [hstep, Option.bind_fun_some]
  rfl

/-- The part that is found has elements iff it is an array. -/
theorem Input.bind_items?_eq_some_iff :
    (input.part? config steps).bind items? = some items ↔ input.part? config steps = some (.array items) := by
  rw [Option.bind_eq_some_iff]
  constructor
  · rintro ⟨part, hpart, hitems⟩
    cases part <;> cases hitems
    exact hpart
  · intro hpart
    exact ⟨_, hpart, rfl⟩

/-- **The text of a scalar as a string**, and `NULL` for what is none. -/
def Json.scalar (v : Json) : SqlValue := (v.scalarText?.map SqlValue.varchar).getD .null

/-- **The scalars of an array** are given one by one, or not at all if an element is an array or object. -/
theorem scalarTexts?_eq (items : List Json) :
    scalarTexts? items = if items.any isContainer then none else some (items.map scalar) := by
  induction items with
  | nil => rfl
  | cons item rest ih =>
    rw [List.any_cons, List.map_cons]
    cases item with
    | array _ | object _ => simp [scalarTexts?, scalarText?, isContainer]
    | null =>
      rw [scalarTexts?, ih]
      cases hrest : rest.any isContainer <;> simp [isContainer, scalar, scalarText?]
    | bool b =>
      cases b <;> cases hrest : rest.any isContainer <;>
        simp [scalarTexts?, ih, hrest, isContainer, scalar, scalarText?]
    | number _ | string _ =>
      cases hrest : rest.any isContainer <;> simp [scalarTexts?, ih, hrest, isContainer, scalar, scalarText?]

/-! ## Functions -/

/-- **The functions that look into a document.** -/
inductive Lookup where
  | query
  | queryArray
  | value
  | valueArray

namespace Lookup

open Call Arguments

/-- The names of a function, in lower case. -/
def names : Lookup → List String
  | query => ["json_query", "json_extract"]
  | queryArray => ["json_query_array", "json_extract_array"]
  | value => ["json_value", "json_extract_scalar"]
  | valueArray => ["json_value_array", "json_extract_string_array"]

/-- The call of a function with a document and a path. -/
def call : Lookup → Input → Option String → Call
  | query => jsonQuery
  | queryArray => jsonQueryArray
  | value => jsonValue
  | valueArray => jsonValueArray

/-- What a function makes of its arguments. -/
def parser : Lookup → List Argument → Except Error Call
  | query => parseQuery
  | queryArray => parseLookup "json_query_array" jsonQueryArray
  | value => parseLookup "json_value" jsonValue
  | valueArray => parseLookup "json_value_array" jsonValueArray

/-- **What a function makes of the part that is found**, given by what the document is given as. -/
def result : Lookup → Input → Json → Option SqlValue
  | query, input, found => some (input.render found)
  | queryArray, input, found => found.items?.map fun items => .array (items.map input.render)
  | value, _, found => found.scalarText?.map .varchar
  | valueArray, _, found => (found.items?.bind scalarTexts?).map .array

theorem run_call (l : Lookup) (input : Input) (path : Option String) :
    (l.call input path).run config = runLookup config input path (l.result input) := by
  cases l <;> rfl

theorem parse_eq {l : Lookup} (h : Text.asciiLower name ∈ l.names) : Call.parse name = l.parser := by
  apply parse_of_names
  cases l with
  | query => exact .query (List.mem_pair.1 h)
  | queryArray => exact .queryArray (List.mem_pair.1 h)
  | value => exact .value (List.mem_pair.1 h)
  | valueArray => exact .valueArray (List.mem_pair.1 h)

theorem ofArguments_putFirst (input : Input) (others : Arguments) :
    Input.ofArguments (others.putFirst input.toSql) 0 = .ok input := by
  cases input <;> rfl

/-- Behind the document there is a path, which is read from the other arguments. -/
theorem exists_path (function : String) (least : ℕ) (make : Input → Option String → Call)
    {path : Arguments → Except Error (Option String)}
    (hpath : ∀ (others : Arguments) (v w : SqlValue), path (others.putFirst v) = path (others.putFirst w))
    (rest : List Argument) :
    ∃ read : Except Error (Option String), ∀ input : Input,
      (do
        let args ← ofList function [] (⟨none, input.toSql⟩ :: rest)
        args.expectCount least (some 2)
        return make (← Input.ofArguments args 0) (← path args)) = read.map (make input) := by
  refine ⟨(do
    let others ← ofList function [] rest
    (others.putFirst .null).expectCount least (some 2)
    path (others.putFirst .null)), fun input => ?_⟩
  rw [ofList_cons]
  cases ofList function [] rest with
  | error e => rfl
  | ok others =>
    have hcount : (others.putFirst input.toSql).expectCount least (some 2) =
      (others.putFirst .null).expectCount least (some 2) := rfl
    simp only [Except.map, bind, Except.bind, ofArguments_putFirst, hcount, hpath others input.toSql .null]
    cases (others.putFirst .null).expectCount least (some 2) with
    | error e => rfl
    | ok _ => cases path (others.putFirst .null) <;> rfl

/-- **What is made of the other arguments**, a path or an error, has nothing to do with the document. -/
theorem parser_cons (l : Lookup) (rest : List Argument) :
    ∃ path : Except Error (Option String), ∀ input : Input,
      l.parser (⟨none, input.toSql⟩ :: rest) = path.map (l.call input) := by
  cases l with
  | query => exact exists_path "json_query" 2 jsonQuery (fun _ _ _ => rfl) rest
  | queryArray => exact exists_path "json_query_array" 1 jsonQueryArray (fun _ _ _ => rfl) rest
  | value => exact exists_path "json_value" 1 jsonValue (fun _ _ _ => rfl) rest
  | valueArray => exact exists_path "json_value_array" 1 jsonValueArray (fun _ _ _ => rfl) rest

end Lookup

/-! ## Answers -/

namespace Engine

/-- **The answer to a call** of a function with a document and the text of a path. -/
def answer (config : Config) (cache : PathCache) (name : String) (input : Input) (path : String) :
    Except Error SqlValue :=
  ((call config name [⟨none, input.toSql⟩, ⟨none, .varchar path⟩]).run.run cache).1

/-- **A lookup answers with what it makes of the part that is found**, and with `NULL` if there is none. -/
theorem answer_eq (hcache : cache.Sound config.maxPathSteps) (hp : Path.compile config.maxPathSteps s = .ok p)
    {l : Lookup} (hname : Text.asciiLower name ∈ l.names) (input : Input) :
    answer config cache name input s =
      .ok (((input.part? config p.steps).bind (l.result input)).getD .null) := by
  have hparse : Call.parse name [⟨none, input.toSql⟩, ⟨none, .varchar s⟩] = .ok (l.call input (some s)) := by
    rw [Lookup.parse_eq hname]
    cases l <;> cases input <;> rfl
  have hget := (PathCache.get_of_sound hcache s).1
  rw [answer, call_of_parse hparse, Lookup.run_call, runLookup, Action.run_bind,
    Action.run_compileOptional (hget.trans hp)]
  refine congrArg Except.ok (congrArg (Option.getD · SqlValue.null) ?_)
  rw [Input.part?, Option.bind_assoc]
  rfl

/-- The names of the functions, as they are. -/
theorem asciiLower_mem_names {l : Lookup} (hname : name ∈ l.names) : Text.asciiLower name ∈ l.names := by
  have hlower : Text.asciiLower name = name := by
    cases l <;> simp only [Lookup.names, List.mem_cons, List.not_mem_nil, or_false] at hname <;>
      rcases hname with rfl | rfl <;> exact Text.asciiLower_eq (by decide)
  rwa [hlower]

section Elements

variable (hcache : cache.Sound config.maxPathSteps) (hp : Path.compile config.maxPathSteps s = .ok p)
include hcache hp

/-- Where no array is found, the array forms give `NULL`. -/
theorem answer_of_no_array (h : (input.part? config p.steps).bind items? = none) :
    answer config cache "json_query_array" input s = .ok .null ∧
      answer config cache "json_value_array" input s = .ok .null := by
  have hnone : ∀ part, input.part? config p.steps = some part → part.items? = none := by
    intro part hpart
    rwa [hpart] at h
  rw [answer_eq hcache hp (l := .queryArray) (asciiLower_mem_names (by decide)) input,
    answer_eq hcache hp (l := .valueArray) (asciiLower_mem_names (by decide)) input]
  cases hpart : input.part? config p.steps with
  | none => exact ⟨rfl, rfl⟩
  | some part => simp [Lookup.result, hnone part hpart]

/-- Where an array is found, the array forms give its elements, or their scalars if none is an array or object. -/
theorem answer_of_array (h : (input.part? config p.steps).bind items? = some items) :
    answer config cache "json_query_array" input s = .ok (.array (items.map input.render)) ∧
      answer config cache "json_value_array" input s =
        .ok (if items.any isContainer then .null else .array (items.map scalar)) := by
  have hpart := Input.bind_items?_eq_some_iff.1 h
  rw [answer_eq hcache hp (l := .queryArray) (asciiLower_mem_names (by decide)) input,
    answer_eq hcache hp (l := .valueArray) (asciiLower_mem_names (by decide)) input]
  simp only [hpart, Option.bind_some, Lookup.result, items?, scalarTexts?_eq]
  refine ⟨rfl, ?_⟩
  split_ifs <;> rfl

/-- An index behind the path leads to the element of the array that is found. -/
theorem answer_of_element (hlength : p.steps.length < config.maxPathSteps)
    (h : (input.part? config p.steps).bind items? = some items) (n : UInt64) :
    answer config cache "json_query" input (Path.indexed s n) =
        .ok ((items.map input.render)[n.toNat]?.getD .null) ∧
      answer config cache "json_value" input (Path.indexed s n) = .ok ((items.map scalar)[n.toNat]?.getD .null) := by
  have hindexed := Path.compile_indexed hp hlength n
  have hpart := input.part?_index config p.steps n.toNat
  rw [h, Option.bind_some] at hpart
  rw [answer_eq hcache hindexed (l := .query) (asciiLower_mem_names (by decide)) input,
    answer_eq hcache hindexed (l := .value) (asciiLower_mem_names (by decide)) input]
  simp only [hpart, List.getElem?_map]
  cases items[n.toNat]? <;> exact ⟨rfl, rfl⟩

end Elements

/-- **The array forms agree with access to the elements.** If an array is given, then the other function gives at
each index the element that stands there, and `NULL` behind the last one. The scalars that are given are as many as
the parts, and `NULL` is given in their place iff it is for the parts, or one of these is an array or object. -/
theorem answer_indexed (hcache : cache.Sound config.maxPathSteps) (input : Input)
    (hp : Path.compile config.maxPathSteps s = .ok p) (hlength : p.steps.length < config.maxPathSteps) :
    (∀ values, answer config cache "json_query_array" input s = .ok (.array values) → ∀ n : UInt64,
        answer config cache "json_query" input (Path.indexed s n) = .ok (values[n.toNat]?.getD .null)) ∧
      (∀ texts, answer config cache "json_value_array" input s = .ok (.array texts) →
        (∃ values, answer config cache "json_query_array" input s = .ok (.array values) ∧
          texts.length = values.length) ∧
        ∀ n : UInt64, answer config cache "json_value" input (Path.indexed s n) =
          .ok (texts[n.toNat]?.getD .null)) ∧
      (answer config cache "json_value_array" input s = .ok .null ↔
        answer config cache "json_query_array" input s = .ok .null ∨
          ∃ items, input.part? config p.steps = some (.array items) ∧
            answer config cache "json_query_array" input s = .ok (.array (items.map input.render)) ∧
            ∃ item ∈ items, item.isContainer = true) ∧
      ∀ name ∈ ["json_query_array", "json_value_array"], answer config cache name input s = .ok .null ∨
        ∃ values, answer config cache name input s = .ok (.array values) := by
  cases hfound : (input.part? config p.steps).bind items? with
  | none =>
    obtain ⟨hquery, hvalue⟩ := answer_of_no_array hcache hp hfound
    simp [hquery, hvalue]
  | some items =>
    obtain ⟨hquery, hvalue⟩ := answer_of_array hcache hp hfound
    have helement := answer_of_element hcache hp hlength hfound
    have hpart := Input.bind_items?_eq_some_iff.1 hfound
    refine ⟨?_, ?_, ?_, ?_⟩
    · intro values hvalues n
      rw [hquery] at hvalues
      cases hvalues
      exact (helement n).1
    · intro texts htexts
      rw [hvalue] at htexts
      split_ifs at htexts
      · cases htexts
      · cases htexts
        exact ⟨⟨_, hquery, by rw [List.length_map, List.length_map]⟩, fun n => (helement n).2⟩
    · rw [hvalue]
      constructor
      · intro hnull
        split_ifs at hnull with hany
        · exact .inr ⟨items, hpart, hquery, List.any_eq_true.1 hany⟩
        · cases hnull
      · rintro (hnull | ⟨items', hpart', -, hany⟩)
        · rw [hquery] at hnull
          cases hnull
        · cases hpart.symm.trans hpart'
          rw [if_pos (List.any_eq_true.2 hany)]
    · intro name hname
      simp only [List.mem_cons, List.not_mem_nil, or_false] at hname
      rcases hname with rfl | rfl
      · exact .inr ⟨_, hquery⟩
      · rw [hvalue]
        split_ifs
        · exact .inl rfl
        · exact .inr ⟨_, rfl⟩

/-- An array of `null` and a truth value. -/
theorem answer_indexed_null :
    answer .standard (newCache .standard) "json_query_array" (.json (.object [("a", .array [.null, .bool true])]))
        "$.a" = .ok (.array [.json .null, .json (.bool true)]) ∧
      answer .standard (newCache .standard) "json_query" (.json (.object [("a", .array [.null, .bool true])]))
        (Path.indexed "$.a" 0) = .ok (.json .null) ∧
      answer .standard (newCache .standard) "json_query" (.json (.object [("a", .array [.null, .bool true])]))
        (Path.indexed "$.a" 2) = .ok .null ∧
      answer .standard (newCache .standard) "json_value" (.json (.object [("a", .array [.null, .bool true])]))
        (Path.indexed "$.a" 0) = .ok .null := by
  have hcache := PathCache.sound_empty Config.standard.pathCacheCapacity Config.standard.maxPathSteps
  have hp : Path.compile Config.standard.maxPathSteps "$.a" = .ok ⟨"$.a", [.member "a"]⟩ := by decide +kernel
  have hfound : ((Input.json (.object [("a", .array [.null, .bool true])])).part? .standard
      [.member "a"]).bind items? = some [.null, .bool true] := by rfl
  obtain ⟨hquery, hvalue⟩ := answer_of_array hcache hp hfound
  obtain ⟨hparts, htexts, -, -⟩ :=
    answer_indexed hcache (.json (.object [("a", .array [.null, .bool true])])) hp (by decide)
  exact ⟨hquery, hparts _ hquery 0, hparts _ hquery 2, (htexts _ hvalue).2 0⟩

end Engine

end SqlJson
