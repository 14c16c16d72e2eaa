import SqlJson.Config
import SqlJson.Edit.Basic
import SqlJson.Function.Call
import SqlJson.Json.Reader
import SqlJson.Json.StripNulls
import SqlJson.Path.Cache
import SqlJson.Sql.Encoding
import SqlJson.Sql.Extraction

/-!
# Running calls

A call may fail, and it compiles its paths through the cache of the engine, which it leaves
changed even if it fails.

* `Action`: what can be done with a path cache.
* `Call.run`: the value of a call.
-/

namespace SqlJson

/-- **What can be done with a path cache**: it may fail, and leaves a cache in either case. -/
abbrev Action := ExceptT Error (StateM PathCache)

/-- Compiles a path through the cache. -/
def compilePath (text : String) : Action Path := fun cache => cache.get text

/-- Compiles a path that may be `NULL`. -/
def compileOptional : Option String → Action (Option Path)
  | none => return none
  | some text => return some (← compilePath text)

/-- The options of the reader under the limits of an engine. -/
def Config.readOptions (config : Config) (mode : Option WideMode) : Json.Options :=
  ⟨mode, config.maxDepth⟩

/-- The document to look into, if there is one. Numbers of a text are kept as they are written. -/
def Input.resolve (config : Config) : Input → Option Json
  | .json value => some value
  | .text source => (Json.read (config.readOptions none) source).toOption
  | .null => none

/-- A part of a document as an SQL value: JSON from JSON, text from text. -/
def Input.render : Input → Json → SqlValue
  | .text _, part => .varchar part.compact
  | _, part => .json part

/-- The JSON values that an argument adds to an array. -/
def editValues (eachElement : Bool) : SqlValue → List Json
  | .array items =>
    if eachElement then items.map (SqlValue.toJson false) else [(SqlValue.array items).toJson false]
  | value => [value.toJson false]

/-- The scalars of an array as strings, if it holds no containers. -/
def scalarTexts? : List Json → Option (List SqlValue)
  | [] => some []
  | .null :: rest => (scalarTexts? rest).map (SqlValue.null :: ·)
  | item :: rest => do
    let text ← item.scalarText?
    return SqlValue.varchar text :: (← scalarTexts? rest)

/-- The edits of a call. All paths are compiled, and all edits validated, before the document is
touched; a path that is `NULL` makes no edit. -/
def collectEdits {α : Type} (make : Path → α → Edit) :
    List (Option String × α) → Action (List Edit)
  | [] => return []
  | (path, payload) :: rest => do
    match ← compileOptional path with
    | none => collectEdits make rest
    | some path =>
      let edit := make path payload
      edit.validate
      return edit :: (← collectEdits make rest)

/-- **Edits a document**, or gives `NULL` for `NULL`. -/
def runEdits {α : Type} (config : Config) (make : Path → α → Edit) (json : Option Json)
    (requests : List (Option String × α)) : Action SqlValue := do
  let edits ← collectEdits make requests
  match json with
  | none => return .null
  | some root => return .json (← Edit.applyAll config.maxArrayPad root edits)

/-- What a call finds at a path of a document, given by what it makes of the input and of the
value there; `NULL` if it finds nothing. -/
def runLookup (config : Config) (input : Input) (path : Option String)
    (result : Json → Option SqlValue) : Action SqlValue := do
  let path ← compileOptional path
  let found := do
    let path ← path
    let root ← input.resolve config
    result (← path.lookup root)
  return found.getD .null

/-- A document with the value at a path stripped of nulls. -/
def runStripNulls (config : Config) (json : Option Json) (path : Option String)
    (stripping : Json.Stripping) : Action SqlValue := do
  match ← compileOptional path, json with
  | some path, some root =>
    match path.lookup root with
    | none => return .json root
    | some target =>
      let stripped := target.stripNulls stripping
      let value := if stripping.empties && stripped.isEmptyContainer then .null else stripped
      let (edited, _) ← (Edit.set path value false).apply config.maxArrayPad root
      return .json edited
  | _, _ => return .null

/-- Reads a text as JSON. -/
def runParseJson (config : Config) (mode : WideMode) (text : String) : Except Error Json :=
  if config.maxInputBytes < text.utf8ByteSize then
    .error (.argument (.textTooLong text.utf8ByteSize config.maxInputBytes))
  else Json.read (config.readOptions (some mode)) text

namespace Call

/-- **The value of a call.** -/
def run (config : Config) : Call → Action SqlValue
  | parseJson none _ => return .null
  | parseJson (some text) mode => return .json (← runParseJson config mode text)
  | toJson value stringify => return .json (value.toJson stringify)
  | toJsonString value pretty =>
    let json := value.toJson false
    return .varchar (if pretty then json.pretty config.prettyIndent else json.compact)
  | jsonQuery input path => runLookup config input path fun found => some (input.render found)
  | jsonQueryArray input path =>
    runLookup config input path fun found => found.items?.map fun items =>
      .array (items.map input.render)
  | jsonValue input path =>
    runLookup config input path fun found => found.scalarText?.map SqlValue.varchar
  | jsonValueArray input path =>
    runLookup config input path fun found => (found.items?.bind scalarTexts?).map SqlValue.array
  | jsonSet json edits create =>
    runEdits config (fun path value => .set path (value.toJson false) create) json edits
  | jsonRemove json paths =>
    runEdits config (fun path (_ : Unit) => .remove path) json (paths.map (·, ()))
  | jsonArrayAppend json edits eachElement =>
    runEdits config (fun path value => .append path (editValues eachElement value)) json edits
  | jsonArrayInsert json edits eachElement =>
    runEdits config (fun path value => .insert path (editValues eachElement value)) json edits
  | jsonType json => return json.elim .null fun json => .varchar json.kind.name
  | jsonArray values => return .json (.array (values.map (SqlValue.toJson false)))
  | jsonObject members =>
    return .json (Json.ofMembers (members.map fun (key, value) => (key, value.toJson false)))
  | jsonStripNulls json path arrays removeEmpty =>
    runStripNulls config json path ⟨arrays, removeEmpty⟩
  | extract _ none _ => return .null
  | extract extractor (some json) mode =>
    match extractor.lax, extractor.array with
    | true, true => return json.laxArray extractor.target
    | true, false => return json.lax extractor.target
    | false, true => json.strictArray extractor.target mode
    | false, false => json.strict extractor.target mode

end Call

end SqlJson
