import SqlJson.Text.Case
import SqlJson.Text.Integer
import SqlJson.Toml.Reader

/-!
# Configuration

* `Config`: the limits of an engine, and how it writes documents. The defaults are those of an
  engine that nobody has configured.
* `Config.ofEntries?`: the settings in a document; what it leaves out has its default.
* `Config.fault?`: the first setting that makes no sense.
* `Config.ofToml`: the settings in a text.
-/

namespace SqlJson

/-- **The settings of an engine.** -/
structure Config where
  logLevel : String := "info"
  /-- The most arrays and objects that may stand in one another in a text. -/
  maxDepth : Nat := 512
  /-- The most steps of a path. -/
  maxPathSteps : Nat := 256
  /-- The most bytes of a text that is parsed. -/
  maxInputBytes : Nat := 64 * 1024 * 1024
  /-- The most elements an edit may add to one array as padding. -/
  maxArrayPad : Nat := 1024 * 1024
  /-- How many compiled paths are kept. -/
  pathCacheCapacity : Nat := 1024
  /-- Blanks for each level of a document that is written prettily. -/
  prettyIndent : Nat := 2

namespace Config

/-- The settings of an engine that nobody has configured. -/
def standard : Config := {}

/-- What can be wrong with a configuration. -/
inductive Fault where
  | malformed
  | zeroLimit (name : String)
  | badIndent (indent : Nat)
  | unknownLogLevel (level : String)
deriving DecidableEq, Repr

/-- The wording of a fault. -/
def Fault.message : Fault → String
  | malformed => "Failed to parse TOML"
  | zeroLimit name => "limits." ++ name ++ " cannot be 0"
  | badIndent indent =>
    "output.pretty_indent must be between 1 and 16, got " ++ toString indent
  | unknownLogLevel level => "unknown log_level '" ++ level ++ "'"

/-! ## Settings in a document -/

/-- A natural number of 64 bits, or a default where nothing stands. -/
def natural? (default : Nat) : Option Toml.Item → Option Nat
  | none => some default
  | some (.integer n) => if 0 ≤ n ∧ n < UInt64.size then some n.toNat else none
  | some _ => none

/-- A string, or a default where nothing stands. -/
def string? (default : String) : Option Toml.Item → Option String
  | none => some default
  | some (.string text) => some text
  | some _ => none

/-- The items of a group of settings: those of a table by their names, those of an array by their
places. All items of a table must have values, but an array is read no further than there are
names. A group may be left out, and a date or time has no settings. -/
def group? (names : List String) : Option Toml.Item → Option (String → Option Toml.Item)
  | none | some .dateTime => some fun _ => none
  | some item =>
    match item.entries?, item.elements? with
    | some entries, _ => if entries.areValued then some (entries.lookup ·) else none
    | none, some elements => some fun name => (names.idxOf? name).bind (elements[·]?)
    | none, none => none

/-- The names of the limits. -/
def limitNames : List String :=
  ["max_depth", "max_path_steps", "max_input_bytes", "max_array_pad", "path_cache_capacity"]

/-- **The settings in a document.** Names that mean nothing are passed over, but what they name
must have a value. -/
def ofEntries? (entries : Toml.Entries) : Option Config := do
  let others := entries.filter fun (name, _) => name ≠ "limits" && name ≠ "output"
  guard (Toml.Entries.areValued others)
  let limits ← group? limitNames (entries.lookup "limits")
  let output ← group? ["pretty_indent"] (entries.lookup "output")
  return {
    logLevel := ← string? standard.logLevel (entries.lookup "log_level")
    maxDepth := ← natural? standard.maxDepth (limits "max_depth")
    maxPathSteps := ← natural? standard.maxPathSteps (limits "max_path_steps")
    maxInputBytes := ← natural? standard.maxInputBytes (limits "max_input_bytes")
    maxArrayPad := ← natural? standard.maxArrayPad (limits "max_array_pad")
    pathCacheCapacity := ← natural? standard.pathCacheCapacity (limits "path_cache_capacity")
    prettyIndent := ← natural? standard.prettyIndent (output "pretty_indent") }

/-! ## Validation -/

/-- Whether a text is a log level: a name in any case, or a number from 0 to 5. -/
def isLogLevel (text : String) : Bool :=
  (match Text.readInteger 0 (UInt64.size - 1) text.toList with
    | .ok n => n ≤ 5
    | .error _ => false)
  || ["", "error", "warn", "info", "debug", "trace", "off"].contains (Text.asciiLower text)

/-- **The first setting that makes no sense.** -/
def fault? (config : Config) : Option Fault :=
  if config.maxDepth = 0 then some (.zeroLimit "max_depth")
  else if config.maxPathSteps = 0 then some (.zeroLimit "max_path_steps")
  else if config.maxInputBytes = 0 then some (.zeroLimit "max_input_bytes")
  else if config.prettyIndent < 1 ∨ 16 < config.prettyIndent then
    some (.badIndent config.prettyIndent)
  else if !isLogLevel config.logLevel then some (.unknownLogLevel config.logLevel)
  else none

/-- **The settings in a text.** -/
def ofToml (text : String) : Except Fault Config :=
  match (Toml.read text).bind ofEntries? with
  | none => .error .malformed
  | some config =>
    match config.fault? with
    | some fault => .error fault
    | none => .ok config

end Config

end SqlJson
