import SqlJson.Sql.Value

/-!
# Arguments of functions

Positional arguments come first, named ones after them, each name once.

* `Arguments.ofList`: the arguments of a call, sorted into the two.
* `Arguments.flag`, `Arguments.mode`: the value of a named argument.
* `Arguments.json?`, `Arguments.text?`: a positional argument of a given type, or `NULL`.
* `Input.ofArguments`: a document given as JSON or as text.
-/

namespace SqlJson

/-- An argument, which may have a name. -/
structure Argument where
  name : Option String
  value : SqlValue

/-- **The arguments of a call.** -/
structure Arguments where
  /-- The name of the function in upper case, for messages. -/
  function : String
  positional : List SqlValue
  /-- Named arguments by their names in lower case. -/
  named : List (String × SqlValue)

namespace Arguments

/-- Takes up one more argument. -/
def add (allowed : List String) (args : Arguments) (arg : Argument) : Except Error Arguments :=
  match arg.name with
  | none =>
    if args.named.isEmpty then .ok { args with positional := args.positional ++ [arg.value] }
    else .error (.argument (.positionalAfterNamed args.function))
  | some name =>
    let key := Text.asciiLower name
    if !allowed.contains key then .error (.argument (.unknownName name args.function))
    else if args.named.any (·.1 = key) then .error (.argument (.repeatedName name))
    else .ok { args with named := args.named ++ [(key, arg.value)] }

/-- **Sorts the arguments of a call** to a function that knows the names in `allowed`. -/
def ofList (function : String) (allowed : List String) (args : List Argument) :
    Except Error Arguments :=
  args.foldlM (add allowed) ⟨Text.asciiUpper function, [], []⟩

/-- Wants at least `lo` positional arguments, and at most `hi` of them if that is given. -/
def expectCount (args : Arguments) (lo : Nat) (hi : Option Nat) : Except Error Unit :=
  if lo ≤ args.positional.length ∧ hi.all (args.positional.length ≤ ·) then .ok ()
  else .error (.wrongArgumentCount args.function)

/-- A positional argument; one that is not there counts as `NULL`. -/
def get (args : Arguments) (i : Nat) : SqlValue := args.positional.getD i .null

/-- **A truth value given by name**; `default` if it is absent or `NULL`. -/
def flag (args : Arguments) (name : String) (default : Bool) : Except Error Bool :=
  match args.named.lookup name with
  | none | some .null => .ok default
  | some (.bool value) => .ok value
  | some other => .error (.type (.notBool name args.function other.type))

/-- **A mode given by name**; `default` if it is absent or `NULL`. -/
def mode (args : Arguments) (name : String) (default : WideMode) : Except Error WideMode :=
  match args.named.lookup name with
  | none | some .null => .ok default
  | some (.varchar text) =>
    match WideMode.ofName? text with
    | some mode => .ok mode
    | none => .error (.argument (.unknownMode name text))
  | some other => .error (.type (.notText name other.type))

/-- A document given by position. -/
def json? (args : Arguments) (i : Nat) : Except Error (Option Json) :=
  match args.get i with
  | .null => .ok none
  | .json value => .ok (some value)
  | other => .error (.type (.notJson args.function other.type))

/-- The string that a value is. -/
def textOf? (function : String) : SqlValue → Except Error (Option String)
  | .null => .ok none
  | .varchar value => .ok (some value)
  | other => .error (.type (.notVarchar function other.type))

/-- A string given by position. -/
def text? (args : Arguments) (i : Nat) : Except Error (Option String) :=
  textOf? args.function (args.get i)

/-- A path given by position; if it is not there, the root. -/
def pathOrRoot? (args : Arguments) (i : Nat) : Except Error (Option String) :=
  if i < args.positional.length then args.text? i else .ok (some "$")

end Arguments

/-- **A document to look into**: JSON, or text that is read when it is looked into. -/
inductive Input where
  | json (value : Json)
  | text (source : String)
  | null

namespace Input

/-- A document given by position. -/
def ofArguments (args : Arguments) (i : Nat) : Except Error Input :=
  match args.get i with
  | .null => .ok .null
  | .json value => .ok (.json value)
  | .varchar value => .ok (.text value)
  | other => .error (.type (.notJsonOrVarchar args.function other.type))

end Input

end SqlJson
