import SqlJson.Expression.Evaluation

/-!
# The command

Expressions come as arguments, or line by line from the input if there are no such arguments.
Each is answered by a line. A command that is asked for its version does nothing else.

* `Command.parse`: what the arguments ask for.
* `Command.Build.run`: what is printed, and the status the command ends with: 0 if every
  expression has a value, 1 if some has none, 2 if the command cannot be carried out.
-/

namespace SqlJson.Command

/-- What a build says of itself: a version, which a packager may set, and a profile. -/
structure Build where
  version : String
  profile : String

/-- The build for release under the version of the package. -/
def Build.standard : Build := ⟨"0.3.0", "release"⟩

/-- The line that shows the version. -/
def Build.versionLine (build : Build) : String :=
  "spineljson version " ++ build.version ++ " (" ++ build.profile ++ " build)"

/-- What is to be evaluated: a file of settings, the last one named, and expressions. -/
structure Request where
  configFile : Option String
  expressions : List String

/-- What the arguments ask for. -/
inductive Invocation where
  | version
  | evaluation (request : Request)

/-- The request of an invocation that evaluates expressions. -/
def Invocation.request? : Invocation → Option Request
  | version => none
  | evaluation request => some request

/-- Splits the options from the expressions; `none` if the name of a file is missing. -/
def splitOptions : List String → Option Request
  | [] => some ⟨none, []⟩
  | ["--config"] => none
  | "--config" :: file :: rest =>
    (splitOptions rest).map fun request =>
      { request with configFile := request.configFile <|> some file }
  | expression :: rest =>
    (splitOptions rest).map fun request =>
      { request with expressions := expression :: request.expressions }

/-- **What the arguments ask for**; `none` if the name of a file is missing. The version is
asked for by any argument, before the others are looked at. -/
def parse (args : List String) : Option Invocation :=
  if args.contains "--version" then some .version else (splitOptions args).map .evaluation

/-- The expressions in an input: its lines without blanks at their ends, empty ones left out. -/
def inputExpressions (input : String) : List String :=
  ((input.toList.splitOn '\n').map Text.trim).filter (· ≠ []) |>.map String.ofList

/-- Evaluates expressions one after another: the lines printed, and whether all have values. -/
def evaluateAll (config : Config) : List String → StateM PathCache (List String × Bool)
  | [] => return ([], true)
  | expression :: rest => do
    let (line, ok) ← Expression.runLine config expression
    let (lines, allOk) ← evaluateAll config rest
    return (line :: lines, ok && allOk)

/-- What a command leaves behind. -/
structure Result where
  status : Nat
  output : String

/-- **Carries out a command** of a build, on the files that `readFile` knows. -/
def Build.run (build : Build) (readFile : String → Option String) (args : List String) (input : String) :
    Result :=
  match parse args with
  | none => ⟨2, ""⟩
  | some .version => ⟨0, build.versionLine ++ "\n"⟩
  | some (.evaluation request) =>
    let config? := match request.configFile with
      | none => some Config.standard
      | some file => (readFile file).bind fun text => (Config.ofToml text).toOption
    match config? with
    | none => ⟨2, ""⟩
    | some config =>
      let expressions :=
        if request.expressions.isEmpty then inputExpressions input else request.expressions
      let ((lines, ok), _) := (evaluateAll config expressions).run (Engine.newCache config)
      ⟨if ok then 0 else 1, String.join (lines.map (· ++ "\n"))⟩

/-- Carries out a command of the standard build. -/
def run (readFile : String → Option String) (args : List String) (input : String) : Result :=
  Build.standard.run readFile args input

end SqlJson.Command
