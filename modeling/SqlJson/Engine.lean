import SqlJson.Function.Run

/-!
# The engine

An engine evaluates calls under its settings and keeps a cache of compiled paths from one call
to the next.

* `Engine.call`: the value of a call.
* `Engine.safeCall`: the same, with `NULL` in place of an error.
-/

namespace SqlJson.Engine

/-- The path cache of a new engine. -/
def newCache (config : Config) : PathCache :=
  PathCache.empty config.pathCacheCapacity config.maxPathSteps

/-- **Calls a function by its name.** -/
def call (config : Config) (name : String) (args : List Argument) : Action SqlValue := do
  let call ← Call.parse name args
  call.run config

/-- **Calls a function**; any error becomes `NULL`. -/
def safeCall (config : Config) (name : String) (args : List Argument) : Action SqlValue :=
  tryCatch (call config name args) fun _ => return .null

end SqlJson.Engine
