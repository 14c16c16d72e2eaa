import SqlJson.Json.Basic

/-!
# Paths

A path leads from the root of a document, step by step, to a place in it.

* `Path.lookup`: the value at a place. A located `null` is a value like any other.
* `Step.child?`: the value one step below another.
-/

namespace SqlJson

/-- A step of a path. The two spellings of a member lead to the same place. -/
inductive Step where
  | member (key : String)
  | quoted (key : String)
  | index (n : Nat)
deriving DecidableEq, Repr

namespace Step

/-- The key of a member step. -/
def key? : Step → Option String
  | member key | quoted key => some key
  | index _ => none

/-- **One step down.** -/
def child? : Step → Json → Option Json
  | member key, json | quoted key, json => json.get? key
  | index n, json => json.item? n

end Step

/-- **A path**: the text it is written as, and its steps from the root on. -/
structure Path where
  text : String
  steps : List Step
deriving DecidableEq, Repr

namespace Path

/-- The path that leads nowhere: the root itself. -/
def isRoot (path : Path) : Bool := path.steps.isEmpty

/-- The key of the last step, if that leads to a member. -/
def lastKey? (path : Path) : Option String := path.steps.getLast?.bind Step.key?

/-- The value that steps lead to. -/
def follow : List Step → Json → Option Json
  | [], json => some json
  | step :: rest, json => (step.child? json).bind (follow rest)

/-- **The value at the end of a path.** -/
def lookup (path : Path) (root : Json) : Option Json := follow path.steps root

end Path

end SqlJson
