import SqlJson.Path.Reader

/-!
# The path cache

Paths that were compiled before are kept, the most recently used ones, up to a capacity.

* `PathCache.get`: the path of a text, from the cache if it is there. A text that is no path
  leaves the cache as it is.
-/

namespace SqlJson

/-- **Compiled paths by their texts**, the most recently used one first. -/
structure PathCache where
  capacity : Nat
  maxSteps : Nat
  entries : List (String × Path)

namespace PathCache

/-- A cache without entries. A capacity of zero keeps it so. -/
def empty (capacity maxSteps : Nat) : PathCache := ⟨capacity, maxSteps, []⟩

/-- Drops all entries. -/
def clear (cache : PathCache) : PathCache := { cache with entries := [] }

/-- How many paths are kept. -/
def size (cache : PathCache) : Nat := cache.entries.length

/-- Makes an entry the most recent one; the entry of the same text, or else the least recent one
of too many, gives way. -/
def touch (cache : PathCache) (text : String) (path : Path) : PathCache :=
  let others := cache.entries.eraseP (·.1 = text)
  { cache with entries := ((text, path) :: others).take cache.capacity }

/-- **The path of a text**, and the cache after it was used. -/
def get (cache : PathCache) (text : String) : Except Error Path × PathCache :=
  match cache.entries.lookup text with
  | some path => (.ok path, cache.touch text path)
  | none =>
    match Path.compile cache.maxSteps text with
    | .ok path => (.ok path, cache.touch text path)
    | .error error => (.error error, cache)

/-- A summary of the cache. -/
def summary (cache : PathCache) : String :=
  "PathCache \x7b len: " ++ toString cache.size ++ ", capacity: " ++ toString cache.capacity
    ++ ", max_steps: " ++ toString cache.maxSteps ++ " \x7d"

end PathCache

end SqlJson
