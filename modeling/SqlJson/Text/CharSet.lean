/-!
# Sets of characters

A set of characters is given by the code points at which membership changes: the set begins at
the first bound, ends before the second, begins again at the third, and so on. The sets named
for Unicode properties are those of version 17.

* `CharSet.contains`: membership, the parity of the number of bounds passed.
-/

namespace SqlJson.Text

/-- A set of characters, as the increasing code points at which membership changes. -/
structure CharSet where
  bounds : List Nat

namespace CharSet

/-- A character is in the set when it has passed an odd number of bounds. -/
def contains (s : CharSet) (c : Char) : Bool :=
  (s.bounds.takeWhile (· ≤ c.toNat)).length % 2 = 1

end CharSet

end SqlJson.Text
