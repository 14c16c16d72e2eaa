/-!
# Sizes of texts

* `Text.byteSize`: the size of a text in UTF-8.
-/

namespace SqlJson.Text

/-- The number of bytes of a text in UTF-8. -/
def byteSize (cs : List Char) : Nat := cs.foldr (fun c size => c.utf8Size + size) 0

end SqlJson.Text
