import SqlJson.Text.CharSet

/-!
# Blanks

Characters with the Unicode property `White_Space`, and trimming by it.

* `Text.trim`: a text without the blanks at its two ends.
-/

namespace SqlJson.Text

/-- The property `White_Space`. -/
def whiteSpace : CharSet := ⟨[
  0x9, 0xE, 0x20, 0x21, 0x85, 0x86, 0xA0, 0xA1, 0x1680, 0x1681, 0x2000, 0x200B, 0x2028, 0x202A,
  0x202F, 0x2030, 0x205F, 0x2060, 0x3000, 0x3001]⟩

/-- Whether a character is white space. -/
def isBlank (c : Char) : Bool := whiteSpace.contains c

/-- Drops blanks from the front. -/
def trimLeft (cs : List Char) : List Char := cs.dropWhile isBlank

/-- **Trimming**: drops blanks from both ends. -/
def trim (cs : List Char) : List Char := (trimLeft (trimLeft cs).reverse).reverse

end SqlJson.Text
