/-!
# What can be wrong with a path

* `Path.Fault.message`: the wording of each fault found at a position of the path text.
-/

namespace SqlJson.Path

/-- The ways a text can fail to be a path. -/
inductive Fault where
  | noRoot
  | expectedName
  | expectedIndexOrName
  | indexTooLarge
  | expectedClose
  | unexpectedCharacter
  | unterminatedName
  | unknownEscape
  | tooManySteps (maxSteps : Nat)
deriving DecidableEq, Repr

/-- The wording of a fault at a byte position; some faults concern the path as a whole. -/
def Fault.message (position : Nat) : Fault → String
  | noRoot => "a path must start with '$'"
  | expectedName => "expected a member name" ++ place
  | expectedIndexOrName => "expected a non-negative index or a quoted name" ++ place
  | indexTooLarge => "array index is too large"
  | expectedClose => "expected ']'" ++ place
  | unexpectedCharacter => "unexpected character" ++ place
  | unterminatedName => "unterminated quoted name starting" ++ place
  | unknownEscape => "invalid escape" ++ place
  | tooManySteps maxSteps => "path has more than " ++ toString maxSteps ++ " steps"
where
  place : String := " at position " ++ toString position

end SqlJson.Path
