/-!
# What can be wrong with a JSON text

* `Json.Kind`: the six kinds of JSON values.
* `Json.Fault.message`: the wording of each fault.
-/

namespace SqlJson.Json

/-- The kinds of JSON values. -/
inductive Kind where
  | null | boolean | number | string | array | object
deriving DecidableEq, Repr

/-- The name of a kind. -/
def Kind.name : Kind → String
  | null => "null"
  | boolean => "boolean"
  | number => "number"
  | string => "string"
  | array => "array"
  | object => "object"

/-- The ways a text can fail to be JSON. -/
inductive Fault where
  | unexpectedEnd
  | trailingCharacters
  | expectedValue
  | expectedKey
  | expectedColon
  | expectedArrayEnd
  | expectedObjectEnd
  | unterminatedString
  | controlCharacter
  | loneSurrogate
  | unpairedSurrogate
  | unknownEscape
  | expectedHexDigit
  | leadingZero
  | expectedDigit
  | expectedFraction
  | expectedExponent
  | tooDeep (maxDepth : Nat)
deriving DecidableEq, Repr

/-- The wording of a fault. -/
def Fault.message : Fault → String
  | unexpectedEnd => "unexpected end of input"
  | trailingCharacters => "unexpected trailing characters"
  | expectedValue => "expected a JSON value"
  | expectedKey => "expected a string key"
  | expectedColon => "expected ':'"
  | expectedArrayEnd => "expected ',' or ']'"
  | expectedObjectEnd => "expected ',' or '\x7d'"
  | unterminatedString => "unterminated string"
  | controlCharacter => "unescaped control character in string"
  | loneSurrogate => "lone surrogate in \\u escape"
  | unpairedSurrogate => "invalid surrogate pair"
  | unknownEscape => "invalid escape sequence"
  | expectedHexDigit => "invalid hex digit in \\u escape"
  | leadingZero => "leading zeros are not allowed"
  | expectedDigit => "expected a digit"
  | expectedFraction => "expected a digit after the decimal point"
  | expectedExponent => "expected exponent digits"
  | tooDeep maxDepth => "nesting exceeds the maximum depth of " ++ toString maxDepth

end SqlJson.Json
