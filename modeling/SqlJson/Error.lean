import SqlJson.Expression.Token
import SqlJson.Json.Fault
import SqlJson.Path.Fault
import SqlJson.Text.Integer

/-!
# Errors

Every failure of a call or an expression is an `Error`, which holds its cause.

* `Error.message`: the one place where an error gets its wording.

An edit that does not fit its document and an SQL `NULL` that passes through a function are
no errors.
-/

namespace SqlJson

/-- A number that the storage or the target asked for cannot hold. -/
inductive PrecisionLoss where
  /-- The literal is no integer of 64 bits and no number held by a double. -/
  | notStorable (literal : String)
  /-- The double nearest to the literal is infinite. -/
  | notRoundable (literal : String)
  /-- The number is not held by a floating-point type without loss. -/
  | notExact (number : String) (target : SqlType)
  /-- The floating-point number nearest to the number is infinite. -/
  | outsideRange (number : String) (target : SqlType)
deriving DecidableEq, Repr

/-- The wording of a loss of precision. -/
def PrecisionLoss.message : PrecisionLoss → String
  | notStorable literal => "number " ++ literal ++ " cannot be stored without loss of precision"
  | notRoundable literal => "number " ++ literal ++ " is outside the range of DOUBLE"
  | notExact number target =>
    number ++ " cannot be converted to " ++ target.name ++ " without loss of precision"
  | outsideRange number target => number ++ " is outside the range of " ++ target.name

/-- A JSON value that a strict extraction refuses. -/
inductive ConversionFault where
  | notInteger (number : String) (target : ScalarType)
  | outOfRange (number : String) (target : ScalarType)
  | wrongKind (kind : Json.Kind) (target : ScalarType)
  | notArray (kind : Json.Kind) (element : ScalarType)
deriving DecidableEq, Repr

/-- The wording of a refused extraction. -/
def ConversionFault.message : ConversionFault → String
  | notInteger number target =>
    number ++ " is not an integer and cannot be converted to " ++ target.name
  | outOfRange number target => number ++ " is out of range for " ++ target.name
  | wrongKind kind target => "cannot convert JSON " ++ kind.name ++ " to " ++ target.name
  | notArray kind element =>
    "cannot convert JSON " ++ kind.name ++ " to ARRAY<" ++ element.name ++ ">"

/-- An argument or a literal whose value is not acceptable. -/
inductive ArgumentFault where
  | notNumeric (literal : String)
  | positionalAfterNamed (function : String)
  | unknownName (name function : String)
  | repeatedName (name : String)
  | unknownMode (argument text : String)
  | nullKey
  | textTooLong (size limit : Nat)
  | rootRemoval
  | noFinalIndex (path : String)
  | notInteger (fault : Text.IntegerFault)
  | emptyFloat
  | malformedFloat
  | malformedLiteral (type : SqlType) (text : String)
deriving DecidableEq, Repr

/-- The wording of an unacceptable argument. -/
def ArgumentFault.message : ArgumentFault → String
  | notNumeric literal => "'" ++ literal ++ "' is not a numeric literal"
  | positionalAfterNamed function =>
    "positional argument follows named arguments in " ++ function
  | unknownName name function => "unknown named argument '" ++ name ++ "' for " ++ function
  | repeatedName name => "named argument '" ++ name ++ "' given more than once"
  | unknownMode argument text =>
    argument ++ " must be 'exact' or 'round', got '" ++ text ++ "'"
  | nullKey => "JSON_OBJECT keys cannot be NULL"
  | textTooLong size limit =>
    "JSON text of " ++ toString size ++ " bytes exceeds the limit of " ++ toString limit ++ " bytes"
  | rootRemoval => "the root of a document ('$') cannot be removed"
  | noFinalIndex path => "array insert path '" ++ path ++ "' must end with an array index"
  | notInteger fault => "not an integer: " ++ fault.message
  | emptyFloat => "not a valid float: cannot parse float from empty string"
  | malformedFloat => "not a valid float: invalid float literal"
  | malformedLiteral type text => "invalid " ++ type.name ++ " literal '" ++ text ++ "'"

/-- An argument of a type that the function has no form for. -/
inductive TypeFault where
  | notBool (argument function : String) (found : SqlType)
  | notText (argument : String) (found : SqlType)
  | notJson (function : String) (found : SqlType)
  | notVarchar (function : String) (found : SqlType)
  | notJsonOrVarchar (function : String) (found : SqlType)
  | keyNotVarchar (found : SqlType)
deriving DecidableEq, Repr

/-- The wording of an argument of a wrong type. -/
def TypeFault.message : TypeFault → String
  | notBool argument function found =>
    "argument '" ++ argument ++ "' of " ++ function ++ " must be BOOL, got " ++ found.name
  | notText argument found => "argument '" ++ argument ++ "' must be VARCHAR, got " ++ found.name
  | notJson function found => function ++ " expects a JSON argument, got " ++ found.name
  | notVarchar function found => function ++ " expects a VARCHAR argument, got " ++ found.name
  | notJsonOrVarchar function found => function ++ " expects JSON or VARCHAR, got " ++ found.name
  | keyNotVarchar found => "JSON_OBJECT keys must be VARCHAR, got " ++ found.name

/-- **An error**, by its cause. -/
inductive Error where
  /-- A text that is not JSON, found out at a byte position. -/
  | json (fault : Json.Fault) (position : Nat)
  /-- A number that cannot be held as asked. -/
  | precision (loss : PrecisionLoss)
  /-- A text that is not a path, found out at a byte position. -/
  | path (text : String) (fault : Path.Fault) (position : Nat)
  /-- A JSON value outside the domain of a strict extraction. -/
  | conversion (fault : ConversionFault)
  | unknownFunction (name : String)
  | wrongArgumentCount (function : String)
  | argument (fault : ArgumentFault)
  | type (fault : TypeFault)
  /-- A text that is not an expression. -/
  | expression (fault : Expression.Fault)
  /-- A state that no call reaches. -/
  | internal (what : String)
deriving DecidableEq, Repr

/-- **The wording of an error.** -/
def Error.message : Error → String
  | json fault position =>
    "Invalid JSON at position " ++ toString position ++ ": " ++ fault.message
  | precision loss => "Precision error: " ++ loss.message
  | path text fault position =>
    "Invalid JSONPath '" ++ text ++ "': " ++ fault.message position
  | conversion fault => "Conversion error: " ++ fault.message
  | unknownFunction name => "Unknown function '" ++ name ++ "'"
  | wrongArgumentCount function =>
    "Wrong number of arguments for '" ++ function ++ "' function"
  | argument fault => "Invalid argument: " ++ fault.message
  | type fault => "Wrong type: " ++ fault.message
  | expression fault => "Syntax error: " ++ fault.message
  | internal what => "Internal error: " ++ what

end SqlJson
