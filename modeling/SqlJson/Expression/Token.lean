import SqlJson.Text.Quoted
import SqlJson.Sql.Type

/-!
# Tokens of expressions

* `Token.description`: a token as messages show it.
* `Fault.message`: the wording of what can be wrong with an expression.
-/

namespace SqlJson.Expression

/-- A token of an expression. -/
inductive Token where
  | ident (name : String)
  | number (text : String)
  | string (text : String)
  | leftParen
  | rightParen
  | leftBracket
  | rightBracket
  | comma
  | dot
  | arrow
  | minus
deriving DecidableEq, Repr

/-- A token as messages show it. -/
def Token.description : Token → String
  | ident name => "Ident(" ++ Text.quoted name ++ ")"
  | number text => "Number(" ++ Text.quoted text ++ ")"
  | string text => "Str(" ++ Text.quoted text ++ ")"
  | leftParen => "LParen"
  | rightParen => "RParen"
  | leftBracket => "LBracket"
  | rightBracket => "RBracket"
  | comma => "Comma"
  | dot => "Dot"
  | arrow => "Arrow"
  | minus => "Minus"

/-- The ways a text can fail to be an expression. -/
inductive Fault where
  | unexpectedCharacter (c : Char)
  | unterminatedString
  | unexpectedEnd
  | expectedToken (expected found : Token)
  | expectedNumber (found : Token)
  | expectedArrayEnd (found : Token)
  | expectedArgumentEnd (found : Token)
  | expectedFunctionName (found : Token)
  | expectedFieldName (found : Token)
  | unexpectedToken (found : Token)
  | trailingToken (found : Token)
  | unknownType (name : String)
  | unexpectedIdentifier (name : String)
  | malformedNumber (text : String)
  | noLiteralForm (type : SqlType)
deriving DecidableEq, Repr

/-- The wording of a fault. -/
def Fault.message : Fault → String
  | unexpectedCharacter c => "unexpected character '" ++ c.toString ++ "'"
  | unterminatedString => "unterminated string literal"
  | unexpectedEnd => "unexpected end of expression"
  | expectedToken expected found =>
    "expected " ++ expected.description ++ ", found " ++ found.description
  | expectedNumber found => "expected a number after '-', found " ++ found.description
  | expectedArrayEnd found => "expected ',' or ']', found " ++ found.description
  | expectedArgumentEnd found => "expected ',' or ')', found " ++ found.description
  | expectedFunctionName found => "expected a function name, found " ++ found.description
  | expectedFieldName found => "expected a field name, found " ++ found.description
  | unexpectedToken found => "unexpected token " ++ found.description
  | trailingToken found => "unexpected trailing token " ++ found.description
  | unknownType name => "unknown type '" ++ name ++ "'"
  | unexpectedIdentifier name => "unexpected identifier '" ++ name ++ "'"
  | malformedNumber text => "invalid number '" ++ text ++ "'"
  | noLiteralForm type => type.name ++ " has no literal form"

end SqlJson.Expression
