import SqlJson.Binary.Reader
import SqlJson.Expression.Lexer
import SqlJson.Sql.Value

/-!
# Expressions

```text
expression := call | array | structure | typed | literal
call       := [SAFE .] name ( [argument {, argument}] )
argument   := [name =>] expression
array      := [ [expression {, expression}] ]
structure  := STRUCT ( [field {, field}] )
field      := expression [AS name]
typed      := type string
literal    := NULL | TRUE | FALSE | [-] number | string
```

* `Expression.ofTokens`: the expression that tokens make up.
* `Expression.parse`: the expression of a text.
-/

namespace SqlJson

/-- **An expression.** -/
inductive Expression where
  | literal (value : SqlValue)
  /-- The text of a value of a type. It is looked at only when the expression is evaluated. -/
  | typed (type : SqlType) (text : String)
  | array (items : List Expression)
  | struct (fields : List (String × Expression))
  | call (name : String) (safe : Bool) (args : List (Option String × Expression))

namespace Expression

instance : Inhabited Expression := ⟨literal .null⟩

/-- A reading, or why there is none. A reader of the front of some tokens gives what it has read
and the tokens after it. -/
abbrev Reading := Except Fault

/-- **A number.** An integer is a `BIGINT` if it can be, else a `NUMERIC`; a number with a point
or an exponent is a `DOUBLE`. -/
def numberLiteral (text : List Char) : Reading Expression :=
  let malformed : Fault := .malformedNumber (String.ofList text)
  if text.any fun c => c = '.' || c = 'e' || c = 'E' then
    match Binary.ofChars? .double text with
    | some x => .ok (literal (.double x))
    | none => .error malformed
  else
    match Text.readInteger Int64.minValue.toInt Int64.maxValue.toInt text with
    | .ok n => .ok (literal (.bigint (Int64.ofInt n)))
    | .error _ =>
      match Decimal.ofChars? text with
      | some d => .ok (literal (.numeric d))
      | none => .error malformed

/-- The next token and those after it. -/
def next : List Token → Reading (Token × List Token)
  | [] => .error .unexpectedEnd
  | token :: rest => .ok (token, rest)

/-- The name of an argument, if one stands here. -/
def argumentName : List Token → Option String × List Token
  | .ident name :: .arrow :: rest => (some name, rest)
  | tokens => (none, tokens)

/-- The name of field number `n`: the one that is given, or else its number. -/
def fieldName (n : Nat) : List Token → Reading (String × List Token)
  | .ident word :: rest =>
    if Text.sameIgnoringCase word "as" then
      match rest with
      | .ident name :: rest => .ok (name, rest)
      | other :: _ => .error (.expectedFieldName other)
      | [] => .error .unexpectedEnd
    else .ok ("_field_" ++ toString n, .ident word :: rest)
  | tokens => .ok ("_field_" ++ toString n, tokens)

/-- A type followed by a string. -/
def typedLiteral (name text : String) : Reading Expression :=
  match SqlType.ofName? name with
  | some type => .ok (typed type text)
  | none => .error (.unknownType name)

mutual

/-- **Reads an expression.** The fuel bounds the number of expressions and brackets begun. Two units
for each token are enough; `ofTokens` gives twice as many, and four more. -/
def readExpression : Nat → List Token → Reading (Expression × List Token)
  | 0, _ => .error .unexpectedEnd
  | fuel + 1, tokens => do
    let (token, rest) ← next tokens
    match token with
    | .minus =>
      match ← next rest with
      | (.number text, rest) => return (← numberLiteral ('-' :: text.toList), rest)
      | (other, _) => .error (.expectedNumber other)
    | .number text => return (← numberLiteral text.toList, rest)
    | .string text => return (literal (.varchar text), rest)
    | .leftBracket =>
      match rest with
      | .rightBracket :: rest => return (array [], rest)
      | _ => readItems fuel [] rest
    | .ident name => readNamed fuel name rest
    | other => .error (.unexpectedToken other)

/-- Reads what a name begins. -/
def readNamed : Nat → String → List Token → Reading (Expression × List Token)
  | 0, _, _ => .error .unexpectedEnd
  | fuel + 1, name, tokens =>
    match Text.asciiUpper name, tokens with
    | "NULL", _ => .ok (literal .null, tokens)
    | "TRUE", _ => .ok (literal (.bool true), tokens)
    | "FALSE", _ => .ok (literal (.bool false), tokens)
    | "STRUCT", .leftParen :: .rightParen :: rest => .ok (struct [], rest)
    | "STRUCT", .leftParen :: rest => readFields fuel [] rest
    | "SAFE", .dot :: rest =>
      match rest with
      | .ident name :: rest => readCall fuel name true rest
      | other :: _ => .error (.expectedFunctionName other)
      | [] => .error .unexpectedEnd
    | _, .leftParen :: _ => readCall fuel name false tokens
    | _, .string text :: rest => (typedLiteral name text).map (·, rest)
    | _, _ => .error (.unexpectedIdentifier name)

/-- Reads the arguments of a call, from the opening parenthesis on. -/
def readCall : Nat → String → Bool → List Token → Reading (Expression × List Token)
  | 0, _, _, _ => .error .unexpectedEnd
  | _ + 1, _, _, [] => .error .unexpectedEnd
  | _ + 1, name, safe, .leftParen :: .rightParen :: rest => .ok (call name safe [], rest)
  | fuel + 1, name, safe, .leftParen :: rest => readArguments fuel name safe [] rest
  | _ + 1, _, _, other :: _ => .error (.expectedToken .leftParen other)

/-- Reads the elements of an array up to its end, after those in `before`, latest first. -/
def readItems : Nat → List Expression → List Token → Reading (Expression × List Token)
  | 0, _, _ => .error .unexpectedEnd
  | fuel + 1, before, tokens => do
    let (item, rest) ← readExpression fuel tokens
    match ← next rest with
    | (.comma, rest) => readItems fuel (item :: before) rest
    | (.rightBracket, rest) => return (array (item :: before).reverse, rest)
    | (other, _) => .error (.expectedArrayEnd other)

/-- Reads the arguments of a call up to its end, after those in `before`, latest first. -/
def readArguments : Nat → String → Bool → List (Option String × Expression) → List Token →
    Reading (Expression × List Token)
  | 0, _, _, _, _ => .error .unexpectedEnd
  | fuel + 1, name, safe, before, tokens => do
    let (argument, tokens) := argumentName tokens
    let (value, rest) ← readExpression fuel tokens
    let args := (argument, value) :: before
    match ← next rest with
    | (.comma, rest) => readArguments fuel name safe args rest
    | (.rightParen, rest) => return (call name safe args.reverse, rest)
    | (other, _) => .error (.expectedArgumentEnd other)

/-- Reads the fields of a structure up to its end, after those in `before`, latest first. -/
def readFields : Nat → List (String × Expression) → List Token →
    Reading (Expression × List Token)
  | 0, _, _ => .error .unexpectedEnd
  | fuel + 1, before, tokens => do
    let (value, rest) ← readExpression fuel tokens
    let (name, rest) ← fieldName (before.length + 1) rest
    let fields := (name, value) :: before
    match ← next rest with
    | (.comma, rest) => readFields fuel fields rest
    | (.rightParen, rest) => return (struct fields.reverse, rest)
    | (other, _) => .error (.expectedArgumentEnd other)

end

/-- **The expression that tokens make up**, all of them. -/
def ofTokens (tokens : List Token) : Reading Expression := do
  let (expression, rest) ← readExpression (4 * tokens.length + 4) tokens
  match rest with
  | [] => return expression
  | token :: _ => .error (.trailingToken token)

/-- **The expression of a text.** -/
def parse (text : String) : Except Error Expression :=
  (do ofTokens (← tokenize text)).mapError .expression

end Expression

end SqlJson
