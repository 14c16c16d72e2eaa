import SqlJson.Error
import SqlJson.Text.Blank
import SqlJson.Text.Letter

/-!
# Tokens of a text

* `Expression.tokenize`: the tokens of a text, blanks left out.
* `Expression.readString`: a string literal. A backslash escapes the quote and itself; before
  anything else it is a character like others, so that escapes of JSON inside it stay.
-/

namespace SqlJson.Expression

/-- Whether a backslash escapes what comes after it. -/
def isEscaped (quote : Char) : List Char → Bool
  | c :: _ => c = quote || c = '\\'
  | [] => false

/-- Reads the rest of a string up to its closing quote. -/
def readString (quote : Char) : List Char → Except Fault (List Char × List Char)
  | [] => .error .unterminatedString
  | c :: rest =>
    if c = quote then .ok ([], rest)
    else if c = '\\' ∧ isEscaped quote rest then
      match rest with
      | [] => .error .unterminatedString
      | e :: rest => (readString quote rest).map fun (text, after) => (e :: text, after)
    else (readString quote rest).map fun (text, after) => (c :: text, after)

/-- Splits an exponent off the front, if there is one; its digits may be missing. -/
def splitExponent : List Char → List Char × List Char
  | c :: rest =>
    if c = 'e' ∨ c = 'E' then
      let (sign, rest) := match rest with
        | '+' :: rest => (['+'], rest)
        | '-' :: rest => (['-'], rest)
        | rest => ([], rest)
      (c :: sign ++ rest.takeWhile Char.isDigit, rest.dropWhile Char.isDigit)
    else ([], c :: rest)
  | [] => ([], [])

/-- Splits a number off the front: digits, a point and digits, an exponent. -/
def splitNumber (cs : List Char) : List Char × List Char :=
  let whole := cs.takeWhile Char.isDigit
  let (fraction, rest) := match cs.dropWhile Char.isDigit with
    | '.' :: rest => ('.' :: rest.takeWhile Char.isDigit, rest.dropWhile Char.isDigit)
    | rest => ([], rest)
  let (exponent, rest) := splitExponent rest
  (whole ++ fraction ++ exponent, rest)

/-- Whether a text begins with a digit. -/
def beginsWithDigit : List Char → Bool
  | c :: _ => c.isDigit
  | [] => false

/-- **Reads a token** at a character that is no blank. -/
def readToken (c : Char) (rest : List Char) : Except Fault (Token × List Char) :=
  if c = '(' then .ok (.leftParen, rest)
  else if c = ')' then .ok (.rightParen, rest)
  else if c = '[' then .ok (.leftBracket, rest)
  else if c = ']' then .ok (.rightBracket, rest)
  else if c = ',' then .ok (.comma, rest)
  else if c = '-' then .ok (.minus, rest)
  else if c = '=' ∧ rest.head? = some '>' then .ok (.arrow, rest.tail)
  else if c = '\'' ∨ c = '"' then
    (readString c rest).map fun (text, after) => (.string (String.ofList text), after)
  else if c = '.' ∧ !beginsWithDigit rest then .ok (.dot, rest)
  else if c.isDigit ∨ c = '.' then
    let (text, after) := splitNumber (c :: rest)
    .ok (.number (String.ofList text), after)
  else if Text.isLetter c then
    .ok (.ident (String.ofList (c :: rest.takeWhile Text.isWord)), rest.dropWhile Text.isWord)
  else .error (.unexpectedCharacter c)

/-- Reads tokens up to the end of a text, after those in `before`, latest first. The fuel bounds
the number of tokens and blanks; the length of the text is enough. -/
def readTokens : Nat → List Token → List Char → Except Fault (List Token)
  | _, before, [] => .ok before.reverse
  | 0, _, c :: _ => .error (.unexpectedCharacter c)
  | fuel + 1, before, c :: rest =>
    if Text.isBlank c then readTokens fuel before rest
    else do
      let (token, rest) ← readToken c rest
      readTokens fuel (token :: before) rest

/-- **The tokens of a text.** -/
def tokenize (text : String) : Except Fault (List Token) :=
  readTokens text.toList.length [] text.toList

end SqlJson.Expression
