import SqlJson.Json.Basic
import SqlJson.Text.Integer
import SqlJson.Text.Size

/-!
# Reading JSON

One pass over the characters of a text, which accepts RFC 8259 and nothing else, to a bounded
depth of nesting. Of members with equal keys the first is kept.

* `Json.readValue`: one value at the front of a text, and the text after it.
* `Json.read`: a whole text. An error holds the byte position at which it was found out.
-/

namespace SqlJson.Json

/-- A reading that failed: a fault, and the text from the place of the fault on; or a number
that cannot be stored. -/
inductive Failure where
  | malformed (fault : Fault) (rest : List Char)
  | number (error : Error)

/-- A reading, or why there is none. A reader of the front of a text gives what it has read and
the text after it. -/
abbrev Reading := Except Failure

/-- A failure at the front of a text. -/
def fail {α : Type} (fault : Fault) (rest : List Char) : Reading α :=
  .error (.malformed fault rest)

/-- How a text is read. -/
structure Options where
  /-- What is done with numbers that have no exact form; without a mode they are kept. -/
  mode : Option WideMode
  /-- The most arrays and objects that may stand in one another. -/
  maxDepth : Nat

/-- The characters that may stand between tokens. -/
def isBlank (c : Char) : Bool := c = ' ' || c = '\t' || c = '\n' || c = '\r'

/-- Drops blanks from the front. -/
def skipBlanks (cs : List Char) : List Char := cs.dropWhile isBlank

/-- Reads a keyword as a given value. -/
def readKeyword (keyword : String) (value : Json) (cs : List Char) : Reading (Json × List Char) :=
  if keyword.toList.isPrefixOf cs then .ok (value, cs.drop keyword.length)
  else fail .expectedValue cs

/-! ## Strings -/

/-- The value of a hexadecimal digit. -/
def hexDigit? (c : Char) : Option Nat :=
  if c.isDigit then some (c.toNat - '0'.toNat)
  else if 'a' ≤ c ∧ c ≤ 'f' then some (c.toNat - 'a'.toNat + 10)
  else if 'A' ≤ c ∧ c ≤ 'F' then some (c.toNat - 'A'.toNat + 10)
  else none

/-- Reads `n` hexadecimal digits after a given value. -/
def readHex : Nat → Nat → List Char → Reading (Nat × List Char)
  | 0, value, cs => .ok (value, cs)
  | _ + 1, _, [] => fail .unexpectedEnd []
  | n + 1, value, c :: rest =>
    match hexDigit? c with
    | some digit => readHex n (16 * value + digit) rest
    | none => fail .expectedHexDigit (c :: rest)

/-- Reads the four digits of a code unit, and the second half of a surrogate pair if they are
the first half of one. `escape` is the text from the backslash on. -/
def readUnicode (escape cs : List Char) : Reading (Char × List Char) := do
  let (unit, rest) ← readHex 4 0 cs
  if 0xD800 ≤ unit ∧ unit ≤ 0xDBFF then
    match rest with
    | '\\' :: 'u' :: rest =>
      let (low, rest) ← readHex 4 0 rest
      if 0xDC00 ≤ low ∧ low ≤ 0xDFFF then
        return (Char.ofNat (0x10000 + (unit - 0xD800) * 0x400 + (low - 0xDC00)), rest)
      else fail .unpairedSurrogate escape
    | _ => fail .loneSurrogate escape
  else if 0xDC00 ≤ unit ∧ unit ≤ 0xDFFF then fail .loneSurrogate escape
  else return (Char.ofNat unit, rest)

/-- Reads an escape. `escape` is the text from the backslash on, `cs` the text after it. -/
def readEscape (escape : List Char) : List Char → Reading (Char × List Char)
  | [] => fail .unexpectedEnd []
  | '"' :: rest => .ok ('"', rest)
  | '\\' :: rest => .ok ('\\', rest)
  | '/' :: rest => .ok ('/', rest)
  | 'b' :: rest => .ok ('\x08', rest)
  | 'f' :: rest => .ok ('\x0c', rest)
  | 'n' :: rest => .ok ('\n', rest)
  | 'r' :: rest => .ok ('\r', rest)
  | 't' :: rest => .ok ('\t', rest)
  | 'u' :: rest => readUnicode escape rest
  | _ :: _ => fail .unknownEscape escape

/-- Reads the characters of a string up to its closing quote, after those in `before`, latest
first. `opening` is the text from the opening quote on. -/
def readStringFrom (opening : List Char) :
    Nat → List Char → List Char → Reading (List Char × List Char)
  | 0, _, _ => fail .unterminatedString opening
  | _ + 1, _, [] => fail .unterminatedString opening
  | _ + 1, before, '"' :: rest => .ok (before.reverse, rest)
  | fuel + 1, before, '\\' :: rest => do
    let (c, rest) ← readEscape ('\\' :: rest) rest
    readStringFrom opening fuel (c :: before) rest
  | fuel + 1, before, c :: rest =>
    if c.toNat < 0x20 then fail .controlCharacter (c :: rest)
    else readStringFrom opening fuel (c :: before) rest

/-- **Reads a string.** `opening` is the text from the opening quote on. -/
def readString (opening : List Char) : Reading (String × List Char) := do
  let (chars, rest) ← readStringFrom opening opening.length [] opening.tail
  return (String.ofList chars, rest)

/-! ## Numbers -/

/-- Splits the digits off the front. -/
def splitDigits (cs : List Char) : List Char × List Char := cs.span Char.isDigit

/-- Reads the digits before the point: a zero alone, or digits that begin with no zero. -/
def readWhole : List Char → Reading (List Char × List Char)
  | '0' :: rest =>
    if (splitDigits rest).1 = [] then .ok (['0'], rest) else fail .leadingZero rest
  | cs =>
    let (digits, rest) := splitDigits cs
    if digits = [] then fail .expectedDigit rest else .ok (digits, rest)

/-- Reads a point and digits, if there is a point. -/
def readFraction : List Char → Reading (List Char × List Char)
  | '.' :: rest =>
    let (digits, rest) := splitDigits rest
    if digits = [] then fail .expectedFraction rest else .ok ('.' :: digits, rest)
  | cs => .ok ([], cs)

/-- Splits a sign off the front, if there is one. -/
def splitSign : List Char → List Char × List Char
  | '+' :: rest => (['+'], rest)
  | '-' :: rest => (['-'], rest)
  | cs => ([], cs)

/-- Reads an exponent, if there is one. -/
def readExponent : List Char → Reading (List Char × List Char)
  | c :: rest =>
    if c = 'e' ∨ c = 'E' then
      let (sign, rest) := splitSign rest
      let (digits, rest) := splitDigits rest
      if digits = [] then fail .expectedExponent rest else .ok (c :: sign ++ digits, rest)
    else .ok ([], c :: rest)
  | [] => .ok ([], [])

/-- A literal as a signed integer of 64 bits, or else as an unsigned one. -/
def integer? (literal : List Char) : Option Number :=
  match Text.readInteger Int64.minValue.toInt Int64.maxValue.toInt literal with
  | .ok n => some (.int (Int64.ofInt n))
  | .error _ =>
    match Text.readInteger 0 (UInt64.size - 1) literal with
    | .ok n => some (.uint (UInt64.ofNat n.toNat))
    | .error _ => none

/-- The stored form of a literal given by its parts. An integer of 64 bits is stored without
regard to the mode. -/
def classify (mode : Option WideMode) (negative : Bool) (whole fraction exponent : List Char) :
    Except Error Number :=
  let sign := if negative then ['-'] else []
  let literal := sign ++ whole ++ fraction ++ exponent
  if fraction = [] ∧ exponent = [] then
    match integer? literal with
    | some n => .ok n
    | none => Number.ofLiteral (String.ofList literal) mode
  else Number.ofLiteral (String.ofList literal) mode

/-- **Reads a number.** -/
def readNumber (mode : Option WideMode) (cs : List Char) : Reading (Json × List Char) := do
  let (negative, rest) := match cs with
    | '-' :: rest => (true, rest)
    | rest => (false, rest)
  let (whole, rest) ← readWhole rest
  let (fraction, rest) ← readFraction rest
  let (exponent, rest) ← readExponent rest
  match classify mode negative whole fraction exponent with
  | .ok value => return (number value, rest)
  | .error error => .error (.number error)

/-! ## Values -/

mutual

/-- **Reads a value** that stands inside `depth` arrays and objects. The fuel bounds the number
of values and containers begun; the length of the text is enough for each of the two. -/
def readValue (options : Options) : Nat → Nat → List Char → Reading (Json × List Char)
  | 0, _, cs => fail .unexpectedEnd cs
  | fuel + 1, depth, cs =>
    match cs with
    | [] => fail .unexpectedEnd []
    | 'n' :: _ => readKeyword "null" null cs
    | 't' :: _ => readKeyword "true" (bool true) cs
    | 'f' :: _ => readKeyword "false" (bool false) cs
    | '"' :: _ => do
      let (value, rest) ← readString cs
      return (string value, rest)
    | '[' :: rest =>
      if options.maxDepth ≤ depth then fail (.tooDeep options.maxDepth) cs
      else
        match skipBlanks rest with
        | ']' :: rest => .ok (array [], rest)
        | rest => readItems options fuel (depth + 1) [] rest
    | '\x7b' :: rest =>
      if options.maxDepth ≤ depth then fail (.tooDeep options.maxDepth) cs
      else
        match skipBlanks rest with
        | '\x7d' :: rest => .ok (object [], rest)
        | rest => readMembers options fuel (depth + 1) [] rest
    | c :: _ =>
      if c = '-' ∨ c.isDigit then readNumber options.mode cs else fail .expectedValue cs

/-- Reads the elements of an array up to its end, after those in `before`, latest first. -/
def readItems (options : Options) :
    Nat → Nat → List Json → List Char → Reading (Json × List Char)
  | 0, _, _, cs => fail .unexpectedEnd cs
  | fuel + 1, depth, before, cs => do
    let (value, rest) ← readValue options fuel depth (skipBlanks cs)
    match skipBlanks rest with
    | [] => fail .unexpectedEnd []
    | ',' :: rest => readItems options fuel depth (value :: before) rest
    | ']' :: rest => .ok (array (value :: before).reverse, rest)
    | rest => fail .expectedArrayEnd rest

/-- Reads the members of an object up to its end, after those in `before`. -/
def readMembers (options : Options) :
    Nat → Nat → Members → List Char → Reading (Json × List Char)
  | 0, _, _, cs => fail .unexpectedEnd cs
  | fuel + 1, depth, before, cs => do
    let (key, rest) ← match skipBlanks cs with
      | '"' :: rest => readString ('"' :: rest)
      | rest => fail .expectedKey rest
    match skipBlanks rest with
    | ':' :: rest =>
      let (value, rest) ← readValue options fuel depth (skipBlanks rest)
      let members := before.add key value
      match skipBlanks rest with
      | [] => fail .unexpectedEnd []
      | ',' :: rest => readMembers options fuel depth members rest
      | '\x7d' :: rest => .ok (object members, rest)
      | rest => fail .expectedObjectEnd rest
    | rest => fail .expectedColon rest

end

/-- Reads a whole text: a value, and blanks around it. -/
def readChars (options : Options) (cs : List Char) : Reading Json := do
  let (value, rest) ← readValue options (2 * cs.length + 1) 0 (skipBlanks cs)
  match skipBlanks rest with
  | [] => return value
  | rest => .error (.malformed .trailingCharacters rest)

/-- A failed reading of a text as an error: the position of a fault is the number of bytes
before it. -/
def Failure.toError (text : List Char) : Failure → Error
  | .malformed fault rest => .json fault (Text.byteSize text - Text.byteSize rest)
  | .number error => error

/-- **Reads a JSON text.** -/
def read (options : Options) (text : String) : Except Error Json :=
  (readChars options text.toList).mapError (Failure.toError text.toList)

end SqlJson.Json
