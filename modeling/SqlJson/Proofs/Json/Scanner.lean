import SqlJson.Json.Reader
import SqlJson.Proofs.Json.Grammar
import SqlJson.Proofs.Text.Scan

/-!
# Scanning JSON

The reader of JSON as it runs over the bytes of a text: it keeps a place, looks at the byte there, and cuts keywords,
runs of plain characters and number literals out of the text. A cut that is not between characters goes wrong, and so
does stepping back from the start of the text.

* `scanString`, `scanEscape`: strings.
* `scanNumber`: numbers.
* `scanValue`: one value, with the place after it.
* `scan`: **a whole text**.
-/

namespace SqlJson.Json

open Text

/-- A fault at a place. -/
def failAt {α : Type} (fault : Fault) (i : Nat) : Scanning α := throwThe Error (.json fault i)

/-- A fault at the place before. -/
def failBefore {α : Type} (fault : Fault) (i : Nat) : Scanning α := do
  let i ← decrement i
  failAt fault i

section

variable (text : String)

/-- The place after blanks. -/
def passBlanks (i : Nat) : Nat := skipWhile isBlank text i

/-- The place after digits. -/
def passDigits (i : Nat) : Nat := skipWhile Char.isDigit text i

/-- The byte at a place, and the place after it. -/
def next (i : Nat) : Scanning (Char × Nat) :=
  match byteAt? text i with
  | some b => return (b, i + 1)
  | none => failAt .unexpectedEnd i

/-- Scans a keyword as a given value. -/
def scanKeyword (keyword : String) (value : Json) (i : Nat) : Scanning (Json × Nat) := do
  let rest ← bytesFrom text i
  if (bytes keyword.toList).isPrefixOf rest then return (value, i + keyword.utf8ByteSize)
  else failAt .expectedValue i

/-! ## Strings -/

/-- Scans `n` hexadecimal digits after a given value. -/
def scanHex : Nat → Nat → Nat → Scanning (Nat × Nat)
  | 0, value, i => return (value, i)
  | n + 1, value, i => do
    let (b, i) ← next text i
    match hexDigit? b with
    | some digit => scanHex n (16 * value + digit) i
    | none => failBefore .expectedHexDigit i

/-- Scans the digits of a code unit, or of a surrogate pair. `escape` is the place of the backslash. -/
def scanUnicode (escape i : Nat) : Scanning (Char × Nat) := do
  let (unit, i) ← scanHex text 4 0 i
  if 0xD800 ≤ unit ∧ unit ≤ 0xDBFF then
    if byteAt? text i = some '\\' ∧ byteAt? text (i + 1) = some 'u' then do
      let (low, i) ← scanHex text 4 0 (i + 2)
      if 0xDC00 ≤ low ∧ low ≤ 0xDFFF then
        return (Char.ofNat (0x10000 + (unit - 0xD800) * 0x400 + (low - 0xDC00)), i)
      else failAt .unpairedSurrogate escape
    else failAt .loneSurrogate escape
  else if 0xDC00 ≤ unit ∧ unit ≤ 0xDFFF then failAt .loneSurrogate escape
  else return (Char.ofNat unit, i)

/-- Scans what follows a backslash. -/
def scanEscape (i : Nat) : Scanning (Char × Nat) := do
  let escape ← decrement i
  let (b, i) ← next text i
  match Grammar.shortEscapes.lookup b with
  | some c => return (c, i)
  | none => if b = 'u' then scanUnicode text escape i else failAt .unknownEscape escape

/-- A byte that stands for itself in a string. -/
def isPlain (b : Char) : Bool := b ≠ '"' && b ≠ '\\' && 0x20 ≤ b.toNat

/-- Scans a string up to its closing quote, after what has been put together. Each round takes a run of plain bytes and
cuts it out. The fuel bounds the number of rounds. -/
def scanStringFrom (opening : Nat) : Nat → String → Nat → Scanning (String × Nat)
  | 0, _, _ => endless
  | fuel + 1, out, start => do
    let i := skipWhile isPlain text start
    match byteAt? text i with
    | none => failAt .unterminatedString opening
    | some '"' =>
      let run ← slice text start i
      return (out ++ run, i + 1)
    | some '\\' =>
      let run ← slice text start i
      let (c, i) ← scanEscape text (i + 1)
      scanStringFrom opening fuel ((out ++ run).push c) i
    | some _ => failAt .controlCharacter i

/-- **Scans a string** from its opening quote on. -/
def scanString (opening : Nat) : Scanning (String × Nat) :=
  scanStringFrom text opening (text.utf8ByteSize + 1) "" (opening + 1)

/-! ## Numbers -/

/-- Scans the digits before the point. -/
def scanWhole (i : Nat) : Scanning Nat :=
  if byteAt? text i = some '0' then
    if (byteAt? text (i + 1)).any Char.isDigit then failAt .leadingZero (i + 1) else return i + 1
  else if (byteAt? text i).any Char.isDigit then return passDigits text i
  else failAt .expectedDigit i

/-- Scans digits of which there must be one. -/
def scanDigits (fault : Fault) (i : Nat) : Scanning Nat :=
  if passDigits text i = i then failAt fault i else return passDigits text i

/-- Scans a point and digits, if there is a point. -/
def scanFraction (i : Nat) : Scanning Nat :=
  if byteAt? text i = some '.' then scanDigits text .expectedFraction (i + 1) else return i

/-- Scans an exponent, if there is one. -/
def scanExponent (i : Nat) : Scanning Nat :=
  if (byteAt? text i).any fun b => b = 'e' || b = 'E' then
    let i := i + 1
    scanDigits text .expectedExponent (if (byteAt? text i).any fun b => b = '+' || b = '-' then i + 1 else i)
  else return i

/-- **Scans a number.** Its literal is cut out; it is an integer if there is neither a fraction nor an exponent. -/
def scanNumber (mode : Option WideMode) (start : Nat) : Scanning (Json × Nat) := do
  let whole ← scanWhole text (if byteAt? text start = some '-' then start + 1 else start)
  let fraction ← scanFraction text whole
  let i ← scanExponent text fraction
  let literal ← slice text start i
  match if fraction = whole ∧ i = fraction then integer? literal.toList else none with
  | some value => return (number value, i)
  | none =>
    match Number.ofLiteral literal mode with
    | .ok value => return (number value, i)
    | .error error => throwThe Error error

/-! ## Values -/

mutual

/-- **Scans a value** that stands inside `depth` arrays and objects. The fuel bounds the number of values and containers
begun. -/
def scanValue (options : Options) : Nat → Nat → Nat → Scanning (Json × Nat)
  | 0, _, _ => endless
  | fuel + 1, depth, i =>
    match byteAt? text i with
    | none => failAt .unexpectedEnd i
    | some 'n' => scanKeyword text "null" null i
    | some 't' => scanKeyword text "true" (bool true) i
    | some 'f' => scanKeyword text "false" (bool false) i
    | some '"' => do
      let (value, i) ← scanString text i
      return (string value, i)
    | some '[' =>
      if options.maxDepth ≤ depth then failAt (.tooDeep options.maxDepth) i
      else
        let i := passBlanks text (i + 1)
        if byteAt? text i = some ']' then return (array [], i + 1)
        else scanItems options fuel (depth + 1) [] i
    | some '\x7b' =>
      if options.maxDepth ≤ depth then failAt (.tooDeep options.maxDepth) i
      else
        let i := passBlanks text (i + 1)
        if byteAt? text i = some '\x7d' then return (object [], i + 1)
        else scanMembers options fuel (depth + 1) [] i
    | some b =>
      if b = '-' ∨ b.isDigit then scanNumber text options.mode i else failAt .expectedValue i

/-- Scans the elements of an array up to its end, after those in `before`, latest first. -/
def scanItems (options : Options) : Nat → Nat → List Json → Nat → Scanning (Json × Nat)
  | 0, _, _, _ => endless
  | fuel + 1, depth, before, i => do
    let (value, i) ← scanValue options fuel depth (passBlanks text i)
    let (b, i) ← next text (passBlanks text i)
    match b with
    | ',' => scanItems options fuel depth (value :: before) i
    | ']' => return (array (value :: before).reverse, i)
    | _ => failBefore .expectedArrayEnd i

/-- Scans the members of an object up to its end, after those in `before`. -/
def scanMembers (options : Options) : Nat → Nat → Members → Nat → Scanning (Json × Nat)
  | 0, _, _, _ => endless
  | fuel + 1, depth, before, i => do
    let i := passBlanks text i
    if byteAt? text i ≠ some '"' then failAt .expectedKey i
    else
      let (key, i) ← scanString text i
      let i := passBlanks text i
      if byteAt? text i ≠ some ':' then failAt .expectedColon i
      else
        let (value, i) ← scanValue options fuel depth (passBlanks text (i + 1))
        let (b, i) ← next text (passBlanks text i)
        match b with
        | ',' => scanMembers options fuel depth (before.add key value) i
        | '\x7d' => return (object (before.add key value), i)
        | _ => failBefore .expectedObjectEnd i

end

end

/-- **Scans a whole text**: a value, and blanks around it. -/
def scan (options : Options) (text : String) : Scanning Json := do
  let (value, i) ← scanValue text options (2 * text.utf8ByteSize + 1) 0 (passBlanks text 0)
  let i := passBlanks text i
  if i < text.utf8ByteSize then failAt .trailingCharacters i else return value

end SqlJson.Json
