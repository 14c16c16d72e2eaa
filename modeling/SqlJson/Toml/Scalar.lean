import SqlJson.Binary.Reader
import SqlJson.Sql.Calendar
import SqlJson.Toml.Basic

/-!
# Scalars of TOML

Strings in their four forms, and the words that stand for numbers, truth values and dates.

* `Toml.readString`: a string in any form, read off the front of a text.
* `Toml.number?`: the number that a word stands for. A word may have the form of a number and
  stand for none: then its item has no value.
* `Toml.ofWord?`: the scalar that a word stands for.
-/

namespace SqlJson.Toml

/-- A reading, if there is one. A reader of the front of a text gives what it has read and the
text after it. -/
abbrev Reading := Option

def isBlank (c : Char) : Bool := c = ' ' || c = '\t'

def skipBlanks (cs : List Char) : List Char := cs.dropWhile isBlank

/-- Characters that may stand in comments, and in strings of one line: no control characters but
the tab. -/
def isPlain (c : Char) : Bool := c = '\t' || (0x20 ≤ c.toNat && c.toNat ≠ 0x7F)

/-! ## Strings -/

def isHexDigit (c : Char) : Bool :=
  c.isDigit || ('a' ≤ c && c ≤ 'f') || ('A' ≤ c && c ≤ 'F')

/-- The value of a hexadecimal digit. -/
def digitValue (c : Char) : Nat :=
  if c.isDigit then c.toNat - '0'.toNat else c.toLower.toNat - 'a'.toNat + 10

/-- Whether a character is a digit of a base, which is 16 at most. -/
def isDigitOf (base : Nat) (c : Char) : Bool := isHexDigit c && digitValue c < base

/-- The number that digits stand for in a base. -/
def valueIn (base : Nat) (digits : List Char) : Nat :=
  digits.foldl (fun n c => base * n + digitValue c) 0

/-- Reads a code point of a given number of hexadecimal digits. -/
def readCodePoint (n : Nat) (cs : List Char) : Reading (Char × List Char) :=
  let digits := cs.take n
  let code := valueIn 16 digits
  if digits.length = n ∧ digits.all isHexDigit ∧ code.isValidChar then
    some (Char.ofNat code, cs.drop n)
  else none

/-- Reads what comes after a backslash. -/
def readEscape : List Char → Reading (Char × List Char)
  | 'b' :: rest => some ('\x08', rest)
  | 't' :: rest => some ('\t', rest)
  | 'n' :: rest => some ('\n', rest)
  | 'f' :: rest => some ('\x0c', rest)
  | 'r' :: rest => some ('\r', rest)
  | 'e' :: rest => some ('\x1b', rest)
  | '"' :: rest => some ('"', rest)
  | '\\' :: rest => some ('\\', rest)
  | 'x' :: rest => readCodePoint 2 rest
  | 'u' :: rest => readCodePoint 4 rest
  | 'U' :: rest => readCodePoint 8 rest
  | _ => none

/-- Drops the end of a line, if one stands here. -/
def dropNewline? : List Char → Option (List Char)
  | '\n' :: rest => some rest
  | '\r' :: '\n' :: rest => some rest
  | _ => none

/-- Drops blanks and ends of lines; a carriage return alone is neither. -/
def skipSpace : List Char → List Char
  | '\r' :: '\n' :: rest => skipSpace rest
  | '\n' :: rest => skipSpace rest
  | c :: rest => if isBlank c then skipSpace rest else c :: rest
  | [] => []

/-- Reads the rest of a string of one line, up to its closing quote. -/
def readLine (quote : Char) : Nat → List Char → Reading (List Char × List Char)
  | 0, _ | _, [] => none
  | fuel + 1, c :: rest =>
    if c = quote then some ([], rest)
    else do
      let (c, rest) ←
        if c = '\\' ∧ quote = '"' then readEscape rest
        else if isPlain c then some (c, rest)
        else none
      let (text, rest) ← readLine quote fuel rest
      return (c :: text, rest)

/-- Whether the character `c` before `rest` may stand in a string of several lines: ends of lines
stay as they are written, and a carriage return alone is none. -/
def isPlainOrNewline (c : Char) (rest : List Char) : Bool :=
  c = '\n' || isPlain c || (c = '\r' && rest.head? = some '\n')

/-- Reads the rest of a string of several lines, up to its three closing quotes; up to two more
quotes before them belong to the string. -/
def readLines (quote : Char) : Nat → List Char → Reading (List Char × List Char)
  | 0, _ | _, [] => none
  | fuel + 1, c :: rest =>
    if c = quote ∧ (rest.take 2).length = 2 ∧ (rest.take 2).all (· = quote) then
      let more := ((rest.drop 2).take 2).takeWhile (· = quote)
      some (more, rest.drop (2 + more.length))
    else if c = '\\' ∧ quote = '"' then
      match dropNewline? (skipBlanks rest) with
      | some rest => readLines quote fuel (skipSpace rest)
      | none => do
        let (c, rest) ← readEscape rest
        let (text, rest) ← readLines quote fuel rest
        return (c :: text, rest)
    else if isPlainOrNewline c rest then
      (readLines quote fuel rest).map fun (text, rest) => (c :: text, rest)
    else none

/-- **Reads a string**: of several lines between three quotes, else of one line. Strings in
apostrophes have no escapes. -/
def readString (quote : Char) (cs : List Char) : Reading (String × List Char) :=
  let body :=
    if cs.take 3 = [quote, quote, quote] then
      let text := cs.drop 3
      readLines quote cs.length ((dropNewline? text).getD text)
    else readLine quote cs.length cs.tail
  body.map fun (text, rest) => (String.ofList text, rest)

/-! ## Numbers -/

/-- The digits of a run of digits in which an underscore may stand between two of them. -/
def digitRun? (base : Nat) : List Char → Option (List Char)
  | [] => none
  | [c] => if isDigitOf base c then some [c] else none
  | c :: '_' :: rest => if isDigitOf base c then (digitRun? base rest).map (c :: ·) else none
  | c :: rest => if isDigitOf base c then (digitRun? base rest).map (c :: ·) else none

/-- Takes a sign off the front; `true` means minus. -/
def splitSign : List Char → Bool × List Char
  | '-' :: rest => (true, rest)
  | '+' :: rest => (false, rest)
  | rest => (false, rest)

/-- Whether a character belongs to a run of digits. -/
def inRun (c : Char) : Bool := c.isDigit || c = '_'

/-- A number without its sign, if zeros lead it only where they may: behind an underscore that
follows the sign. That underscore is taken off with the sign. -/
def unsigned? : List Char → Option (List Char)
  | '+' :: '_' :: rest | '-' :: '_' :: rest => some rest
  | word =>
    let rest := (splitSign word).2
    let run := rest.takeWhile inRun
    if run.head? = some '0' ∧ run ≠ ['0'] then none else some rest

/-- The base other than 10 that an integer begins with, and what comes after. -/
def splitBase? : List Char → Option (Nat × List Char)
  | '0' :: 'x' :: rest => some (16, rest)
  | '0' :: 'o' :: rest => some (8, rest)
  | '0' :: 'b' :: rest => some (2, rest)
  | _ => none

/-- **The integer that a word stands for**, between the least signed and the greatest unsigned
integer of 128 bits. -/
def integer? (word : List Char) : Option Int := do
  let n ← match splitBase? word with
    | some (base, rest) => do some (valueIn base (← digitRun? base rest) : Int)
    | none => do
      let n : Int := valueIn 10 (← digitRun? 10 (← unsigned? word))
      some (if (splitSign word).1 then -n else n)
  if -170141183460469231731687303715884105728 ≤ n ∧ n < 340282366920938463463374607431768211456
  then some n else none

/-- Whether every underscore of a text stands between two hexadecimal digits. -/
def underscoresBetween (cs : List Char) : Bool :=
  cs.head? ≠ some '_' && cs.getLast? ≠ some '_' &&
    (cs.zip cs.tail).all fun (c, d) => (c ≠ '_' || isHexDigit d) && (d ≠ '_' || isHexDigit c)

/-- Whether a word has the form of an integer. The form is wider than the integers: the digits may
be missing behind a base, and of an integer in base 10 that has underscores only the digits before
the first one and the neighbours of each are looked at. -/
def isInteger (word : List Char) : Bool :=
  match splitBase? word, unsigned? word with
  | some (base, rest), _ => rest = [] || (digitRun? base rest).isSome
  | none, some rest =>
    let more := (splitSign word).2.dropWhile Char.isDigit
    rest.head?.any isHexDigit && (more = [] || more.head? = some '_')
      && rest.all (fun c => c ≠ '.' && c ≠ 'e' && c ≠ 'E') && underscoresBetween rest
  | none, none => false

/-- Whether a text is an exponent. -/
def isExponent : List Char → Bool
  | [] => false
  | c :: rest =>
    (c = 'e' || c = 'E') && (digitRun? 10 (splitSign rest).2).isSome

/-- Whether a word has the form of a decimal number with a fraction or an exponent. -/
def isDecimal (word : List Char) : Bool :=
  match unsigned? word with
  | none => false
  | some number =>
    (digitRun? 10 (number.takeWhile inRun)).isSome &&
      match number.dropWhile inRun with
      | '.' :: rest =>
        let after := rest.dropWhile inRun
        (digitRun? 10 (rest.takeWhile inRun)).isSome && (after = [] || isExponent after)
      | rest => isExponent rest

/-- Whether a word stands for an infinity or for what is not a number. -/
def isNonFinite (word : List Char) : Bool :=
  let name := (splitSign word).2
  name = ['i', 'n', 'f'] || name = ['n', 'a', 'n']

/-- **The number that a word stands for**: a decimal number that rounds to no finite one, and a word
that has only the form of an integer, have no value. -/
def number? (word : List Char) : Option Item :=
  match integer? word with
  | some n => some (.integer n)
  | none =>
    if isNonFinite word then some .float
    else if isDecimal word then
      let digits := (splitSign word).2.filter (· ≠ '_')
      some (if (Binary.ofChars? .double digits).any Binary.isFinite then .float else .valueless)
    else if isInteger word then some .valueless
    else none

/-! ## Dates and times -/

/-- The number that two digits make. -/
def twoDigits? : List Char → Option Nat
  | [a, b] => if a.isDigit ∧ b.isDigit then some (Nat.ofDigitChars 10 [a, b] 0) else none
  | _ => none

def isDate (cs : List Char) : Bool :=
  match cs with
  | [a, b, c, d, '-', e, f, '-', g, h] =>
    [a, b, c, d].all Char.isDigit &&
      match twoDigits? [e, f], twoDigits? [g, h] with
      | some month, some day =>
        (Date.ofParts? (Nat.ofDigitChars 10 [a, b, c, d] 0) month day).isSome
      | _, _ => false
  | _ => false

/-- Whether a text is a point and digits, or nothing. -/
def isFraction : List Char → Bool
  | [] => true
  | '.' :: rest => rest ≠ [] && rest.all Char.isDigit
  | _ => false

/-- Whether a text is a second with its fraction, after a colon, or nothing. -/
def isSecond : List Char → Bool
  | [] => true
  | ':' :: a :: b :: rest => (twoDigits? [a, b]).any (· ≤ 60) && isFraction rest
  | _ => false

/-- Whether a text is a time of day; the second may be left out. -/
def isTime (cs : List Char) : Bool :=
  match cs with
  | a :: b :: ':' :: c :: d :: rest =>
    (twoDigits? [a, b]).any (· ≤ 23) && (twoDigits? [c, d]).any (· ≤ 59) && isSecond rest
  | _ => false

/-- Whether a text is a time, with an offset or without. -/
def isOffsetTime (cs : List Char) : Bool :=
  isTime cs ||
    match cs.reverse with
    | c :: rest =>
      ((c = 'Z' || c = 'z') && isTime rest.reverse) ||
        match cs.reverse with
        | d :: c :: ':' :: b :: a :: sign :: rest =>
          (sign = '+' || sign = '-') && (twoDigits? [a, b]).any (· ≤ 23)
            && (twoDigits? [c, d]).any (· ≤ 59) && isTime rest.reverse
        | _ => false
    | [] => false

/-- Whether a word stands for a date, a time or both. -/
def isDateTime (word : List Char) : Bool :=
  isDate word || isTime word ||
    match word.drop 10 with
    | c :: rest => isDate (word.take 10) && (c = 'T' || c = 't' || c = ' ') && isOffsetTime rest
    | [] => false

/-- **The scalar that a word stands for.** -/
def ofWord? (word : List Char) : Option Item :=
  if word = "true".toList then some (.boolean true)
  else if word = "false".toList then some (.boolean false)
  else
    match number? word with
    | some number => some number
    | none => if isDateTime word then some .dateTime else none

/-- Whether a character ends a word. -/
def endsWord (c : Char) : Bool :=
  [' ', '\t', '\r', '\n', ',', '[', ']', '\x7b', '\x7d', '#', '=', '"', '\''].contains c

/-- Reads a word off the front. A date may be followed by a blank and a time. -/
def readWord (cs : List Char) : Reading (Item × List Char) :=
  let word := cs.takeWhile (!endsWord ·)
  let rest := cs.dropWhile (!endsWord ·)
  match rest with
  | ' ' :: c :: more =>
    if isDate word ∧ c.isDigit then
      let time := (c :: more).takeWhile (!endsWord ·)
      (ofWord? (word ++ ' ' :: time)).map (·, (c :: more).dropWhile (!endsWord ·))
    else (ofWord? word).map (·, rest)
  | _ => (ofWord? word).map (·, rest)

end SqlJson.Toml
