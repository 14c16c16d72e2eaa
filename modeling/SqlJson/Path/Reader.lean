import SqlJson.Path.Basic
import SqlJson.Text.Size

/-!
# Reading paths

A path is written `$`, followed by steps in any order: `.name`, `."name"`, `["name"]`,
`['name']` and `[n]`. Inside quotes a backslash stands before the quote or a backslash only.

* `Path.compile`: the path a text stands for, of at most `maxSteps` steps.
-/

namespace SqlJson.Path

/-- A reading that failed: a fault, and the text from the place of the fault on. -/
structure Failure where
  fault : Fault
  rest : List Char

/-- A reading, or why there is none. A reader of the front of a text gives what it has read and
the text after it. -/
abbrev Reading := Except Failure

/-- A failure at the front of a text. -/
def fail {α : Type} (fault : Fault) (rest : List Char) : Reading α := .error ⟨fault, rest⟩

/-- The greatest index a path can have. -/
def maxIndex : Nat := UInt64.size - 1

/-- Whether a character ends a name written without quotes: punctuation of paths, and ASCII
white space. -/
def endsName (c : Char) : Bool :=
  ['.', '[', ']', '"', '\'', '*', ' ', '\t', '\n', '\x0c', '\r'].contains c

/-- Reads the rest of a name up to its closing quote. `opening` is the text from the opening
quote on. -/
def readQuoted (quote : Char) (opening : List Char) : List Char → Reading (List Char × List Char)
  | [] => fail .unterminatedName opening
  | c :: rest =>
    if c = quote then .ok ([], rest)
    else if c = '\\' then
      match rest with
      | e :: rest =>
        if e = quote ∨ e = '\\' then do
          let (name, after) ← readQuoted quote opening rest
          return (e :: name, after)
        else fail .unknownEscape (c :: e :: rest)
      | [] => fail .unknownEscape [c]
    else do
      let (name, after) ← readQuoted quote opening rest
      return (c :: name, after)

/-- Reads a closing bracket after a step. -/
def readClose (step : Step) : List Char → Reading (Step × List Char)
  | ']' :: rest => .ok (step, rest)
  | rest => fail .expectedClose rest

/-- Reads what stands between brackets, and the closing one. -/
def readBracketed (cs : List Char) : Reading (Step × List Char) :=
  match cs with
  | [] => fail .expectedIndexOrName []
  | c :: rest =>
    if c = '"' ∨ c = '\'' then do
      let (name, rest) ← readQuoted c cs rest
      readClose (.quoted (String.ofList name)) rest
    else if c.isDigit then
      let digits := cs.takeWhile Char.isDigit
      let index := Nat.ofDigitChars 10 digits 0
      if maxIndex < index then fail .indexTooLarge cs
      else readClose (.index index) (cs.dropWhile Char.isDigit)
    else fail .expectedIndexOrName cs

/-- **Reads a step.** -/
def readStep : List Char → Reading (Step × List Char)
  | '.' :: '"' :: rest => do
    let (name, rest) ← readQuoted '"' ('"' :: rest) rest
    return (.quoted (String.ofList name), rest)
  | '.' :: rest =>
    let name := rest.takeWhile (!endsName ·)
    if name = [] then fail .expectedName rest
    else .ok (.member (String.ofList name), rest.dropWhile (!endsName ·))
  | '[' :: rest => readBracketed rest
  | cs => fail .unexpectedCharacter cs

/-- Reads steps up to the end of a text, after those in `before`, latest first. The fuel bounds
the number of steps; the length of the text is enough. -/
def readSteps (maxSteps : Nat) : Nat → List Step → List Char → Reading (List Step)
  | _, before, [] => .ok before.reverse
  | 0, _, cs => fail .unexpectedCharacter cs
  | fuel + 1, before, cs => do
    let (step, rest) ← readStep cs
    if maxSteps ≤ before.length then fail (.tooManySteps maxSteps) rest
    else readSteps maxSteps fuel (step :: before) rest

/-- Reads the steps of a whole path. -/
def readChars (maxSteps : Nat) : List Char → Reading (List Step)
  | '$' :: rest => readSteps maxSteps rest.length [] rest
  | cs => fail .noRoot cs

/-- **Compiles a path.** -/
def compile (maxSteps : Nat) (text : String) : Except Error Path :=
  match readChars maxSteps text.toList with
  | .ok steps => .ok ⟨text, steps⟩
  | .error ⟨fault, rest⟩ =>
    .error (.path text fault (Text.byteSize text.toList - Text.byteSize rest))

end SqlJson.Path
