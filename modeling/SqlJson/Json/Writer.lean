import SqlJson.Json.Basic

/-!
# Writing JSON

* `Json.compact`: a document without blanks.
* `Json.pretty`: a document with each element and member on a line of its own.
* `Json.quoted`: a string with its quotes and escapes.
-/

namespace SqlJson.Json

/-- One character of a string: the quote, the backslash and control characters are escaped. -/
def escapeChar (c : Char) : List Char :=
  match c with
  | '"' => ['\\', '"']
  | '\\' => ['\\', '\\']
  | '\x08' => ['\\', 'b']
  | '\x0c' => ['\\', 'f']
  | '\n' => ['\\', 'n']
  | '\r' => ['\\', 'r']
  | '\t' => ['\\', 't']
  | c =>
    if c.toNat < 0x20 then
      ['\\', 'u', '0', '0', Nat.digitChar (c.toNat / 16), Nat.digitChar (c.toNat % 16)]
    else [c]

/-- **A string in quotes**, as characters. -/
def quotedChars (s : String) : List Char := '"' :: s.toList.flatMap escapeChar ++ ['"']

/-- A string in quotes. -/
def quoted (s : String) : String := String.ofList (quotedChars s)

mutual

/-- The compact text of a document, as characters. -/
def compactChars : Json → List Char
  | null => "null".toList
  | bool true => "true".toList
  | bool false => "false".toList
  | number value => value.text.toList
  | string value => quotedChars value
  | array [] => ['[', ']']
  | array (item :: rest) => '[' :: compactChars item ++ compactItems rest
  | object [] => ['\x7b', '\x7d']
  | object ((key, value) :: rest) =>
    '\x7b' :: quotedChars key ++ ':' :: compactChars value ++ compactMembers rest

/-- The elements after the first one, and the end of the array. -/
def compactItems : List Json → List Char
  | [] => [']']
  | item :: rest => ',' :: compactChars item ++ compactItems rest

/-- The members after the first one, and the end of the object. -/
def compactMembers : List (String × Json) → List Char
  | [] => ['\x7d']
  | (key, value) :: rest =>
    ',' :: quotedChars key ++ ':' :: compactChars value ++ compactMembers rest

end

/-- **The compact text of a document.** -/
def compact (json : Json) : String := String.ofList json.compactChars

/-- The end of a line, and the blanks at the front of the next one. -/
def newline (indent level : Nat) : List Char := '\n' :: List.replicate (indent * level) ' '

mutual

/-- The pretty text of a document that stands inside `level` containers, as characters. -/
def prettyChars (indent : Nat) : Nat → Json → List Char
  | _, null => "null".toList
  | _, bool true => "true".toList
  | _, bool false => "false".toList
  | _, number value => value.text.toList
  | _, string value => quotedChars value
  | _, array [] => ['[', ']']
  | level, array (item :: rest) =>
    '[' :: newline indent (level + 1) ++ prettyChars indent (level + 1) item
      ++ prettyItems indent level rest
  | _, object [] => ['\x7b', '\x7d']
  | level, object ((key, value) :: rest) =>
    '\x7b' :: newline indent (level + 1) ++ quotedChars key ++ ':' :: ' ' ::
      prettyChars indent (level + 1) value ++ prettyMembers indent level rest

/-- The elements after the first one, and the end of the array. -/
def prettyItems (indent : Nat) : Nat → List Json → List Char
  | level, [] => newline indent level ++ [']']
  | level, item :: rest =>
    ',' :: newline indent (level + 1) ++ prettyChars indent (level + 1) item
      ++ prettyItems indent level rest

/-- The members after the first one, and the end of the object. -/
def prettyMembers (indent : Nat) : Nat → List (String × Json) → List Char
  | level, [] => newline indent level ++ ['\x7d']
  | level, (key, value) :: rest =>
    ',' :: newline indent (level + 1) ++ quotedChars key ++ ':' :: ' ' ::
      prettyChars indent (level + 1) value ++ prettyMembers indent level rest

end

/-- **The pretty text of a document**, with `indent` blanks for each level. -/
def pretty (indent : Nat) (json : Json) : String := String.ofList (prettyChars indent 0 json)

end SqlJson.Json
