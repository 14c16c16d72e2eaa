import SqlJson.Toml.Scalar

/-!
# Reading TOML

* `Toml.read`: the entries of a document, `none` for a text that is not TOML.

A key is set once and a table has one header. A dotted key adds to tables that dotted keys made
only, and a header adds to tables of any kind but those in braces. In brackets and in braces lines
may end between any two tokens, and a comma may stand behind the last entry.
-/

namespace SqlJson.Toml

/-! ## Tables -/

/-- Changes the table at the end of a path of headers; tables on the way that are not there yet
are made, and of tables with a common header the latest one is meant. -/
def Entries.alter (change : Entries → Option Entries) : List String → Entries → Option Entries
  | [], entries => change entries
  | key :: path, entries => do
    let item ← match entries.lookup key with
      | none => (alter change path []).map (Item.table .above)
      | some (.table origin inner) => (alter change path inner).map (Item.table origin)
      | some (.tables (latest :: before)) =>
        (alter change path latest).map fun changed => Item.tables (changed :: before)
      | some _ => none
    return entries.put key item

/-- Makes the table of a header; a table above one with a header may get its own. -/
def Entries.open (key : String) (entries : Entries) : Option Entries :=
  match entries.lookup key with
  | none => some (entries.put key (.table .header []))
  | some (.table .above inner) => some (entries.put key (.table .header inner))
  | some _ => none

/-- Makes one more of the tables with a common header. -/
def Entries.openNext (key : String) (entries : Entries) : Option Entries :=
  match entries.lookup key with
  | none => some (entries.put key (.tables [[]]))
  | some (.tables elements) => some (entries.put key (.tables ([] :: elements)))
  | some _ => none

/-- **Sets a key**, which may be dotted. -/
def Entries.assign (item : Item) : List String → Entries → Option Entries
  | [], _ => none
  | [key], entries => if (entries.lookup key).isSome then none else some (entries.put key item)
  | key :: path, entries => do
    let inner ← match entries.lookup key with
      | none => (assign item path []).map (Item.table .dotted)
      | some (.table .dotted inner) => (assign item path inner).map (Item.table .dotted)
      | some (.table .above inner) =>
        if path.length = 1 then none else (assign item path inner).map (Item.table .above)
      | some (.tables (latest :: before)) =>
        if path.length = 1 then none
        else (assign item path latest).map fun changed => Item.tables (changed :: before)
      | some _ => none
    return entries.put key inner

/-! ## Keys and values -/

/-- Whether a character may stand in a key without quotes. -/
def isBare (c : Char) : Bool := c.isAlphanum || c = '_' || c = '-'

/-- Reads one part of a key. -/
def readKeyPart (cs : List Char) : Reading (String × List Char) :=
  match cs with
  | c :: rest =>
    if c = '"' ∨ c = '\'' then
      if rest.take 2 = [c, c] then none else readString c cs
    else
      let part := cs.takeWhile isBare
      if part = [] then none else some (String.ofList part, cs.dropWhile isBare)
  | [] => none

/-- The most parts a key may have. -/
def maxKeyParts : Nat := 80

/-- Reads a key of parts with dots between them, after those in `before`, latest first. -/
def readKey : Nat → List String → List Char → Reading (List String × List Char)
  | 0, _, _ => none
  | fuel + 1, before, cs => do
    let (part, rest) ← readKeyPart (skipBlanks cs)
    match skipBlanks rest with
    | '.' :: rest => readKey fuel (part :: before) rest
    | rest =>
      if maxKeyParts ≤ before.length then none else some ((part :: before).reverse, rest)

/-- Drops a comment, if one stands here, up to the end of the line. -/
def skipComment : List Char → Option (List Char)
  | '#' :: rest =>
    match rest.dropWhile isPlain with
    | [] => some []
    | rest => (dropNewline? rest).map fun _ => rest
  | cs => some cs

/-- Drops blanks, ends of lines and comments. -/
def skipFiller : Nat → List Char → Option (List Char)
  | 0, _ => none
  | fuel + 1, cs =>
    match skipSpace cs with
    | '#' :: rest => do skipFiller fuel (← skipComment ('#' :: rest))
    | rest => some rest

/-- The most arrays and tables in braces that may stand in one another. -/
def maxNesting : Nat := 80

mutual

/-- **Reads a value** that stands inside `depth` arrays and tables in braces. The fuel bounds the
number of values and containers begun. -/
def readValue : Nat → Nat → List Char → Reading (Item × List Char)
  | 0, _, _ => none
  | fuel + 1, depth, cs =>
    match cs with
    | '"' :: _ => (readString '"' cs).map fun (text, rest) => (.string text, rest)
    | '\'' :: _ => (readString '\'' cs).map fun (text, rest) => (.string text, rest)
    | '[' :: rest => if maxNesting ≤ depth then none else readItems fuel (depth + 1) [] rest
    | '\x7b' :: rest => if maxNesting ≤ depth then none else readEntries fuel (depth + 1) [] rest
    | _ => readWord cs

/-- Reads the elements of an array up to its end, after those in `before`, latest first. -/
def readItems : Nat → Nat → List Item → List Char → Reading (Item × List Char)
  | 0, _, _, _ => none
  | fuel + 1, depth, before, cs => do
    match ← skipFiller (cs.length + 1) cs with
    | ']' :: rest => some (.array before.reverse, rest)
    | rest =>
      let (item, rest) ← readValue fuel depth rest
      match ← skipFiller (rest.length + 1) rest with
      | ',' :: rest => readItems fuel depth (item :: before) rest
      | ']' :: rest => some (.array (item :: before).reverse, rest)
      | _ => none

/-- Reads the entries of a table in braces up to its end, after those in `before`. -/
def readEntries : Nat → Nat → Entries → List Char → Reading (Item × List Char)
  | 0, _, _, _ => none
  | fuel + 1, depth, before, cs => do
    match ← skipFiller (cs.length + 1) cs with
    | '\x7d' :: rest => some (.inlineTable before, rest)
    | rest =>
      let (key, rest) ← readKey rest.length [] rest
      match ← skipFiller (rest.length + 1) rest with
      | '=' :: rest =>
        let (item, rest) ← readValue fuel depth (← skipFiller (rest.length + 1) rest)
        let entries ← Entries.assign item key before
        match ← skipFiller (rest.length + 1) rest with
        | ',' :: rest => readEntries fuel depth entries rest
        | '\x7d' :: rest => some (.inlineTable entries, rest)
        | _ => none
      | _ => none

end

/-! ## Documents -/

/-- Drops the rest of a line in which nothing more stands, and its end. -/
def finishLine (cs : List Char) : Option (List Char) := do
  match ← skipComment (skipBlanks cs) with
  | [] => some []
  | rest => dropNewline? rest

/-- Reads the headers and entries of a document. `path` is the header that entries belong to. -/
def readDocument : Nat → List String → Entries → List Char → Option Entries
  | 0, _, _, _ => none
  | fuel + 1, path, root, cs => do
    match ← skipFiller (cs.length + 1) cs with
    | [] => some root
    | '[' :: '[' :: rest =>
      let (header, rest) ← readKey rest.length [] rest
      match rest with
      | ']' :: ']' :: rest =>
        let root ← Entries.alter (Entries.openNext (header.getLast?.getD "")) header.dropLast root
        readDocument fuel header root (← finishLine rest)
      | _ => none
    | '[' :: rest =>
      let (header, rest) ← readKey rest.length [] rest
      match rest with
      | ']' :: rest =>
        let root ← Entries.alter (Entries.open (header.getLast?.getD "")) header.dropLast root
        readDocument fuel header root (← finishLine rest)
      | _ => none
    | rest =>
      let (key, rest) ← readKey rest.length [] rest
      match rest with
      | '=' :: rest =>
        let (item, rest) ← readValue (2 * rest.length + 2) 0 (skipBlanks rest)
        let root ← Entries.alter (Entries.assign item key) path root
        readDocument fuel path root (← finishLine rest)
      | _ => none

/-- **Reads a document**, which may begin with a byte order mark. -/
def read (text : String) : Option Entries :=
  let cs := match text.toList with
    | '\ufeff' :: rest => rest
    | cs => cs
  readDocument (cs.length + 1) [] [] cs

end SqlJson.Toml
