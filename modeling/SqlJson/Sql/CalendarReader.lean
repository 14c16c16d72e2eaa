import SqlJson.Sql.Calendar
import SqlJson.Text.Blank

/-!
# Reading dates and times

Two notations are read. In the plain one each number may have blanks before it and fewer digits
than it is written with. Internet timestamps have fixed numbers of digits and an offset from
Coordinated Universal Time.

* `Calendar.date?`, `Calendar.time?`, `Calendar.dateTime?`: the plain notation.
* `Calendar.timestamp?`: an Internet timestamp, or the plain notation without an offset.
-/

namespace SqlJson.Calendar

/-- A reader of the front of a text, which gives what it has read and the text after it. -/
abbrev Reader (α : Type) := List Char → Option (α × List Char)

/-- Reads a number of `lo` to `hi` digits. -/
def number (lo hi : Nat) : Reader Nat := fun cs =>
  let digits := (cs.take hi).takeWhile Char.isDigit
  if digits.length < lo then none
  else some (Nat.ofDigitChars 10 digits 0, cs.drop digits.length)

/-- Reads a given character. -/
def literal (c : Char) : List Char → Option (List Char)
  | d :: rest => if c = d then some rest else none
  | [] => none

/-- Reads a number of one or two digits after blanks. -/
def field : Reader Nat := fun cs => number 1 2 (Text.trimLeft cs)

/-- Reads a year after blanks: up to four digits, or a sign and any number of digits. -/
def year : Reader Int := fun cs =>
  match Text.trimLeft cs with
  | '-' :: rest => (number 1 rest.length rest).map fun (n, rest) => (-n, rest)
  | '+' :: rest => (number 1 rest.length rest).map fun (n, rest) => (n, rest)
  | cs => (number 1 4 cs).map fun (n, rest) => (n, rest)

/-- Reads the fraction of a second in nanoseconds, if there is a point; digits after the ninth do
not count. -/
def fraction : Reader Nat
  | '.' :: rest => do
    let digits := rest.takeWhile Char.isDigit
    if digits = [] then none
    else
      let counted := digits.take 9
      let nanosecond := Nat.ofDigitChars 10 counted 0 * Nat.pow 10 (9 - counted.length)
      some (nanosecond, rest.dropWhile Char.isDigit)
  | cs => some (0, cs)

/-- The time of day with given parts; second 60 is a leap second. -/
def timeOf? (hour minute second nanosecond : Nat) : Option TimeOfDay :=
  if 23 < hour ∨ 59 < minute ∨ 60 < second then none
  else if second = 60 then some ⟨hour, minute, 59, TimeOfDay.billion + nanosecond⟩
  else some ⟨hour, minute, second, nanosecond⟩

/-- Reads a date whose year, month and day are read by given readers. -/
def date (year : Reader Int) (field : Reader Nat) : Reader Date := fun cs => do
  let (year, cs) ← year cs
  let (month, cs) ← field (← literal '-' cs)
  let (day, cs) ← field (← literal '-' cs)
  return (← Date.ofParts? year month day, cs)

/-- Reads a time whose hour, minute and second are read by a given reader. -/
def time (field : Reader Nat) : Reader TimeOfDay := fun cs => do
  let (hour, cs) ← field cs
  let (minute, cs) ← field (← literal ':' cs)
  let (second, cs) ← field (← literal ':' cs)
  let (nanosecond, cs) ← fraction cs
  return (← timeOf? hour minute second nanosecond, cs)

/-- Takes a reading that has come to the end of the text. -/
def complete {α : Type} : Option (α × List Char) → Option α
  | some (value, []) => some value
  | _ => none

/-- Reads an offset in minutes: `Z`, or a sign, hours and minutes. -/
def offset : Reader Int
  | [] => none
  | c :: rest =>
    if c = 'Z' ∨ c = 'z' then some (0, rest)
    else if c = '+' ∨ c = '-' ∨ c = '\u2212' then do
      let (hours, rest) ← number 2 2 rest
      let (minutes, rest) ← number 2 2 (← literal ':' rest)
      if 23 < hours ∨ 59 < minutes then none
      else
        let total : Int := hours * 60 + minutes
        some (if c = '+' then total else -total, rest)
    else none

/-- Reads a date, a separator and a time. -/
def dateTime (date : Reader Date) (separator : List Char → Option (List Char))
    (time : Reader TimeOfDay) : Reader DateTime := fun cs => do
  let (date, cs) ← date cs
  let (time, cs) ← time (← separator cs)
  return (⟨date, time⟩, cs)

/-- What may stand between date and time in an Internet timestamp. -/
def timestampSeparator : List Char → Option (List Char)
  | c :: rest => if c = 'T' ∨ c = 't' ∨ c = ' ' then some rest else none
  | [] => none

/-- Reads an Internet timestamp as the time in Coordinated Universal Time. -/
def timestamp : Reader DateTime := fun cs => do
  let fixedYear : Reader Int := fun cs => (number 4 4 cs).map fun (n, rest) => (n, rest)
  let (civil, cs) ← dateTime (date fixedYear (number 2 2)) timestampSeparator
    (time (number 2 2)) cs
  let (offset, cs) ← offset cs
  return (civil.addMinutes (-offset), cs)

/-- Reads a date in the plain notation. -/
def plainDate : Reader Date := date year field

/-- Reads a time in the plain notation. -/
def plainTime : Reader TimeOfDay := time field

/-- **Reads a date** in the plain notation. -/
def date? (cs : List Char) : Option Date := complete (plainDate cs)

/-- **Reads a time of day** in the plain notation. -/
def time? (cs : List Char) : Option TimeOfDay := complete (plainTime cs)

/-- **Reads a date and time** in the plain notation, with a `T` or with blanks, if any, between
them. -/
def dateTime? (cs : List Char) : Option DateTime :=
  complete (dateTime plainDate (literal 'T') plainTime cs)
    <|> complete (dateTime plainDate (fun cs => some (Text.trimLeft cs)) plainTime cs)

/-- **Reads a timestamp.** Without an offset it is a time in Coordinated Universal Time. -/
def timestamp? (cs : List Char) : Option DateTime :=
  complete (timestamp cs) <|> dateTime? cs

end SqlJson.Calendar
