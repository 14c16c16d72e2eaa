/-!
# TOML documents

A document is a tree of items. Tables remember how they came to be, because that decides what
may still be added to them.

* `Toml.Item`: an item. Of floating-point numbers and dates only the type is kept.
* `Toml.Item.isValued`: whether the item and all in it have values. Numbers out of range have none.
* `Toml.Item.entries?`: the entries of an item that is a table, however it was written.
-/

namespace SqlJson.Toml

/-- How a table came to be. -/
inductive Origin where
  /-- By a header of its own. -/
  | header
  /-- As a table above one with a header. -/
  | above
  /-- By a dotted key. -/
  | dotted
deriving DecidableEq, Repr

/-- **An item of a document.** -/
inductive Item where
  | string (value : String)
  | integer (value : Int)
  | float
  | boolean (value : Bool)
  | dateTime
  /-- A word in the form of a number that stands for none, such as one out of range. A document
  may have it where nobody asks for its value. -/
  | valueless
  | array (items : List Item)
  /-- A table in braces, to which nothing can be added. -/
  | inlineTable (entries : List (String × Item))
  | table (origin : Origin) (entries : List (String × Item))
  /-- Tables with one header each, the latest one first. -/
  | tables (elements : List (List (String × Item)))

/-- The entries of a table, in the order they were made. -/
abbrev Entries := List (String × Item)

namespace Entries

/-- Replaces the item of a key, or adds it at the end. -/
def put (entries : Entries) (key : String) (item : Item) : Entries :=
  match entries with
  | [] => [(key, item)]
  | (k, i) :: rest => if k = key then (k, item) :: rest else (k, i) :: put rest key item

end Entries

namespace Item

/-- The entries of a table. -/
def entries? : Item → Option Entries
  | inlineTable entries | table _ entries => some entries
  | _ => none

/-- The elements of an array. -/
def elements? : Item → Option (List Item)
  | array items => some items
  | tables elements => some (elements.reverse.map (table .header))
  | _ => none

end Item

mutual

/-- Whether an item has a value: there is no number without one in it. -/
def Item.isValued : Item → Bool
  | .valueless => false
  | .array items => Item.areValued items
  | .inlineTable entries | .table _ entries => Entries.areValued entries
  | .tables elements => Entries.allValued elements
  | .string _ | .integer _ | .float | .boolean _ | .dateTime => true

/-- Whether all items of an array have values. -/
def Item.areValued : List Item → Bool
  | [] => true
  | item :: rest => item.isValued && Item.areValued rest

/-- Whether all items of a table have values. -/
def Entries.areValued : Entries → Bool
  | [] => true
  | (_, item) :: rest => item.isValued && Entries.areValued rest

/-- Whether all items of tables with one header have values. -/
def Entries.allValued : List Entries → Bool
  | [] => true
  | entries :: rest => Entries.areValued entries && Entries.allValued rest

end

end SqlJson.Toml
