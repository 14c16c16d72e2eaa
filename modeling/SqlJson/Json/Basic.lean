import SqlJson.Number.Basic

/-!
# JSON documents

A document is a tree; the members of an object stand in document order.

* `Json.ofMembers`: an object from members in which the first of equal keys wins.
* `Members.set`, `Members.erase`: replacing, adding and removing a member; the others keep
  their places.
* `Json.get?`, `Json.item?`: a member by its key, an element by its index.
-/

namespace SqlJson

/-- **A JSON document.** -/
inductive Json where
  | null
  | bool (value : Bool)
  | number (value : Number)
  | string (value : String)
  | array (items : List Json)
  | object (members : List (String × Json))

/-- The members of an object, in document order. -/
abbrev Members := List (String × Json)

namespace Members

/-- Adds a member at the end, unless the key is there already. -/
def add (members : Members) (key : String) (value : Json) : Members :=
  if members.any (·.1 = key) then members else members ++ [(key, value)]

/-- **Sets a member**: the value of the key is replaced in its place, or added at the end. -/
def set (members : Members) (key : String) (value : Json) : Members :=
  match members with
  | [] => [(key, value)]
  | (k, v) :: rest => if k = key then (k, value) :: rest else (k, v) :: set rest key value

/-- Removes the member with a key, if there is one. -/
def erase (members : Members) (key : String) : Members :=
  members.eraseP (·.1 = key)

end Members

namespace Json

instance : Inhabited Json := ⟨null⟩

/-- **An object from members**: of several members with one key the first is kept. -/
def ofMembers (members : Members) : Json :=
  object (members.foldl (fun kept member => Members.add kept member.1 member.2) [])

/-- The kind of a value. -/
def kind : Json → Kind
  | null => .null
  | bool _ => .boolean
  | number _ => .number
  | string _ => .string
  | array _ => .array
  | object _ => .object

def isNull : Json → Bool
  | null => true
  | _ => false

/-- Booleans, numbers and strings. -/
def isScalar : Json → Bool
  | bool _ | number _ | string _ => true
  | _ => false

def isContainer : Json → Bool
  | array _ | object _ => true
  | _ => false

/-- An array or object without content. -/
def isEmptyContainer : Json → Bool
  | array items => items.isEmpty
  | object members => members.isEmpty
  | _ => false

def bool? : Json → Option Bool
  | bool value => some value
  | _ => none

def number? : Json → Option Number
  | number value => some value
  | _ => none

def string? : Json → Option String
  | string value => some value
  | _ => none

def items? : Json → Option (List Json)
  | array items => some items
  | _ => none

def members? : Json → Option Members
  | object members => some members
  | _ => none

/-- The member of an object with a given key. -/
def get? (json : Json) (key : String) : Option Json := json.members?.bind (·.lookup key)

/-- The element of an array at a given index. -/
def item? (json : Json) (index : Nat) : Option Json := json.items?.bind (·[index]?)

/-- **The text of a scalar**: the content of a string, the text of a number, `true` or `false`. -/
def scalarText? : Json → Option String
  | string value => some value
  | number value => some value.text
  | bool true => some "true"
  | bool false => some "false"
  | _ => none

mutual

/-- The numbers of a document, in document order. -/
def numbers : Json → List Number
  | number value => [value]
  | array items => numbersOfItems items
  | object members => numbersOfMembers members
  | _ => []

/-- The numbers of the elements of an array. -/
def numbersOfItems : List Json → List Number
  | [] => []
  | item :: rest => numbers item ++ numbersOfItems rest

/-- The numbers of the members of an object. -/
def numbersOfMembers : List (String × Json) → List Number
  | [] => []
  | (_, value) :: rest => numbers value ++ numbersOfMembers rest

end

end Json

end SqlJson
