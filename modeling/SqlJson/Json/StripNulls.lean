import SqlJson.Json.Basic

/-!
# Stripping nulls

* `Json.stripNulls`: a document without its `null` members, and without its `null` elements and
  empty containers if that is asked for.
-/

namespace SqlJson.Json

/-- What is stripped beside `null` members. -/
structure Stripping where
  /-- Elements of arrays are stripped like members. -/
  arrays : Bool
  /-- Containers that are empty after stripping go as well. -/
  empties : Bool

/-- Whether a stripped value stays in its container. -/
def Stripping.keeps (s : Stripping) (value : Json) : Bool :=
  !value.isNull && !(s.empties && value.isEmptyContainer)

mutual

/-- **Strips a document.** The document itself stays, whatever it is. -/
def stripNulls (s : Stripping) : Json → Json
  | array items => array (stripItems s items)
  | object members => object (stripMembers s members)
  | scalar => scalar

/-- The elements of an array that stay, stripped. -/
def stripItems (s : Stripping) : List Json → List Json
  | [] => []
  | item :: rest =>
    let stripped := stripNulls s item
    if s.arrays && !s.keeps stripped then stripItems s rest
    else stripped :: stripItems s rest

/-- The members of an object that stay, stripped. -/
def stripMembers (s : Stripping) : List (String × Json) → List (String × Json)
  | [] => []
  | (key, value) :: rest =>
    let stripped := stripNulls s value
    if s.keeps stripped then (key, stripped) :: stripMembers s rest else stripMembers s rest

end

end SqlJson.Json
