import SqlJson.Json.Basic

/-!
# Equality of documents

Numbers are compared by value, arrays element by element, and objects without regard to the
order of their members.

* `Json.same`: equality in that sense.
-/

namespace SqlJson.Json

mutual

/-- **Equality of documents.** -/
def same : Json → Json → Bool
  | null, null => true
  | bool a, bool b => a = b
  | number a, number b => a.numericEq b
  | string a, string b => a = b
  | array a, array b => sameItems a b
  | object a, object b => a.length = b.length && allIn a b
  | _, _ => false

/-- Equality of elements, place by place. -/
def sameItems : List Json → List Json → Bool
  | [], [] => true
  | a :: as, b :: bs => same a b && sameItems as bs
  | _, _ => false

/-- Whether each member is in an object with an equal value. -/
def allIn : List (String × Json) → List (String × Json) → Bool
  | [], _ => true
  | (key, value) :: rest, members =>
    (match members.lookup key with
      | some other => same value other
      | none => false) && allIn rest members

end

end SqlJson.Json
