import SqlJson.Path.Basic

/-!
# Walks along a path

An edit changes the value at the end of a path and keeps all that lies off the path. On its way
a walk may put containers where there is `null`, add members and pad arrays, as its policy says.

* `Walk.rewrite`: the document with the value at the end of the path changed.
-/

namespace SqlJson.Edit

/-- Why an edit does not take effect. -/
inductive Skip where
  | pathNotFound
  | typeMismatch
  | paddingLimit
deriving DecidableEq, Repr

/-- The wording of the reason. -/
def Skip.message : Skip → String
  | pathNotFound => "path not found"
  | typeMismatch => "type mismatch"
  | paddingLimit => "array padding limit exceeded"

/-- What a walk does where the path goes on and the document does not. -/
structure Walk where
  /-- A `null` on the path becomes the container that the next step needs. -/
  fillsNull : Bool
  /-- A missing member of an object is added. -/
  addsMembers : Bool
  /-- An array is padded with `null` up to the index of the path. -/
  padsArrays : Bool
  /-- The most elements that may be added to one array as padding. -/
  maxPad : Nat

namespace Walk

/-- A walk that changes nothing on its way. -/
def strict (maxPad : Nat) : Walk := ⟨false, false, false, maxPad⟩

/-- A walk that creates all that is missing. -/
def creating (maxPad : Nat) : Walk := ⟨true, true, true, maxPad⟩

/-- A walk to an array: it fills `null` and pads, but members have to be there. -/
def toArray (maxPad : Nat) : Walk := ⟨true, false, true, maxPad⟩

/-- Whether index `n` of an array of a given length can be reached with the padding allowed. -/
def reaches (walk : Walk) (length n : Nat) : Bool := n - length ≤ walk.maxPad

/-- The empty container that a step leads into. -/
def containerFor : Step → Json
  | .member _ | .quoted _ => .object []
  | .index _ => .array []

/-- Puts a value at an index of an array, after padding if the index is past the end. -/
def setItem (items : List Json) (n : Nat) (value : Json) : List Json :=
  if n < items.length then items.set n value
  else items ++ List.replicate (n - items.length) .null ++ [value]

/-- Where a walk stands: a value, and whether the walk itself has put it there. Below a value it
has put there a walk creates all that is missing. -/
structure Place where
  value : Json
  fresh : Bool

/-- The place a walk goes on from: a `null` that it may fill becomes a fresh container. -/
def enter (walk : Walk) (step : Step) (place : Place) : Place :=
  match place.value with
  | .null => if walk.fillsNull || place.fresh then ⟨containerFor step, true⟩ else place
  | _ => place

/-- A place that the walk has put into the document. -/
def created : Place := ⟨.null, true⟩

/-- The place of a member, or a created one if it is missing and may be added. -/
def memberPlace (walk : Walk) (fresh : Bool) (members : Members) (key : String) :
    Except Skip Place :=
  match members.lookup key with
  | some value => .ok ⟨value, false⟩
  | none => if walk.addsMembers || fresh then .ok created else .error .pathNotFound

/-- The place of an element, or a created one if it is missing and may be padded to. -/
def itemPlace (walk : Walk) (fresh : Bool) (items : List Json) (n : Nat) : Except Skip Place :=
  match items[n]? with
  | some value => .ok ⟨value, false⟩
  | none =>
    if !(walk.padsArrays || fresh) then .error .pathNotFound
    else if !walk.reaches items.length n then .error .paddingLimit
    else .ok created

/-- **Rewriting along a path**: the value at the end of the steps is replaced by what `change`
makes of it, and every container on the way takes up the change. -/
def rewrite (walk : Walk) (change : Json → Except Skip Json) :
    List Step → Place → Except Skip Json
  | [], place => change place.value
  | step :: rest, place =>
    let ⟨value, fresh⟩ := walk.enter step place
    match step, value with
    | .member key, .object members | .quoted key, .object members => do
      let child ← rewrite walk change rest (← walk.memberPlace fresh members key)
      return .object (Members.set members key child)
    | .index n, .array items => do
      let child ← rewrite walk change rest (← walk.itemPlace fresh items n)
      return .array (setItem items n child)
    | _, .null => .error .pathNotFound
    | _, _ => .error .typeMismatch

end Walk

end SqlJson.Edit
