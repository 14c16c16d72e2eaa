import SqlJson.Edit.Walk

/-!
# Edits of documents

An edit makes a new document from an old one. An edit whose path does not fit the document is
skipped; one that fits no document at all is an error.

* `Edit.validate`: the requests that fit no document.
* `Edit.apply`: one edit, and whether it took effect.
* `Edit.applyAll`: edits one after another.
-/

namespace SqlJson

/-- **An edit.** -/
inductive Edit where
  /-- Replaces the value at a path, and creates it if `create` says so. -/
  | set (path : Path) (value : Json) (create : Bool)
  /-- Removes a member or an element. -/
  | remove (path : Path)
  /-- Adds values at the end of an array. -/
  | append (path : Path) (values : List Json)
  /-- Inserts values before an element of an array. -/
  | insert (path : Path) (values : List Json)

namespace Edit

/-- What became of an edit. -/
inductive Outcome where
  | applied
  | skipped (reason : Skip)
deriving DecidableEq, Repr

/-- The wording of an outcome. -/
def Outcome.message : Outcome → String
  | applied => "applied"
  | skipped reason => reason.message

def path : Edit → Path
  | set path .. | remove path | append path _ | insert path _ => path

/-- The index at the end of steps. -/
def finalIndex? (steps : List Step) : Option Nat :=
  match steps.getLast? with
  | some (.index n) => some n
  | _ => none

/-- **Requests that fit no document**: removing the root, and inserting where the path does not
end in an index. -/
def validate : Edit → Except Error Unit
  | remove path => if path.isRoot then .error (.argument .rootRemoval) else .ok ()
  | insert path _ =>
    if (finalIndex? path.steps).isNone then .error (.argument (.noFinalIndex path.text)) else .ok ()
  | _ => .ok ()

/-- A container without the member or element that a step leads to. -/
def removeChild (last : Step) (parent : Json) : Except Skip Json :=
  match last, parent with
  | .member key, .object members | .quoted key, .object members =>
    if (members.lookup key).isSome then .ok (.object (Members.erase members key))
    else .error .pathNotFound
  | .index n, .array items =>
    if n < items.length then .ok (.array (items.eraseIdx n)) else .error .pathNotFound
  | _, .null => .error .pathNotFound
  | _, _ => .error .typeMismatch

/-- An array with values added at its end; `null` counts as an empty array. -/
def appendTo (values : List Json) : Json → Except Skip Json
  | .array items => .ok (.array (items ++ values))
  | .null => .ok (.array values)
  | _ => .error .typeMismatch

/-- An array with values before index `n`, after padding if the index is past the end. -/
def insertInto (walk : Walk) (n : Nat) (values : List Json) (parent : Json) : Except Skip Json := do
  let items ← match parent with
    | .array items => .ok items
    | .null => .ok []
    | _ => .error .typeMismatch
  if !walk.reaches items.length n then .error .paddingLimit
  else
    let padded := items ++ List.replicate (n - items.length) .null
    return .array (padded.take n ++ values ++ padded.drop n)

/-- The steps before the last one, and the last one. -/
def splitLast (path : Path) : Except Error (List Step × Step) :=
  match path.steps.getLast? with
  | some last => .ok (path.steps.dropLast, last)
  | none => .error (.internal ("path '" ++ path.text ++ "' has no last step"))

/-- The rewritten document that an edit asks for, or why there is none. -/
def attempt (maxPad : Nat) (root : Json) : Edit → Except Error (Except Skip Json)
  | set path value create =>
    let walk := if create then Walk.creating maxPad else Walk.strict maxPad
    .ok (walk.rewrite (fun _ => .ok value) path.steps ⟨root, false⟩)
  | remove path => do
    let (parent, last) ← splitLast path
    return (Walk.strict maxPad).rewrite (removeChild last) parent ⟨root, false⟩
  | append path values =>
    .ok ((Walk.toArray maxPad).rewrite (appendTo values) path.steps ⟨root, false⟩)
  | insert path values => do
    let (parent, last) ← splitLast path
    match last with
    | .index n =>
      let walk := Walk.toArray maxPad
      return walk.rewrite (insertInto walk n values) parent ⟨root, false⟩
    | _ => .error (.internal "array insert path was not validated")

/-- **Applies an edit.** A skipped edit leaves the document as it is. -/
def apply (maxPad : Nat) (root : Json) (edit : Edit) : Except Error (Json × Outcome) := do
  edit.validate
  match ← edit.attempt maxPad root with
  | .ok edited => return (edited, .applied)
  | .error reason => return (root, .skipped reason)

/-- **Applies edits one after another**, each to what the one before has left. -/
def applyAll (maxPad : Nat) (root : Json) (edits : List Edit) : Except Error Json :=
  edits.foldlM (fun current edit => return (← edit.apply maxPad current).1) root

end Edit

end SqlJson
