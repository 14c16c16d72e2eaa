import SqlJson.Proofs.Json.Tree

/-!
# How many values a document has

The values of a document, itself among them, counted by their kinds.

* `count`: how many values there are of any of some kinds.
* `count_array`, `count_object`: a container counts itself and what its elements or members count.
* `sum_set`: what a member that is set adds to a sum over an object.
-/

namespace SqlJson

open Json

namespace Json

mutual

/-- **How many values of some kinds a document has**, itself included. -/
def count (kinds : List Kind) : Json → ℕ
  | array items => (if .array ∈ kinds then 1 else 0) + countOfItems kinds items
  | object members => (if .object ∈ kinds then 1 else 0) + countOfMembers kinds members
  | null => if .null ∈ kinds then 1 else 0
  | bool _ => if .boolean ∈ kinds then 1 else 0
  | number _ => if .number ∈ kinds then 1 else 0
  | string _ => if .string ∈ kinds then 1 else 0

/-- How many values of some kinds the elements of an array have. -/
def countOfItems (kinds : List Kind) : List Json → ℕ
  | [] => 0
  | item :: rest => count kinds item + countOfItems kinds rest

/-- How many values of some kinds the members of an object have. -/
def countOfMembers (kinds : List Kind) : List (String × Json) → ℕ
  | [] => 0
  | (_, value) :: rest => count kinds value + countOfMembers kinds rest

end

variable {kinds : List Kind} {items : List Json} {members : Members}

theorem count_null (kinds : List Kind) : null.count kinds = if .null ∈ kinds then 1 else 0 := by
  rw [count]

theorem count_array (kinds : List Kind) (items : List Json) :
    (array items).count kinds = (if .array ∈ kinds then 1 else 0) + (items.map (count kinds)).sum := by
  rw [count]
  congr 1
  induction items with
  | nil => rfl
  | cons item rest ih => rw [countOfItems, ih, List.map_cons, List.sum_cons]

theorem count_object (kinds : List Kind) (members : Members) :
    (object members).count kinds = (if .object ∈ kinds then 1 else 0) + (members.map (count kinds ·.2)).sum := by
  rw [count]
  congr 1
  induction members with
  | nil => rfl
  | cons m rest ih => rw [countOfMembers, ih, List.map_cons, List.sum_cons]

end Json

/-- **A member that is set** adds what its value counts, in the place of what was there. -/
theorem Members.sum_set (f : Json → ℕ) (members : Members) (key : String) (value : Json) :
    ((members.set key value).map (f ·.2)).sum + (members.lookup key).elim 0 f =
      (members.map (f ·.2)).sum + f value := by
  induction members with
  | nil => simp [set]
  | cons m rest ih =>
    obtain ⟨k, v⟩ := m
    rw [set, List.lookup_cons]
    by_cases hk : k = key
    · subst hk
      simp only [if_pos, beq_self_eq_true, List.map_cons, List.sum_cons, Option.elim_some]
      omega
    · rw [if_neg hk, beq_eq_false_iff_ne.2 (Ne.symm hk)]
      simp only [List.map_cons, List.sum_cons]
      omega

end SqlJson
