import Mathlib.Tactic
import SqlJson.Json.Basic

/-!
# Documents as trees

Properties that hold of a document because they hold of all its parts, and the induction to prove
them.

* `induct`: induction over a document, with a hypothesis for each element and each member.
* `nesting`: how many arrays and objects stand in one another.
* `UniqueKeys`: no object has two members with the same key.
* `mapNumbers`: the document with other numbers in place of its own.
-/

namespace SqlJson.Json

variable {items : List Json} {members : Members} {d : ℕ} {f g : Number → Number} {v : Json}

/-- Induction over a document, with a hypothesis for each element and each member. -/
theorem induct {P : Json → Prop} (null : P null) (bool : ∀ b, P (bool b)) (number : ∀ n, P (number n))
    (string : ∀ s, P (string s)) (array : ∀ items, (∀ item ∈ items, P item) → P (array items))
    (object : ∀ members : Members, (∀ m ∈ members, P m.2) → P (object members)) (v : Json) : P v :=
  @Json.rec P (fun items => ∀ item ∈ items, P item) (fun members => ∀ m ∈ members, P m.2)
    (fun m => P m.2) null bool number string (fun items h => array items h)
    (fun members h => object members h) (by simp) (fun _ _ h hs => List.forall_mem_cons.2 ⟨h, hs⟩)
    (by simp) (fun _ _ h hs => List.forall_mem_cons.2 ⟨h, hs⟩) (fun _ _ h => h) v

/-! ## Nesting -/

mutual

/-- **How many arrays and objects stand in one another.** -/
def nesting : Json → ℕ
  | array items => nestingOfItems items + 1
  | object members => nestingOfMembers members + 1
  | _ => 0

/-- The greatest nesting among elements. -/
def nestingOfItems : List Json → ℕ
  | [] => 0
  | item :: rest => max (nesting item) (nestingOfItems rest)

/-- The greatest nesting among members. -/
def nestingOfMembers : List (String × Json) → ℕ
  | [] => 0
  | (_, value) :: rest => max (nesting value) (nestingOfMembers rest)

end

theorem nestingOfItems_le_iff : nestingOfItems items ≤ d ↔ ∀ item ∈ items, item.nesting ≤ d := by
  induction items with
  | nil => simp [nestingOfItems]
  | cons item rest ih => simp [nestingOfItems, ih]

theorem nestingOfMembers_le_iff : nestingOfMembers members ≤ d ↔ ∀ m ∈ members, m.2.nesting ≤ d := by
  induction members with
  | nil => simp [nestingOfMembers]
  | cons m rest ih => simp [nestingOfMembers, ih]

theorem nesting_array_le_iff :
    (array items).nesting ≤ d ↔ ∃ e, d = e + 1 ∧ ∀ item ∈ items, item.nesting ≤ e := by
  rw [nesting]
  constructor
  · intro h
    exact ⟨d - 1, by omega, nestingOfItems_le_iff.1 (by omega)⟩
  · rintro ⟨e, rfl, h⟩
    exact Nat.succ_le_succ (nestingOfItems_le_iff.2 h)

theorem nesting_object_le_iff :
    (object members).nesting ≤ d ↔ ∃ e, d = e + 1 ∧ ∀ m ∈ members, m.2.nesting ≤ e := by
  rw [nesting]
  constructor
  · intro h
    exact ⟨d - 1, by omega, nestingOfMembers_le_iff.1 (by omega)⟩
  · rintro ⟨e, rfl, h⟩
    exact Nat.succ_le_succ (nestingOfMembers_le_iff.2 h)

/-! ## Keys -/

/-- The keys of an object, in document order. -/
def keys (members : Members) : List String := members.map (·.1)

theorem keys_cons (m : String × Json) (rest : Members) : keys (m :: rest) = m.1 :: keys rest := rfl

mutual

/-- **No object has two members with the same key**, at any depth. -/
def UniqueKeys : Json → Prop
  | array items => UniqueKeysOfItems items
  | object members => (keys members).Nodup ∧ UniqueKeysOfMembers members
  | _ => True

/-- All elements have unique keys. -/
def UniqueKeysOfItems : List Json → Prop
  | [] => True
  | item :: rest => UniqueKeys item ∧ UniqueKeysOfItems rest

/-- All members have unique keys. -/
def UniqueKeysOfMembers : List (String × Json) → Prop
  | [] => True
  | (_, value) :: rest => UniqueKeys value ∧ UniqueKeysOfMembers rest

end

theorem uniqueKeys_array : (array items).UniqueKeys ↔ ∀ item ∈ items, item.UniqueKeys := by
  rw [UniqueKeys]
  induction items with
  | nil => simp [UniqueKeysOfItems]
  | cons item rest ih => simp [UniqueKeysOfItems, ih]

theorem uniqueKeys_object :
    (object members).UniqueKeys ↔ (keys members).Nodup ∧ ∀ m ∈ members, m.2.UniqueKeys := by
  have h : ∀ members : Members, UniqueKeysOfMembers members ↔ ∀ m ∈ members, m.2.UniqueKeys := by
    intro members
    induction members with
    | nil => simp [UniqueKeysOfMembers]
    | cons m rest ih => simp [UniqueKeysOfMembers, ih]
  rw [UniqueKeys, h]

/-! ## Numbers -/

theorem forall_numbers_array {P : Number → Prop} :
    (∀ n ∈ (array items).numbers, P n) ↔ ∀ item ∈ items, ∀ n ∈ item.numbers, P n := by
  rw [numbers]
  induction items with
  | nil => simp [numbersOfItems]
  | cons item rest ih => simp [numbersOfItems, or_imp, forall_and, ih]

theorem forall_numbers_object {P : Number → Prop} :
    (∀ n ∈ (object members).numbers, P n) ↔ ∀ m ∈ members, ∀ n ∈ m.2.numbers, P n := by
  rw [numbers]
  induction members with
  | nil => simp [numbersOfMembers]
  | cons m rest ih => simp [numbersOfMembers, or_imp, forall_and, ih]

mutual

/-- **The document with other numbers** in place of its own. -/
def mapNumbers (f : Number → Number) : Json → Json
  | number n => number (f n)
  | array items => array (mapNumbersOfItems f items)
  | object members => object (mapNumbersOfMembers f members)
  | null => null
  | bool b => bool b
  | string s => string s

/-- The elements with other numbers. -/
def mapNumbersOfItems (f : Number → Number) : List Json → List Json
  | [] => []
  | item :: rest => mapNumbers f item :: mapNumbersOfItems f rest

/-- The members with other numbers. -/
def mapNumbersOfMembers (f : Number → Number) : List (String × Json) → List (String × Json)
  | [] => []
  | (key, value) :: rest => (key, mapNumbers f value) :: mapNumbersOfMembers f rest

end

theorem mapNumbers_array : (array items).mapNumbers f = array (items.map (mapNumbers f)) := by
  rw [mapNumbers]
  congr 1
  induction items with
  | nil => rfl
  | cons item rest ih => simp [mapNumbersOfItems, ih]

theorem mapNumbers_object :
    (object members).mapNumbers f = object (members.map fun m => (m.1, m.2.mapNumbers f)) := by
  rw [mapNumbers]
  congr 1
  induction members with
  | nil => rfl
  | cons m rest ih => simp [mapNumbersOfMembers, ih]

/-- Numbers that stay as they are leave the document as it is. -/
theorem mapNumbers_eq_self (h : ∀ n ∈ v.numbers, f n = n) : v.mapNumbers f = v := by
  induction v using induct with
  | null => rfl
  | bool b => rfl
  | string s => rfl
  | number n => rw [mapNumbers, h n (by simp [numbers])]
  | array items ih =>
    rw [mapNumbers_array, List.map_congr_left (fun item hi => ih item hi (forall_numbers_array.1 h item hi)),
      List.map_id']
  | object members ih =>
    rw [mapNumbers_object, List.map_congr_left (g := id), List.map_id]
    intro m hm
    rw [ih m hm (forall_numbers_object.1 h m hm)]
    rfl

theorem forall_numbers_mapNumbers {P : Number → Prop} :
    (∀ n ∈ (v.mapNumbers f).numbers, P n) ↔ ∀ n ∈ v.numbers, P (f n) := by
  induction v using induct with
  | null => simp [mapNumbers, numbers]
  | bool b => simp [mapNumbers, numbers]
  | string s => simp [mapNumbers, numbers]
  | number n => simp [mapNumbers, numbers]
  | array items ih =>
    rw [mapNumbers_array, forall_numbers_array, forall_numbers_array, List.forall_mem_map]
    exact forall₂_congr ih
  | object members ih =>
    rw [mapNumbers_object, forall_numbers_object, forall_numbers_object, List.forall_mem_map]
    exact forall₂_congr ih

end SqlJson.Json
