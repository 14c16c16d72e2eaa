import SqlJson.Json.Equality
import SqlJson.Proofs.Json.Tree

/-!
# Equal documents

Documents that differ in numbers of equal value are equal, if the keys of their objects are unique:
then a member is found by its key.

* `mem_of_lookup`, `lookup_of_mem`: the value of a member.
* `same_mapNumbers`: equality of documents with other numbers.
-/

namespace SqlJson

open Json

/-- A key without a member is none of the keys. -/
theorem Members.lookup_eq_none_iff {members : Members} {key : String} :
    members.lookup key = none ↔ key ∉ keys members := by
  rw [List.lookup_eq_none_iff, keys, List.mem_map]
  constructor
  · rintro h ⟨m, hm, rfl⟩
    exact bne_iff_ne.1 (h m hm) rfl
  · intro h m hm
    rw [bne_iff_ne]
    rintro rfl
    exact h ⟨m, hm, rfl⟩

namespace Json

variable {members : Members} {f : Number → Number} {v : Json}

/-- What is found is a member. -/
theorem mem_of_lookup {key : String} (h : members.lookup key = some v) : (key, v) ∈ members := by
  obtain ⟨before, after, rfl, -⟩ := List.lookup_eq_some_iff.1 h
  simp

/-- **A member is found by its key**, if keys are unique. -/
theorem lookup_of_mem (hk : (keys members).Nodup) {key : String} (h : (key, v) ∈ members) :
    members.lookup key = some v := by
  induction members with
  | nil => cases h
  | cons m rest ih =>
    obtain ⟨k, w⟩ := m
    rw [keys, List.map_cons, List.nodup_cons] at hk
    rcases List.mem_cons.1 h with heq | hmem
    · cases heq
      rw [List.lookup_cons_self]
    · have hne : (key == k) = false := by
        rw [beq_eq_false_iff_ne]
        rintro rfl
        exact hk.1 (List.mem_map.2 ⟨_, hmem, rfl⟩)
      rw [List.lookup_cons, hne]
      exact ih hk.2 hmem

theorem sameItems_map {g : Json → Json} {items : List Json} (h : ∀ item ∈ items, (g item).same item = true) :
    sameItems (items.map g) items = true := by
  induction items with
  | nil => rfl
  | cons item rest ih =>
    rw [List.forall_mem_cons] at h
    rw [List.map_cons, sameItems, h.1, ih h.2]
    rfl

theorem allIn_map {g : Json → Json} (hk : (keys members).Nodup)
    (h : ∀ m ∈ members, (g m.2).same m.2 = true) :
    allIn (members.map fun m => (m.1, g m.2)) members = true := by
  -- the induction goes over the members that are left, all of which are in the object
  have hall : ∀ rest ⊆ members, allIn (rest.map fun m => (m.1, g m.2)) members = true := by
    intro rest hrest
    induction rest with
    | nil => rfl
    | cons m rest ih =>
      rw [List.cons_subset] at hrest
      rw [List.map_cons, allIn, lookup_of_mem hk hrest.1]
      simp only [h m hrest.1, ih hrest.2, Bool.and_self]
  exact hall members (List.Subset.refl _)

/-- **Numbers of equal value make equal documents.** -/
theorem same_mapNumbers (hk : v.UniqueKeys) (hn : ∀ n ∈ v.numbers, (f n).numericEq n = true) :
    (v.mapNumbers f).same v = true := by
  induction v using induct with
  | null => rfl
  | bool b => simp [mapNumbers, same]
  | string s => simp [mapNumbers, same]
  | number n =>
    rw [mapNumbers, same]
    exact hn n (by simp [numbers])
  | array items ih =>
    rw [uniqueKeys_array] at hk
    rw [forall_numbers_array] at hn
    rw [mapNumbers_array, same]
    exact sameItems_map fun i hi => ih i hi (hk i hi) (hn i hi)
  | object members ih =>
    obtain ⟨hnodup, hk⟩ := uniqueKeys_object.1 hk
    rw [forall_numbers_object] at hn
    rw [mapNumbers_object, same, allIn_map hnodup fun m hm => ih m hm (hk m hm) (hn m hm)]
    simp

end Json

end SqlJson
