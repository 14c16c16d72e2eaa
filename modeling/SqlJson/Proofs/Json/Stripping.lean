import SqlJson.Json.StripNulls
import SqlJson.Proofs.Json.WellFormed

/-!
# What stripping leaves

Stripping is told by three things that do not say how it is done: which children may go (`Strips`), which must not be
left (`IsStripped`), and that no content is lost (`scalars`).

* `Part`: the parts of a document.
* `IsStripped`: no part has a child that should be gone.
* `Strips`, `Drops`: a document and what may be left of it.
* `scalars`: the scalars of a document but `null`, in document order.
* `isStripped_stripNulls`, `strips_stripNulls`, `scalars_stripNulls`: stripping does all this.
* `stripNulls_eq_self_iff`: the documents that stripping leaves as they are.
-/

namespace SqlJson.Json

variable {s : Stripping} {v part item : Json} {items : List Json} {members : Members}

/-! ## Parts -/

/-- **The parts of a document**: the document itself, and the parts of its elements and members. -/
inductive Part (part : Json) : Json → Prop
  | self : Part part part
  | item {items : List Json} {item : Json} (hi : item ∈ items) (h : Part part item) : Part part (array items)
  | member {members : Members} {m : String × Json} (hm : m ∈ members) (h : Part part m.2) :
      Part part (object members)

theorem part_array_iff : Part part (array items) ↔ part = array items ∨ ∃ item ∈ items, Part part item := by
  constructor
  · rintro (_ | ⟨hi, h⟩)
    · exact .inl rfl
    · exact .inr ⟨_, hi, h⟩
  · rintro (rfl | ⟨item, hi, h⟩)
    · exact .self
    · exact .item hi h

theorem part_object_iff : Part part (object members) ↔ part = object members ∨ ∃ m ∈ members, Part part m.2 := by
  constructor
  · rintro (_ | _ | ⟨hm, h⟩)
    · exact .inl rfl
    · exact .inr ⟨_, hm, h⟩
  · rintro (rfl | ⟨m, hm, h⟩)
    · exact .self
    · exact .member hm h

/-- A value that is no container has no parts but itself. -/
theorem eq_of_part (hv : v.isContainer = false) (h : Part part v) : part = v := by
  cases h with
  | self => rfl
  | item => cases hv
  | member => cases hv

/-! ## Documents that are stripped -/

/-- What may stay in a container: anything but `null`, and no empty container if those go as well. -/
def Stripping.Stays (s : Stripping) (v : Json) : Prop :=
  v ≠ null ∧ (s.empties = true → v.isEmptyContainer = false)

theorem Stripping.keeps_iff : s.keeps v = true ↔ s.Stays v := by
  have hnull : v.isNull = false ↔ v ≠ null := by cases v <;> simp [isNull]
  rw [keeps, Stays, Bool.and_eq_true, Bool.not_eq_true', hnull]
  cases s.empties <;> simp

theorem Stripping.keeps_eq_false_iff :
    s.keeps v = false ↔ v = null ∨ (s.empties = true ∧ v.isEmptyContainer = true) := by
  have hnull : v.isNull = true ↔ v = null := by cases v <;> simp [isNull]
  rw [keeps, Bool.and_eq_false_iff, Bool.not_eq_false', Bool.not_eq_false', Bool.and_eq_true, hnull]

/-- **A stripped document**: every member of every object in it may stay, and so may every element of every array in
it if arrays are stripped as well. -/
def IsStripped (s : Stripping) (v : Json) : Prop :=
  ∀ part, Part part v →
    (∀ members, part = object members → ∀ m ∈ members, s.Stays m.2) ∧
      ∀ items, part = array items → s.arrays = true → ∀ item ∈ items, s.Stays item

theorem isStripped_of_not_container (hv : v.isContainer = false) : v.IsStripped s := by
  intro part hpart
  obtain rfl := eq_of_part hv hpart
  constructor
  · rintro members rfl
    cases hv
  · rintro items rfl
    cases hv

theorem isStripped_array :
    (array items).IsStripped s ↔
      (s.arrays = true → ∀ item ∈ items, s.Stays item) ∧ ∀ item ∈ items, item.IsStripped s := by
  constructor
  · intro h
    exact ⟨(h _ .self).2 items rfl, fun item hi part hpart => h part (.item hi hpart)⟩
  · rintro ⟨hstays, hitems⟩ part hpart
    rcases part_array_iff.1 hpart with rfl | ⟨item, hi, hpart⟩
    · exact ⟨nofun, fun items heq => by cases heq; exact hstays⟩
    · exact hitems item hi part hpart

theorem isStripped_object :
    (object members).IsStripped s ↔ (∀ m ∈ members, s.Stays m.2) ∧ ∀ m ∈ members, m.2.IsStripped s := by
  constructor
  · intro h
    exact ⟨(h _ .self).1 members rfl, fun m hm part hpart => h part (.member hm hpart)⟩
  · rintro ⟨hstays, hmembers⟩ part hpart
    rcases part_object_iff.1 hpart with rfl | ⟨m, hm, hpart⟩
    · exact ⟨fun members heq => by cases heq; exact hstays, nofun⟩
    · exact hmembers m hm part hpart

/-! ## What may be left -/

mutual

/-- **What may be left of a document.** Scalars and containers stay what they are. An array keeps its length if arrays
are not stripped, and the keys of an object keep their order. -/
inductive Strips (s : Stripping) : Json → Json → Prop
  | scalar {v : Json} (h : v.isContainer = false) : Strips s v v
  | array {items left : List Json} (h : StripsItems s items left)
      (hlength : s.arrays = false → left.length = items.length) : Strips s (array items) (array left)
  | object {members left : List (String × Json)} (h : StripsMembers s members left)
      (hkeys : (keys left).Sublist (keys members)) : Strips s (object members) (object left)

/-- **The children that may go**: `null`, and what is empty when it is stripped if empty containers go. -/
inductive Drops (s : Stripping) : Json → Prop
  | null : Drops s null
  | empty {v left : Json} (he : s.empties = true) (h : Strips s v left) (hempty : left.isEmptyContainer = true) :
      Drops s v

/-- The elements that may be left of an array. They may go only if arrays are stripped as well. -/
inductive StripsItems (s : Stripping) : List Json → List Json → Prop
  | nil : StripsItems s [] []
  | keep {item left : Json} {items lefts : List Json} (h : Strips s item left) (hrest : StripsItems s items lefts) :
      StripsItems s (item :: items) (left :: lefts)
  | drop {item : Json} {items lefts : List Json} (ha : s.arrays = true) (h : Drops s item)
      (hrest : StripsItems s items lefts) : StripsItems s (item :: items) lefts

/-- The members that may be left of an object. -/
inductive StripsMembers (s : Stripping) : List (String × Json) → List (String × Json) → Prop
  | nil : StripsMembers s [] []
  | keep {key : String} {v left : Json} {members lefts : List (String × Json)} (h : Strips s v left)
      (hrest : StripsMembers s members lefts) : StripsMembers s ((key, v) :: members) ((key, left) :: lefts)
  | drop {key : String} {v : Json} {members lefts : List (String × Json)} (h : Drops s v)
      (hrest : StripsMembers s members lefts) : StripsMembers s ((key, v) :: members) lefts

end

/-! ## Content -/

mutual

/-- **The scalars of a document** but `null`, in document order. -/
def scalars : Json → List Json
  | null => []
  | array items => scalarsOfItems items
  | object members => scalarsOfMembers members
  | scalar => [scalar]

/-- The scalars of elements. -/
def scalarsOfItems : List Json → List Json
  | [] => []
  | item :: rest => scalars item ++ scalarsOfItems rest

/-- The scalars of members. -/
def scalarsOfMembers : List (String × Json) → List Json
  | [] => []
  | (_, value) :: rest => scalars value ++ scalarsOfMembers rest

end

theorem scalars_of_isEmptyContainer (h : v.isEmptyContainer = true) : v.scalars = [] := by
  cases v with
  | array items =>
    obtain rfl := List.isEmpty_iff.1 h
    rfl
  | object members =>
    obtain rfl := List.isEmpty_iff.1 h
    rfl
  | _ => cases h

/-- What does not stay has no scalars. -/
theorem scalars_of_keeps_eq_false (h : s.keeps v = false) : v.scalars = [] := by
  rcases Stripping.keeps_eq_false_iff.1 h with rfl | ⟨-, hempty⟩
  · rfl
  · exact scalars_of_isEmptyContainer hempty

/-! ## Stripping -/

variable (s)

theorem stripItems_eq (items : List Json) :
    stripItems s items = (items.map (stripNulls s)).filter fun v => !s.arrays || s.keeps v := by
  induction items with
  | nil => rfl
  | cons item rest ih =>
    rw [stripItems, List.map_cons, List.filter_cons, ih]
    cases s.arrays <;> cases s.keeps (item.stripNulls s) <;> rfl

theorem stripMembers_eq (members : Members) :
    stripMembers s members = (members.map fun m => (m.1, m.2.stripNulls s)).filter fun m => s.keeps m.2 := by
  induction members with
  | nil => rfl
  | cons m rest ih => rw [stripMembers, List.map_cons, List.filter_cons, ih]

/-- **Nothing is left that should be gone.** -/
theorem isStripped_stripNulls (v : Json) : (v.stripNulls s).IsStripped s := by
  induction v using induct with
  | array items ih =>
    rw [stripNulls, isStripped_array, stripItems_eq]
    constructor
    · intro harrays left hleft
      have hkeeps := (List.mem_filter.1 hleft).2
      rw [harrays] at hkeeps
      exact Stripping.keeps_iff.1 hkeeps
    · intro left hleft
      obtain ⟨item, hi, rfl⟩ := List.mem_map.1 (List.mem_of_mem_filter hleft)
      exact ih item hi
  | object members ih =>
    rw [stripNulls, isStripped_object, stripMembers_eq]
    constructor
    · intro left hleft
      exact Stripping.keeps_iff.1 (List.mem_filter.1 hleft).2
    · intro left hleft
      obtain ⟨m, hm, rfl⟩ := List.mem_map.1 (List.mem_of_mem_filter hleft)
      exact ih m hm
  | _ => exact isStripped_of_not_container rfl

/-- **No content is lost**: the scalars are the same, in the same order. -/
theorem scalars_stripNulls (v : Json) : (v.stripNulls s).scalars = v.scalars := by
  induction v using induct with
  | array items ih =>
    rw [stripNulls, scalars, scalars]
    induction items with
    | nil => rfl
    | cons item rest ihrest =>
      obtain ⟨hitem, hrest⟩ := List.forall_mem_cons.1 ih
      rw [stripItems, scalarsOfItems, ← hitem]
      split_ifs with hdrop
      · rw [Bool.and_eq_true, Bool.not_eq_true'] at hdrop
        rw [scalars_of_keeps_eq_false hdrop.2, List.nil_append, ihrest hrest]
      · rw [scalarsOfItems, ihrest hrest]
  | object members ih =>
    rw [stripNulls, scalars, scalars]
    induction members with
    | nil => rfl
    | cons m rest ihrest =>
      obtain ⟨hvalue, hrest⟩ := List.forall_mem_cons.1 ih
      rw [stripMembers, scalarsOfMembers, ← hvalue]
      split_ifs with hkeep
      · rw [scalarsOfMembers, ihrest hrest]
      · rw [scalars_of_keeps_eq_false (Bool.eq_false_of_not_eq_true hkeep), List.nil_append, ihrest hrest]
  | _ => rfl

/-- What does not stay when it is stripped may go. -/
theorem drops_of_keeps_eq_false (h : v.Strips s (v.stripNulls s)) (hdrop : s.keeps (v.stripNulls s) = false) :
    v.Drops s := by
  rcases Stripping.keeps_eq_false_iff.1 hdrop with hnull | ⟨hempties, hempty⟩
  · have hv : v = null := by cases v <;> cases hnull; rfl
    rw [hv]
    exact .null
  · exact .empty hempties h hempty

theorem stripsItems_stripItems (h : ∀ item ∈ items, item.Strips s (item.stripNulls s)) :
    StripsItems s items (stripItems s items) := by
  induction items with
  | nil => exact .nil
  | cons item rest ih =>
    obtain ⟨hitem, hrest⟩ := List.forall_mem_cons.1 h
    rw [stripItems]
    split_ifs with hdrop
    · rw [Bool.and_eq_true, Bool.not_eq_true'] at hdrop
      exact .drop hdrop.1 (drops_of_keeps_eq_false s hitem hdrop.2) (ih hrest)
    · exact .keep hitem (ih hrest)

theorem stripsMembers_stripMembers (h : ∀ m ∈ members, m.2.Strips s (m.2.stripNulls s)) :
    StripsMembers s members (stripMembers s members) := by
  induction members with
  | nil => exact .nil
  | cons m rest ih =>
    obtain ⟨hvalue, hrest⟩ := List.forall_mem_cons.1 h
    rw [stripMembers]
    split_ifs with hkeep
    · exact .keep hvalue (ih hrest)
    · exact .drop (drops_of_keeps_eq_false s hvalue (Bool.eq_false_of_not_eq_true hkeep)) (ih hrest)

/-- **Nothing goes that should be left.** -/
theorem strips_stripNulls (v : Json) : v.Strips s (v.stripNulls s) := by
  induction v using induct with
  | array items ih =>
    rw [stripNulls]
    refine .array (stripsItems_stripItems s ih) fun harrays => ?_
    rw [stripItems_eq, harrays]
    simp
  | object members ih =>
    rw [stripNulls]
    exact .object (stripsMembers_stripMembers s ih) (keys_stripMembers_sublist s members)
  | _ => exact .scalar rfl

/-- **Stripping leaves stripped documents as they are**, and only them. -/
theorem stripNulls_eq_self_iff : v.stripNulls s = v ↔ v.IsStripped s := by
  constructor
  · intro h
    rw [← h]
    exact isStripped_stripNulls s v
  · intro h
    induction v using induct with
    | array items ih =>
      obtain ⟨hstays, hitems⟩ := isStripped_array.1 h
      have hmap : items.map (stripNulls s) = items :=
        (List.map_congr_left fun item hi => ih item hi (hitems item hi)).trans items.map_id
      rw [stripNulls, stripItems_eq, hmap, List.filter_eq_self.2]
      intro item hi
      cases harrays : s.arrays with
      | false => rfl
      | true => exact Stripping.keeps_iff.2 (hstays harrays item hi)
    | object members ih =>
      obtain ⟨hstays, hmembers⟩ := isStripped_object.1 h
      have hmap : (members.map fun m => (m.1, m.2.stripNulls s)) = members := by
        refine (List.map_congr_left fun m hm => ?_).trans members.map_id
        rw [ih m hm (hmembers m hm)]
        rfl
      rw [stripNulls, stripMembers_eq, hmap, List.filter_eq_self.2]
      exact fun m hm => Stripping.keeps_iff.2 (hstays m hm)
    | _ => rfl

end SqlJson.Json
