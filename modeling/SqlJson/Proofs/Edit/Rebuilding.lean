import SqlJson.Edit.Basic
import SqlJson.Proofs.Except
import SqlJson.Proofs.Json.Tree

/-!
# What a walk makes of one container

A walk goes down into one child of a container, and puts it back changed. Whatever its policy, this is
all it does to the container (`rewrite_cons`), and the other children can be read off (`child?_of_ne`,
`child?_of_pads`).

* `Step.place`: the place a step leads to; the two spellings of a member lead to the same place.
* `Step.Pads`: the elements that have to be put into an array in front of the one a walk goes to.
* `rewrite_cons`: one step of a walk, with any change at its end.
* `put`: a container with a child put in; putting twice at one place leaves what was put last (`put_put`), and
  putting back what is there changes nothing (`put_child`).
* `insertInto_eq`: an array with values put in, and padding in front of them.
-/

namespace SqlJson

open Json

/-! ## Members and elements -/

namespace Members

variable {members : Members} {key k : String} {value : Json}

theorem lookup_set (members : Members) (key k : String) (value : Json) :
    (members.set key value).lookup k = if k = key then some value else members.lookup k := by
  induction members with
  | nil =>
    rw [set, List.lookup_cons]
    by_cases h : k = key
    · simp [h]
    · simp [h, beq_eq_false_iff_ne.2 h]
  | cons m rest ih =>
    obtain ⟨k', v'⟩ := m
    rw [set]
    by_cases hk : k' = key
    · subst hk
      rw [if_pos rfl, List.lookup_cons, List.lookup_cons]
      by_cases h : k = k'
      · simp [h]
      · simp [h, beq_eq_false_iff_ne.2 h]
    · rw [if_neg hk, List.lookup_cons, List.lookup_cons, ih]
      by_cases h : k = k'
      · subst h
        simp [hk]
      · simp [beq_eq_false_iff_ne.2 h]

/-- **Members keep their places**, and one that is new comes last. -/
theorem keys_set (members : Members) (key : String) (value : Json) :
    keys (members.set key value) = if key ∈ keys members then keys members else keys members ++ [key] := by
  induction members with
  | nil => simp [set, keys]
  | cons m rest ih =>
    obtain ⟨k', v'⟩ := m
    rw [set]
    by_cases hk : k' = key
    · subst hk
      simp [keys]
    · have hne : ¬key = k' := fun h => hk h.symm
      rw [if_neg hk, keys_cons, keys_cons, ih]
      by_cases h : key ∈ keys rest
      · rw [if_pos h, if_pos (List.mem_cons_of_mem _ h)]
      · rw [if_neg h, if_neg (by simp [hne, h]), List.cons_append]

end Members

theorem Edit.Walk.getElem?_setItem (items : List Json) (n i : ℕ) (value : Json) :
    (setItem items n value)[i]? =
      if i = n then some value else if items.length ≤ i ∧ i < n then some .null else items[i]? := by
  unfold setItem
  by_cases hn : n < items.length
  · rw [if_pos hn, List.getElem?_set, if_neg (c := items.length ≤ i ∧ i < n) (by omega)]
    by_cases hi : i = n
    · subst hi
      simp [hn]
    · rw [if_neg (Ne.symm hi), if_neg hi]
  · rw [if_neg hn]
    rcases Nat.lt_or_ge i items.length with hi | hi
    · rw [if_neg (by omega), if_neg (by omega), List.append_assoc, List.getElem?_append_left hi]
    · rw [List.append_assoc, List.getElem?_append_right hi]
      by_cases hin : i = n
      · subst hin
        simp
      · rw [if_neg hin]
        by_cases hlt : i < n
        · rw [if_pos ⟨hi, hlt⟩, List.getElem?_append_left (by simp; omega), List.getElem?_replicate,
            if_pos (by omega)]
        · rw [if_neg (by omega), List.getElem?_eq_none hi, List.getElem?_eq_none (by simp; omega)]

theorem Edit.Walk.length_setItem (items : List Json) (n : ℕ) (value : Json) :
    (setItem items n value).length = max items.length (n + 1) := by
  unfold setItem
  split_ifs
  · rw [List.length_set]
    omega
  · simp only [List.length_append, List.length_replicate, List.length_singleton]
    omega

theorem Members.set_set (members : Members) (key : String) (v w : Json) :
    (members.set key v).set key w = members.set key w := by
  induction members with
  | nil => simp [set]
  | cons m rest ih =>
    obtain ⟨k, u⟩ := m
    by_cases hk : k = key
    · simp [set, hk]
    · simp [set, hk, ih]

/-- Setting a member to its own value changes nothing. -/
theorem Members.set_of_lookup {members : Members} {key : String} {value : Json}
    (h : members.lookup key = some value) : members.set key value = members := by
  induction members with
  | nil => cases h
  | cons m rest ih =>
    obtain ⟨k, v⟩ := m
    rw [List.lookup_cons] at h
    by_cases hk : key = k
    · subst hk
      rw [beq_self_eq_true] at h
      cases h
      rw [set, if_pos rfl]
    · rw [beq_eq_false_iff_ne.2 hk] at h
      rw [set, if_neg (Ne.symm hk), ih h]

/-- Setting an element to its own value changes nothing. -/
theorem Edit.Walk.setItem_of_getElem? {items : List Json} {n : ℕ} {value : Json} (h : items[n]? = some value) :
    setItem items n value = items := by
  obtain ⟨hn, hvalue⟩ := List.getElem?_eq_some_iff.1 h
  rw [setItem, if_pos hn, ← hvalue]
  exact List.set_getElem_self hn

theorem Edit.Walk.setItem_setItem (items : List Json) (n : ℕ) (v w : Json) :
    setItem (setItem items n v) n w = setItem items n w := by
  refine List.ext_getElem? fun i => ?_
  rw [getElem?_setItem, getElem?_setItem, getElem?_setItem]
  by_cases hi : i = n
  · rw [if_pos hi, if_pos hi]
  · have hpad : ¬((setItem items n v).length ≤ i ∧ i < n) := by
      rw [length_setItem]
      omega
    rw [if_neg hi, if_neg hi, if_neg hpad, if_neg hi]

/-- Members with different keys can be set in either order, if one of them is there already. -/
theorem Members.set_comm {members : Members} {key k : String} (hkey : key ∈ keys members) (hne : k ≠ key)
    (v w : Json) : (members.set key v).set k w = (members.set k w).set key v := by
  induction members with
  | nil => cases hkey
  | cons m rest ih =>
    obtain ⟨k', u⟩ := m
    by_cases hk' : k' = key
    · subst hk'
      simp [set, Ne.symm hne]
    · have hrest : key ∈ keys rest := by
        rw [keys_cons] at hkey
        exact (List.mem_cons.1 hkey).resolve_left (Ne.symm hk')
      by_cases hk : k' = k
      · subst hk
        simp [set, hk']
      · simp [set, hk', hk, ih hrest]

/-- Elements at different indices can be set in either order, if one of them is there already. -/
theorem Edit.Walk.setItem_comm {items : List Json} {n i : ℕ} (hn : n < items.length) (hne : i ≠ n) (v w : Json) :
    setItem (setItem items n v) i w = setItem (setItem items i w) n v := by
  refine List.ext_getElem? fun j => ?_
  simp only [getElem?_setItem, length_setItem]
  by_cases hj : j = n
  · subst hj
    rw [if_neg (Ne.symm hne), if_neg (by omega), if_pos rfl, if_pos rfl]
  · rw [if_neg hj, if_neg hj, if_neg (c := items.length ≤ j ∧ j < n) (by omega),
      if_neg (c := max items.length (i + 1) ≤ j ∧ j < n) (by omega)]
    by_cases hi : j = i
    · rw [if_pos hi, if_pos hi]
    · rw [if_neg hi, if_neg hi, Nat.max_eq_left hn]

/-! ## Places -/

namespace Step

variable {s t : Step} {json : Json}

/-- **The place a step leads to**: a key or an index. -/
def place : Step → String ⊕ ℕ
  | member key | quoted key => .inl key
  | index n => .inr n

/-- The child at a place. -/
def childAt? (json : Json) : String ⊕ ℕ → Option Json
  | .inl key => json.get? key
  | .inr n => json.item? n

theorem child?_eq (s : Step) (json : Json) : s.child? json = childAt? json s.place := by
  cases s <;> rfl

theorem child?_congr (h : s.place = t.place) : s.child? = t.child? := by
  funext json
  rw [child?_eq, child?_eq, h]

theorem child?_key {key : String} (hs : s.place = .inl key) (json : Json) :
    s.child? json = (json.members?.getD []).lookup key := by
  rw [child?_eq, hs]
  cases json <;> rfl

theorem child?_index (json : Json) (n : ℕ) : (index n).child? json = (json.items?.getD [])[n]? := by
  cases json <;> rfl

/-- **A child is a member of an object or an element of an array.** -/
theorem cases_of_child? {child : Json} (h : s.child? json = some child) :
    (∃ key members, s.place = .inl key ∧ json = .object members ∧ members.lookup key = some child) ∨
      ∃ n items, s = .index n ∧ json = .array items ∧ items[n]? = some child := by
  cases s with
  | member key | quoted key =>
    obtain ⟨members, hmembers, hlookup⟩ := Option.bind_eq_some_iff.1 h
    cases json <;> cases hmembers
    exact .inl ⟨key, members, rfl, rfl, hlookup⟩
  | index n =>
    obtain ⟨items, hitems, hitem⟩ := Option.bind_eq_some_iff.1 h
    cases json <;> cases hitems
    exact .inr ⟨n, items, rfl, rfl, hitem⟩

theorem child?_null (s : Step) : s.child? .null = none := by
  cases s <;> rfl

/-- **Padding**: `t` leads to a place in front of the one `s` leads to, where an array, if there is
one, has no element. -/
def Pads (old : Option Json) (s t : Step) : Prop :=
  ∃ n i, s = .index n ∧ t = .index i ∧ i < n ∧ ∀ items, old = some (.array items) → items.length ≤ i

end Step

namespace Edit.Walk

open Step

variable {walk : Walk} {change : Json → Except Skip Json} {step t : Step} {rest : List Step}
  {place below : Place} {new child old : Json}

/-- The members of an object; `null` counts as an empty one. -/
def HasMembers (json : Json) (members : Members) : Prop :=
  json = .object members ∨ (json = .null ∧ members = [])

/-- The elements of an array; `null` counts as an empty one. -/
def HasItems (json : Json) (items : List Json) : Prop :=
  json = .array items ∨ (json = .null ∧ items = [])

/-- **A container with one child put into it**, where a step leads. -/
inductive Rebuilt (step : Step) (child old : Json) : Json → Prop
  | object {key : String} {members : Members} (hs : step.place = .inl key) (ho : HasMembers old members) :
      Rebuilt step child old (.object (Members.set members key child))
  | array {n : ℕ} {items : List Json} (hs : step.place = .inr n) (ho : HasItems old items) :
      Rebuilt step child old (.array (setItem items n child))

variable {members : Members} {items : List Json} {key : String} {n : ℕ} {fresh : Bool}

theorem HasMembers.childAt? (h : HasMembers old members) (place : String ⊕ ℕ) :
    Step.childAt? old place = Step.childAt? (.object members) place := by
  rcases h with rfl | ⟨rfl, rfl⟩
  · rfl
  · cases place <;> rfl

theorem HasItems.childAt? (h : HasItems old items) (place : String ⊕ ℕ) :
    Step.childAt? old place = Step.childAt? (.array items) place := by
  rcases h with rfl | ⟨rfl, rfl⟩
  · rfl
  · cases place <;> rfl

theorem enter_cases (walk : Walk) (step : Step) (place : Place) :
    walk.enter step place = place ∨
      (place.value = .null ∧ walk.enter step place = ⟨containerFor step, true⟩) := by
  unfold enter
  split
  · rename_i hnull
    split_ifs
    · exact .inr ⟨hnull, rfl⟩
    · exact .inl rfl
  · exact .inl rfl

theorem memberPlace_value (h : walk.memberPlace fresh members key = .ok below) :
    below.value = (members.lookup key).getD .null := by
  unfold memberPlace at h
  split at h
  · rename_i hl
    cases h
    rw [hl]
    rfl
  · rename_i hl
    split_ifs at h
    cases h
    rw [hl]
    rfl

theorem itemPlace_value (h : walk.itemPlace fresh items n = .ok below) :
    below.value = items[n]?.getD .null := by
  unfold itemPlace at h
  split at h
  · rename_i hl
    cases h
    rw [hl]
    rfl
  · rename_i hl
    split_ifs at h
    cases h
    rw [hl]
    rfl

theorem rewrite_member (hs : step.place = .inl key) (ho : HasMembers old members)
    (h : (do
      let child ← rewrite walk change rest (← walk.memberPlace fresh members key)
      return Json.object (Members.set members key child)) = .ok new) :
    ∃ below child, walk.rewrite change rest below = .ok child ∧
      below.value = (step.child? old).getD .null ∧ Rebuilt step child old new := by
  obtain ⟨below, hbelow, h'⟩ := Except.bind_eq_ok_iff.1 h
  obtain ⟨child, hchild, h''⟩ := Except.bind_eq_ok_iff.1 h'
  cases h''
  refine ⟨below, child, hchild, ?_, .object hs ho⟩
  rw [memberPlace_value hbelow, child?_eq, hs, ho.childAt?]
  rfl

theorem rewrite_index (hs : step.place = .inr n) (ho : HasItems old items)
    (h : (do
      let child ← rewrite walk change rest (← walk.itemPlace fresh items n)
      return Json.array (setItem items n child)) = .ok new) :
    ∃ below child, walk.rewrite change rest below = .ok child ∧
      below.value = (step.child? old).getD .null ∧ Rebuilt step child old new := by
  obtain ⟨below, hbelow, h'⟩ := Except.bind_eq_ok_iff.1 h
  obtain ⟨child, hchild, h''⟩ := Except.bind_eq_ok_iff.1 h'
  cases h''
  refine ⟨below, child, hchild, ?_, .array hs ho⟩
  rw [itemPlace_value hbelow, child?_eq, hs, ho.childAt?]
  rfl

/-- **One step of a walk** goes into the child that is there, or into `null` if there is none, and
puts the changed child into the container. -/
theorem rewrite_cons (h : walk.rewrite change (step :: rest) place = .ok new) :
    ∃ below child, walk.rewrite change rest below = .ok child ∧
      below.value = (step.child? place.value).getD .null ∧ Rebuilt step child place.value new := by
  rw [rewrite] at h
  rcases enter_cases walk step place with henter | ⟨hnull, henter⟩
  · rw [henter] at h
    obtain ⟨value, fresh⟩ := place
    simp only at h
    split at h
    · exact rewrite_member rfl (.inl rfl) h
    · exact rewrite_member rfl (.inl rfl) h
    · exact rewrite_index rfl (.inl rfl) h
    · cases h
    · cases h
  -- the container is a new one, with nothing in it yet
  · rw [henter] at h
    cases step with
    | member key => exact rewrite_member rfl (.inr ⟨hnull, rfl⟩) h
    | quoted key => exact rewrite_member rfl (.inr ⟨hnull, rfl⟩) h
    | index n => exact rewrite_index rfl (.inr ⟨hnull, rfl⟩) h

/-! ## The children of a rebuilt container -/

theorem get?_object_set (members : Members) (key k : String) (child : Json) :
    (Json.object (Members.set members key child)).get? k =
      if k = key then some child else (Json.object members).get? k :=
  Members.lookup_set members key k child

theorem item?_array_setItem (items : List Json) (n i : ℕ) (child : Json) :
    (Json.array (setItem items n child)).item? i =
      if i = n then some child else if items.length ≤ i ∧ i < n then some .null else (Json.array items).item? i :=
  getElem?_setItem items n i child

/-- The changed child is where the step leads. -/
theorem child?_of_eq (h : Rebuilt step child old new) (ht : t.place = step.place) :
    t.child? new = some child := by
  rw [child?_eq, ht]
  cases h with
  | @object key members hs ho =>
    rw [hs]
    exact (get?_object_set members key key child).trans (if_pos rfl)
  | @array n items hs ho =>
    rw [hs]
    exact (item?_array_setItem items n n child).trans (if_pos rfl)

theorem place_inr {n : ℕ} (h : t.place = .inr n) : t = .index n := by
  cases t <;> cases h
  rfl

/-- **All other children are as they were**, but for the padding. -/
theorem child?_of_ne (h : Rebuilt step child old new) (ht : t.place ≠ step.place)
    (hp : ¬Pads (some old) step t) : t.child? new = t.child? old := by
  rw [child?_eq, child?_eq]
  cases h with
  | @object key members hs ho =>
    rw [ho.childAt?]
    rw [hs] at ht
    cases hplace : t.place with
    | inr i => rfl
    | inl k =>
      have hne : k ≠ key := fun heq => ht (by rw [hplace, heq])
      exact (get?_object_set members key k child).trans (if_neg hne)
  | @array n items hs ho =>
    rw [ho.childAt?]
    rw [hs] at ht
    cases hplace : t.place with
    | inl k => rfl
    | inr i =>
      have hne : i ≠ n := fun heq => ht (by rw [hplace, heq])
      refine (item?_array_setItem items n i child).trans ?_
      rw [if_neg hne, if_neg]
      · rfl
      -- an element in front of `n` that the array does not reach would be padding
      · rintro ⟨hlen, hlt⟩
        refine hp ⟨n, i, place_inr hs, place_inr hplace, hlt, ?_⟩
        rintro items' heq
        rcases ho with rfl | ⟨rfl, rfl⟩
        · cases heq
          exact hlen
        · cases heq

/-- **Padding is `null`**, and stands where nothing was. -/
theorem child?_of_pads (h : Rebuilt step child old new) (hp : Pads (some old) step t) :
    t.child? new = some .null ∧ t.child? old = none := by
  obtain ⟨n, i, rfl, rfl, hlt, hlen⟩ := hp
  cases h with
  | object hs ho => cases hs
  | @array n' items hs ho =>
    cases hs
    have hle : items.length ≤ i := by
      rcases ho with rfl | ⟨rfl, rfl⟩
      · exact hlen items rfl
      · exact Nat.zero_le i
    constructor
    · refine (item?_array_setItem items n i child).trans ?_
      rw [if_neg (by omega), if_pos ⟨hle, hlt⟩]
    · rw [child?_eq, ho.childAt?]
      exact List.getElem?_eq_none hle

/-! ## Putting a child in -/

/-- **A container with a child put in**, where a step leads. What is not the container that the step needs
counts as an empty one. -/
def put (step : Step) (child old : Json) : Json :=
  match step.place with
  | .inl key => .object (Members.set (old.members?.getD []) key child)
  | .inr n => .array (setItem (old.items?.getD []) n child)

theorem HasMembers.put (hs : step.place = .inl key) (ho : HasMembers old members) (child : Json) :
    put step child old = .object (Members.set members key child) := by
  rw [Walk.put, hs]
  rcases ho with rfl | ⟨rfl, rfl⟩ <;> rfl

theorem HasItems.put (hs : step.place = .inr n) (ho : HasItems old items) (child : Json) :
    put step child old = .array (setItem items n child) := by
  rw [Walk.put, hs]
  rcases ho with rfl | ⟨rfl, rfl⟩ <;> rfl

theorem Rebuilt.eq_put (h : Rebuilt step child old new) : new = put step child old := by
  cases h with
  | object hs ho => exact (ho.put hs child).symm
  | array hs ho => exact (ho.put hs child).symm

theorem put_congr (h : s.place = t.place) : put s = put t := by
  funext child old
  rw [put, put, h]

/-- What was put in is where the step leads. -/
theorem child?_put (step : Step) (child old : Json) : step.child? (put step child old) = some child := by
  rw [child?_eq, put]
  cases step.place with
  | inl key => exact (get?_object_set _ key key child).trans (if_pos rfl)
  | inr n => exact (item?_array_setItem _ n n child).trans (if_pos rfl)

/-- **Of two children put at one place the last stays.** -/
theorem put_put (step : Step) (v w old : Json) : put step w (put step v old) = put step w old := by
  unfold put
  cases step.place with
  | inl key => exact congrArg Json.object (Members.set_set _ key v w)
  | inr n => exact congrArg Json.array (setItem_setItem _ n v w)

/-- **Putting back what is there changes nothing.** -/
theorem put_child (h : step.child? old = some child) : put step child old = old := by
  rcases cases_of_child? h with ⟨key, members, hplace, rfl, hlookup⟩ | ⟨n, items, rfl, rfl, hitem⟩
  · rw [HasMembers.put hplace (.inl rfl), Members.set_of_lookup hlookup]
  · rw [HasItems.put rfl (.inl rfl), setItem_of_getElem? hitem]

/-! ## Putting values in -/

theorem toArray_maxPad (maxPad : ℕ) : (toArray maxPad).maxPad = maxPad := rfl

/-- **An insert into an array**: the padding goes behind the elements in front of the index, and then come the
values. -/
theorem insertInto_eq (ho : HasItems old items) (walk : Walk) (n : ℕ) (values : List Json) :
    insertInto walk n values old =
      if n - items.length ≤ walk.maxPad then
        .ok (.array (items.take n ++ List.replicate (n - items.length) .null ++ values ++ items.drop n))
      else .error .paddingLimit := by
  have hunfold : insertInto walk n values old =
      if !walk.reaches items.length n then .error .paddingLimit
      else
        let padded := items ++ List.replicate (n - items.length) .null
        .ok (.array (padded.take n ++ values ++ padded.drop n)) := by
    rcases ho with rfl | ⟨rfl, rfl⟩ <;> rfl
  rw [hunfold, reaches]
  by_cases hpad : n - items.length ≤ walk.maxPad
  · rw [if_pos hpad, decide_eq_true hpad]
    refine congrArg (fun all => Except.ok (Json.array all)) ?_
    rw [List.take_append, List.drop_append, List.take_replicate, List.drop_replicate, Nat.min_self, Nat.sub_self,
      List.replicate_zero, List.append_nil]
  · rw [if_neg hpad, decide_eq_false hpad]
    rfl

end Edit.Walk

end SqlJson
