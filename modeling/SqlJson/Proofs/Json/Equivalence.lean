import SqlJson.Proofs.Json.Equality
import SqlJson.Proofs.Json.WellFormed
import SqlJson.Proofs.Number.Equality

/-!
# Equality is an equivalence

Equality of documents compares what stands at the same place: elements under one index, and members under one key,
wherever they stand among the others. So it does not see the order of members, and it is an equivalence of well-formed
documents. A comparison may take shortcuts. It may know that two containers are one and the same, and it may compare
numbers as they are stored. None of that changes the answer.

* `Equal`: equality of documents as a proposition.
* `equal_array_iff`, `equal_object_iff`: containers are equal if they are at each place.
* `equal_refl`, `Equal.symm`, `Equal.trans`: an equivalence.
* `equal_of_perm`: the order of members does not matter.
* `follow_congr`: paths lead to equal places.
* `Answers`, `answers_iff`: comparisons that take shortcuts.
-/

namespace SqlJson.Json

variable {a b c : Json} {as bs : List Json} {members others : Members} {r : Bool}

/-- **Equal documents.** -/
def Equal (a b : Json) : Prop := a.same b = true

/-! ## What may be there at a place -/

section Places

variable {R S T : Json → Json → Prop} {o o' o'' : Option Json}

theorem eq_none_iff_of_rel (h : Option.Rel R o o') : o = none ↔ o' = none := by
  cases h <;> simp

theorem rel_refl (h : ∀ v, o = some v → R v v) : Option.Rel R o o := by
  cases o with
  | none => exact .none
  | some v => exact .some (h v rfl)

theorem rel_imp (h : Option.Rel R o o') (hR : ∀ v w, o = some v → o' = some w → R v w → S v w) :
    Option.Rel S o o' := by
  cases h with
  | none => exact .none
  | some h => exact .some (hR _ _ rfl rfl h)

theorem rel_symm (h : Option.Rel R o o') (hR : ∀ v w, o = some v → o' = some w → R v w → S w v) :
    Option.Rel S o' o := by
  cases h with
  | none => exact .none
  | some h => exact .some (hR _ _ rfl rfl h)

theorem rel_trans (h : Option.Rel R o o') (h' : Option.Rel S o' o'')
    (hR : ∀ u v w, o = some u → o' = some v → o'' = some w → R u v → S v w → T u w) : Option.Rel T o o'' := by
  cases h with
  | none =>
    cases h'
    exact .none
  | some h =>
    cases h' with
    | some h' => exact .some (hR _ _ _ rfl rfl rfl h h')

end Places

/-! ## Containers -/

theorem sameItems_iff : sameItems as bs = true ↔ List.Forall₂ Equal as bs := by
  induction as generalizing bs with
  | nil => cases bs <;> simp [sameItems]
  | cons a as ih =>
    cases bs with
    | nil => simp [sameItems]
    | cons b bs => rw [sameItems, Bool.and_eq_true, ih, List.forall₂_cons, Equal]

theorem allIn_iff : allIn members others = true ↔
    ∀ m ∈ members, ∃ other, others.lookup m.1 = some other ∧ m.2.Equal other := by
  induction members with
  | nil => simp [allIn]
  | cons m rest ih =>
    rw [allIn, Bool.and_eq_true, ih, List.forall_mem_cons]
    refine and_congr_left' ?_
    cases others.lookup m.1 with
    | none => simp
    | some other => simp [Equal]

/-- Lists are related if they are at each place. -/
theorem forall₂_iff_getElem? {R : Json → Json → Prop} :
    List.Forall₂ R as bs ↔ ∀ i : ℕ, Option.Rel R as[i]? bs[i]? := by
  induction as generalizing bs with
  | nil =>
    cases bs with
    | nil => simp
    | cons b bs =>
      refine iff_of_false nofun fun h => ?_
      cases h 0
  | cons a as ih =>
    cases bs with
    | nil =>
      refine iff_of_false nofun fun h => ?_
      cases h 0
    | cons b bs =>
      rw [List.forall₂_cons, ih]
      constructor
      · rintro ⟨hhead, htail⟩ (- | i)
        · exact .some hhead
        · exact htail i
      · intro h
        exact ⟨Option.rel_some_some.1 (h 0), fun i => h (i + 1)⟩

/-- **Arrays are equal if they are under each index.** -/
theorem equal_array_iff : (array as).Equal (array bs) ↔ ∀ i : ℕ, Option.Rel Equal as[i]? bs[i]? := by
  rw [Equal, same, sameItems_iff, forall₂_iff_getElem?]

/-- **Objects are equal if they are under each key.** -/
theorem equal_object_iff (hk : (keys members).Nodup) (hk' : (keys others).Nodup) :
    (object members).Equal (object others) ↔
      ∀ key, Option.Rel Equal (members.lookup key) (others.lookup key) := by
  rw [Equal, same, Bool.and_eq_true, decide_eq_true_iff, allIn_iff]
  constructor
  · rintro ⟨hlen, hall⟩ key
    cases hv : members.lookup key with
    | some v =>
      obtain ⟨other, hother, hequal⟩ := hall (key, v) (mem_of_lookup hv)
      rw [hother]
      exact .some hequal
    | none =>
      -- as many keys as the first object has, all of which the second has too, leave none over
      have hsubset : keys members ⊆ keys others := by
        intro k hkey
        obtain ⟨m, hm, rfl⟩ := List.mem_map.1 hkey
        obtain ⟨other, hother, -⟩ := hall m hm
        exact List.mem_map.2 ⟨_, mem_of_lookup hother, rfl⟩
      have hperm : (keys members).Perm (keys others) := by
        refine (List.subperm_of_subset hk hsubset).perm_of_length_le ?_
        rw [keys, keys, List.length_map, List.length_map, hlen]
      rw [Members.lookup_eq_none_iff, hperm.mem_iff, ← Members.lookup_eq_none_iff] at hv
      rw [hv]
      exact .none
  · intro hrel
    have hkeys : ∀ key, key ∈ keys members ↔ key ∈ keys others := by
      intro key
      rw [← not_iff_not, ← Members.lookup_eq_none_iff, ← Members.lookup_eq_none_iff]
      exact eq_none_iff_of_rel (hrel key)
    constructor
    · have hlen := ((List.perm_ext_iff_of_nodup hk hk').2 hkeys).length_eq
      rwa [keys, keys, List.length_map, List.length_map] at hlen
    · intro m hm
      have hkey := hrel m.1
      rw [lookup_of_mem hk hm] at hkey
      generalize others.lookup m.1 = o at hkey
      cases hkey with
      | some h => exact ⟨_, rfl, h⟩

/-! ## Steps -/

/-- **Documents that are equal but for what stands below them.** -/
inductive SameHead : Json → Json → Prop
  | null : SameHead null null
  | bool (value : Bool) : SameHead (bool value) (bool value)
  | number {n m : Number} (h : n.toDecimal = m.toDecimal) : SameHead (number n) (number m)
  | string (value : String) : SameHead (string value) (string value)
  | array (as bs : List Json) : SameHead (array as) (array bs)
  | object (members others : Members) : SameHead (object members) (object others)

theorem SameHead.refl (a : Json) : SameHead a a := by
  cases a with
  | null => exact .null
  | bool value => exact .bool value
  | number n => exact .number rfl
  | string value => exact .string value
  | array items => exact .array items items
  | object members => exact .object members members

theorem SameHead.symm (h : SameHead a b) : SameHead b a := by
  cases h with
  | null => exact .null
  | bool value => exact .bool value
  | number h => exact .number h.symm
  | string value => exact .string value
  | array as bs => exact .array bs as
  | object members others => exact .object others members

theorem SameHead.trans (h : SameHead a b) (h' : SameHead b c) : SameHead a c := by
  cases h with
  | null => exact h'
  | bool value => exact h'
  | number h =>
    cases h' with
    | number h' => exact .number (h.trans h')
  | string value => exact h'
  | array as bs =>
    cases h' with
    | array _ cs => exact .array as cs
  | object members others =>
    cases h' with
    | object _ others' => exact .object members others'

theorem IsWellFormed.number {n : Number} (h : (number n).IsWellFormed) : n.IsWellFormed := h.2 n (by simp [numbers])

/-- Nothing is below a scalar. -/
theorem child?_eq_none (h : a.isContainer = false) (step : Step) : step.child? a = none := by
  cases a with
  | array | object => cases h
  | _ => cases step <;> rfl

theorem rel_child_of_scalar (ha : a.isContainer = false) (hb : b.isContainer = false) (step : Step) :
    Option.Rel Equal (step.child? a) (step.child? b) := by
  rw [child?_eq_none ha, child?_eq_none hb]
  exact .none

/-- **Well-formed documents are equal if they are at each step.** -/
theorem equal_iff (ha : a.IsWellFormed) (hb : b.IsWellFormed) :
    a.Equal b ↔ SameHead a b ∧ ∀ step : Step, Option.Rel Equal (step.child? a) (step.child? b) := by
  constructor
  · intro h
    cases a <;> cases b
    case null.null => exact ⟨.null, rel_child_of_scalar rfl rfl⟩
    case bool.bool =>
      obtain rfl : _ = _ := by simpa [Equal, same] using h
      exact ⟨.bool _, rel_child_of_scalar rfl rfl⟩
    case number.number =>
      rw [Equal, same] at h
      exact ⟨.number (Number.toDecimal_eq_of_numericEq h), rel_child_of_scalar rfl rfl⟩
    case string.string =>
      obtain rfl : _ = _ := by simpa [Equal, same] using h
      exact ⟨.string _, rel_child_of_scalar rfl rfl⟩
    case array.array =>
      refine ⟨.array _ _, fun step => ?_⟩
      cases step with
      | member key | quoted key => exact .none
      | index i => exact equal_array_iff.1 h i
    case object.object =>
      refine ⟨.object _ _, fun step => ?_⟩
      cases step with
      | member key | quoted key => exact (equal_object_iff (over_object.1 ha).1 (over_object.1 hb).1).1 h key
      | index i => exact .none
    all_goals simp [Equal, same] at h
  · rintro ⟨hhead, hsteps⟩
    cases hhead with
    | null | bool | string => simp [Equal, same]
    | number h => rw [Equal, same, Number.numericEq_eq ha.number hb.number, decide_eq_true h]
    | array as bs => exact equal_array_iff.2 fun i => hsteps (.index i)
    | object members others =>
      exact (equal_object_iff (over_object.1 ha).1 (over_object.1 hb).1).2 fun key => hsteps (.member key)

/-- **Induction over what is one step below.** -/
theorem induct_child {P : Json → Prop}
    (h : ∀ v, (∀ (step : Step) (child : Json), step.child? v = some child → P child) → P v) (v : Json) : P v := by
  induction v using induct with
  | null | bool | number | string =>
    refine h _ fun step child hc => ?_
    rw [child?_eq_none rfl] at hc
    cases hc
  | array items ih =>
    refine h _ fun step child hc => ?_
    cases step with
    | member key | quoted key => cases hc
    | index i => exact ih child (List.mem_of_getElem? hc)
  | object members ih =>
    refine h _ fun step child hc => ?_
    cases step with
    | member key | quoted key => exact ih (key, child) (mem_of_lookup hc)
    | index i => cases hc

/-! ## An equivalence -/

theorem equal_refl (ha : a.IsWellFormed) : a.Equal a := by
  induction a using induct_child with
  | h a ih =>
    refine (equal_iff ha ha).2 ⟨.refl a, fun step => rel_refl fun v hv => ?_⟩
    exact ih step v hv (ha.child? hv)

theorem Equal.symm (h : a.Equal b) (ha : a.IsWellFormed) (hb : b.IsWellFormed) : b.Equal a := by
  induction a using induct_child generalizing b with
  | h a ih =>
    obtain ⟨hhead, hsteps⟩ := (equal_iff ha hb).1 h
    refine (equal_iff hb ha).2 ⟨hhead.symm, fun step => rel_symm (hsteps step) fun v w hv hw hequal => ?_⟩
    exact ih step v hv hequal (ha.child? hv) (hb.child? hw)

theorem Equal.trans (h : a.Equal b) (h' : b.Equal c) (ha : a.IsWellFormed) (hb : b.IsWellFormed)
    (hc : c.IsWellFormed) : a.Equal c := by
  induction a using induct_child generalizing b c with
  | h a ih =>
    obtain ⟨hhead, hsteps⟩ := (equal_iff ha hb).1 h
    obtain ⟨hhead', hsteps'⟩ := (equal_iff hb hc).1 h'
    refine (equal_iff ha hc).2 ⟨hhead.trans hhead', fun step => ?_⟩
    refine rel_trans (hsteps step) (hsteps' step) fun u v w hu hv hw hequal hequal' => ?_
    exact ih step u hu hequal hequal' (ha.child? hu) (hb.child? hv) (hc.child? hw)

/-- **The order of members does not matter.** -/
theorem equal_of_perm (hperm : members.Perm others) (h : (object members).IsWellFormed) :
    (object members).Equal (object others) := by
  obtain ⟨hk, hmembers⟩ := over_object.1 h
  have hk' : (keys others).Nodup := (hperm.map _).nodup_iff.1 hk
  refine (equal_object_iff hk hk').2 fun key => ?_
  cases hv : members.lookup key with
  | some v =>
    have hmem := mem_of_lookup hv
    rw [lookup_of_mem hk' (hperm.mem_iff.1 hmem)]
    exact .some (equal_refl (hmembers _ hmem))
  | none =>
    have hkeys : key ∈ keys members ↔ key ∈ keys others := (hperm.map _).mem_iff
    rw [Members.lookup_eq_none_iff, hkeys, ← Members.lookup_eq_none_iff] at hv
    rw [hv]
    exact .none

/-! ## Paths -/

/-- **Steps lead to equal places of equal documents**, or nowhere in both. -/
theorem follow_congr (h : a.Equal b) (ha : a.IsWellFormed) (hb : b.IsWellFormed) (steps : List Step) :
    Option.Rel Equal (Path.follow steps a) (Path.follow steps b) := by
  induction steps generalizing a b with
  | nil => exact .some h
  | cons step rest ih =>
    rw [Path.follow, Path.follow]
    have hstep := ((equal_iff ha hb).1 h).2 step
    cases hv : step.child? a with
    | none =>
      rw [(eq_none_iff_of_rel hstep).1 hv]
      exact .none
    | some v =>
      cases hw : step.child? b with
      | none =>
        rw [hv, hw] at hstep
        cases hstep
      | some w =>
        rw [hv, hw, Option.rel_some_some] at hstep
        exact ih hstep (ha.child? hv) (hb.child? hw)

/-! ## Shortcuts -/

/-- **What a comparison may answer.** Two containers may be known to be one and the same, and two numbers may be
compared as they are stored or by their decimals. -/
inductive Answers : Json → Json → Bool → Prop
  | null : Answers null null true
  | bool (x y : Bool) : Answers (bool x) (bool y) (x = y)
  | stored (n m : Number) : Answers (number n) (number m) (n.numericEq m)
  | value (n m : Number) : Answers (number n) (number m) (n.toDecimal = m.toDecimal)
  | string (s t : String) : Answers (string s) (string t) (s = t)
  | shared {a : Json} (h : a.isContainer) : Answers a a true
  | array {as bs : List Json} (answers : ℕ → Bool)
      (h : ∀ i v w, as[i]? = some v → bs[i]? = some w → Answers v w (answers i)) :
      Answers (array as) (array bs) (as.length = bs.length ∧ ∀ i < as.length, answers i)
  | object {members others : Members} (answers : String → Bool)
      (h : ∀ key v w, members.lookup key = some v → others.lookup key = some w → Answers v w (answers key)) :
      Answers (object members) (object others)
        (members.length = others.length ∧ ∀ m ∈ members, (others.lookup m.1).isSome ∧ answers m.1)
  | kinds {a b : Json} (h : a.kind ≠ b.kind) : Answers a b false

/-- Right answers for the elements make a right answer for the arrays. -/
theorem same_array_of_answers {answers : ℕ → Bool}
    (h : ∀ i v w, as[i]? = some v → bs[i]? = some w → answers i = v.same w) :
    decide (as.length = bs.length ∧ ∀ i < as.length, answers i) = (array as).same (array bs) := by
  rw [Bool.eq_iff_iff, decide_eq_true_iff, same, sameItems_iff, List.forall₂_iff_get]
  refine and_congr_right fun hlen => forall_congr' fun i => ?_
  constructor
  · intro hi h₁ h₂
    rw [Equal, List.get_eq_getElem, List.get_eq_getElem,
      ← h i _ _ (List.getElem?_eq_getElem h₁) (List.getElem?_eq_getElem h₂)]
    exact hi h₁
  · intro hi h₁
    have h₂ : i < bs.length := hlen ▸ h₁
    rw [h i _ _ (List.getElem?_eq_getElem h₁) (List.getElem?_eq_getElem h₂)]
    exact hi h₁ h₂

/-- Right answers for the members make a right answer for the objects. -/
theorem same_object_of_answers (hk : (keys members).Nodup) {answers : String → Bool}
    (h : ∀ key v w, members.lookup key = some v → others.lookup key = some w → answers key = v.same w) :
    decide (members.length = others.length ∧ ∀ m ∈ members, (others.lookup m.1).isSome ∧ answers m.1) =
      (object members).same (object others) := by
  rw [Bool.eq_iff_iff, decide_eq_true_iff, same, Bool.and_eq_true, decide_eq_true_iff, allIn_iff]
  refine and_congr_right fun _ => forall₂_congr fun m hm => ?_
  have hm' := lookup_of_mem hk hm
  cases hother : others.lookup m.1 with
  | none => simp
  | some other => simp [h m.1 m.2 other hm' hother, Equal]

theorem Equal.kind_eq (h : a.Equal b) : a.kind = b.kind := by
  cases a <;> cases b <;> first | rfl | simp [Equal, same] at h

theorem same_of_answers (h : Answers a b r) (ha : a.IsWellFormed) (hb : b.IsWellFormed) : r = a.same b := by
  induction a using induct_child generalizing b r with
  | h a ih =>
    cases h with
    | null => simp [same]
    | bool x y => simp [same]
    | string s t => simp [same]
    | stored n m => rw [same]
    | value n m => rw [same, Number.numericEq_eq ha.number hb.number]
    | shared => exact Eq.symm (equal_refl ha)
    | array answers h =>
      refine same_array_of_answers fun i v w hv hw => ?_
      have hchild : (Step.index i).child? (array _) = some v := hv
      have hchild' : (Step.index i).child? (array _) = some w := hw
      exact ih _ v hchild (h i v w hv hw) (ha.child? hchild) (hb.child? hchild')
    | object answers h =>
      refine same_object_of_answers (over_object.1 ha).1 fun key v w hv hw => ?_
      have hchild : (Step.member key).child? (object _) = some v := hv
      have hchild' : (Step.member key).child? (object _) = some w := hw
      exact ih _ v hchild (h key v w hv hw) (ha.child? hchild) (hb.child? hchild')
    | kinds h => exact (Bool.eq_false_iff.2 fun hequal => h (Equal.kind_eq hequal)).symm

/-- Every comparison may answer as the plain one does. -/
theorem answers_same (ha : a.IsWellFormed) : Answers a b (a.same b) := by
  induction a using induct_child generalizing b with
  | h a ih =>
    by_cases hk : a.kind = b.kind
    · cases a <;> cases b
      case null.null =>
        rw [same]
        exact .null
      case bool.bool x y =>
        rw [same]
        exact .bool x y
      case number.number n m =>
        rw [same]
        exact .stored n m
      case string.string s t =>
        rw [same]
        exact .string s t
      case array.array as bs =>
        let answers : ℕ → Bool := fun i => (as[i]?.getD .null).same (bs[i]?.getD .null)
        have hanswers : ∀ i v w, as[i]? = some v → bs[i]? = some w → answers i = v.same w := by
          intro i v w hv hw
          simp only [answers, hv, hw, Option.getD_some]
        rw [← same_array_of_answers hanswers]
        refine .array answers fun i v w hv hw => ?_
        have hchild : (Step.index i).child? (array as) = some v := hv
        rw [hanswers i v w hv hw]
        exact ih _ v hchild (ha.child? hchild)
      case object.object members others =>
        let answers : String → Bool := fun key =>
          ((members.lookup key).getD .null).same ((others.lookup key).getD .null)
        have hanswers : ∀ key v w, members.lookup key = some v → others.lookup key = some w →
            answers key = v.same w := by
          intro key v w hv hw
          simp only [answers, hv, hw, Option.getD_some]
        rw [← same_object_of_answers (over_object.1 ha).1 hanswers]
        refine .object answers fun key v w hv hw => ?_
        have hchild : (Step.member key).child? (object members) = some v := hv
        rw [hanswers key v w hv hw]
        exact ih _ v hchild (ha.child? hchild)
      all_goals simp [kind] at hk
    · rw [Bool.eq_false_iff.2 fun hequal => hk (Equal.kind_eq hequal)]
      exact .kinds hk

/-- **A shortcut never changes the answer.** -/
theorem answers_iff (ha : a.IsWellFormed) (hb : b.IsWellFormed) : Answers a b r ↔ r = a.same b := by
  constructor
  · exact fun h => same_of_answers h ha hb
  · rintro rfl
    exact answers_same ha

end SqlJson.Json
