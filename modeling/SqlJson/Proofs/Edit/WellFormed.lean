import SqlJson.Edit.Basic
import SqlJson.Proofs.Edit.Rebuilding
import SqlJson.Proofs.Json.WellFormed

/-!
# Edits keep documents well formed

What an edit puts into a document are its own values, padding and containers that are new. No member is
repeated, and no number is there that was neither in the document nor in a value of the edit.

* `over_rewrite`: walks, with any change at their ends.
* `Edit.newValues`: the values that an edit brings along.
* `over_apply`, `ensures_applyAll`: edits.
-/

namespace SqlJson

open Json

variable {Q : Number → Prop} {members : Members} {items : List Json} {key : String} {value child old new : Json}

/-! ## Containers -/

theorem Members.mem_or_eq_of_mem_set {m : String × Json} (h : m ∈ members.set key value) :
    m ∈ members ∨ m.2 = value := by
  induction members with
  | nil => exact .inr (congrArg Prod.snd (List.mem_singleton.1 h))
  | cons first rest ih =>
    obtain ⟨k, v⟩ := first
    rw [set] at h
    split_ifs at h
    · rcases List.mem_cons.1 h with rfl | hrest
      · exact .inr rfl
      · exact .inl (List.mem_cons_of_mem _ hrest)
    · rcases List.mem_cons.1 h with rfl | hrest
      · exact .inl List.mem_cons_self
      · exact (ih hrest).imp_left (List.mem_cons_of_mem _)

theorem Json.over_set (h : (object members).Over Q) (hv : value.Over Q) :
    (object (members.set key value)).Over Q := by
  obtain ⟨hkeys, hmembers⟩ := over_object.1 h
  refine over_object.2 ⟨?_, ?_⟩
  · rw [Members.keys_set]
    split_ifs with hkey
    · exact hkeys
    · exact List.nodup_append.2 ⟨hkeys, List.nodup_singleton key, by
        intro k hk k' hk'
        rw [List.mem_singleton.1 hk']
        exact ne_of_mem_of_not_mem hk hkey⟩
  · intro m hm
    rcases Members.mem_or_eq_of_mem_set hm with hold | hnew
    · exact hmembers m hold
    · rwa [hnew]

theorem Json.over_erase (h : (object members).Over Q) (key : String) : (object (members.erase key)).Over Q := by
  obtain ⟨hkeys, hmembers⟩ := over_object.1 h
  refine over_object.2 ⟨hkeys.sublist (List.eraseP_sublist.map _), ?_⟩
  intro m hm
  exact hmembers m (List.mem_of_mem_eraseP hm)

namespace Edit

open Walk

theorem over_replicate_null (n : ℕ) : ∀ item ∈ List.replicate n Json.null, item.Over Q := by
  intro item hitem
  rw [List.eq_of_mem_replicate hitem]
  exact over_null

theorem over_setItem (h : (array items).Over Q) (n : ℕ) (hv : value.Over Q) :
    (array (setItem items n value)).Over Q := by
  rw [over_array] at h ⊢
  unfold setItem
  split_ifs
  · intro item hitem
    rcases List.mem_or_eq_of_mem_set hitem with hold | rfl
    · exact h item hold
    · exact hv
  · simp only [List.forall_mem_append, List.forall_mem_singleton]
    exact ⟨⟨h, over_replicate_null _⟩, hv⟩

theorem over_of_hasMembers (ho : HasMembers old members) (h : old.Over Q) : (object members).Over Q := by
  rcases ho with rfl | ⟨-, rfl⟩
  · exact h
  · exact over_object.2 ⟨List.nodup_nil, by simp⟩

theorem over_of_hasItems (ho : HasItems old items) (h : old.Over Q) : (array items).Over Q := by
  rcases ho with rfl | ⟨-, rfl⟩
  · exact h
  · exact over_array.2 (by simp)

/-! ## Walks -/

variable {walk : Walk} {change : Json → Except Skip Json} {place : Place} {steps : List Step} {step : Step}

theorem over_of_rebuilt (h : Rebuilt step child old new) (hold : old.Over Q) (hchild : child.Over Q) :
    new.Over Q := by
  cases h with
  | object hs ho => exact over_set (over_of_hasMembers ho hold) hchild
  | array hs ho => exact over_setItem (over_of_hasItems ho hold) _ hchild

/-- **A walk keeps a document over its numbers** if the change at its end does. -/
theorem over_rewrite (hchange : ∀ old new, old.Over Q → change old = .ok new → new.Over Q)
    (hplace : place.value.Over Q) (h : walk.rewrite change steps place = .ok new) : new.Over Q := by
  induction steps generalizing place new with
  | nil => exact hchange place.value new hplace h
  | cons step rest ih =>
    obtain ⟨below, child, hchild, hbelow, hnew⟩ := rewrite_cons h
    -- the walk goes on from a child of the value, or from `null`
    have hvalue : below.value.Over Q := by
      rw [hbelow]
      cases hc : step.child? place.value with
      | none => exact over_null
      | some next => exact hplace.child? hc
    exact over_of_rebuilt hnew hplace (ih hvalue hchild)

/-! ## Changes -/

variable {values : List Json}

theorem over_removeChild {last : Step} (hold : old.Over Q) (h : removeChild last old = .ok new) : new.Over Q := by
  unfold removeChild at h
  split at h
  · split_ifs at h
    cases h
    exact over_erase hold _
  · split_ifs at h
    cases h
    exact over_erase hold _
  · split_ifs at h
    cases h
    exact over_array.2 fun item hitem => over_array.1 hold item (List.mem_of_mem_eraseIdx hitem)
  · cases h
  · cases h

theorem over_appendTo (hv : ∀ v ∈ values, v.Over Q) (hold : old.Over Q) (h : appendTo values old = .ok new) :
    new.Over Q := by
  unfold appendTo at h
  split at h
  · cases h
    exact over_array.2 (List.forall_mem_append.2 ⟨over_array.1 hold, hv⟩)
  · cases h
    exact over_array.2 hv
  · cases h

theorem over_insertInto {n : ℕ} (hv : ∀ v ∈ values, v.Over Q) (hold : old.Over Q)
    (h : insertInto walk n values old = .ok new) : new.Over Q := by
  have hitems : ∀ items, HasItems old items → new.Over Q := by
    intro items ho
    have hover := over_array.1 (over_of_hasItems ho hold)
    rw [insertInto_eq ho] at h
    split_ifs at h
    cases h
    simp only [over_array, List.forall_mem_append]
    exact ⟨⟨⟨fun item hi => hover item (List.mem_of_mem_take hi), over_replicate_null _⟩, hv⟩,
      fun item hi => hover item (List.mem_of_mem_drop hi)⟩
  cases old with
  | array items => exact hitems items (.inl rfl)
  | null => exact hitems [] (.inr ⟨rfl, rfl⟩)
  | _ => cases h

/-! ## Edits -/

/-- **The values that an edit brings along.** -/
def newValues : Edit → List Json
  | set _ value _ => [value]
  | remove _ => []
  | append _ values | insert _ values => values

variable {maxPad : ℕ} {root : Json} {edit : Edit} {edits : List Edit}

theorem over_attempt (hroot : root.Over Q) (hv : ∀ v ∈ edit.newValues, v.Over Q)
    (h : edit.attempt maxPad root = .ok (.ok new)) : new.Over Q := by
  cases edit with
  | set path value create =>
    rw [attempt, Except.ok.injEq] at h
    refine over_rewrite ?_ hroot h
    intro old new _ hnew
    cases hnew
    exact hv value List.mem_cons_self
  | remove path =>
    rw [attempt] at h
    obtain ⟨⟨parent, last⟩, -, h'⟩ := Except.bind_eq_ok_iff.1 h
    exact over_rewrite (fun old new => over_removeChild) hroot (Except.ok.inj h')
  | append path values =>
    rw [attempt, Except.ok.injEq] at h
    exact over_rewrite (fun old new => over_appendTo hv) hroot h
  | insert path values =>
    rw [attempt] at h
    obtain ⟨⟨parent, last⟩, -, h'⟩ := Except.bind_eq_ok_iff.1 h
    cases last with
    | index n => exact over_rewrite (fun old new => over_insertInto hv) hroot (Except.ok.inj h')
    | member key | quoted key => cases h'

/-- **An edit keeps a document over its numbers**, applied or skipped. -/
theorem over_apply (hroot : root.Over Q) (hv : ∀ v ∈ edit.newValues, v.Over Q) {outcome : Outcome}
    (h : edit.apply maxPad root = .ok (new, outcome)) : new.Over Q := by
  obtain ⟨-, -, h'⟩ := Except.bind_eq_ok_iff.1 h
  obtain ⟨rewriting, hattempt, h''⟩ := Except.bind_eq_ok_iff.1 h'
  cases rewriting with
  | ok edited =>
    cases h''
    exact over_attempt hroot hv hattempt
  | error reason =>
    cases h''
    exact hroot

/-- **Edits one after another** keep a document over its numbers. -/
theorem ensures_applyAll (hroot : root.Over Q) (hv : ∀ edit ∈ edits, ∀ v ∈ edit.newValues, v.Over Q) :
    Except.Ensures (applyAll maxPad root edits) (Json.Over Q) := by
  refine Except.ensures_foldlM ?_ hroot
  intro edit hedit current hcurrent new hnew
  obtain ⟨⟨edited, outcome⟩, happly, hpure⟩ := Except.bind_eq_ok_iff.1 hnew
  cases hpure
  exact over_apply hcurrent (hv edit hedit) happly

end Edit

end SqlJson
