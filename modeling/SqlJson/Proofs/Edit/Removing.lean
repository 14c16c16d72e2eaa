import SqlJson.Proofs.Edit.Agreement
import SqlJson.Proofs.Edit.Appending
import SqlJson.Proofs.Json.Equality
import SqlJson.Proofs.Json.WellFormed

/-!
# Removing

A removal takes one member or element out of its container, and the others stay in their order. An insert of one
value in front of an element is its inverse, on both sides.

* `removeChild_array`, `insertInto_array`, `removeChild_object`: what the two edits do to a container.
* `apply_insert_remove`: each of the two edits takes the other one back, at any depth.
* `Without`: a container without one of its children.
* `not_pads_of_follow`: a walk to what lookup finds pads nothing.
* `apply_remove`: what a removal leaves, and that a member that was removed cannot be removed again.
-/

namespace SqlJson

open Json

namespace Members

variable {members : Members} {key : String} {value : Json}

/-- If keys are not repeated, a key that is found is not among those in front of its member or after it. -/
theorem exists_append_of_lookup (hkeys : (keys members).Nodup) (h : members.lookup key = some value) :
    ∃ before after, members = before ++ (key, value) :: after ∧ key ∉ keys (before ++ after) := by
  obtain ⟨before, after, rfl, -⟩ := List.lookup_eq_some_iff.1 h
  refine ⟨before, after, rfl, ?_⟩
  rw [keys, List.map_append, List.map_cons, List.nodup_middle, List.nodup_cons, ← List.map_append] at hkeys
  exact hkeys.1

theorem erase_append {before after : Members} (h : key ∉ keys (before ++ after)) :
    erase (before ++ (key, value) :: after) key = before ++ after := by
  have hbefore : ∀ m ∈ before, ¬decide (m.1 = key) = true := by
    intro m hm hkey
    exact h (List.mem_map.2 ⟨m, List.mem_append_left after hm, of_decide_eq_true hkey⟩)
  rw [erase, List.eraseP_append_right _ hbefore]
  exact congrArg (before ++ ·) (List.eraseP_cons_of_pos (decide_eq_true rfl))

end Members

namespace Edit

open SqlJson.Path Step Walk

variable {maxPad n : ℕ} {root new x value : Json} {path : Path} {parent q steps : List Step} {last : Step}
  {items : List Json} {members : Members} {key : String} {walk : Walk} {child left : Json}

/-! ## Elements -/

/-- A removal takes out one element. -/
theorem removeChild_array (hn : n < items.length) :
    removeChild (.index n) (.array items) = .ok (.array (items.eraseIdx n)) :=
  if_pos hn

/-- An insert of one value puts in one element. -/
theorem insertInto_array (walk : Walk) (hn : n ≤ items.length) (value : Json) :
    insertInto walk n [value] (.array items) = .ok (.array (items.insertIdx n value)) := by
  have hinsert : items.take n ++ [value] ++ items.drop n = items.insertIdx n value := by
    have hparts := List.modifyTailIdx_add (List.cons value) 0 (items.take n) (items.drop n)
    rw [List.take_append_drop, List.length_take_of_le hn] at hparts
    rw [List.insertIdx, ← Nat.add_zero n, hparts, List.append_assoc]
    rfl
  rw [insertInto_eq (.inl rfl), Nat.sub_eq_zero_of_le hn, if_pos (Nat.zero_le _), List.replicate_zero, List.append_nil,
    hinsert]

theorem attempt_remove (maxPad : ℕ) (root : Json) (text : String) (parent : List Step) (last : Step) :
    (Edit.remove ⟨text, parent ++ [last]⟩).attempt maxPad root =
      .ok ((Walk.strict maxPad).rewrite (removeChild last) parent ⟨root, false⟩) := by
  rw [attempt, splitLast_concat]
  rfl

theorem attempt_insert (maxPad : ℕ) (root : Json) (text : String) (parent : List Step) (n : ℕ) (values : List Json) :
    (Edit.insert ⟨text, parent ++ [.index n]⟩ values).attempt maxPad root =
      .ok ((toArray maxPad).rewrite (insertInto (toArray maxPad) n values) parent ⟨root, false⟩) := by
  rw [attempt, splitLast_concat]
  rfl

theorem validate_remove_concat (text : String) (parent : List Step) (last : Step) :
    (Edit.remove ⟨text, parent ++ [last]⟩).validate = .ok () := by
  simp [validate, isRoot]

/-- **Insert and remove are inverse to each other.** In an array of a document, at any depth and at both ends, a
removal takes back the insert of one value at its index, and an insert of the element that was removed takes back
its removal. Both edits are applied, and the document is the same as before. -/
theorem apply_insert_remove (h : path.lookup root = some (.array items)) (maxPad : ℕ) :
    (∀ text n value, n ≤ items.length → ∃ new,
        (Edit.insert ⟨text, path.steps ++ [.index n]⟩ [value]).apply maxPad root = .ok (new, .applied) ∧
        path.lookup new = some (.array (items.insertIdx n value)) ∧
        (Edit.remove ⟨text, path.steps ++ [.index n]⟩).apply maxPad new = .ok (root, .applied)) ∧
      ∀ text n value, items[n]? = some value → ∃ new,
        (Edit.remove ⟨text, path.steps ++ [.index n]⟩).apply maxPad root = .ok (new, .applied) ∧
        path.lookup new = some (.array (items.eraseIdx n)) ∧
        (Edit.insert ⟨text, path.steps ++ [.index n]⟩ [value]).apply maxPad new = .ok (root, .applied) := by
  constructor
  · intro text n value hn
    have hremove : removeChild (.index n) (.array (items.insertIdx n value)) = .ok (.array items) := by
      have hlength : n < (items.insertIdx n value).length := by
        rw [List.length_insertIdx_of_le_length hn]
        omega
      rw [removeChild_array hlength, List.eraseIdx_insertIdx_self]
    obtain ⟨new, hinserted, hfound, hback⟩ :=
      rewrite_undo (toArray maxPad) (Walk.strict maxPad) h (insertInto_array _ hn value) hremove
    refine ⟨new, ?_, hfound, ?_⟩
    · refine apply_of_rewritten (validate_insert_index text path.steps n [value]) ?_
      rw [attempt_insert, hinserted]
    · refine apply_of_rewritten (validate_remove_concat text path.steps _) ?_
      rw [attempt_remove, hback]
  · intro text n value hvalue
    obtain ⟨hn, hget⟩ := List.getElem?_eq_some_iff.1 hvalue
    have hinsert : insertInto (toArray maxPad) n [value] (.array (items.eraseIdx n)) = .ok (.array items) := by
      have hlength : n ≤ (items.eraseIdx n).length := by
        rw [List.length_eraseIdx_of_lt hn]
        omega
      rw [insertInto_array _ hlength, ← hget, List.insertIdx_eraseIdx_getElem]
    obtain ⟨new, hremoved, hfound, hback⟩ :=
      rewrite_undo (Walk.strict maxPad) (toArray maxPad) h (removeChild_array hn) hinsert
    refine ⟨new, ?_, hfound, ?_⟩
    · refine apply_of_rewritten (validate_remove_concat text path.steps _) ?_
      rw [attempt_remove, hremoved]
    · refine apply_of_rewritten (validate_insert_index text path.steps n [value]) ?_
      rw [attempt_insert, hback]

/-- An insert behind the last element, inside an array in an object. -/
theorem apply_insert_remove_last :
    ∃ new,
      (Edit.insert ⟨"$.a[0][1]", [.member "a", .index 0, .index 1]⟩ [.null]).apply 0
          (.object [("a", .array [.array [.bool true], .null])]) = .ok (new, .applied) ∧
        Path.lookup ⟨"$.a[0]", [.member "a", .index 0]⟩ new = some (.array [.bool true, .null]) ∧
        (Edit.remove ⟨"$.a[0][1]", [.member "a", .index 0, .index 1]⟩).apply 0 new =
          .ok (.object [("a", .array [.array [.bool true], .null])], .applied) := by
  have h : Path.lookup ⟨"$.a[0]", [.member "a", .index 0]⟩
      (.object [("a", .array [.array [.bool true], .null])]) = some (.array [.bool true]) := by rfl
  exact (apply_insert_remove h 0).1 "$.a[0][1]" 1 .null (by decide)

/-! ## Members -/

/-- A removal takes out one member. -/
theorem removeChild_object {before after : Members} (hlast : last.place = .inl key)
    (h : key ∉ keys (before ++ after)) :
    removeChild last (.object (before ++ (key, value) :: after)) = .ok (.object (before ++ after)) := by
  have hunfold : removeChild last (.object (before ++ (key, value) :: after)) =
      if ((before ++ (key, value) :: after).lookup key).isSome then
        .ok (.object (Members.erase (before ++ (key, value) :: after) key))
      else .error .pathNotFound := by
    cases last <;> cases hlast <;> rfl
  have hfound : ((before ++ (key, value) :: after).lookup key).isSome := by
    rw [Option.isSome_iff_ne_none, ne_eq, Members.lookup_eq_none_iff, not_not]
    exact List.mem_map.2 ⟨(key, value), List.mem_append_right before List.mem_cons_self, rfl⟩
  rw [hunfold, if_pos hfound, Members.erase_append h]

/-! ## What a removal leaves -/

/-- **A container without one child**, which was where a step leads. The others stay in their order: a key that
was removed is no key any more, and elements behind one that was removed move up. -/
inductive Without (last : Step) (child : Json) : Json → Json → Prop
  | member {key : String} {before after : Members} (hlast : last.place = .inl key)
      (hgone : key ∉ keys (before ++ after)) :
      Without last child (.object (before ++ (key, child) :: after)) (.object (before ++ after))
  | element {n : ℕ} {items left : List Json} (hlast : last.place = .inr n) (hchild : items[n]? = some child)
      (hlength : left.length = items.length - 1) (hfront : ∀ j < n, left[j]? = items[j]?)
      (hback : ∀ j ≥ n, left[j]? = items[j + 1]?) :
      Without last child (.array items) (.array left)

/-- A removal from a container leaves it without the child that was found there. -/
theorem exists_removeChild (hkeys : x.UniqueKeys) (hchild : last.child? x = some child) :
    ∃ left, removeChild last x = .ok left ∧ Without last child x left := by
  rcases cases_of_child? hchild with ⟨key, members, hplace, rfl, hlookup⟩ | ⟨n, items, rfl, rfl, hitem⟩
  · have hnodup := (uniqueKeys_object.1 hkeys).1
    obtain ⟨before, after, rfl, hgone⟩ := Members.exists_append_of_lookup hnodup hlookup
    exact ⟨_, removeChild_object hplace hgone, .member hplace hgone⟩
  · have hn := (List.getElem?_eq_some_iff.1 hitem).1
    refine ⟨.array (items.eraseIdx n), removeChild_array hn, .element rfl hitem ?_ ?_ ?_⟩
    · exact List.length_eraseIdx_of_lt hn
    · intro j hj
      exact List.getElem?_eraseIdx_of_lt hj
    · intro j hj
      exact List.getElem?_eraseIdx_of_ge hj

/-- Where a member was removed there is nothing. -/
theorem Without.follow_eq_none (h : Without last child x left) (hlast : last.place = .inl key)
    (hleft : follow parent new = some left) : follow (parent ++ [last]) new = none := by
  have hgone : last.child? left = none := by
    rw [Step.child?_eq, hlast]
    cases h with
    | member hkey hgone =>
      cases hlast.symm.trans hkey
      exact Members.lookup_eq_none_iff.2 hgone
    | element hindex => cases hlast.symm.trans hindex
  rw [follow_append, hleft, Option.bind_some, follow, hgone, Option.bind_none]

/-- **A walk to what lookup finds pads nothing.** -/
theorem not_pads_of_follow (h : follow steps root = some x) : ¬Pads root steps q := by
  rintro ⟨before, s, rest, before', t, rfl, rfl, -, n, i, rfl, rfl, hlt, hlength⟩
  rw [follow_append] at h
  obtain ⟨json, hjson, hrest⟩ := Option.bind_eq_some_iff.1 h
  obtain ⟨child, hchild, -⟩ := Option.bind_eq_some_iff.1 hrest
  -- the step that would pad leads to an element, and so the array reaches behind what would be padding
  rcases cases_of_child? hchild with ⟨key, members, hplace, -⟩ | ⟨m, items, hm, rfl, hitem⟩
  · cases hplace
  · cases hm
    have hn := (List.getElem?_eq_some_iff.1 hitem).1
    have hi := hlength items hjson
    omega

/-- A removal of what lookup finds is applied, and changes the container of it and nothing else. -/
theorem exists_apply_remove_of_lookup (hkeys : root.UniqueKeys) (maxPad : ℕ) (text : String)
    (h : follow (parent ++ [last]) root = some child) :
    ∃ old new left, (Edit.remove ⟨text, parent ++ [last]⟩).apply maxPad root = .ok (new, .applied) ∧
      follow parent root = some old ∧ follow parent new = some left ∧ Without last child old left ∧
      ∀ q, Diverge parent q → follow q new = follow q root := by
  rw [follow_append] at h
  obtain ⟨old, hold, hlast⟩ := Option.bind_eq_some_iff.1 h
  obtain ⟨_, hchild, heq⟩ := Option.bind_eq_some_iff.1 hlast
  cases heq
  have hover : root.Over fun _ => True := ⟨hkeys, fun _ _ => trivial⟩
  obtain ⟨left, hleft, hwithout⟩ := exists_removeChild (hover.follow hold).1 hchild
  obtain ⟨new, hnew, hfollow⟩ := exists_rewrite_of_follow (Walk.strict maxPad) hold hleft
  refine ⟨old, new, left, ?_, hold, hfollow, hwithout, ?_⟩
  · refine apply_of_rewritten (validate_remove_concat text parent last) ?_
    rw [attempt_remove, hnew]
  · intro q hd
    exact follow_of_diverge hnew hd (not_pads_of_follow hold)

/-- A removal is skipped where lookup finds nothing. -/
theorem exists_apply_remove_of_eq_none (maxPad : ℕ) (text : String) (h : follow (parent ++ [last]) root = none) :
    ∃ reason, (Edit.remove ⟨text, parent ++ [last]⟩).apply maxPad root = .ok (root, .skipped reason) := by
  have hroot : Path.isRoot ⟨text, parent ++ [last]⟩ = false := by simp [isRoot]
  obtain ⟨⟨new, outcome⟩, happly, happlied, hskipped⟩ := exists_apply_remove maxPad root hroot
  have hne : outcome ≠ .applied := by
    intro heq
    have hfound := happlied.1 heq
    rw [lookup, h] at hfound
    cases hfound
  obtain ⟨heq, y, s, rest, -, hreason⟩ := hskipped hne
  exact ⟨_, by rw [happly, ← heq, ← hreason]⟩

/-- A removal that has been made, or that was skipped, is skipped the next time. -/
theorem exists_apply_remove_again (hkeys : root.UniqueKeys) (maxPad : ℕ) (text : String)
    (hlast : last.place = .inl key) :
    ∃ new outcome reason, (Edit.remove ⟨text, parent ++ [last]⟩).apply maxPad root = .ok (new, outcome) ∧
      (Edit.remove ⟨text, parent ++ [last]⟩).apply maxPad new = .ok (new, .skipped reason) := by
  cases hfound : follow (parent ++ [last]) root with
  | none =>
    obtain ⟨reason, hreason⟩ := exists_apply_remove_of_eq_none maxPad text hfound
    exact ⟨root, .skipped reason, reason, hreason, hreason⟩
  | some child =>
    obtain ⟨old, new, left, happly, -, hleft, hwithout, -⟩ :=
      exists_apply_remove_of_lookup hkeys maxPad text hfound
    have hgone := hwithout.follow_eq_none hlast hleft
    obtain ⟨reason, hreason⟩ := exists_apply_remove_of_eq_none maxPad text hgone
    exact ⟨new, .applied, reason, happly, hreason⟩

theorem place_of_key? (h : last.key? = some key) : last.place = .inl key := by
  cases last <;> cases h <;> rfl

/-- **A removal takes out one thing.** What lookup finds is removed from its container, where the other children
stay as they are and in their order, also if none is left; a member that was removed is not found any more, and
nothing that lies off the path to the container changes. A removal of a member that is made twice gives what it
gives when it is made once, whether there was one or not. -/
theorem apply_remove (hkeys : root.UniqueKeys) (maxPad : ℕ) :
    (∀ text parent last child, Path.lookup ⟨text, parent ++ [last]⟩ root = some child → ∃ old new left,
        (Edit.remove ⟨text, parent ++ [last]⟩).apply maxPad root = .ok (new, .applied) ∧
        follow parent root = some old ∧ follow parent new = some left ∧ Without last child old left ∧
        (last.key?.isSome → Path.lookup ⟨text, parent ++ [last]⟩ new = none) ∧
        ∀ other : Path, Diverge parent other.steps → other.lookup new = other.lookup root) ∧
      ∀ path : Path, path.lastKey?.isSome → ∃ new outcome reason,
        (Edit.remove path).apply maxPad root = .ok (new, outcome) ∧
        (Edit.remove path).apply maxPad new = .ok (new, .skipped reason) := by
  constructor
  · intro text parent last child h
    obtain ⟨old, new, left, happly, hold, hleft, hwithout, hframe⟩ :=
      exists_apply_remove_of_lookup hkeys maxPad text h
    refine ⟨old, new, left, happly, hold, hleft, hwithout, ?_, fun other => hframe other.steps⟩
    intro hkey
    obtain ⟨key, hkey⟩ := Option.isSome_iff_exists.1 hkey
    exact hwithout.follow_eq_none (place_of_key? hkey) hleft
  · rintro ⟨text, steps⟩ h
    obtain ⟨key, hlastKey⟩ := Option.isSome_iff_exists.1 h
    obtain ⟨last, hlast, hkey⟩ := Option.bind_eq_some_iff.1 hlastKey
    obtain ⟨parent, rfl⟩ := List.getLast?_eq_some_iff.1 hlast
    exact exists_apply_remove_again hkeys maxPad text (place_of_key? hkey)

/-- The only member of an object in an array is removed. -/
theorem apply_remove_emptied :
    (Edit.remove ⟨"$.a[1].b", [.member "a", .index 1, .member "b"]⟩).apply 0
          (.object [("a", .array [.null, .object [("b", .null)]])]) =
        .ok (.object [("a", .array [.null, .object []])], .applied) ∧
      Path.lookup ⟨"$.a[1].b", [.member "a", .index 1, .member "b"]⟩
        (.object [("a", .array [.null, .object []])]) = none ∧
      Path.lookup ⟨"$.a[0]", [.member "a", .index 0]⟩ (.object [("a", .array [.null, .object []])]) = some .null ∧
      ∃ reason, (Edit.remove ⟨"$.a[1].b", [.member "a", .index 1, .member "b"]⟩).apply 0
        (.object [("a", .array [.null, .object []])]) =
          .ok (.object [("a", .array [.null, .object []])], .skipped reason) := by
  have hkeys : (Json.object [("a", .array [.null, .object [("b", .null)]])]).UniqueKeys := by
    simp [UniqueKeys, UniqueKeysOfMembers, UniqueKeysOfItems, keys]
  have hrun : (Edit.remove ⟨"$.a[1].b", [.member "a", .index 1, .member "b"]⟩).apply 0
      (.object [("a", .array [.null, .object [("b", .null)]])]) =
        .ok (.object [("a", .array [.null, .object []])], .applied) := by rfl
  obtain ⟨hfound, hagain⟩ := apply_remove hkeys 0
  obtain ⟨old, new, left, happly, -, -, -, hgone, hframe⟩ :=
    hfound "$.a[1].b" [.member "a", .index 1] (.member "b") .null rfl
  obtain ⟨once, outcome, reason, honce, htwice⟩ :=
    hagain ⟨"$.a[1].b", [.member "a", .index 1, .member "b"]⟩ rfl
  cases hrun.symm.trans happly
  cases hrun.symm.trans honce
  exact ⟨hrun, hgone rfl, hframe ⟨"$.a[0]", [.member "a", .index 0]⟩ (by simp [Diverge, Step.place]), reason, htwice⟩

end Edit

end SqlJson
