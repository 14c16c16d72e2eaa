import SqlJson.Proofs.Edit.Rewalking

/-!
# Appending

An append changes the array at its path, and an insert changes the array in front of its last index. With the
index that comes after the last element the two are the same edit, on every document.

* `Makes`, `exists_apply_apply`: edits that are walks, and two of them on one path that are one.
* `Path.lengthAt`: the index that comes after the last element at a path.
* `insertInto_end`: an insert behind the last element is an append.
* `apply_append`: appending is inserting at the end, and appending twice is appending once.
-/

namespace SqlJson

open Json

/-- The number of elements of the array that a path leads to; 0 if it leads to no array. -/
def Path.lengthAt (path : Path) (root : Json) : ℕ := (((path.lookup root).bind items?).getD []).length

namespace Edit

open SqlJson.Path Walk

variable {maxPad : ℕ} {root new : Json} {edit : Edit} {path : Path} {reason : Skip} {values : List Json}

theorem Outcome.eq_error_of_of {rewriting : Except Skip Json} (h : Outcome.of rewriting = .skipped reason) :
    rewriting = .error reason := by
  cases rewriting <;> cases h
  rfl

theorem apply_of_rewritten (hv : edit.validate = .ok ()) (ha : edit.attempt maxPad root = .ok (.ok new)) :
    edit.apply maxPad root = .ok (new, .applied) := by
  rw [apply, hv, ha]
  rfl

theorem apply_of_skipped (hv : edit.validate = .ok ()) (ha : edit.attempt maxPad root = .ok (.error reason)) :
    edit.apply maxPad root = .ok (root, .skipped reason) := by
  rw [apply, hv, ha]
  rfl

/-! ## Edits as walks -/

/-- **An edit that is a walk** along some steps, with a change at their end. -/
structure Makes (edit : Edit) (maxPad : ℕ) (walk : Walk) (steps : List Step) (change : Json → Except Skip Json) :
    Prop where
  validate_eq : edit.validate = .ok ()
  attempt_eq : ∀ root, edit.attempt maxPad root = .ok (walk.rewrite change steps ⟨root, false⟩)

variable {walk : Walk} {steps : List Step} {f g h : Json → Except Skip Json} {once again both : Edit}

theorem Makes.apply_ok (hedit : edit.Makes maxPad walk steps f) (hnew : walk.rewrite f steps ⟨root, false⟩ = .ok new) :
    edit.apply maxPad root = .ok (new, .applied) :=
  apply_of_rewritten hedit.validate_eq (by rw [hedit.attempt_eq, hnew])

theorem Makes.apply_error (hedit : edit.Makes maxPad walk steps f)
    (hreason : walk.rewrite f steps ⟨root, false⟩ = .error reason) :
    edit.apply maxPad root = .ok (root, .skipped reason) :=
  apply_of_skipped hedit.validate_eq (by rw [hedit.attempt_eq, hreason])

theorem makes_append (maxPad : ℕ) (path : Path) (values : List Json) :
    (Edit.append path values).Makes maxPad (toArray maxPad) path.steps (appendTo values) :=
  ⟨rfl, fun _ => rfl⟩

/-- **Two edits on one path, and one that makes both changes at once**, if their changes fare alike: the same document,
and the same outcome. -/
theorem exists_apply_apply (honce : once.Makes maxPad walk steps f) (hagain : again.Makes maxPad walk steps g)
    (hboth : both.Makes maxPad walk steps h) (hfg : ∀ x, (do g (← f x)) = h x)
    (hg : ∀ x, Outcome.of (g x) = Outcome.of (f x)) (hh : ∀ x, Outcome.of (h x) = Outcome.of (f x)) (root : Json) :
    ∃ first last outcome, once.apply maxPad root = .ok (first, outcome) ∧
      again.apply maxPad first = .ok (last, outcome) ∧ both.apply maxPad root = .ok (last, outcome) := by
  have hfares : ∀ change : Json → Except Skip Json, (∀ x, Outcome.of (change x) = Outcome.of (f x)) →
      Outcome.of (walk.rewrite change steps ⟨root, false⟩) = Outcome.of (walk.rewrite f steps ⟨root, false⟩) :=
    fun _ => of_rewrite_congr
  cases hfirst : walk.rewrite f steps ⟨root, false⟩ with
  | ok first =>
    have happlied := hfares h hh
    rw [hfirst] at happlied
    cases hlast : walk.rewrite h steps ⟨root, false⟩ with
    | error reason =>
      rw [hlast] at happlied
      cases happlied
    | ok last =>
      have hagain' : walk.rewrite g steps ⟨first, false⟩ = .ok last := by
        rw [rewrite_rewrite hfirst]
        simp only [hfg, hlast]
      exact ⟨first, last, .applied, honce.apply_ok hfirst, hagain.apply_ok hagain', hboth.apply_ok hlast⟩
  | error reason =>
    -- nothing is changed, and the next edit finds the same document
    rw [hfirst] at hfares
    exact ⟨root, root, .skipped reason, honce.apply_error hfirst,
      hagain.apply_error (Outcome.eq_error_of_of (hfares g hg)),
      hboth.apply_error (Outcome.eq_error_of_of (hfares h hh))⟩

/-! ## Appends -/

/-- **An insert behind the last element is an append**, to an array, to `null` and to anything else. -/
theorem insertInto_end (walk : Walk) (values : List Json) (x : Json) :
    insertInto walk (x.items?.getD []).length values x = appendTo values x := by
  have hitems : ∀ items, HasItems x items → insertInto walk items.length values x = .ok (.array (items ++ values)) := by
    intro items ho
    rw [insertInto_eq ho, Nat.sub_self, if_pos (Nat.zero_le _), List.take_length, List.drop_length, List.replicate_zero,
      List.append_nil, List.append_nil]
  cases x with
  | array items => exact hitems items (.inl rfl)
  | null => exact hitems [] (.inr ⟨rfl, rfl⟩)
  | _ => rfl

/-- What a path leads to has as many elements as the path says, and none if it leads to nothing. -/
theorem length_items_lookup (path : Path) (root : Json) :
    ((((path.lookup root).getD .null).items?).getD []).length = path.lengthAt root := by
  rw [lengthAt]
  cases path.lookup root <;> rfl

theorem attempt_insert_end (maxPad : ℕ) (root : Json) (path : Path) (text : String) (values : List Json) :
    (Edit.insert ⟨text, path.steps ++ [.index (path.lengthAt root)]⟩ values).attempt maxPad root =
      (Edit.append path values).attempt maxPad root := by
  have hagree : insertInto (toArray maxPad) (path.lengthAt root) values ((path.lookup root).getD .null) =
      appendTo values ((path.lookup root).getD .null) := by
    rw [← length_items_lookup]
    exact insertInto_end _ values _
  rw [attempt, attempt, splitLast_concat]
  exact congrArg Except.ok (rewrite_agree hagree)

theorem validate_insert_index (text : String) (parent : List Step) (n : ℕ) (values : List Json) :
    (Edit.insert ⟨text, parent ++ [.index n]⟩ values).validate = .ok () := by
  simp [validate, finalIndex?]

/-- Appending twice is appending once. -/
theorem appendTo_append (vs ws : List Json) (x : Json) :
    (do appendTo ws (← appendTo vs x)) = appendTo (vs ++ ws) x := by
  cases x with
  | array items => exact congrArg (fun all => Except.ok (Json.array all)) (List.append_assoc items vs ws)
  | _ => rfl

/-- Whether values can be appended has nothing to do with the values. -/
theorem of_appendTo (vs ws : List Json) (x : Json) : Outcome.of (appendTo vs x) = Outcome.of (appendTo ws x) := by
  cases x <;> rfl

/-- An append after another is one append of the values of both: the same document, and the outcome of the
first. -/
theorem apply_append_append (maxPad : ℕ) (root : Json) (path : Path) (vs ws : List Json) :
    ∃ first last outcome, (Edit.append path vs).apply maxPad root = .ok (first, outcome) ∧
      (Edit.append path ws).apply maxPad first = .ok (last, outcome) ∧
      (Edit.append path (vs ++ ws)).apply maxPad root = .ok (last, outcome) :=
  exists_apply_apply (makes_append maxPad path vs) (makes_append maxPad path ws) (makes_append maxPad path (vs ++ ws))
    (appendTo_append vs ws) (of_appendTo ws vs) (of_appendTo (vs ++ ws) vs) root

/-- **Append is insert at the end, and appending is additive.** -/
theorem apply_append (maxPad : ℕ) (root : Json) (path : Path) (vs : List Json) :
    (∀ text, (Edit.insert ⟨text, path.steps ++ [.index (path.lengthAt root)]⟩ vs).apply maxPad root =
        (Edit.append path vs).apply maxPad root) ∧
      ∀ ws, ∃ first last outcome, (Edit.append path vs).apply maxPad root = .ok (first, outcome) ∧
        (Edit.append path ws).apply maxPad first = .ok (last, outcome) ∧
        (Edit.append path (vs ++ ws)).apply maxPad root = .ok (last, outcome) := by
  refine ⟨fun text => ?_, apply_append_append maxPad root path vs⟩
  rw [apply, apply, validate_insert_index, attempt_insert_end]
  rfl

end Edit

end SqlJson
