import SqlJson.Proofs.Edit.Stopping

/-!
# When an edit that creates is applied

A set that creates what is missing, and the two edits of arrays, go on where lookup gets no further: they
fill `null`, add members and pad arrays. What keeps them from it is settled by the value `x` where lookup
stops and the steps that are left.

* `mismatch`, `lacksMember`, `padding`: what stands in the way of the steps that are left.
* `of_rewrite_created`: below a value that a walk has created only padding can stand in its way.
* `of_rewrite_stopped`: a walk that fills and pads, from where lookup stops.
* `apply_creating`: the outcome of the three edits, for every document and every path.
-/

namespace SqlJson

open Json SqlJson.Path

namespace Edit

variable {walk : Walk} {change : Json → Except Skip Json} {s : Step} {steps left rest : List Step}
  {root x value : Json} {maxPad : ℕ}

/-- **How many elements are put into arrays as padding**, for each of the steps that are left: the first
one goes on from `x`, and the others from values that are created. -/
def padding (x : Json) : List Step → List ℕ
  | [] => []
  | s :: rest => needed s x :: rest.map (needed · .null)

/-- Whether a value is an object that lacks the member the next step leads to. -/
def lacksMember (x : Json) (left : List Step) : Bool := x.members?.isSome && !left.isEmpty

/-- The padding in front of values that are inserted at an index, into the array that is there or into one
that is created. -/
def ownPadding : Json → List Step → ℕ → ℕ
  | .array items, [], n => n - items.length
  | _, _, n => n

/-- Whether a value that is to take up elements can take none. -/
def refusesItems : Json → List Step → Bool
  | .array _, [] | .null, [] => false
  | _, [] => true
  | _, _ => false

/-- The outcome of a set that creates, where lookup stops at `x`. -/
def setOutcome (maxPad : ℕ) (x : Json) (left : List Step) : Outcome :=
  if mismatch x left then .skipped .typeMismatch
  else if (padding x left).any (maxPad < ·) then .skipped .paddingLimit
  else .applied

/-- The outcome of an edit of an array, where lookup stops at `x`. The values that it adds need `own`
elements of padding in front of them. -/
def arrayOutcome (maxPad : ℕ) (x : Json) (left : List Step) (own : ℕ) : Outcome :=
  if mismatch x left || refusesItems x left then .skipped .typeMismatch
  else if lacksMember x left then .skipped .pathNotFound
  else if (padding x left ++ [own]).any (maxPad < ·) then .skipped .paddingLimit
  else .applied

/-! ## Walks that create -/

namespace Walk

/-- **Below a value that a walk has created** it creates all that its steps need, and only padding can be
too much. -/
theorem of_rewrite_created : Outcome.of (walk.rewrite change steps created) =
    if (steps.map (needed · .null)).any (walk.maxPad < ·) then .skipped .paddingLimit
    else Outcome.of (change .null) := by
  induction steps with
  | nil => rfl
  | cons s rest ih =>
    rw [of_rewrite_created_cons, ih, List.map_cons, List.any_cons]
    by_cases hpad : walk.maxPad < needed s .null
    · rw [if_pos hpad, decide_eq_true hpad, Bool.true_or, if_pos rfl]
    · rw [if_neg hpad, decide_eq_false hpad, Bool.false_or]

/-- **A walk that fills `null` and pads arrays**, where lookup stops. -/
theorem of_rewrite_stopped (hfill : walk.fillsNull = true) (hpads : walk.padsArrays = true)
    (h : s.child? x = none) : Outcome.of (walk.rewrite change (s :: rest) ⟨x, false⟩) =
      if mismatch x (s :: rest) then .skipped .typeMismatch
      else if !walk.addsMembers && lacksMember x (s :: rest) then .skipped .pathNotFound
      else if (padding x (s :: rest)).any (walk.maxPad < ·) then .skipped .paddingLimit
      else Outcome.of (change .null) := by
  rw [of_rewrite_stop h, of_rewrite_created, padding, List.any_cons]
  by_cases hmis : mismatch x (s :: rest) = true
  · rw [if_pos hmis, if_pos hmis]
  rw [if_neg hmis, if_neg hmis]
  have hcreates : (!walk.creates x) = (!walk.addsMembers && lacksMember x (s :: rest)) := by
    cases x with
    | null => simp [creates, hfill, lacksMember, members?]
    | array items => simp [creates, hpads, lacksMember, members?]
    | object members => simp [creates, lacksMember, members?]
    | _ => cases s <;> exact absurd rfl hmis
  rw [hcreates]
  by_cases hpad : walk.maxPad < needed s x
  · rw [if_pos hpad, decide_eq_true hpad, Bool.true_or, if_pos rfl]
  · rw [if_neg hpad, decide_eq_false hpad, Bool.false_or]

end Walk

/-! ## The three edits -/

variable {items values : List Json} {n own : ℕ}

theorem padding_nil (x : Json) : padding x [] = [] := by
  cases x <;> rfl

theorem refusesItems_cons (x : Json) (s : Step) (rest : List Step) : refusesItems x (s :: rest) = false := by
  cases x <;> rfl

theorem ownPadding_cons (x : Json) (s : Step) (rest : List Step) (n : ℕ) : ownPadding x (s :: rest) n = n := by
  cases x <;> rfl

theorem of_rewrite_set (value : Json) (h : LeadsTo root steps x left) :
    Outcome.of ((Walk.creating maxPad).rewrite (fun _ => .ok value) steps ⟨root, false⟩) =
      setOutcome maxPad x left := by
  rw [Walk.of_rewrite_leadsTo h, setOutcome]
  cases left with
  | nil => rw [padding_nil]; rfl
  | cons s rest => exact Walk.of_rewrite_stopped rfl rfl h.child?_eq_none

/-- **An edit of an array**, by what it does to the array: values that need `own` elements of padding in
front of them are taken up by an array, and by nothing else. -/
theorem of_rewrite_toArray (h : LeadsTo root steps x left)
    (hend : left = [] → Outcome.of (change x) = arrayOutcome maxPad x [] own)
    (hnew : left ≠ [] → Outcome.of (change .null) = if maxPad < own then .skipped .paddingLimit else .applied) :
    Outcome.of ((Walk.toArray maxPad).rewrite change steps ⟨root, false⟩) = arrayOutcome maxPad x left own := by
  rw [Walk.of_rewrite_leadsTo h]
  cases left with
  | nil => exact hend rfl
  | cons s rest =>
    have hadds : (Walk.toArray maxPad).addsMembers = false := rfl
    rw [Walk.of_rewrite_stopped rfl rfl h.child?_eq_none, hnew (by simp), arrayOutcome, refusesItems_cons,
      hadds, Bool.or_false, Bool.not_false, Bool.true_and, List.any_append, List.any_cons, List.any_nil,
      Bool.or_false]
    by_cases hpad : (padding x (s :: rest)).any (maxPad < ·) = true
    · have hmax : (padding x (s :: rest)).any ((Walk.toArray maxPad).maxPad < ·) = true := hpad
      rw [if_pos hmax, hpad, Bool.true_or, if_pos rfl]
    · have hmax : ¬(padding x (s :: rest)).any ((Walk.toArray maxPad).maxPad < ·) = true := hpad
      rw [if_neg hmax, Bool.eq_false_of_not_eq_true hpad, Bool.false_or]
      simp only [decide_eq_true_eq]

theorem lacksMember_nil (x : Json) : lacksMember x [] = false := by
  cases x <;> rfl

theorem arrayOutcome_nil (hx : refusesItems x [] = false) :
    arrayOutcome maxPad x [] own = if maxPad < own then .skipped .paddingLimit else .applied := by
  have hmis : mismatch x [] = false := rfl
  rw [arrayOutcome, hmis, hx, lacksMember_nil, padding_nil, List.nil_append, List.any_cons, List.any_nil]
  simp

theorem arrayOutcome_refused (hx : refusesItems x [] = true) :
    arrayOutcome maxPad x [] own = .skipped .typeMismatch := by
  rw [arrayOutcome, hx, Bool.or_true, if_pos rfl]

theorem of_rewrite_append (values : List Json) (h : LeadsTo root steps x left) :
    Outcome.of ((Walk.toArray maxPad).rewrite (appendTo values) steps ⟨root, false⟩) =
      arrayOutcome maxPad x left 0 := by
  refine of_rewrite_toArray h ?_ fun _ => rfl
  rintro rfl
  cases hx : refusesItems x [] with
  | true =>
    rw [arrayOutcome_refused hx]
    cases x with
    | array items | null => cases hx
    | _ => rfl
  | false =>
    rw [arrayOutcome_nil hx, if_neg (Nat.not_lt_zero maxPad)]
    cases x with
    | array items | null => rfl
    | _ => cases hx

/-- Values are inserted into an array if the padding in front of them is not too much. -/
theorem of_insertInto (hx : x = .array items ∨ (x = .null ∧ items = [])) :
    Outcome.of (insertInto (Walk.toArray maxPad) n values x) =
      if maxPad < n - items.length then .skipped .paddingLimit else .applied := by
  rw [Walk.insertInto_eq hx, Walk.toArray_maxPad]
  by_cases hpad : maxPad < n - items.length
  · rw [if_pos hpad, if_neg (Nat.not_le.2 hpad)]
    rfl
  · rw [if_neg hpad, if_pos (Nat.not_lt.1 hpad)]
    rfl

theorem of_rewrite_insert (values : List Json) (h : LeadsTo root steps x left) :
    Outcome.of ((Walk.toArray maxPad).rewrite (insertInto (Walk.toArray maxPad) n values) steps ⟨root, false⟩) =
      arrayOutcome maxPad x left (ownPadding x left n) := by
  refine of_rewrite_toArray h ?_ ?_
  · rintro rfl
    cases x with
    | array items =>
      rw [of_insertInto (.inl rfl), arrayOutcome_nil rfl]
      rfl
    | null =>
      rw [of_insertInto (.inr ⟨rfl, rfl⟩), arrayOutcome_nil rfl]
      rfl
    | _ => exact (arrayOutcome_refused rfl).symm
  · intro hleft
    obtain ⟨s, rest, rfl⟩ := List.exists_cons_of_ne_nil hleft
    rw [ownPadding_cons]
    exact of_insertInto (.inr ⟨rfl, rfl⟩)

/-- **When an edit that creates is applied, and why it is skipped.** Lookup goes as far as `x` along the
path, or, for an insertion, along the path without its last index; what is left decides. A set is never
skipped for want of a path. It is skipped if `x` is neither `null` nor the container that the next step
needs; else if some index that is left needs more than `maxPad` elements of padding; else it is applied.
The edits of arrays want members of `x` to be there, and `null` or an array at the end of their walk; the
values to be inserted may need no more padding than that either. An edit that is skipped changes nothing. -/
theorem apply_creating (maxPad : ℕ) (root : Json) (text : String) (steps parent : List Step) (n : ℕ) :
    (∃ x left, LeadsTo root steps x left ∧
      (∀ value, ∃ new, (Edit.set ⟨text, steps⟩ value true).apply maxPad root =
          .ok (new, setOutcome maxPad x left) ∧ (setOutcome maxPad x left ≠ .applied → new = root)) ∧
        ∀ values, ∃ new, (Edit.append ⟨text, steps⟩ values).apply maxPad root =
          .ok (new, arrayOutcome maxPad x left 0) ∧ (arrayOutcome maxPad x left 0 ≠ .applied → new = root)) ∧
    ∃ x left, LeadsTo root parent x left ∧
      ∀ values, ∃ new, (Edit.insert ⟨text, parent ++ [.index n]⟩ values).apply maxPad root =
          .ok (new, arrayOutcome maxPad x left (ownPadding x left n)) ∧
        (arrayOutcome maxPad x left (ownPadding x left n) ≠ .applied → new = root) := by
  constructor
  · obtain ⟨x, left, h⟩ := exists_leadsTo root steps
    refine ⟨x, left, h, ?_, ?_⟩
    · intro value
      rw [← of_rewrite_set value h]
      exact exists_apply rfl rfl
    · intro values
      rw [← of_rewrite_append values h]
      exact exists_apply rfl rfl
  · obtain ⟨x, left, h⟩ := exists_leadsTo root parent
    refine ⟨x, left, h, ?_⟩
    intro values
    rw [← of_rewrite_insert values h]
    refine exists_apply ?_ ?_
    · rw [validate, finalIndex?, List.getLast?_concat]
      rfl
    · rw [attempt, splitLast_concat]
      rfl

end Edit

end SqlJson
