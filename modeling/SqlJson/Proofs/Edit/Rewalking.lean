import SqlJson.Proofs.Edit.Stopping

/-!
# Walking one path twice

What a walk does on its way depends on its policy and on the document, and only at the end on the change that
it is to make. So two walks along one path can be compared by their changes.

* `Descent`: one step of a walk stops, or goes down to a place that the change has no part in.
* `rewrite_agree`: changes that agree on what the path leads to make the same document.
* `of_rewrite_congr`: changes that fare alike make walks that fare alike.
* `rewrite_rewrite`: two walks along one path are one walk that makes both changes at its end.
* `exists_rewrite_of_follow`, `rewrite_undo`: a walk to what lookup finds, and another one that takes its change
  back.
-/

namespace SqlJson.Edit

open Json SqlJson.Path Step

namespace Walk

variable {walk again : Walk} {f g : Json → Except Skip Json} {step : Step} {steps rest : List Step}
  {place : Place} {new : Json} {members : Members} {items : List Json} {key : String} {n : ℕ} {fresh : Bool}

/-- **One step of a walk, whatever its change is**: it stops for some reason, or it goes down to a place,
and what comes of the rest of the walk there is put in where the step leads. -/
inductive Descent (walk : Walk) (step : Step) (place : Place) : Prop
  | stops (reason : Skip)
      (h : ∀ change rest, walk.rewrite change (step :: rest) place = .error reason)
  | goes (below : Place) (hbelow : below.value = (step.child? place.value).getD .null)
      (h : ∀ change rest, walk.rewrite change (step :: rest) place = (do
        let child ← walk.rewrite change rest below
        return put step child place.value))

theorem descent_member (hs : step.place = .inl key) (ho : HasMembers place.value members)
    (he : walk.enter step place = ⟨.object members, fresh⟩) : Descent walk step place := by
  cases hplace : walk.memberPlace fresh members key with
  | error reason =>
    refine .stops reason fun change rest => ?_
    rw [rewrite_member_eq hs he, hplace]
    rfl
  | ok below =>
    have hbelow : below.value = (step.child? place.value).getD .null := by
      rw [memberPlace_value hplace, child?_eq, hs, ho.childAt?]
      rfl
    refine .goes below hbelow fun change rest => ?_
    simp only [rewrite_member_eq hs he, hplace, HasMembers.put hs ho]
    rfl

theorem descent_item (ho : HasItems place.value items)
    (he : walk.enter (.index n) place = ⟨.array items, fresh⟩) : Descent walk (.index n) place := by
  cases hplace : walk.itemPlace fresh items n with
  | error reason =>
    refine .stops reason fun change rest => ?_
    rw [rewrite_item_eq he, hplace]
    rfl
  | ok below =>
    have hbelow : below.value = ((Step.index n).child? place.value).getD .null := by
      rw [itemPlace_value hplace, child?_eq, ho.childAt?]
      rfl
    have hput : ∀ child, put (.index n) child place.value = .array (setItem items n child) := ho.put rfl
    refine .goes below hbelow fun change rest => ?_
    simp only [rewrite_item_eq he, hplace, hput]
    rfl

theorem descent (walk : Walk) (step : Step) (place : Place) : Descent walk step place := by
  rcases enter_cases walk step place with henter | ⟨hnull, henter⟩
  · obtain ⟨value, fresh⟩ := place
    cases hfits : step.fits value with
    | false => exact .stops _ fun change rest => rewrite_stuck henter hfits
    | true =>
      cases step with
      | member key | quoted key =>
        cases value with
        | object members => exact descent_member rfl (.inl rfl) henter
        | _ => cases hfits
      | index n =>
        cases value with
        | array items => exact descent_item (.inl rfl) henter
        | _ => cases hfits
  -- the container is a new one, with nothing in it yet
  · cases step with
    | member key => exact descent_member rfl (.inr ⟨hnull, rfl⟩) henter
    | quoted key => exact descent_member rfl (.inr ⟨hnull, rfl⟩) henter
    | index n => exact descent_item (.inr ⟨hnull, rfl⟩) henter

/-- **Only what the path leads to counts for the change**; where it leads to nothing that is `null`. -/
theorem rewrite_agree (h : f ((follow steps place.value).getD .null) = g ((follow steps place.value).getD .null)) :
    walk.rewrite f steps place = walk.rewrite g steps place := by
  induction steps generalizing place with
  | nil => exact h
  | cons step rest ih =>
    cases descent walk step place with
    | stops reason hstops => rw [hstops, hstops]
    | goes below hbelow hgoes =>
      rw [follow_getD_cons, ← hbelow] at h
      rw [hgoes, hgoes, ih h]

/-- **Changes that fare alike** make walks that fare alike. -/
theorem of_rewrite_congr (h : ∀ x, Outcome.of (f x) = Outcome.of (g x)) :
    Outcome.of (walk.rewrite f steps place) = Outcome.of (walk.rewrite g steps place) := by
  induction steps generalizing place with
  | nil => exact h place.value
  | cons step rest ih =>
    cases descent walk step place with
    | stops reason hstops => rw [hstops, hstops]
    | goes below _ hgoes =>
      rw [hgoes, hgoes]
      exact (Outcome.of_bind _ _).trans (ih.trans (Outcome.of_bind _ _).symm)

/-- **Two walks along one path are one walk.** The second finds all that the first has gone through or put
there, and makes its change to what the first has made. -/
theorem rewrite_rewrite (h : walk.rewrite f steps place = .ok new) :
    again.rewrite g steps ⟨new, false⟩ = walk.rewrite (fun x => do g (← f x)) steps place := by
  induction steps generalizing place new with
  | nil =>
    have hf : f place.value = .ok new := h
    rw [rewrite, rewrite, hf]
    rfl
  | cons step rest ih =>
    cases descent walk step place with
    | stops reason hstops =>
      rw [hstops] at h
      cases h
    | goes below _ hgoes =>
      rw [hgoes] at h
      obtain ⟨child, hchild, heq⟩ := Except.bind_eq_ok_iff.1 h
      cases heq
      -- the second walk finds the child where the first has put it, and puts its own in the same place
      rw [rewrite_child (child?_put step child place.value), ih hchild, hgoes]
      simp only [put_put]

/-! ## Walks to what lookup finds -/

variable {root x y : Json}

/-- **A walk to what lookup finds** makes its change there, whatever its policy. -/
theorem exists_rewrite_of_follow (walk : Walk) (hx : follow steps root = some x) (hf : f x = .ok y) :
    ∃ new, walk.rewrite f steps ⟨root, false⟩ = .ok new ∧ follow steps new = some y := by
  induction steps generalizing root with
  | nil =>
    cases hx
    exact ⟨y, hf, rfl⟩
  | cons step rest ih =>
    obtain ⟨child, hchild, hrest⟩ := Option.bind_eq_some_iff.1 hx
    obtain ⟨new, hnew, hfollow⟩ := ih hrest
    refine ⟨put step new root, ?_, ?_⟩
    · rw [rewrite_child hchild, hnew]
      rfl
    · rw [follow, child?_put, Option.bind_some, hfollow]

/-- A walk that changes nothing at its end changes nothing on its way. -/
theorem rewrite_ok (hx : follow steps root = some x) : walk.rewrite .ok steps ⟨root, false⟩ = .ok root := by
  induction steps generalizing root with
  | nil => rfl
  | cons step rest ih =>
    obtain ⟨child, hchild, hrest⟩ := Option.bind_eq_some_iff.1 hx
    rw [rewrite_child hchild, ih hrest]
    exact congrArg Except.ok (put_child hchild)

/-- **A change can be taken back.** If `g` undoes at `x` what `f` does, then a walk with `g` undoes in the whole
document what a walk with `f` has done there. -/
theorem rewrite_undo (walk again : Walk) (hx : follow steps root = some x) (hf : f x = .ok y) (hg : g y = .ok x) :
    ∃ new, walk.rewrite f steps ⟨root, false⟩ = .ok new ∧ follow steps new = some y ∧
      again.rewrite g steps ⟨new, false⟩ = .ok root := by
  obtain ⟨new, hnew, hfollow⟩ := exists_rewrite_of_follow walk hx hf
  refine ⟨new, hnew, hfollow, ?_⟩
  have hagree : (do g (← f x) : Except Skip Json) = .ok x := by
    rw [hf]
    exact hg
  have hboth : walk.rewrite (fun x => do g (← f x)) steps ⟨root, false⟩ = walk.rewrite .ok steps ⟨root, false⟩ := by
    refine rewrite_agree ?_
    rw [hx]
    exact hagree
  rw [rewrite_rewrite hnew, hboth, rewrite_ok hx]

end Walk

end SqlJson.Edit
