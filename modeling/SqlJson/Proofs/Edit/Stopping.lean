import SqlJson.Edit.Basic
import SqlJson.Proofs.Edit.Frame

/-!
# Where a walk stops

Along the steps that lookup can take every walk does the same, whatever its policy: it goes down. What
becomes of an edit is settled at the value where lookup gets no further.

* `Path.LeadsTo`: how far steps lead in a document, and the steps that are left.
* `rewrite_member_eq`, `rewrite_item_eq`, `rewrite_stuck`: what a walk does at one step.
* `of_rewrite_leadsTo`: a walk fares as it fares from where lookup gets no further.
* `of_rewrite_stop`: what becomes of a walk there.
* `exists_applyAll`: edits that were validated do not fail.
-/

namespace SqlJson

open Json

namespace Step

/-- Whether a value is the container that a step needs: an object for a member, an array for an
index. -/
def fits : Step → Json → Bool
  | member _, .object _ | quoted _, .object _ | index _, .array _ => true
  | _, _ => false

variable {s : Step} {x child : Json}

theorem fits_of_child? (h : s.child? x = some child) : s.fits x = true := by
  cases s with
  | member key | quoted key =>
    cases x with
    | object members => rfl
    | _ => cases h
  | index n =>
    cases x with
    | array items => rfl
    | _ => cases h

end Step

/-! ## How far steps lead -/

namespace Path

open Edit

variable {root x child : Json} {steps p left rest : List Step} {s : Step}

/-- **How far steps lead**: `x` is the value at the end of the longest beginning of the steps that leads
to a value, and `left` are the steps after it. -/
def LeadsTo (root : Json) (steps : List Step) (x : Json) (left : List Step) : Prop :=
  ∃ before, steps = before ++ left ∧ follow before root = some x ∧
    ∀ longer, longer <+: steps → (follow longer root).isSome → longer <+: before

/-- The longest beginning is the one after which no step can be taken. -/
theorem leadsTo_iff : LeadsTo root steps x left ↔ ∃ before, steps = before ++ left ∧
    follow before root = some x ∧ ∀ s rest, left = s :: rest → s.child? x = none := by
  constructor
  · rintro ⟨before, rfl, hx, hlongest⟩
    refine ⟨before, rfl, hx, ?_⟩
    rintro s rest rfl
    by_contra hchild
    obtain ⟨child, hchild⟩ := Option.ne_none_iff_exists'.1 hchild
    have hfollow : follow (before ++ [s]) root = some child := by
      rw [follow_append, hx, Option.bind_some, follow, hchild]
      rfl
    have hprefix : before ++ [s] <+: before := by
      refine hlongest (before ++ [s]) ⟨rest, by simp⟩ ?_
      rw [hfollow, Option.isSome_some]
    have hlength := hprefix.length_le
    rw [List.length_append, List.length_singleton] at hlength
    omega
  · rintro ⟨before, rfl, hx, hstop⟩
    refine ⟨before, rfl, hx, ?_⟩
    intro longer hlonger hsome
    rcases List.prefix_or_prefix_of_prefix hlonger (List.prefix_append before left) with h | ⟨more, rfl⟩
    · exact h
    cases more with
    | nil => rw [List.append_nil]
    | cons s more =>
      obtain ⟨rest, hrest⟩ := hlonger
      rw [List.append_assoc, List.append_cancel_left_eq] at hrest
      rw [follow_append, hx, Option.bind_some, follow, hstop s _ hrest.symm, Option.bind_none] at hsome
      cases hsome

theorem leadsTo_nil : LeadsTo root [] root [] := ⟨[], rfl, rfl, fun _ hprefix _ => hprefix⟩

theorem leadsTo_of_none (h : s.child? root = none) : LeadsTo root (s :: rest) root (s :: rest) := by
  rw [leadsTo_iff]
  refine ⟨[], rfl, rfl, ?_⟩
  intro t rest' heq
  cases heq
  exact h

theorem leadsTo_cons (h : s.child? root = some child) :
    LeadsTo root (s :: rest) x left ↔ LeadsTo child rest x left := by
  rw [leadsTo_iff, leadsTo_iff]
  constructor
  · rintro ⟨before, hsteps, hx, hstop⟩
    cases before with
    | nil =>
      have hnone := hstop s rest hsteps.symm
      rw [follow, Option.some.injEq] at hx
      rw [← hx, h] at hnone
      cases hnone
    | cons t before =>
      rw [List.cons_append, List.cons.injEq] at hsteps
      obtain ⟨rfl, rfl⟩ := hsteps
      rw [follow, h, Option.bind_some] at hx
      exact ⟨before, rfl, hx, hstop⟩
  · rintro ⟨before, rfl, hx, hstop⟩
    refine ⟨s :: before, rfl, ?_, hstop⟩
    rw [follow, h, Option.bind_some, hx]

/-- **Steps lead somewhere** in every document. -/
theorem exists_leadsTo (root : Json) (steps : List Step) : ∃ x left, LeadsTo root steps x left := by
  induction steps generalizing root with
  | nil => exact ⟨root, [], leadsTo_nil⟩
  | cons s rest ih =>
    cases h : s.child? root with
    | none => exact ⟨root, s :: rest, leadsTo_of_none h⟩
    | some child =>
      obtain ⟨x, left, hlead⟩ := ih child
      exact ⟨x, left, (leadsTo_cons h).2 hlead⟩

theorem LeadsTo.child?_eq_none (h : LeadsTo root steps x (s :: rest)) : s.child? x = none := by
  obtain ⟨before, -, -, hstop⟩ := leadsTo_iff.1 h
  exact hstop s rest rfl

/-- A step that cannot be taken stays left. -/
theorem LeadsTo.concat (h : LeadsTo root p x left) (hs : left = [] → s.child? x = none) :
    LeadsTo root (p ++ [s]) x (left ++ [s]) := by
  rw [leadsTo_iff] at h ⊢
  obtain ⟨before, rfl, hx, hstop⟩ := h
  refine ⟨before, List.append_assoc .., hx, ?_⟩
  intro t rest heq
  cases left with
  | nil =>
    cases heq
    exact hs rfl
  | cons u left =>
    cases heq
    exact hstop _ _ rfl

theorem leadsTo_of_follow (h : follow steps root = some x) : LeadsTo root steps x [] :=
  ⟨steps, (List.append_nil steps).symm, h, fun _ hprefix _ => hprefix⟩

/-- **Lookup finds a value iff no steps are left.** -/
theorem isSome_follow_iff (h : LeadsTo root steps x left) : (follow steps root).isSome ↔ left = [] := by
  obtain ⟨before, rfl, hx, hstop⟩ := leadsTo_iff.1 h
  rw [follow_append, hx, Option.bind_some]
  cases left with
  | nil => simp [follow]
  | cons s rest => simp [follow, hstop s rest rfl]

end Path

/-! ## One step of a walk -/

namespace Edit

/-- Whether a value is neither `null` nor the container that the next step needs. -/
def mismatch (x : Json) : List Step → Bool
  | [] => false
  | s :: _ => !x.isNull && !s.fits x

/-- How many elements of padding a step needs in a value: as many as an array lacks in front of an index.
Where there is no array one is created. -/
def needed (s : Step) (x : Json) : ℕ :=
  match s with
  | .index n => n - (x.items?.getD []).length
  | _ => 0

theorem needed_of_key {s : Step} {key : String} (hs : s.place = .inl key) (x : Json) : needed s x = 0 := by
  cases s <;> cases hs <;> rfl

/-- What becomes of an edit with a given rewriting. -/
def Outcome.of : Except Skip Json → Outcome
  | .ok _ => .applied
  | .error reason => .skipped reason

theorem Outcome.of_bind (r : Except Skip Json) (f : Json → Json) :
    of (do let child ← r; return f child) = of r := by
  cases r <;> rfl

namespace Walk

open SqlJson.Path Step

variable {walk : Walk} {change : Json → Except Skip Json} {step : Step} {steps left rest : List Step}
  {place : Place} {root x value child : Json} {members : Members} {items : List Json} {key : String}
  {n : ℕ} {fresh : Bool}

/-- A walk that stands at an object goes on with a member of it. -/
theorem rewrite_member_eq (hs : step.place = .inl key) (he : walk.enter step place = ⟨.object members, fresh⟩) :
    walk.rewrite change (step :: rest) place = (do
      let child ← walk.rewrite change rest (← walk.memberPlace fresh members key)
      return Json.object (Members.set members key child)) := by
  rw [rewrite, he]
  cases step <;> cases hs <;> rfl

/-- A walk that stands at an array goes on with an element of it. -/
theorem rewrite_item_eq (he : walk.enter (.index n) place = ⟨.array items, fresh⟩) :
    walk.rewrite change (.index n :: rest) place = (do
      let child ← walk.rewrite change rest (← walk.itemPlace fresh items n)
      return Json.array (setItem items n child)) := by
  rw [rewrite, he]

/-- A walk that stands at anything else goes no further. -/
theorem rewrite_stuck (he : walk.enter step place = ⟨value, fresh⟩) (hf : step.fits value = false) :
    walk.rewrite change (step :: rest) place =
      .error (if value.isNull then .pathNotFound else .typeMismatch) := by
  rw [rewrite, he]
  cases step with
  | member key | quoted key =>
    cases value with
    | object members => cases hf
    | _ => rfl
  | index n =>
    cases value with
    | array items => cases hf
    | _ => rfl

/-- Where a walk stands counts only as far as it enters a container. -/
theorem rewrite_congr {place' : Place} (h : walk.enter step place = walk.enter step place') :
    walk.rewrite change (step :: rest) place = walk.rewrite change (step :: rest) place' := by
  rw [rewrite, rewrite, h]

theorem enter_of_ne_null (h : value ≠ .null) : walk.enter step ⟨value, fresh⟩ = ⟨value, fresh⟩ := by
  unfold enter
  split
  · contradiction
  · rfl

/-- No walk goes on from a value of a wrong kind. -/
theorem of_rewrite_mismatch (h : mismatch x (step :: rest) = true) :
    Outcome.of (walk.rewrite change (step :: rest) ⟨x, false⟩) = .skipped .typeMismatch := by
  rw [mismatch, Bool.and_eq_true, Bool.not_eq_true', Bool.not_eq_true'] at h
  have henter : walk.enter step ⟨x, false⟩ = ⟨x, false⟩ := by
    refine enter_of_ne_null ?_
    rintro rfl
    cases h.1
  rw [rewrite_stuck henter h.2, h.1]
  rfl

/-- **A step that lookup can take** is taken by every walk. -/
theorem rewrite_child (h : step.child? root = some child) :
    walk.rewrite change (step :: rest) ⟨root, false⟩ = (do
      let new ← walk.rewrite change rest ⟨child, false⟩
      return put step new root) := by
  have hroot : root ≠ .null := by
    rintro rfl
    rw [child?_null] at h
    cases h
  have henter : walk.enter step ⟨root, false⟩ = ⟨root, false⟩ := enter_of_ne_null hroot
  have hfits := fits_of_child? h
  rw [child?_eq] at h
  cases root with
  | object members =>
    cases hs : step.place with
    | inl key =>
      rw [hs] at h
      have hplace : walk.memberPlace false members key = .ok ⟨child, false⟩ := by
        have hlookup : members.lookup key = some child := h
        rw [memberPlace, hlookup]
      simp only [rewrite_member_eq hs henter, hplace, HasMembers.put hs (.inl rfl)]
      rfl
    | inr n =>
      rw [place_inr hs] at hfits
      cases hfits
  | array items =>
    cases step with
    | index n =>
      have hplace : walk.itemPlace false items n = .ok ⟨child, false⟩ := by
        have hitem : items[n]? = some child := h
        rw [itemPlace, hitem]
      rw [rewrite_item_eq henter, hplace]
      rfl
    | member key => cases hfits
    | quoted key => cases hfits
  | _ => cases step <;> cases hfits

theorem of_rewrite_child (h : step.child? root = some child) :
    Outcome.of (walk.rewrite change (step :: rest) ⟨root, false⟩) =
      Outcome.of (walk.rewrite change rest ⟨child, false⟩) := by
  rw [rewrite_child h]
  exact Outcome.of_bind _ _

/-- **A walk fares as it fares from where lookup gets no further.** -/
theorem of_rewrite_leadsTo (h : LeadsTo root steps x left) :
    Outcome.of (walk.rewrite change steps ⟨root, false⟩) =
      Outcome.of (walk.rewrite change left ⟨x, false⟩) := by
  induction steps generalizing root with
  | nil =>
    obtain ⟨before, hnil, hx, -⟩ := h
    obtain ⟨rfl, rfl⟩ := List.append_eq_nil_iff.1 hnil.symm
    cases hx
    rfl
  | cons s rest ih =>
    cases hchild : s.child? root with
    | none =>
      -- the first step cannot be taken, so that all are left
      obtain ⟨before, hsteps, hx, -⟩ := h
      cases before with
      | nil =>
        cases hsteps
        cases hx
        rfl
      | cons t before =>
        cases hsteps
        rw [follow, hchild] at hx
        cases hx
    | some child => rw [of_rewrite_child hchild, ih ((leadsTo_cons hchild).1 h)]

/-- Whether a walk goes on below a value where there is nothing. -/
def creates (walk : Walk) : Json → Bool
  | .null => walk.fillsNull
  | .object _ => walk.addsMembers
  | .array _ => walk.padsArrays
  | _ => false

/-- **Below a value that a walk has created** it creates what the next step needs, unless that is too much
padding. -/
theorem of_rewrite_created_cons : Outcome.of (walk.rewrite change (step :: rest) created) =
    if walk.maxPad < needed step .null then .skipped .paddingLimit
    else Outcome.of (walk.rewrite change rest created) := by
  have henter : walk.enter step created = ⟨containerFor step, true⟩ := by simp [enter, created]
  cases step with
  | member key | quoted key =>
    have hplace : walk.memberPlace true [] key = .ok created := by simp [memberPlace]
    rw [rewrite_member_eq rfl henter, hplace, needed_of_key rfl, if_neg (Nat.not_lt_zero _)]
    exact Outcome.of_bind _ _
  | index n =>
    have hneeded : needed (.index n) .null = n := rfl
    rw [rewrite_item_eq henter, hneeded]
    by_cases hpad : walk.maxPad < n
    · have hplace : walk.itemPlace true [] n = .error .paddingLimit := by simp [itemPlace, reaches, hpad]
      rw [hplace, if_pos hpad]
      rfl
    · have hplace : walk.itemPlace true [] n = .ok created := by
        simp [itemPlace, reaches, Nat.not_lt.1 hpad]
      rw [hplace, if_neg hpad]
      exact Outcome.of_bind _ _

/-- **What becomes of a walk where lookup stops.** It goes on into a value that it creates, if its policy
says so and the padding is not too much. -/
theorem of_rewrite_stop (h : step.child? x = none) :
    Outcome.of (walk.rewrite change (step :: rest) ⟨x, false⟩) =
      if mismatch x (step :: rest) then .skipped .typeMismatch
      else if !walk.creates x then .skipped .pathNotFound
      else if walk.maxPad < needed step x then .skipped .paddingLimit
      else Outcome.of (walk.rewrite change rest created) := by
  by_cases hmis : mismatch x (step :: rest) = true
  · rw [if_pos hmis, of_rewrite_mismatch hmis]
  rw [if_neg hmis]
  cases x with
  | null =>
    cases hfill : walk.fillsNull with
    | false =>
      have henter : walk.enter step ⟨.null, false⟩ = ⟨.null, false⟩ := by simp [enter, hfill]
      have hfits : step.fits .null = false := by cases step <;> rfl
      rw [rewrite_stuck henter hfits, creates, hfill]
      rfl
    | true =>
      -- the walk goes on as if it had put the `null` there
      have henter : walk.enter step ⟨.null, false⟩ = walk.enter step created := by
        simp [enter, created, hfill]
      rw [rewrite_congr henter, of_rewrite_created_cons, creates, hfill]
      rfl
  | object members =>
    have henter : walk.enter step ⟨.object members, false⟩ = ⟨.object members, false⟩ :=
      enter_of_ne_null (by simp)
    cases step with
    | member key | quoted key =>
      have hnone : members.lookup key = none := h
      rw [rewrite_member_eq rfl henter, creates, needed_of_key rfl, if_neg (Nat.not_lt_zero _)]
      cases hadds : walk.addsMembers with
      | false =>
        have hplace : walk.memberPlace false members key = .error .pathNotFound := by
          simp [memberPlace, hnone, hadds]
        rw [hplace]
        rfl
      | true =>
        have hplace : walk.memberPlace false members key = .ok created := by
          simp [memberPlace, hnone, hadds]
        rw [hplace]
        exact Outcome.of_bind _ _
    | index n => exact absurd rfl hmis
  | array items =>
    have henter : walk.enter step ⟨.array items, false⟩ = ⟨.array items, false⟩ :=
      enter_of_ne_null (by simp)
    cases step with
    | index n =>
      have hnone : items[n]? = none := h
      have hneeded : needed (.index n) (.array items) = n - items.length := rfl
      rw [rewrite_item_eq henter, creates, hneeded]
      cases hpads : walk.padsArrays with
      | false =>
        have hplace : walk.itemPlace false items n = .error .pathNotFound := by
          simp [itemPlace, hnone, hpads]
        rw [hplace]
        rfl
      | true =>
        by_cases hpad : walk.maxPad < n - items.length
        · have hreach : walk.reaches items.length n = false := decide_eq_false (Nat.not_le.2 hpad)
          have hplace : walk.itemPlace false items n = .error .paddingLimit := by
            simp [itemPlace, hnone, hpads, hreach]
          rw [hplace, if_pos hpad]
          rfl
        · have hreach : walk.reaches items.length n = true := decide_eq_true (Nat.not_lt.1 hpad)
          have hplace : walk.itemPlace false items n = .ok created := by
            simp [itemPlace, hnone, hpads, hreach]
          rw [hplace, if_neg hpad]
          exact Outcome.of_bind _ _
    | member key | quoted key => exact absurd rfl hmis
  | _ => cases step <;> exact absurd rfl hmis

end Walk

variable {maxPad : ℕ} {root : Json} {edit : Edit} {rewriting : Except Skip Json}

theorem splitLast_concat (text : String) (parent : List Step) (s : Step) :
    splitLast ⟨text, parent ++ [s]⟩ = .ok (parent, s) := by
  simp [splitLast]

/-- An edit that fits some document is applied or skipped, and one that is skipped changes nothing. -/
theorem exists_apply (hv : edit.validate = .ok ()) (ha : edit.attempt maxPad root = .ok rewriting) :
    ∃ new, edit.apply maxPad root = .ok (new, .of rewriting) ∧
      (Outcome.of rewriting ≠ .applied → new = root) := by
  rw [apply, hv, ha]
  cases rewriting with
  | ok edited => exact ⟨edited, rfl, fun h => absurd rfl h⟩
  | error reason => exact ⟨root, rfl, fun _ => rfl⟩

/-! ## Edits that do not fail -/

theorem splitLast_of_ne_nil {path : Path} (h : path.steps ≠ []) :
    splitLast path = .ok (path.steps.dropLast, path.steps.getLast h) := by
  rw [splitLast, List.getLast?_eq_getLast_of_ne_nil h]

/-- An insert that fits some document goes to an index. -/
theorem exists_steps_of_validate {path : Path} {values : List Json} (hv : (Edit.insert path values).validate = .ok ()) :
    ∃ parent n, path.steps = parent ++ [.index n] := by
  cases hn : finalIndex? path.steps with
  | none => simp [validate, hn] at hv
  | some n =>
    unfold finalIndex? at hn
    split at hn
    · rename_i hlast
      obtain ⟨parent, hsteps⟩ := List.getLast?_eq_some_iff.1 hlast
      exact ⟨parent, _, hsteps⟩
    · cases hn

/-- **What fits some document can be attempted on every document.** -/
theorem exists_attempt (hv : edit.validate = .ok ()) (maxPad : ℕ) (root : Json) :
    ∃ rewriting, edit.attempt maxPad root = .ok rewriting := by
  cases edit with
  | set path value create => exact ⟨_, rfl⟩
  | append path values => exact ⟨_, rfl⟩
  | remove path =>
    have hsteps : path.steps ≠ [] := by
      intro hnil
      simp [validate, Path.isRoot, hnil] at hv
    rw [attempt, splitLast_of_ne_nil hsteps]
    exact ⟨_, rfl⟩
  | insert path values =>
    obtain ⟨text, steps⟩ := path
    obtain ⟨parent, n, rfl⟩ := exists_steps_of_validate hv
    rw [attempt, splitLast_concat]
    exact ⟨_, rfl⟩

theorem apply_ne_error {e : Error} (hv : edit.validate = .ok ()) : edit.apply maxPad root ≠ .error e := by
  obtain ⟨rewriting, hattempt⟩ := exists_attempt hv maxPad root
  obtain ⟨new, happly, -⟩ := exists_apply hv hattempt
  rw [happly]
  nofun

/-- **Validated edits do not fail**, on any document. -/
theorem exists_applyAll {edits : List Edit} (hv : ∀ edit ∈ edits, edit.validate = .ok ()) (maxPad : ℕ)
    (root : Json) : ∃ new, applyAll maxPad root edits = .ok new := by
  induction edits generalizing root with
  | nil => exact ⟨root, rfl⟩
  | cons edit rest ih =>
    obtain ⟨hedit, hrest⟩ := List.forall_mem_cons.1 hv
    obtain ⟨rewriting, hattempt⟩ := exists_attempt hedit maxPad root
    obtain ⟨next, happly, -⟩ := exists_apply hedit hattempt
    obtain ⟨new, hnew⟩ := ih hrest next
    refine ⟨new, ?_⟩
    rw [applyAll, List.foldlM_cons, happly]
    exact hnew

end Edit

end SqlJson
