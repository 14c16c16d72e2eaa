import SqlJson.Proofs.Edit.Successive
import SqlJson.Proofs.Edit.WellFormed
import SqlJson.Proofs.Json.Counting
import Mathlib.Algebra.BigOperators.Group.List.Basic

/-!
# Padding is bounded

An edit that is applied puts at most `maxPad` elements of padding into each array on its path, whatever the indices
are. What it adds to the document in all is bounded by its own values and by its path.

* `Reached`, `exists_reached`: the arrays that a walk steps through.
* `follow_array_iff`: the arrays off the path.
* `count_of_rewrite`: what a walk adds to a document, counted by kinds.
* `Ends`, `Grows`: what an edit does where its path ends, and how far a document can grow by it.
* `reaches_eq_word`: the arithmetic of indices does not leave the machine words.
* `apply_grows`: all of it.
-/

namespace SqlJson

open Json

/-- The elements of the array that steps lead to; none if they lead to no array. -/
def Path.itemsAt (steps : List Step) (root : Json) : List Json := ((follow steps root).bind items?).getD []

namespace Edit

open SqlJson.Path Step Walk

variable {maxPad n : ℕ} {root new v child old : Json} {steps before rest q : List Step} {step : Step}
  {walk : Walk} {change : Json → Except Skip Json} {place below : Place} {items values : List Json} {fresh : Bool}
  {kinds : List Kind} {present : Option Json} {edit : Edit} {path : Path}

/-! ## Arrays on the path -/

theorem itemsAt_eq (steps : List Step) (root : Json) :
    itemsAt steps root = (((follow steps root).getD .null).items?).getD [] := by
  rw [itemsAt]
  cases follow steps root <;> rfl

theorem itemsAt_cons (step : Step) (steps : List Step) (root : Json) :
    itemsAt (step :: steps) root = itemsAt steps ((step.child? root).getD .null) := by
  rw [itemsAt_eq, itemsAt_eq, follow_getD_cons]

/-- **An array in which a walk has gone to index `n`.** At most `maxPad` elements of padding come after those that
were there, and then one more; all the others are as they were. -/
structure Reached (maxPad n : ℕ) (items new : List Json) : Prop where
  padding_le : n - items.length ≤ maxPad
  length_eq : new.length = max items.length (n + 1)
  length_le : new.length ≤ items.length + maxPad + 1
  kept : ∀ i < items.length, i ≠ n → new[i]? = items[i]?
  padded : ∀ i, items.length ≤ i → i < n → new[i]? = some .null

theorem reached_setItem (h : n - items.length ≤ maxPad) (value : Json) :
    Reached maxPad n items (setItem items n value) where
  padding_le := h
  length_eq := length_setItem items n value
  length_le := by
    rw [length_setItem]
    omega
  kept i hi hne := by rw [getElem?_setItem, if_neg hne, if_neg (by omega)]
  padded i hi hlt := by rw [getElem?_setItem, if_neg (by omega), if_pos ⟨hi, hlt⟩]

theorem itemPlace_padding (h : walk.itemPlace fresh items n = .ok below) : n - items.length ≤ walk.maxPad := by
  unfold itemPlace at h
  split at h
  · rename_i hitem
    have hn := (List.getElem?_eq_some_iff.1 hitem).1
    omega
  · split_ifs at h with hcreates hreaches
    simpa [reaches] using hreaches

/-- **A walk that goes on needs no more padding** than it may put there. -/
theorem needed_le (h : walk.rewrite change (step :: rest) place = .ok new) : needed step place.value ≤ walk.maxPad := by
  cases step with
  | member key | quoted key => exact Nat.zero_le _
  | index n =>
    have hitems : ∀ items fresh, HasItems place.value items → walk.enter (.index n) place = ⟨.array items, fresh⟩ →
        needed (.index n) place.value ≤ walk.maxPad := by
      intro items fresh ho henter
      rw [rewrite_item_eq henter] at h
      obtain ⟨below, hbelow, -⟩ := Except.bind_eq_ok_iff.1 h
      have hneeded : needed (.index n) place.value = n - items.length := by
        rcases ho with heq | ⟨heq, rfl⟩ <;> rw [heq] <;> rfl
      rw [hneeded]
      exact itemPlace_padding hbelow
    rcases enter_cases walk (.index n) place with henter | ⟨hnull, henter⟩
    · obtain ⟨value, fresh⟩ := place
      cases value with
      | array items => exact hitems items fresh (.inl rfl) henter
      | _ =>
        rw [rewrite_stuck henter rfl] at h
        cases h
    · exact hitems [] true (.inr ⟨hnull, rfl⟩) henter

/-- **Each array that a walk steps through by an index** is padded to it and no further. -/
theorem exists_reached (h : walk.rewrite change (before ++ .index n :: rest) place = .ok new) :
    ∃ items, follow before new = some (.array items) ∧ Reached walk.maxPad n (itemsAt before place.value) items := by
  induction before generalizing place new with
  | nil =>
    obtain ⟨_, child, -, -, hnew⟩ := rewrite_cons h
    rw [hnew.eq_put]
    exact ⟨_, rfl, reached_setItem (needed_le h) child⟩
  | cons s before ih =>
    obtain ⟨_, child, hchild, hbelow, hnew⟩ := rewrite_cons h
    obtain ⟨items, hfollow, hreached⟩ := ih hchild
    refine ⟨items, ?_, ?_⟩
    · rw [follow, child?_of_eq hnew rfl, Option.bind_some, hfollow]
    · rw [itemsAt_cons, ← hbelow]
      exact hreached

/-- **Arrays off the path are as they were.** -/
theorem follow_array_iff (h : walk.rewrite change steps place = .ok new) (hd : Diverge steps q) (items : List Json) :
    follow q new = some (.array items) ↔ follow q place.value = some (.array items) := by
  by_cases hp : Pads place.value steps q
  -- padding is no array, and nothing was there before
  · rw [follow_of_pads h hp, follow_eq_none_of_pads hp]
    simp
  · rw [follow_of_diverge h hd hp]

/-! ## What a walk adds -/

/-- **An element that is set** adds what its value counts, in the place of what was there, and the padding in front
of it. -/
theorem Walk.sum_setItem (f : Json → ℕ) (items : List Json) (n : ℕ) (value : Json) :
    ((setItem items n value).map f).sum + items[n]?.elim 0 f =
      (items.map f).sum + f value + (n - items.length) * f .null := by
  unfold setItem
  by_cases hn : n < items.length
  · have hn' : n < (items.map f).length := by rwa [List.length_map]
    have hrest : (items.map f)[n] + ((items.map f).drop (n + 1)).sum = ((items.map f).drop n).sum := by
      rw [List.drop_eq_getElem_cons hn', List.sum_cons]
    have hsplit := List.sum_take_add_sum_drop (items.map f) n
    rw [List.getElem_map] at hrest
    rw [if_pos hn, List.map_set, List.sum_set, if_pos hn', List.getElem?_eq_getElem hn, Option.elim_some,
      Nat.sub_eq_zero_of_le hn.le, Nat.zero_mul]
    omega
  · rw [if_neg hn, List.getElem?_eq_none (Nat.not_lt.1 hn), Option.elim_none]
    simp only [List.map_append, List.sum_append, List.map_replicate, List.sum_replicate, smul_eq_mul, List.map_cons,
      List.map_nil, List.sum_cons, List.sum_nil]
    omega

/-- **What one step may add** to a document: a container, and in an array the padding. -/
def allowance (maxPad : ℕ) (kinds : List Kind) : Step → ℕ
  | .index _ => (array []).count kinds + maxPad * null.count kinds
  | .member _ | .quoted _ => (object []).count kinds

theorem count_empty_array (kinds : List Kind) : (array []).count kinds = if .array ∈ kinds then 1 else 0 := by
  rw [count_array, List.map_nil, List.sum_nil, Nat.add_zero]

theorem count_empty_object (kinds : List Kind) : (object []).count kinds = if .object ∈ kinds then 1 else 0 := by
  rw [count_object, List.map_nil, List.sum_nil, Nat.add_zero]

/-- The elements of what is there count no more than it does itself. -/
theorem sum_items_le (kinds : List Kind) (present : Option Json) :
    ((((present.getD .null).items?).getD []).map (count kinds)).sum ≤ present.elim 0 (count kinds) := by
  cases present with
  | none => exact Nat.zero_le _
  | some json =>
    cases json with
    | array items =>
      change (items.map (count kinds)).sum ≤ (array items).count kinds
      rw [count_array]
      omega
    | _ => exact Nat.zero_le _

/-- The members of what is there count no more than it does itself. -/
theorem sum_members_le (kinds : List Kind) (present : Option Json) :
    ((((present.getD .null).members?).getD []).map (count kinds ·.2)).sum ≤ present.elim 0 (count kinds) := by
  cases present with
  | none => exact Nat.zero_le _
  | some json =>
    cases json with
    | object members =>
      change (members.map (count kinds ·.2)).sum ≤ (object members).count kinds
      rw [count_object]
      omega
    | _ => exact Nat.zero_le _

/-- Nothing has no child. -/
theorem bind_follow_cons (step : Step) (rest : List Step) (present : Option Json) :
    present.bind (follow (step :: rest)) = (step.child? (present.getD .null)).bind (follow rest) := by
  cases present with
  | none => rw [Option.bind_none, Option.getD_none, child?_null, Option.bind_none]
  | some json => rfl

/-- **What one step adds.** The changed child counts in the place of the child that was there. -/
theorem count_put (h : needed step (present.getD .null) ≤ maxPad) (kinds : List Kind) (child : Json) :
    (put step child (present.getD .null)).count kinds + (step.child? (present.getD .null)).elim 0 (count kinds) ≤
      present.elim 0 (count kinds) + child.count kinds + allowance maxPad kinds step := by
  cases hs : step.place with
  | inl key =>
    have hsum := Members.sum_set (count kinds) (((present.getD .null).members?).getD []) key child
    have hmembers := sum_members_le kinds present
    have hallowed : allowance maxPad kinds step = (object []).count kinds := by
      cases step <;> cases hs <;> rfl
    rw [put, hs, child?_key hs, hallowed, count_object, count_empty_object]
    omega
  | inr n =>
    obtain rfl := place_inr hs
    have hsum := sum_setItem (count kinds) (((present.getD .null).items?).getD []) n child
    have hitems := sum_items_le kinds present
    have hpadding := Nat.mul_le_mul_right (null.count kinds) h
    rw [needed] at hpadding
    rw [put, hs, child?_index, allowance, count_array, count_empty_array]
    omega

/-- **What a walk adds**: what it puts at the end of its path, in the place of what was found there, and what each of
its steps may add. -/
theorem count_of_rewrite (h : walk.rewrite change steps place = .ok new) (hplace : place.value = present.getD .null)
    (hv : follow steps new = some v) (kinds : List Kind) :
    new.count kinds + (present.bind (follow steps)).elim 0 (count kinds) ≤
      present.elim 0 (count kinds) + v.count kinds + (steps.map (allowance walk.maxPad kinds)).sum := by
  induction steps generalizing place new present with
  | nil =>
    cases hv
    cases present with
    | none => simp
    | some json => simp [follow, Nat.add_comm]
  | cons step rest ih =>
    obtain ⟨below, child, hchild, hbelow, hnew⟩ := rewrite_cons h
    have hneeded := needed_le h
    rw [follow, child?_of_eq hnew rfl, Option.bind_some] at hv
    rw [hplace] at hneeded hbelow hnew
    have hstep := count_put hneeded kinds child
    -- below a value that the walk itself has put there nothing is replaced, and the rest is counted with `none`
    have hrest := ih hchild hbelow hv
    rw [hnew.eq_put, bind_follow_cons, List.map_cons, List.sum_cons]
    omega

theorem count_of_rewrite_root (hmax : walk.maxPad = maxPad)
    (h : walk.rewrite change steps ⟨root, false⟩ = .ok new) (hv : follow steps new = some v) (kinds : List Kind) :
    new.count kinds + (follow steps root).elim 0 (count kinds) ≤
      root.count kinds + v.count kinds + (steps.map (allowance maxPad kinds)).sum := by
  have hplace : root = (some root).getD .null := rfl
  rw [← hmax]
  exact count_of_rewrite h hplace hv kinds

/-! ## Edits -/

/-- The steps of the walk that an edit makes. The last step of an insert or of a removal is taken by its change. -/
def walked : Edit → List Step
  | set path .. | append path _ => path.steps
  | remove path | insert path _ => path.steps.dropLast

/-- What an edit replaces: a set the value at its path, if there is one. -/
def replaced (root : Json) : Edit → Option Json
  | set path .. => path.lookup root
  | remove _ | append .. | insert .. => none

/-- **What an edit makes where its path ends.** A set puts its value there, an append adds exactly its values to the
array, and an insert adds its values and the padding in front of them, which is not more than `maxPad`. -/
inductive Ends (maxPad : ℕ) (root new : Json) : Edit → Prop
  | set {path : Path} {value : Json} {create : Bool} (hvalue : path.lookup new = some value) :
      Ends maxPad root new (.set path value create)
  | append {path : Path} {values : List Json}
      (hitems : path.lookup new = some (.array (itemsAt path.steps root ++ values))) :
      Ends maxPad root new (.append path values)
  | insert {path : Path} {values items : List Json} {parent : List Step} {n : ℕ}
      (hsteps : path.steps = parent ++ [.index n]) (hold : items = itemsAt parent root)
      (hpadding : n - items.length ≤ maxPad)
      (hitems : follow parent new =
        some (.array (items.take n ++ List.replicate (n - items.length) .null ++ values ++ items.drop n))) :
      Ends maxPad root new (.insert path values)

/-- **An edit adds at most so many values of some kinds** to a document, besides those in its own values, and after
what it replaces is taken away. -/
def AddsAtMost (extra : ℕ) (kinds : List Kind) (root new : Json) (edit : Edit) : Prop :=
  new.count kinds + (edit.replaced root).elim 0 (count kinds) ≤
    root.count kinds + (edit.newValues.map (count kinds)).sum + extra

/-- The number of steps that lead to an element. -/
def indices (steps : List Step) : ℕ := steps.countP (·.key?.isNone)

/-- **How far a document can grow** by an edit that is applied. -/
structure Grows (maxPad : ℕ) (root new : Json) (edit : Edit) : Prop where
  /-- An array that the walk steps through gains the padding in front of an index, and the element there. -/
  through : ∀ before n rest, edit.walked = before ++ .index n :: rest →
    ∃ items, follow before new = some (.array items) ∧ Reached maxPad n (itemsAt before root) items
  ends : edit.Ends maxPad root new
  /-- Arrays off the path are as they were. -/
  aside : ∀ other, Diverge edit.walked other → ∀ items,
    follow other new = some (.array items) ↔ follow other root = some (.array items)
  nulls : edit.AddsAtMost (indices edit.path.steps * maxPad) [.null] root new
  containers : edit.AddsAtMost (edit.path.steps.length + 1) [.array, .object] root new
  scalars : edit.AddsAtMost 0 [.boolean, .number, .string] root new

/-- An append puts its values behind those that are there. -/
theorem eq_of_appendTo (h : appendTo values old = .ok v) : v = .array (old.items?.getD [] ++ values) := by
  cases old with
  | array items | null =>
    cases h
    rfl
  | _ => cases h

/-- An insert puts its values behind padding that is not too much. -/
theorem eq_of_insertInto (h : insertInto walk n values old = .ok v) (hitems : items = old.items?.getD []) :
    n - items.length ≤ walk.maxPad ∧
      v = .array (items.take n ++ List.replicate (n - items.length) .null ++ values ++ items.drop n) := by
  have ho : HasItems old items := by
    subst hitems
    cases old with
    | array items => exact .inl rfl
    | null => exact .inr ⟨rfl, rfl⟩
    | _ => cases h
  rw [insertInto_eq ho] at h
  split_ifs at h with hpad
  cases h
  exact ⟨hpad, rfl⟩

theorem exists_makes_insert (hv : (Edit.insert path values).validate = .ok ()) (maxPad : ℕ) :
    ∃ parent n, path.steps = parent ++ [.index n] ∧
      (Edit.insert path values).Makes maxPad (toArray maxPad) parent (insertInto (toArray maxPad) n values) := by
  obtain ⟨text, steps⟩ := path
  obtain ⟨parent, n, rfl⟩ := exists_steps_of_validate hv
  exact ⟨parent, n, rfl, hv, fun root => attempt_insert maxPad root text parent n values⟩

/-! ## How far a document grows -/

theorem sum_allowance_null (maxPad : ℕ) (steps : List Step) :
    (steps.map (allowance maxPad [.null])).sum = indices steps * maxPad := by
  induction steps with
  | nil => rw [indices, List.countP_nil, Nat.zero_mul, List.map_nil, List.sum_nil]
  | cons step rest ih =>
    rw [List.map_cons, List.sum_cons, ih]
    cases step with
    | index n =>
      have hindices : indices (.index n :: rest) = indices rest + 1 := List.countP_cons_of_pos rfl
      rw [hindices, Nat.succ_mul, Nat.add_comm]
      simp [allowance, count_empty_array, count_null]
    | member key | quoted key =>
      have hindices : ∀ step : Step, step.key? = some key → indices (step :: rest) = indices rest :=
        fun step hkey => List.countP_cons_of_neg (by simp [hkey])
      rw [hindices _ rfl]
      simp [allowance, count_empty_object]

theorem sum_allowance_of_eq {a : ℕ} (h : ∀ step, allowance maxPad kinds step = a) (steps : List Step) :
    (steps.map (allowance maxPad kinds)).sum = steps.length * a := by
  rw [funext h, List.map_const', List.sum_replicate, smul_eq_mul]

theorem allowance_containers (maxPad : ℕ) (step : Step) : allowance maxPad [.array, .object] step = 1 := by
  cases step <;> simp [allowance, count_empty_array, count_empty_object, count_null]

theorem allowance_scalars (maxPad : ℕ) (step : Step) : allowance maxPad [.boolean, .number, .string] step = 0 := by
  cases step <;> simp [allowance, count_empty_array, count_empty_object, count_null]

/-- **A document grows by no more than the steps of the path allow**, and one array at the end of it. -/
theorem grows_of_rewrite (h : walk.rewrite change edit.walked ⟨root, false⟩ = .ok new) (hmax : walk.maxPad = maxPad)
    (hends : edit.Ends maxPad root new)
    (hadds : ∀ kinds, edit.AddsAtMost
      ((edit.path.steps.map (allowance maxPad kinds)).sum + (array []).count kinds) kinds root new) :
    edit.Grows maxPad root new where
  through before n rest hwalked := by
    rw [hwalked] at h
    rw [← hmax]
    exact exists_reached h
  ends := hends
  aside _ hd := follow_array_iff h hd
  nulls := by
    have hnulls := hadds [.null]
    rw [sum_allowance_null, count_empty_array] at hnulls
    exact hnulls
  containers := by
    have hcontainers := hadds [.array, .object]
    rw [sum_allowance_of_eq (allowance_containers maxPad), count_empty_array, Nat.mul_one] at hcontainers
    exact hcontainers
  scalars := by
    have hscalars := hadds [.boolean, .number, .string]
    rw [sum_allowance_of_eq (allowance_scalars maxPad), count_empty_array, Nat.mul_zero] at hscalars
    exact hscalars

theorem grows_set {create : Bool} {value : Json} (hmax : walk.maxPad = maxPad)
    (h : walk.rewrite (fun _ => .ok value) path.steps ⟨root, false⟩ = .ok new) :
    (Edit.set path value create).Grows maxPad root new := by
  obtain ⟨_, hv, hfollow⟩ := exists_change_of_rewrite h
  cases hv
  refine grows_of_rewrite h hmax (.set hfollow) fun kinds => ?_
  have hcount := count_of_rewrite_root hmax h hfollow kinds
  rw [AddsAtMost, replaced, newValues, Edit.path, Path.lookup, List.map_singleton, List.sum_singleton]
  omega

/-- The elements of an array that was found count no more than it does itself. -/
theorem sum_itemsAt_le (kinds : List Kind) (steps : List Step) (root : Json) :
    ((itemsAt steps root).map (count kinds)).sum ≤ (follow steps root).elim 0 (count kinds) := by
  rw [itemsAt_eq]
  exact sum_items_le kinds (follow steps root)

theorem grows_append (h : (toArray maxPad).rewrite (appendTo values) path.steps ⟨root, false⟩ = .ok new) :
    (Edit.append path values).Grows maxPad root new := by
  obtain ⟨v, hv, hfollow⟩ := exists_change_of_rewrite h
  have hend : v = .array (itemsAt path.steps root ++ values) := by
    rw [itemsAt_eq]
    exact eq_of_appendTo hv
  subst hend
  refine grows_of_rewrite h (toArray_maxPad maxPad) (.append hfollow) fun kinds => ?_
  have hcount := count_of_rewrite_root (toArray_maxPad maxPad) h hfollow kinds
  have hitems := sum_itemsAt_le kinds path.steps root
  rw [count_array, List.map_append, List.sum_append] at hcount
  rw [AddsAtMost, replaced, newValues, Edit.path, Option.elim_none, count_empty_array]
  omega

theorem grows_insert {parent : List Step} (hsteps : path.steps = parent ++ [.index n])
    (h : (toArray maxPad).rewrite (insertInto (toArray maxPad) n values) parent ⟨root, false⟩ = .ok new) :
    (Edit.insert path values).Grows maxPad root new := by
  obtain ⟨v, hv, hfollow⟩ := exists_change_of_rewrite h
  obtain ⟨hpadding, hend⟩ := eq_of_insertInto hv (itemsAt_eq parent root)
  rw [toArray_maxPad] at hpadding
  subst hend
  have hwalked : (Edit.insert path values).walked = parent := by
    rw [walked, hsteps, List.dropLast_concat]
  rw [← hwalked] at h
  refine grows_of_rewrite h (toArray_maxPad maxPad) (.insert hsteps rfl hpadding hfollow) fun kinds => ?_
  rw [hwalked] at h
  have hcount := count_of_rewrite_root (toArray_maxPad maxPad) h hfollow kinds
  have hitems := sum_itemsAt_le kinds parent root
  have hnulls := Nat.mul_le_mul_right (null.count kinds) hpadding
  have hsplit := List.sum_take_add_sum_drop ((itemsAt parent root).map (count kinds)) n
  simp only [count_array, List.map_append, List.sum_append, List.map_replicate, List.sum_replicate, smul_eq_mul,
    List.map_take, List.map_drop] at hcount
  rw [AddsAtMost, replaced, newValues, Edit.path, Option.elim_none, hsteps, List.map_append, List.sum_append,
    List.map_singleton, List.sum_singleton, allowance, count_empty_array]
  omega

/-- **An edit that is applied needs no more padding** than it may put there, in any array on its path. -/
theorem Grows.padding_le (h : edit.Grows maxPad root new) (hsteps : edit.path.steps = before ++ .index n :: rest) :
    n - (itemsAt before root).length ≤ maxPad := by
  have hthrough : ∀ rest, edit.walked = before ++ .index n :: rest → n - (itemsAt before root).length ≤ maxPad := by
    intro rest hwalked
    obtain ⟨_, -, hreached⟩ := h.through before n rest hwalked
    exact hreached.padding_le
  cases h.ends with
  | set | append => exact hthrough rest hsteps
  | @insert path values items parent m hlast hold hpadding _ =>
    rw [Edit.path] at hsteps
    rcases List.eq_nil_or_concat' rest with rfl | ⟨between, last, rfl⟩
    -- the last index is the one that the values are inserted at
    · rw [hlast] at hsteps
      obtain ⟨rfl, hn⟩ := List.append_inj' hsteps rfl
      cases hn
      rwa [← hold]
    · refine hthrough between ?_
      rw [walked, hsteps, ← List.cons_append, ← List.append_assoc, List.dropLast_concat]

/-! ## Machine words -/

/-- The difference of two machine words, and zero where there is none. -/
def saturatingSub (a b : UInt64) : UInt64 := if b ≤ a then a - b else 0

theorem toNat_saturatingSub (a b : UInt64) : (saturatingSub a b).toNat = a.toNat - b.toNat := by
  unfold saturatingSub
  split_ifs with h
  · exact UInt64.toNat_sub_of_le a b h
  · rw [UInt64.le_iff_toNat_le] at h
    rw [UInt64.toNat_zero]
    omega

/-- **Whether an index is reached can be told in machine words**, for every index and every limit. -/
theorem reaches_eq_word {length index limit : UInt64} (h : walk.maxPad = limit.toNat) :
    walk.reaches length.toNat index.toNat = decide (saturatingSub index length ≤ limit) := by
  rw [reaches, h, decide_eq_decide, UInt64.le_iff_toNat_le, toNat_saturatingSub]

/-! ## The three edits -/

/-- An edit that is a walk is applied if the walk comes to its end, and changes nothing if it does not. -/
theorem Makes.exists_grows (hmakes : edit.Makes maxPad walk steps change)
    (hgrows : ∀ new, walk.rewrite change steps ⟨root, false⟩ = .ok new → edit.Grows maxPad root new) :
    ∃ new outcome, edit.apply maxPad root = .ok (new, outcome) ∧
      (outcome = .applied → edit.Grows maxPad root new) ∧ (outcome ≠ .applied → new = root) := by
  cases h : walk.rewrite change steps ⟨root, false⟩ with
  | ok new => exact ⟨new, .applied, hmakes.apply_ok h, fun _ => hgrows new h, fun hne => absurd rfl hne⟩
  | error reason => exact ⟨root, .skipped reason, hmakes.apply_error h, nofun, fun _ => rfl⟩

theorem exists_apply_grows (hv : edit.validate = .ok ()) (hr : ∀ path, edit ≠ .remove path) (maxPad : ℕ) (root : Json) :
    ∃ new outcome, edit.apply maxPad root = .ok (new, outcome) ∧
      (outcome = .applied → edit.Grows maxPad root new) ∧ (outcome ≠ .applied → new = root) := by
  cases edit with
  | set path value create =>
    refine (makes_set maxPad path value create).exists_grows fun new => grows_set ?_
    cases create <;> rfl
  | remove path => exact absurd rfl (hr path)
  | append path values => exact (makes_append maxPad path values).exists_grows fun new => grows_append
  | insert path values =>
    obtain ⟨parent, n, hsteps, hmakes⟩ := exists_makes_insert hv maxPad
    exact hmakes.exists_grows fun new => grows_insert hsteps

/-- **Padding is bounded.** A set, an append or an insert that fits some document is applied or skipped. If it is
applied, each array on its path gains at most `maxPad` elements of padding beside the values of the edit and the
elements that the path leads to, and arrays off the path gain nothing; so with `k` indices in its path it adds at most
`k * maxPad` elements of padding in all, and at most one container for each step and one more. If it would need more
padding in some array it is skipped, and then the document is the same. For indices that are machine words, none of
this needs numbers that are not. -/
theorem apply_grows (hv : edit.validate = .ok ()) (hr : ∀ path, edit ≠ .remove path) (maxPad : ℕ) (root : Json) :
    (∃ new outcome, edit.apply maxPad root = .ok (new, outcome) ∧
      (outcome = .applied → edit.Grows maxPad root new) ∧ (outcome ≠ .applied → new = root) ∧
      ∀ before n rest, edit.path.steps = before ++ .index n :: rest → maxPad < n - (itemsAt before root).length →
        outcome ≠ .applied ∧ new = root) ∧
    ∀ (walk : Walk) (length index limit : UInt64), walk.maxPad = limit.toNat →
      walk.reaches length.toNat index.toNat = decide (saturatingSub index length ≤ limit) := by
  obtain ⟨new, outcome, happly, hgrows, hsame⟩ := exists_apply_grows hv hr maxPad root
  refine ⟨⟨new, outcome, happly, hgrows, hsame, ?_⟩, fun _ _ _ _ => reaches_eq_word⟩
  intro before n rest hsteps hlt
  have hskipped : outcome ≠ .applied := fun happlied =>
    absurd ((hgrows happlied).padding_le hsteps) (Nat.not_le.2 hlt)
  exact ⟨hskipped, hsame hskipped⟩

/-- An insert that pads an array, and another one that it creates in there; and a set at the largest index there is. -/
theorem apply_grows_twice :
    (Edit.insert ⟨"$.a[2][1]", [.member "a", .index 2, .index 1]⟩ [.bool false]).apply 1
          (.object [("a", .array [.bool true])]) =
        .ok (.object [("a", .array [.bool true, .null, .array [.null, .bool false]])], .applied) ∧
      Grows 1 (.object [("a", .array [.bool true])])
        (.object [("a", .array [.bool true, .null, .array [.null, .bool false]])])
        (.insert ⟨"$.a[2][1]", [.member "a", .index 2, .index 1]⟩ [.bool false]) ∧
      ∃ outcome, (Edit.set ⟨"$[18446744073709551615]", [.index 18446744073709551615]⟩ .null true).apply 1024
        (.array [.null]) = .ok (.array [.null], outcome) ∧ outcome ≠ .applied := by
  have hrun : (Edit.insert ⟨"$.a[2][1]", [.member "a", .index 2, .index 1]⟩ [.bool false]).apply 1
      (.object [("a", .array [.bool true])]) =
        .ok (.object [("a", .array [.bool true, .null, .array [.null, .bool false]])], .applied) := by rfl
  have hinsert : (Edit.insert ⟨"$.a[2][1]", [.member "a", .index 2, .index 1]⟩ [.bool false]).validate = .ok () := rfl
  have hset : (Edit.set ⟨"$[18446744073709551615]", [.index 18446744073709551615]⟩ .null true).validate = .ok () := rfl
  obtain ⟨⟨new, outcome, happly, hgrows, -⟩, -⟩ := apply_grows hinsert nofun 1 (.object [("a", .array [.bool true])])
  cases hrun.symm.trans happly
  obtain ⟨⟨same, skipped, happly', -, -, hlarge⟩, -⟩ := apply_grows hset nofun 1024 (.array [.null])
  obtain ⟨hskipped, rfl⟩ := hlarge [] 18446744073709551615 [] rfl (by decide)
  exact ⟨hrun, hgrows rfl, skipped, happly', hskipped⟩

end Edit

end SqlJson
