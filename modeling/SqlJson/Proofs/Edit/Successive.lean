import SqlJson.Proofs.Edit.Agreement
import SqlJson.Proofs.Edit.Removing

/-!
# One set after another

Two sets on one path leave what the last of them alone would have left. Two sets of what is there already, on paths
that part, can be made in either order.

* `put_comm`: children put at two places of one container.
* `rewrite_put`: a walk to one child does not see what was put in the place of another.
* `rewrite_comm`: a walk to what lookup finds, and any other walk on a path that parts from its path.
* `apply_set_set`: the last write wins.
* `apply_set_comm`: independent replacements commute.
-/

namespace SqlJson

open Json

namespace Edit

open SqlJson.Path Step Walk

variable {maxPad : ℕ} {root new x v w child : Json} {p q : List Step} {s t : Step} {f g : Json → Except Skip Json}
  {first second walk : Walk}

namespace Walk

/-- **Children at two places can be put in in either order**, if one of them is there already. -/
theorem put_comm (hs : s.child? x = some child) (ht : t.fits x = true) (hne : t.place ≠ s.place) (v w : Json) :
    put t w (put s v x) = put s v (put t w x) := by
  rcases cases_of_child? hs with ⟨key, members, hplace, rfl, hlookup⟩ | ⟨n, items, rfl, rfl, hitem⟩
  · cases ht' : t.place with
    | inr i =>
      rw [place_inr ht'] at ht
      cases ht
    | inl k =>
      have hkey : key ∈ keys members := by
        by_contra hnot
        rw [Members.lookup_eq_none_iff.2 hnot] at hlookup
        cases hlookup
      rw [HasMembers.put hplace (.inl rfl), HasMembers.put ht' (.inl rfl), HasMembers.put ht' (.inl rfl),
        HasMembers.put hplace (.inl rfl), Members.set_comm hkey]
      rintro rfl
      exact hne (ht'.trans hplace.symm)
  · cases t with
    | member k | quoted k => cases ht
    | index i =>
      have hi : i ≠ n := by
        rintro rfl
        exact hne rfl
      rw [HasItems.put rfl (.inl rfl), HasItems.put rfl (.inl rfl), HasItems.put rfl (.inl rfl),
        HasItems.put rfl (.inl rfl), setItem_comm (List.getElem?_eq_some_iff.1 hitem).1 hi]

/-! ## Walks on paths that part -/

/-- The place below the container that a step needs, or why a walk does not go there. -/
def nextPlace (walk : Walk) (step : Step) (x : Json) : Except Skip Place :=
  match step.place with
  | .inl key => walk.memberPlace false (x.members?.getD []) key
  | .inr n => walk.itemPlace false (x.items?.getD []) n

/-- A walk that stands at the container its next step needs goes on with a child of it. -/
theorem rewrite_fits (ht : t.fits x = true) :
    walk.rewrite g (t :: q) ⟨x, false⟩ = (do
      let child ← walk.rewrite g q (← walk.nextPlace t x)
      return put t child x) := by
  have henter : walk.enter t ⟨x, false⟩ = ⟨x, false⟩ := by
    refine enter_of_ne_null ?_
    rintro rfl
    cases t <;> cases ht
  cases t with
  | member key | quoted key =>
    cases x with
    | object members => exact rewrite_member_eq rfl henter
    | _ => cases ht
  | index n =>
    cases x with
    | array items => exact rewrite_item_eq henter
    | _ => cases ht

/-- A child that is put in the place of another one leaves a container of the same kind. -/
theorem fits_put (hs : s.child? x = some child) (t : Step) (v : Json) : t.fits (put s v x) = t.fits x := by
  rcases cases_of_child? hs with ⟨key, members, hplace, rfl, -⟩ | ⟨n, items, rfl, rfl, -⟩
  · rw [HasMembers.put hplace (.inl rfl)]
    cases t <;> rfl
  · rw [HasItems.put rfl (.inl rfl)]
    cases t <;> rfl

/-- A child that is put in the place of another one leaves all other places as they are. -/
theorem nextPlace_put (hs : s.child? x = some child) (ht : t.fits x = true) (hne : t.place ≠ s.place) (v : Json) :
    walk.nextPlace t (put s v x) = walk.nextPlace t x := by
  rcases cases_of_child? hs with ⟨key, members, hplace, rfl, -⟩ | ⟨n, items, rfl, rfl, hitem⟩
  · cases ht' : t.place with
    | inr i =>
      rw [place_inr ht'] at ht
      cases ht
    | inl k =>
      have hk : k ≠ key := by
        rintro rfl
        exact hne (ht'.trans hplace.symm)
      rw [HasMembers.put hplace (.inl rfl), nextPlace, nextPlace, ht']
      change walk.memberPlace false (Members.set members key v) k = walk.memberPlace false members k
      rw [memberPlace, memberPlace, Members.lookup_set, if_neg hk]
  · cases t with
    | member k | quoted k => cases ht
    | index i =>
      have hi : i ≠ n := by
        rintro rfl
        exact hne rfl
      have hn := (List.getElem?_eq_some_iff.1 hitem).1
      have hlength : (setItem items n v).length = items.length := by
        rw [length_setItem]
        omega
      rw [HasItems.put rfl (.inl rfl)]
      change walk.itemPlace false (setItem items n v) i = walk.itemPlace false items i
      rw [itemPlace, itemPlace, hlength, getElem?_setItem, if_neg hi, if_neg (by omega)]

/-- No walk takes a step into a container of the other kind. -/
theorem rewrite_not_fits (hs : s.child? x = some child) (ht : t.fits x = false) :
    walk.rewrite g (t :: q) ⟨x, false⟩ = .error .typeMismatch := by
  have hx : x ≠ .null := by
    rintro rfl
    rw [child?_null] at hs
    cases hs
  rw [rewrite_stuck (enter_of_ne_null hx) ht]
  cases x with
  | null => exact absurd rfl hx
  | _ => rfl

/-- **A walk to one child does not see what was put in the place of another one.** -/
theorem rewrite_put (hs : s.child? x = some child) (hne : t.place ≠ s.place) (v : Json) :
    walk.rewrite g (t :: q) ⟨put s v x, false⟩ = (do
      let new ← walk.rewrite g (t :: q) ⟨x, false⟩
      return put s v new) := by
  have hfits := fits_put hs t v
  cases ht : t.fits x with
  | true =>
    rw [ht] at hfits
    simp only [rewrite_fits hfits, rewrite_fits ht, nextPlace_put hs ht hne, put_comm hs ht hne, bind_assoc, pure_bind]
  | false =>
    rw [ht] at hfits
    rw [rewrite_not_fits (child?_put s v x) hfits, rewrite_not_fits hs ht]
    rfl

/-- **A walk to what lookup finds, and another one on a path that parts from its path**, can be made in either order:
the other one fares the same, and both together make the same document. -/
theorem rewrite_comm (hd : Diverge p q) (hx : follow p root = some x)
    (hnew : first.rewrite f p ⟨root, false⟩ = .ok new) :
    second.rewrite g q ⟨new, false⟩ = (do
      let other ← second.rewrite g q ⟨root, false⟩
      first.rewrite f p ⟨other, false⟩) := by
  induction p generalizing q root new with
  | nil => exact hd.elim
  | cons s p ih =>
    cases q with
    | nil => exact hd.elim
    | cons t q =>
      obtain ⟨child, hs, hx⟩ := Option.bind_eq_some_iff.1 hx
      rw [rewrite_child hs] at hnew
      obtain ⟨changed, hchanged, heq⟩ := Except.bind_eq_ok_iff.1 hnew
      cases heq
      by_cases ht : t.place = s.place
      -- the paths go the same way, and part further down
      · have hd' : Diverge p q := hd.resolve_left fun hne => hne ht.symm
        have hroot : t.child? root = some child := by rw [child?_congr ht, hs]
        have hput : t.child? (put s changed root) = some changed := by rw [child?_congr ht, child?_put]
        simp only [rewrite_child hput, rewrite_child hroot, ih hd' hx hchanged, bind_assoc, pure_bind, put_congr ht,
          rewrite_child (child?_put s _ root), put_put]
      · rw [rewrite_put hs ht]
        cases hother : second.rewrite g (t :: q) ⟨root, false⟩ with
        | error reason => rfl
        | ok other =>
          -- the other walk leaves the child where it is
          have hsame : s.child? other = some child := by
            obtain ⟨below, c, -, -, hrebuilt⟩ := rewrite_cons hother
            rw [child?_of_ne hrebuilt (Ne.symm ht), hs]
            intro hpads
            rw [(child?_of_pads hrebuilt hpads).2] at hs
            cases hs
          change Except.ok (put s changed other) = first.rewrite f (s :: p) ⟨other, false⟩
          rw [rewrite_child hsame, hchanged]
          rfl

end Walk

/-! ## Two sets -/

variable {path other : Path}

theorem Diverge.symm (h : Diverge p q) : Diverge q p := by
  induction p generalizing q with
  | nil => exact h.elim
  | cons s p ih =>
    cases q with
    | nil => exact h.elim
    | cons t q => exact h.imp Ne.symm ih

/-- A walk that creates nothing comes to its end only where lookup does. -/
theorem exists_follow_of_strict (h : (Walk.strict maxPad).rewrite f p ⟨root, false⟩ = .ok new) :
    ∃ x, follow p root = some x := by
  obtain ⟨x, left, hleads⟩ := exists_leadsTo root p
  cases left with
  | nil => exact Option.isSome_iff_exists.1 ((isSome_follow_iff hleads).2 rfl)
  | cons s rest =>
    have hskipped : Outcome.of ((Walk.strict maxPad).rewrite f p ⟨root, false⟩) = .skipped _ :=
      of_rewrite_strict hleads
    rw [h] at hskipped
    cases hskipped

/-- A walk that creates nothing does not come to its end after another one if it does not alone. -/
theorem rewrite_strict_error {reason : Skip} (hd : Diverge p q)
    (hp : (Walk.strict maxPad).rewrite f p ⟨root, false⟩ = .ok new)
    (hq : (Walk.strict maxPad).rewrite g q ⟨root, false⟩ = .error reason) :
    (Walk.strict maxPad).rewrite g q ⟨new, false⟩ = .error reason := by
  obtain ⟨x, hx⟩ := exists_follow_of_strict hp
  rw [rewrite_comm hd hx hp, hq]
  rfl

/-- Of two walks that create nothing, each comes to its end after the other if it does alone, and it does not matter
which of them is the first. -/
theorem exists_rewrite_strict (hd : Diverge p q)
    (hp : (Walk.strict maxPad).rewrite (fun _ => .ok v) p ⟨root, false⟩ = .ok new)
    (hq : (Walk.strict maxPad).rewrite (fun _ => .ok w) q ⟨root, false⟩ = .ok x) :
    ∃ both, (Walk.strict maxPad).rewrite (fun _ => .ok w) q ⟨new, false⟩ = .ok both ∧
      (Walk.strict maxPad).rewrite (fun _ => .ok v) p ⟨x, false⟩ = .ok both := by
  obtain ⟨y, hy⟩ := exists_follow_of_strict hp
  obtain ⟨z, hz⟩ := exists_follow_of_strict hq
  -- what the second walk comes to is found after the first one as well
  have hfound : follow q new = some z := by rw [follow_of_diverge hp hd (not_pads_of_follow hy), hz]
  obtain ⟨both, hboth, -⟩ := exists_rewrite_of_follow (f := fun _ => .ok w) (Walk.strict maxPad) hfound rfl
  refine ⟨both, hboth, ?_⟩
  rw [rewrite_comm hd hy hp, hq] at hboth
  exact hboth

theorem makes_set (maxPad : ℕ) (path : Path) (value : Json) (create : Bool) :
    (Edit.set path value create).Makes maxPad (if create then creating maxPad else Walk.strict maxPad) path.steps
      (fun _ => .ok value) :=
  ⟨rfl, fun _ => rfl⟩

/-- **The last write wins.** A set after another one on the same path gives the same document and the same outcome as
it gives alone, whatever the first set has created, filled or padded; so a set that is repeated changes nothing. -/
theorem apply_set_set (maxPad : ℕ) (root : Json) (path : Path) (create : Bool) (v w : Json) :
    ∃ first last outcome, (Edit.set path v create).apply maxPad root = .ok (first, outcome) ∧
      (Edit.set path w create).apply maxPad first = .ok (last, outcome) ∧
      (Edit.set path w create).apply maxPad root = .ok (last, outcome) ∧
      (Edit.set path v create).apply maxPad first = .ok (first, outcome) := by
  have htwice : ∀ value, ∃ first last outcome, (Edit.set path v create).apply maxPad root = .ok (first, outcome) ∧
      (Edit.set path value create).apply maxPad first = .ok (last, outcome) ∧
      (Edit.set path value create).apply maxPad root = .ok (last, outcome) := fun value =>
    exists_apply_apply (makes_set maxPad path v create) (makes_set maxPad path value create)
      (makes_set maxPad path value create) (fun _ => rfl) (fun _ => rfl) (fun _ => rfl) root
  obtain ⟨first, last, outcome, hv, hw, halone⟩ := htwice w
  obtain ⟨first', last', outcome', hv', hagain, hv''⟩ := htwice v
  cases hv.symm.trans hv'
  cases hv.symm.trans hv''
  exact ⟨first, last, outcome, hv, hw, halone, hagain⟩

/-- **Independent replacements commute.** Two sets that create nothing, on paths that part, give the same document in
either order, and each of them fares the same, whether they are applied or skipped. -/
theorem apply_set_comm (hd : Diverge path.steps other.steps) (maxPad : ℕ) (root v w : Json) :
    ∃ first second both outcome outcome',
      (Edit.set path v false).apply maxPad root = .ok (first, outcome) ∧
        (Edit.set other w false).apply maxPad first = .ok (both, outcome') ∧
        (Edit.set other w false).apply maxPad root = .ok (second, outcome') ∧
        (Edit.set path v false).apply maxPad second = .ok (both, outcome) := by
  have hv := makes_set maxPad path v false
  have hw := makes_set maxPad other w false
  cases hp : (Walk.strict maxPad).rewrite (fun _ => .ok v) path.steps ⟨root, false⟩ with
  | ok first =>
    cases hq : (Walk.strict maxPad).rewrite (fun _ => .ok w) other.steps ⟨root, false⟩ with
    | ok second =>
      obtain ⟨both, hboth, hboth'⟩ := exists_rewrite_strict hd hp hq
      exact ⟨first, second, both, .applied, .applied, hv.apply_ok hp, hw.apply_ok hboth, hw.apply_ok hq,
        hv.apply_ok hboth'⟩
    | error reason =>
      have hskipped := rewrite_strict_error hd hp hq
      exact ⟨first, root, first, .applied, .skipped reason, hv.apply_ok hp, hw.apply_error hskipped,
        hw.apply_error hq, hv.apply_ok hp⟩
  | error reason =>
    cases hq : (Walk.strict maxPad).rewrite (fun _ => .ok w) other.steps ⟨root, false⟩ with
    | ok second =>
      have hskipped := rewrite_strict_error hd.symm hq hp
      exact ⟨root, second, second, .skipped reason, .applied, hv.apply_error hp, hw.apply_ok hq, hw.apply_ok hq,
        hv.apply_error hskipped⟩
    | error reason' =>
      exact ⟨root, root, root, .skipped reason, .skipped reason', hv.apply_error hp, hw.apply_error hq,
        hw.apply_error hq, hv.apply_error hp⟩

/-- Two elements of one array, whose member is written in two ways; the second set finds nothing to replace. -/
theorem apply_set_comm_elements :
    ∃ first second both outcome outcome',
      (Edit.set ⟨"$.a[0]", [.member "a", .index 0]⟩ (.bool true) false).apply 0
          (.object [("b", .null), ("a", .array [.null])]) = .ok (first, outcome) ∧
        (Edit.set ⟨"$['a'][1]", [.quoted "a", .index 1]⟩ (.bool false) false).apply 0 first =
          .ok (both, outcome') ∧
        (Edit.set ⟨"$['a'][1]", [.quoted "a", .index 1]⟩ (.bool false) false).apply 0
          (.object [("b", .null), ("a", .array [.null])]) = .ok (second, outcome') ∧
        (Edit.set ⟨"$.a[0]", [.member "a", .index 0]⟩ (.bool true) false).apply 0 second = .ok (both, outcome) ∧
        both = .object [("b", .null), ("a", .array [.bool true])] ∧ outcome = .applied ∧
        outcome' = .skipped .pathNotFound := by
  have hd : Diverge (Path.steps ⟨"$.a[0]", [.member "a", .index 0]⟩)
      (Path.steps ⟨"$['a'][1]", [.quoted "a", .index 1]⟩) := .inr (.inl (by simp [Step.place]))
  obtain ⟨first, second, both, outcome, outcome', hfirst, hboth, hsecond, hboth'⟩ :=
    apply_set_comm hd 0 (.object [("b", .null), ("a", .array [.null])]) (.bool true) (.bool false)
  refine ⟨first, second, both, outcome, outcome', hfirst, hboth, hsecond, hboth', ?_⟩
  cases hfirst
  cases hsecond
  cases hboth
  exact ⟨rfl, rfl, rfl⟩

end Edit

end SqlJson
