import SqlJson.Edit.Basic
import SqlJson.Proofs.Edit.Rebuilding

/-!
# What a set changes

A set that is applied puts its value where its path leads, and changes nothing that lies off the path.
The one exception are the elements that an array has to be padded with: they are `null`.

* `Diverge`: paths that part at some step.
* `Pads`: the positions that are padded on the way to the end of a path.
* `exists_change_of_rewrite`, `follow_of_diverge`, `follow_of_pads`, `keys_rewrite`: the same for any walk.
* `apply_set_frame`: all of it for a set.
-/

namespace SqlJson.Edit

open Json SqlJson.Path Step Walk

variable {walk : Walk} {change : Json → Except Skip Json} {p q r : List Step} {s t t' : Step}
  {place : Place} {root new v w : Json}

/-- **Paths that part**: at some step that both have, their keys or indices differ. -/
def Diverge : List Step → List Step → Prop
  | s :: p, t :: q => s.place ≠ t.place ∨ Diverge p q
  | _, _ => False

/-- **Padded positions**: `q` ends at an index in front of one that `p` goes through, in the same
array, and the array, if there is one, does not reach so far. -/
def Pads (root : Json) (p q : List Step) : Prop :=
  ∃ r s rest r' t, p = r ++ s :: rest ∧ q = r' ++ [t] ∧ r.map Step.place = r'.map Step.place ∧
    Step.Pads (follow r root) s t

/-! ## Following steps -/

theorem ne_nil_of_diverge (h : Diverge p q) : q ≠ [] := by
  rintro rfl
  cases p <;> exact h

theorem follow_null (h : q ≠ []) : follow q .null = none := by
  cases q with
  | nil => exact absurd rfl h
  | cons t q => rw [follow, child?_null, Option.bind_none]

theorem follow_append (p q : List Step) (root : Json) :
    follow (p ++ q) root = (follow p root).bind (follow q) := by
  induction p generalizing root with
  | nil => rfl
  | cons s p ih =>
    rw [List.cons_append, follow, follow, Option.bind_assoc]
    congr 1
    funext child
    exact ih child

theorem follow_congr (h : p.map Step.place = q.map Step.place) : follow p root = follow q root := by
  induction p generalizing q root with
  | nil =>
    obtain rfl : q = [] := by simpa using h.symm
    rfl
  | cons s p ih =>
    cases q with
    | nil => cases h
    | cons t q =>
      rw [List.map_cons, List.map_cons, List.cons.injEq] at h
      rw [follow, follow, child?_congr h.1]
      congr 1
      funext child
      exact ih h.2

/-- A child that is not there counts as `null`, and nothing but `null` is found from there. -/
theorem follow_cons_eq_some (hw : w ≠ .null) :
    follow (s :: r) root = some w ↔ follow r ((s.child? root).getD .null) = some w := by
  rw [follow]
  cases s.child? root with
  | some child => rfl
  | none =>
    rw [Option.bind_none, Option.getD_none]
    cases r with
    | nil =>
      rw [follow, Option.some.injEq]
      exact ⟨fun h => (Option.some_ne_none w h.symm).elim, fun h => absurd h.symm hw⟩
    | cons t r => rw [follow_null (by simp)]

/-- What is found further down is found from the child, which counts as `null` if it is not there. -/
theorem follow_getD_cons (s : Step) (rest : List Step) (root : Json) :
    (follow (s :: rest) root).getD .null = (follow rest ((s.child? root).getD .null)).getD .null := by
  rw [follow]
  cases s.child? root with
  | some child => rfl
  | none =>
    rw [Option.bind_none, Option.getD_none]
    cases rest with
    | nil => rfl
    | cons t rest => rw [follow_null (by simp), Option.getD_none]

theorem stepPads_cons : Step.Pads (follow (s :: r) root) t t' ↔
    Step.Pads (follow r ((s.child? root).getD .null)) t t' := by
  unfold Step.Pads
  simp only [ne_eq, reduceCtorEq, not_false_eq_true, follow_cons_eq_some]

/-- Padded positions were not there. -/
theorem follow_eq_none_of_pads (h : Pads root p q) : follow q root = none := by
  obtain ⟨r, s, rest, r', t, rfl, rfl, hmap, n, i, rfl, rfl, -, hlen⟩ := h
  rw [follow_append, ← follow_congr hmap]
  cases hr : follow r root with
  | none => rfl
  | some json =>
    rw [Option.bind_some, follow]
    cases json with
    | array items =>
      have hnone : (Step.index i).child? (.array items) = none :=
        List.getElem?_eq_none (hlen items hr)
      rw [hnone, Option.bind_none]
    | _ => rfl

/-! ## Walks -/

/-- **What a walk puts at the end of its path is found there.** It is made of what was found there before, or of
`null` if nothing was. -/
theorem exists_change_of_rewrite (h : walk.rewrite change p place = .ok new) :
    ∃ v, change ((follow p place.value).getD .null) = .ok v ∧ follow p new = some v := by
  induction p generalizing place new with
  | nil => exact ⟨new, h, rfl⟩
  | cons s p ih =>
    obtain ⟨below, child, hchild, hbelow, hnew⟩ := rewrite_cons h
    obtain ⟨v, hv, hfollow⟩ := ih hchild
    refine ⟨v, ?_, ?_⟩
    · rw [follow_getD_cons, ← hbelow, hv]
    · rw [follow, child?_of_eq hnew rfl, Option.bind_some, hfollow]

theorem follow_rewrite (h : walk.rewrite change p place = .ok new) :
    ∃ old v, change old = .ok v ∧ follow p new = some v := by
  obtain ⟨v, hv, hfollow⟩ := exists_change_of_rewrite h
  exact ⟨_, v, hv, hfollow⟩

/-- **What lies off the path of a walk is as it was**, but for the padding. -/
theorem follow_of_diverge (h : walk.rewrite change p place = .ok new) (hd : Diverge p q)
    (hp : ¬Pads place.value p q) : follow q new = follow q place.value := by
  induction p generalizing q place new with
  | nil => exact hd.elim
  | cons s p ih =>
    cases q with
    | nil => exact hd.elim
    | cons t q =>
      obtain ⟨below, child, hchild, hbelow, hnew⟩ := rewrite_cons h
      by_cases ht : t.place = s.place
      -- the paths go the same way, and part further down
      · have hd' : Diverge p q := hd.resolve_left (fun hne => hne ht.symm)
        have hp' : ¬Pads below.value p q := by
          rintro ⟨r, s', rest, r', t', rfl, rfl, hmap, hpad⟩
          rw [hbelow, ← stepPads_cons] at hpad
          exact hp ⟨s :: r, s', rest, t :: r', t', rfl, rfl, by simp [hmap, ht], hpad⟩
        rw [follow, follow, child?_of_eq hnew ht, Option.bind_some, ih hchild hd' hp', hbelow,
          ← child?_congr ht]
        cases t.child? place.value with
        | some c => rfl
        | none => exact follow_null (ne_nil_of_diverge hd')
      · by_cases hpad : Step.Pads (some place.value) s t
        -- the paths part at padding, and there is nothing inside of it
        · have hq : q ≠ [] := by
            rintro rfl
            exact hp ⟨[], s, p, [], t, rfl, rfl, rfl, hpad⟩
          obtain ⟨hnull, hnone⟩ := child?_of_pads hnew hpad
          rw [follow, follow, hnull, hnone, Option.bind_some, follow_null hq, Option.bind_none]
        · rw [follow, follow, child?_of_ne hnew ht hpad]

/-- **Padding is `null`.** -/
theorem follow_of_pads (h : walk.rewrite change p place = .ok new) (hp : Pads place.value p q) :
    follow q new = some .null := by
  obtain ⟨r, s, rest, r', t, rfl, rfl, hmap, hpad⟩ := hp
  -- along the steps that the two paths share, up to the array that is padded
  induction r generalizing r' place new with
  | nil =>
    obtain rfl : r' = [] := by simpa using hmap.symm
    obtain ⟨below, child, -, -, hnew⟩ := rewrite_cons h
    rw [List.nil_append, follow, (child?_of_pads hnew hpad).1]
    rfl
  | cons a r ih =>
    cases r' with
    | nil => cases hmap
    | cons b r' =>
      rw [List.map_cons, List.map_cons, List.cons.injEq] at hmap
      obtain ⟨below, child, hchild, hbelow, hnew⟩ := rewrite_cons h
      rw [stepPads_cons, ← hbelow] at hpad
      rw [List.cons_append, follow, child?_of_eq hnew hmap.1.symm, Option.bind_some]
      exact ih r' hchild hmap.2 hpad

/-- **The members of an object on the path keep their order**, and one that is created comes last. -/
theorem keys_rewrite {rest : List Step} {key : String} {members : Members}
    (h : walk.rewrite change (r ++ s :: rest) place = .ok new) (hs : s.key? = some key)
    (ho : follow r place.value = some (.object members)) :
    ∃ members', follow r new = some (.object members') ∧
      keys members' = if key ∈ keys members then keys members else keys members ++ [key] := by
  induction r generalizing place new with
  | nil =>
    obtain ⟨below, child, -, -, hnew⟩ := rewrite_cons h
    have hplace : s.place = .inl key := by
      cases s <;> cases hs <;> rfl
    rw [follow, Option.some.injEq] at ho
    cases hnew with
    | @object key' members' hs' ho' =>
      obtain rfl : key' = key := Sum.inl.inj (hs'.symm.trans hplace)
      rcases ho' with heq | ⟨hnull, -⟩
      · rw [ho] at heq
        cases heq
        exact ⟨_, rfl, Members.keys_set members key' child⟩
      · rw [ho] at hnull
        cases hnull
    | array hs' _ => cases hs'.symm.trans hplace
  | cons a r ih =>
    obtain ⟨below, child, hchild, hbelow, hnew⟩ := rewrite_cons h
    rw [follow_cons_eq_some (by simp), ← hbelow] at ho
    obtain ⟨members', hfollow, hkeys⟩ := ih hchild ho
    refine ⟨members', ?_, hkeys⟩
    rw [follow, child?_of_eq hnew rfl, Option.bind_some, hfollow]

/-! ## Sets -/

/-- A set that is applied is a walk that puts its value at the end of its path. -/
theorem rewrite_of_apply_set {maxPad : ℕ} {path : Path} {create : Bool}
    (h : (Edit.set path v create).apply maxPad root = .ok (new, .applied)) :
    ∃ walk : Walk, walk.rewrite (fun _ => .ok v) path.steps ⟨root, false⟩ = .ok new := by
  refine ⟨if create then Walk.creating maxPad else Walk.strict maxPad, ?_⟩
  obtain ⟨-, -, h'⟩ := Except.bind_eq_ok_iff.1 h
  obtain ⟨attempt, hattempt, h''⟩ := Except.bind_eq_ok_iff.1 h'
  cases hattempt
  split at h''
  · rename_i edited hedited
    cases h''
    exact hedited
  · cases h''

/-- **Writing, reading, and the frame.** After a set is applied, its value is found at its path. Along
a path that parts from it, what was found is found unchanged, and where nothing was found nothing is,
but for `null` where an array was padded. An object on the path keeps the order of its members, and a
member that is created comes last. -/
theorem apply_set_frame {maxPad : ℕ} {root new value : Json} {path : Path} {create : Bool}
    (h : (Edit.set path value create).apply maxPad root = .ok (new, .applied)) :
    path.lookup new = some value ∧
      (∀ other : Path, Diverge path.steps other.steps →
        (∀ w, other.lookup root = some w → other.lookup new = some w) ∧
          (other.lookup root = none → ¬Pads root path.steps other.steps → other.lookup new = none) ∧
            (Pads root path.steps other.steps → other.lookup root = none ∧ other.lookup new = some .null)) ∧
      ∀ before step rest key members, path.steps = before ++ step :: rest → step.key? = some key →
        follow before root = some (.object members) →
          ∃ members', follow before new = some (.object members') ∧
            keys members' = if key ∈ keys members then keys members else keys members ++ [key] := by
  obtain ⟨walk, hwalk⟩ := rewrite_of_apply_set h
  refine ⟨?_, ?_, ?_⟩
  · obtain ⟨_, v, hv, hfollow⟩ := follow_rewrite hwalk
    cases hv
    exact hfollow
  · intro other hd
    refine ⟨?_, ?_, ?_⟩
    · intro w hw
      have hp : ¬Pads root path.steps other.steps := by
        intro hp
        rw [Path.lookup, follow_eq_none_of_pads hp] at hw
        cases hw
      rw [Path.lookup, follow_of_diverge hwalk hd hp]
      exact hw
    · intro hnone hp
      rw [Path.lookup, follow_of_diverge hwalk hd hp]
      exact hnone
    · intro hp
      exact ⟨follow_eq_none_of_pads hp, follow_of_pads hwalk hp⟩
  · intro before step rest key members hsteps hkey hobject
    rw [hsteps] at hwalk
    exact keys_rewrite hwalk hkey hobject

/-- A set that creates a member, an array and two elements of padding. -/
theorem apply_set_frame_padding :
    (Edit.set ⟨"$.b[2]", [.member "b", .index 2]⟩ (.bool true) true).apply 2 (.object [("a", .null)]) =
        .ok (.object [("a", .null), ("b", .array [.null, .null, .bool true])], .applied) ∧
      Path.lookup ⟨"$.b[2]", [.member "b", .index 2]⟩
        (.object [("a", .null), ("b", .array [.null, .null, .bool true])]) = some (.bool true) := by
  have h : (Edit.set ⟨"$.b[2]", [.member "b", .index 2]⟩ (.bool true) true).apply 2 (.object [("a", .null)]) =
      .ok (.object [("a", .null), ("b", .array [.null, .null, .bool true])], .applied) := by rfl
  exact ⟨h, (apply_set_frame h).1⟩

end SqlJson.Edit
