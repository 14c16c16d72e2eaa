import SqlJson.Proofs.Edit.Stopping
import SqlJson.Proofs.Function.Action

/-!
# Edits and lookup agree on what exists

A set that creates nothing and a removal are applied to what lookup finds, and to nothing else. Where they
are skipped, the reason is what lookup meets where it stops. The function that strips nulls looks its target
up first, so that its set always takes effect.

* `FaresAsLookup`: an edit that is applied iff lookup finds a value.
* `of_rewrite_strict`, `of_removeChild`: a walk that creates nothing, and a removal at its end.
* `run_stripNulls`: the function that strips nulls.
* `apply_iff_lookup`: all of it.
-/

namespace SqlJson

open Json SqlJson.Path

namespace Edit

variable {change : Json → Except Skip Json} {s : Step} {steps left rest parent : List Step}
  {root x value : Json} {path : Path} {maxPad : ℕ} {edit : Edit} {rewriting : Except Skip Json}

/-- Why an edit that creates nothing is skipped where lookup stops. -/
def stopReason (x : Json) (left : List Step) : Skip := if mismatch x left then .typeMismatch else .pathNotFound

/-- **An edit that fares as lookup does.** It is applied iff lookup finds a value. Else the document stays
as it is, and the reason is a wrong type iff the first step that cannot be taken meets a value that is
neither `null` nor the container that the step needs. -/
def FaresAsLookup (root : Json) (path : Path) (result : Json × Outcome) : Prop :=
  (result.2 = .applied ↔ (path.lookup root).isSome) ∧
    (result.2 ≠ .applied → result.1 = root ∧
      ∃ x s rest, LeadsTo root path.steps x (s :: rest) ∧ result.2 = .skipped (stopReason x (s :: rest)))

/-- **A walk that creates nothing** is skipped where lookup stops. -/
theorem of_rewrite_strict (h : LeadsTo root steps x (s :: rest)) :
    Outcome.of ((Walk.strict maxPad).rewrite change steps ⟨root, false⟩) =
      .skipped (stopReason x (s :: rest)) := by
  have hcreates : (Walk.strict maxPad).creates x = false := by cases x <;> rfl
  rw [Walk.of_rewrite_leadsTo h, Walk.of_rewrite_stop h.child?_eq_none, stopReason, hcreates]
  split <;> rfl

/-- The reason is that for the first of the steps that are left. -/
theorem stopReason_cons (x : Json) (s : Step) (rest : List Step) :
    stopReason x (s :: rest) = stopReason x [s] := rfl

/-- **A removal from a container** takes what lookup finds there. -/
theorem of_removeChild (s : Step) (x : Json) : Outcome.of (removeChild s x) =
    if (s.child? x).isSome then .applied else .skipped (stopReason x [s]) := by
  cases x with
  | object members =>
    cases s with
    | member key | quoted key =>
      cases hlookup : members.lookup key with
      | none => simp [removeChild, Step.child?, get?, members?, hlookup, Outcome.of, stopReason, mismatch, Step.fits]
      | some child => simp [removeChild, Step.child?, get?, members?, hlookup, Outcome.of]
    | index n => rfl
  | array items =>
    cases s with
    | index n =>
      by_cases hn : n < items.length
      · simp [removeChild, Step.child?, item?, items?, hn, Outcome.of]
      · simp [removeChild, Step.child?, item?, items?, hn, Outcome.of, stopReason, mismatch, Step.fits]
    | member key | quoted key => rfl
  | _ => cases s <;> rfl

/-- An edit fares as lookup does if its rewriting does. -/
theorem exists_faresAsLookup (hv : edit.validate = .ok ()) (ha : edit.attempt maxPad root = .ok rewriting)
    (h : LeadsTo root path.steps x left)
    (hnil : left = [] → Outcome.of rewriting = .applied)
    (hcons : ∀ s rest, left = s :: rest → Outcome.of rewriting = .skipped (stopReason x (s :: rest))) :
    ∃ result, edit.apply maxPad root = .ok result ∧ FaresAsLookup root path result := by
  obtain ⟨new, happly, hnew⟩ := exists_apply hv ha
  refine ⟨_, happly, ?_, ?_⟩
  · rw [Path.lookup, isSome_follow_iff h]
    cases left with
    | nil => exact iff_of_true (hnil rfl) rfl
    | cons s rest =>
      refine iff_of_false ?_ (by simp)
      rw [hcons s rest rfl]
      simp
  · intro hne
    refine ⟨hnew hne, ?_⟩
    cases left with
    | nil => exact absurd (hnil rfl) hne
    | cons s rest => exact ⟨x, s, rest, h, hcons s rest rfl⟩

theorem exists_apply_set (maxPad : ℕ) (root value : Json) (path : Path) :
    ∃ result, (Edit.set path value false).apply maxPad root = .ok result ∧ FaresAsLookup root path result := by
  obtain ⟨x, left, h⟩ := exists_leadsTo root path.steps
  refine exists_faresAsLookup rfl rfl h ?_ ?_
  · rintro rfl
    exact Walk.of_rewrite_leadsTo h
  · rintro s rest rfl
    exact of_rewrite_strict h

theorem exists_apply_remove (maxPad : ℕ) (root : Json) (hp : path.isRoot = false) :
    ∃ result, (Edit.remove path).apply maxPad root = .ok result ∧ FaresAsLookup root path result := by
  obtain ⟨text, steps⟩ := path
  have hv : (Edit.remove ⟨text, steps⟩).validate = .ok () := by
    rw [validate, hp]
    rfl
  have hsteps : steps ≠ [] := by
    rintro rfl
    cases hp
  obtain ⟨parent, last, rfl⟩ : ∃ parent last, steps = parent ++ [last] :=
    ⟨_, _, (List.dropLast_append_getLast hsteps).symm⟩
  have ha : (Edit.remove ⟨text, parent ++ [last]⟩).attempt maxPad root =
      .ok ((Walk.strict maxPad).rewrite (removeChild last) parent ⟨root, false⟩) := by
    rw [attempt, splitLast_concat]
    rfl
  obtain ⟨x, left, h⟩ := exists_leadsTo root parent
  cases left with
  | nil =>
    have hof : Outcome.of ((Walk.strict maxPad).rewrite (removeChild last) parent ⟨root, false⟩) =
        if (last.child? x).isSome then .applied else .skipped (stopReason x [last]) :=
      (Walk.of_rewrite_leadsTo h).trans (of_removeChild last x)
    cases hchild : last.child? x with
    | none =>
      rw [hchild] at hof
      refine exists_faresAsLookup hv ha (h.concat fun _ => hchild) (fun hnil => by cases hnil) ?_
      intro s rest heq
      cases heq
      exact hof
    | some child =>
      rw [hchild] at hof
      have hfollow : follow (parent ++ [last]) root = some child := by
        obtain ⟨before, hsteps, hx, -⟩ := h
        rw [List.append_nil] at hsteps
        rw [hsteps, follow_append, hx, Option.bind_some, follow, hchild]
        rfl
      exact exists_faresAsLookup hv ha (leadsTo_of_follow hfollow) (fun _ => hof) fun s rest heq => by cases heq
  | cons s rest =>
    -- the walk stops before it comes to the last step
    refine exists_faresAsLookup hv ha (h.concat fun hnil => by cases hnil) (fun hnil => by cases hnil) ?_
    intro t rest' heq
    rw [List.cons_append, List.cons.injEq] at heq
    rw [← heq.1, stopReason_cons, ← stopReason_cons x s rest]
    exact of_rewrite_strict h

/-! ## Stripping nulls -/

/-- What the function that strips nulls puts in the place of a value. -/
def replacement (stripping : Stripping) (target : Json) : Json :=
  let stripped := target.stripNulls stripping
  if stripping.empties && stripped.isEmptyContainer then .null else stripped

variable {config : Config} {cache : PathCache} {text : String} {stripping : Stripping} {target : Json}

/-- **Stripping nulls never loses its result.** Whenever lookup finds the target, the set is applied, and
its result is found in the document that the function gives. -/
theorem run_stripNulls (hpath : (cache.get text).1 = .ok path) (htarget : path.lookup root = some target) :
    ∃ edited, (Edit.set path (replacement stripping target) false).apply config.maxArrayPad root =
        .ok (edited, .applied) ∧
      path.lookup edited = some (replacement stripping target) ∧
      ((Call.jsonStripNulls (some root) (some text) stripping.arrays stripping.empties).run config).run.run cache =
        (.ok (.json edited), (cache.get text).2) := by
  obtain ⟨⟨edited, outcome⟩, happly, hagree, -⟩ :=
    exists_apply_set config.maxArrayPad root (replacement stripping target) path
  have hfound : (path.lookup root).isSome := by rw [htarget, Option.isSome_some]
  obtain rfl : outcome = .applied := hagree.2 hfound
  refine ⟨edited, happly, ?_, ?_⟩
  · obtain ⟨walk, hwalk⟩ := rewrite_of_apply_set happly
    obtain ⟨old, v, hv, hfollow⟩ := follow_rewrite hwalk
    cases hv
    exact hfollow
  · rw [Call.run, runStripNulls, Action.run_bind, Action.run_compileOptional hpath]
    simp only [htarget]
    rw [Action.run_bind, Action.run_liftM]
    rw [replacement] at happly
    rw [happly]
    rfl

/-- **Edits and lookup agree on what exists.** A set that creates nothing is applied iff lookup finds a
value at its path, and so is a removal, of anything but the root. When they are not applied, the reason is a
wrong type iff the first step that cannot be taken meets a value that is neither `null` nor the container
that the step needs, and the document stays as it is. So the function that strips nulls, which looks up its
target first, always has its set applied. -/
theorem apply_iff_lookup (maxPad : ℕ) (root : Json) (path : Path) :
    (∀ value, ∃ result, (Edit.set path value false).apply maxPad root = .ok result ∧
        FaresAsLookup root path result) ∧
      (path.isRoot = false → ∃ result, (Edit.remove path).apply maxPad root = .ok result ∧
        FaresAsLookup root path result) ∧
      ∀ config cache text stripping target, (PathCache.get cache text).1 = .ok path →
        path.lookup root = some target → ∃ edited,
          (Edit.set path (replacement stripping target) false).apply (Config.maxArrayPad config) root =
              .ok (edited, .applied) ∧
            path.lookup edited = some (replacement stripping target) ∧
            ((Call.jsonStripNulls (some root) (some text) stripping.arrays stripping.empties).run
                config).run.run cache = (.ok (.json edited), (cache.get text).2) :=
  ⟨fun value => exists_apply_set maxPad root value path, exists_apply_remove maxPad root,
    fun _ _ _ _ _ hpath htarget => run_stripNulls hpath htarget⟩

/-- A `null` that is an element is found: a removal takes it away, and it is stripped from its array. -/
theorem apply_iff_lookup_null :
    (∃ result, (Edit.remove ⟨"$.a[0]", [.member "a", .index 0]⟩).apply 0 (.object [("a", .array [.null])]) =
        .ok result ∧
      FaresAsLookup (.object [("a", .array [.null])]) ⟨"$.a[0]", [.member "a", .index 0]⟩ result) ∧
    ∃ edited, Path.lookup ⟨"$.a", [.member "a"]⟩ edited = some (.array []) ∧
      ((Call.jsonStripNulls (some (.object [("a", .array [.null])])) (some "$.a") true false).run
        .standard).run.run (Engine.newCache .standard) =
          (.ok (.json edited), ((Engine.newCache .standard).get "$.a").2) := by
  constructor
  · exact (apply_iff_lookup 0 _ _).2.1 rfl
  · obtain ⟨edited, -, hfound, hrun⟩ :=
      (apply_iff_lookup 0 (.object [("a", .array [.null])]) ⟨"$.a", [.member "a"]⟩).2.2 .standard
        (Engine.newCache .standard) "$.a" ⟨true, false⟩ (.array [.null]) rfl rfl
    exact ⟨edited, hfound, hrun⟩

end Edit

end SqlJson
