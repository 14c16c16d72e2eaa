import SqlJson.Proofs.Edit.Agreement
import SqlJson.Proofs.Edit.Removing
import SqlJson.Proofs.Function.Conversion
import SqlJson.Proofs.Json.Stripping
import SqlJson.Proofs.Path.Cache

/-!
# Calls that strip nulls

The function looks its target up, strips it, and puts what is left in its place, or `null` for what is empty when
empty containers go. Off its path nothing changes, and a second call changes nothing at all.

* `replacement_replacement`: what is put in the place of a value stays as it is.
* `Engine.stripNulls_of_none`, `Engine.stripNulls_of_lookup`: what a call gives.
* `Engine.stripNulls_below_path`: all of it.
-/

namespace SqlJson

open Json SqlJson.Path

namespace Edit

variable {s : Stripping} {target new root : Json} {path : Path} {maxPad : ℕ}

/-! ## What is put in the place of a value -/

theorem isStripped_replacement (s : Stripping) (target : Json) : (replacement s target).IsStripped s := by
  rw [replacement]
  split_ifs
  · exact isStripped_of_not_container rfl
  · exact isStripped_stripNulls s target

/-- What is empty when it is stripped has no content. -/
theorem scalars_replacement (s : Stripping) (target : Json) : (replacement s target).scalars = target.scalars := by
  rw [replacement, ← scalars_stripNulls s target]
  split_ifs with hempty
  · rw [Bool.and_eq_true] at hempty
    rw [scalars_of_isEmptyContainer hempty.2, scalars]
  · rfl

/-- **Stripping twice is stripping once.** -/
theorem replacement_replacement (s : Stripping) (target : Json) :
    replacement s (replacement s target) = replacement s target := by
  have hself := (stripNulls_eq_self_iff s).2 (isStripped_replacement s target)
  have hkept : (s.empties && (replacement s target).isEmptyContainer) = false := by
    rw [replacement]
    split_ifs with hempty
    · exact Bool.and_false _
    · exact Bool.eq_false_of_not_eq_true hempty
  have hunfold : ∀ v, replacement s v =
      if s.empties && (v.stripNulls s).isEmptyContainer then .null else v.stripNulls s := fun _ => rfl
  rw [hunfold (replacement s target), hself, hkept]
  rfl

/-- **A set to what is there** changes nothing. -/
theorem apply_set_of_lookup (hfound : path.lookup root = some target) (maxPad : ℕ) :
    (Edit.set path target false).apply maxPad root = .ok (root, .applied) := by
  refine apply_of_rewritten rfl (congrArg Except.ok ?_)
  have hagree : (Walk.strict maxPad).rewrite (fun _ => .ok target) path.steps ⟨root, false⟩ =
      (Walk.strict maxPad).rewrite .ok path.steps ⟨root, false⟩ := by
    refine Walk.rewrite_agree ?_
    have hfollow : follow path.steps root = some target := hfound
    rw [hfollow]
    rfl
  exact hagree.trans (Walk.rewrite_ok hfound)

end Edit

namespace Engine

open Edit

variable {config : Config} {cache : PathCache} {s : Stripping} {root target : Json} {text : String} {path : Path}

/-- A call that strips a document of its nulls, from the value at a path on. -/
def stripNulls (config : Config) (s : Stripping) (document : Json) (path : String) : Action SqlValue :=
  call config "json_strip_nulls"
    [⟨none, .json document⟩, ⟨none, .varchar path⟩, ⟨some "include_arrays", .bool s.arrays⟩,
      ⟨some "remove_empty", .bool s.empties⟩]

theorem stripNulls_eq (config : Config) (s : Stripping) (root : Json) (text : String) :
    stripNulls config s root text = (Call.jsonStripNulls (some root) (some text) s.arrays s.empties).run config := by
  have hname : Text.asciiLower "json_strip_nulls" = "json_strip_nulls" := Text.asciiLower_eq (by decide)
  have harrays : Text.asciiLower "include_arrays" = "include_arrays" := Text.asciiLower_eq (by decide)
  have hempties : Text.asciiLower "remove_empty" = "remove_empty" := Text.asciiLower_eq (by decide)
  refine call_of_parse ?_
  simp only [Call.parse, hname, Call.parseStripNulls, Arguments.ofList, List.foldlM, Arguments.add, harrays, hempties]
  rfl

section

variable (hcache : cache.Sound config.maxPathSteps) (hpath : Path.compile config.maxPathSteps text = .ok path)
include hcache hpath

/-- Where there is no target, the document is given as it is. -/
theorem stripNulls_of_none (s : Stripping) (hnone : path.lookup root = none) :
    ((stripNulls config s root text).run.run cache).1 = .ok (.json root) := by
  have hget := (PathCache.get_of_sound hcache text).1
  rw [stripNulls_eq, Call.run, runStripNulls, Action.run_bind, Action.run_compileOptional (hget.trans hpath)]
  simp only [hnone]
  rfl

/-- Where there is a target, it is replaced. -/
theorem stripNulls_of_lookup (s : Stripping) (hfound : path.lookup root = some target) :
    ∃ edited, (Edit.set path (replacement s target) false).apply config.maxArrayPad root = .ok (edited, .applied) ∧
      path.lookup edited = some (replacement s target) ∧
      ((stripNulls config s root text).run.run cache).1 = .ok (.json edited) := by
  have hget := (PathCache.get_of_sound hcache text).1
  obtain ⟨edited, happly, hedited, hrun⟩ : ∃ edited, _ = _ ∧ path.lookup edited = some (replacement s target) ∧
      ((Call.jsonStripNulls (some root) (some text) s.arrays s.empties).run config).run.run cache = _ :=
    run_stripNulls (hget.trans hpath) hfound
  refine ⟨edited, happly, hedited, ?_⟩
  rw [stripNulls_eq, hrun]

/-- A target that stays as it is leaves the document as it is. -/
theorem stripNulls_of_replacement_eq (hfound : path.lookup root = some target) (hself : replacement s target = target) :
    ((stripNulls config s root text).run.run cache).1 = .ok (.json root) := by
  obtain ⟨edited, happly, -, hrun⟩ := stripNulls_of_lookup hcache hpath s hfound
  rw [hself, apply_set_of_lookup hfound] at happly
  cases happly
  exact hrun

end

/-- **Stripping nulls strips what it should**, and nothing else. A path that is not found leaves the document as it
is. Else there is in the place of the target what is left of it: nothing went but what may go, nothing is left that
should be gone, and its scalars are the same in the same order; if empty containers go and it is one of them, there is
`null`. Along paths that part from the one to the target the same is found as before. A second call changes
nothing. -/
theorem stripNulls_below_path (hcache : cache.Sound config.maxPathSteps)
    (hpath : Path.compile config.maxPathSteps text = .ok path) (s : Stripping) (root : Json) :
    (path.lookup root = none → ((stripNulls config s root text).run.run cache).1 = .ok (.json root)) ∧
      ∀ target, path.lookup root = some target → ∃ edited stripped new,
        ((stripNulls config s root text).run.run cache).1 = .ok (.json edited) ∧
        path.lookup edited = some new ∧
        new = (if s.empties = true ∧ stripped.isEmptyContainer = true then .null else stripped) ∧
        target.Strips s stripped ∧ new.IsStripped s ∧ new.scalars = target.scalars ∧
        (∀ other : Path, Diverge path.steps other.steps → other.lookup edited = other.lookup root) ∧
        ∀ later : PathCache, later.Sound config.maxPathSteps →
          ((stripNulls config s edited text).run.run later).1 = .ok (.json edited) := by
  refine ⟨stripNulls_of_none hcache hpath s, fun target hfound => ?_⟩
  obtain ⟨edited, happly, hedited, hrun⟩ := stripNulls_of_lookup hcache hpath s hfound
  refine ⟨edited, target.stripNulls s, replacement s target, hrun, hedited, ?_, strips_stripNulls s target,
    isStripped_replacement s target, scalars_replacement s target, ?_, ?_⟩
  · rw [replacement]
    simp only [Bool.and_eq_true]
  · intro other hdiverge
    obtain ⟨walk, hwalk⟩ := rewrite_of_apply_set happly
    exact follow_of_diverge hwalk hdiverge (not_pads_of_follow hfound)
  · intro later hlater
    exact stripNulls_of_replacement_eq hlater hpath hedited (replacement_replacement s target)

/-- An object that is empty once `null` is stripped from the array in it becomes `null`, and stays `null`. -/
theorem stripNulls_below_path_emptied :
    ((stripNulls .standard ⟨true, true⟩ (.object [("a", .object [("b", .array [.null])])]) "$.a").run.run
        (newCache .standard)).1 = .ok (.json (.object [("a", .null)])) ∧
      ((stripNulls .standard ⟨true, true⟩ (.object [("a", .null)]) "$.a").run.run (newCache .standard)).1 =
        .ok (.json (.object [("a", .null)])) := by
  have hcache := PathCache.sound_empty Config.standard.pathCacheCapacity Config.standard.maxPathSteps
  have hpath : Path.compile Config.standard.maxPathSteps "$.a" = .ok ⟨"$.a", [.member "a"]⟩ := by decide +kernel
  have hfound : Path.lookup ⟨"$.a", [.member "a"]⟩ (.object [("a", .object [("b", .array [.null])])]) =
      some (.object [("b", .array [.null])]) := by rfl
  have hset : (Edit.set ⟨"$.a", [.member "a"]⟩ (replacement ⟨true, true⟩ (.object [("b", .array [.null])])) false).apply
      Config.standard.maxArrayPad (.object [("a", .object [("b", .array [.null])])]) =
        .ok (.object [("a", .null)], .applied) := by rfl
  obtain ⟨edited, happly, -, hrun⟩ := stripNulls_of_lookup hcache hpath ⟨true, true⟩ hfound
  rw [hset] at happly
  cases happly
  obtain ⟨edited, stripped, new, hrun', -, -, -, -, -, -, hagain⟩ :=
    (stripNulls_below_path hcache hpath ⟨true, true⟩ _).2 _ hfound
  cases hrun.symm.trans hrun'
  exact ⟨hrun, hagain _ hcache⟩

end Engine

end SqlJson
