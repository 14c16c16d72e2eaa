import Mathlib.Tactic
import SqlJson.Path.Cache

/-!
# What a path cache holds

A cache is sound if each entry is what compiling its text would give. Then it does not matter to a caller
what is in it.

* `Sound`: that property.
* `get_of_sound`: a sound cache gives what compiling gives, and stays sound.
* `sound_empty`, `sound_clear`, `sound_touch`: the caches of an engine are sound.
-/

namespace SqlJson.PathCache

variable {maxSteps : ℕ} {cache : PathCache} {text : String} {path : Path}

/-- **A sound cache**: each entry is what compiling its text would give. -/
structure Sound (maxSteps : ℕ) (cache : PathCache) : Prop where
  maxSteps_eq : cache.maxSteps = maxSteps
  compiled : ∀ text path, (text, path) ∈ cache.entries → Path.compile maxSteps text = .ok path

theorem sound_empty (capacity maxSteps : ℕ) : (empty capacity maxSteps).Sound maxSteps := by
  refine ⟨rfl, ?_⟩
  intro text path hmem
  cases hmem

theorem sound_clear (h : cache.Sound maxSteps) : cache.clear.Sound maxSteps := by
  refine ⟨h.maxSteps_eq, ?_⟩
  intro text path hmem
  cases hmem

/-- Entries that move or give way leave a cache sound. -/
theorem sound_touch (h : cache.Sound maxSteps) (hpath : Path.compile maxSteps text = .ok path) :
    (cache.touch text path).Sound maxSteps := by
  refine ⟨h.maxSteps_eq, ?_⟩
  intro t p hmem
  rcases List.mem_cons.1 (List.mem_of_mem_take hmem) with heq | hold
  · cases heq
    exact hpath
  · exact h.compiled t p (List.mem_of_mem_eraseP hold)

theorem compile_of_lookup (h : cache.Sound maxSteps) (hl : cache.entries.lookup text = some path) :
    Path.compile maxSteps text = .ok path := by
  obtain ⟨before, after, hentries, -⟩ := List.lookup_eq_some_iff.1 hl
  refine h.compiled text path ?_
  rw [hentries]
  exact List.mem_append_right before List.mem_cons_self

/-- **A sound cache gives what compiling gives**, and stays sound. -/
theorem get_of_sound (h : cache.Sound maxSteps) (text : String) :
    (cache.get text).1 = Path.compile maxSteps text ∧ (cache.get text).2.Sound maxSteps := by
  unfold get
  split
  · rename_i path hl
    have hpath := compile_of_lookup h hl
    exact ⟨hpath.symm, sound_touch h hpath⟩
  · rw [h.maxSteps_eq]
    split
    · rename_i path hpath
      exact ⟨hpath.symm, sound_touch h hpath⟩
    · rename_i error herror
      exact ⟨herror.symm, h⟩

end SqlJson.PathCache
