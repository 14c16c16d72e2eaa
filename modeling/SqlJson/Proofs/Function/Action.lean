import Mathlib.Tactic
import SqlJson.Engine

/-!
# Actions

What can be done with a path cache, taken apart: a sequence of actions runs one after another on the same
cache, and stops at the first error.

* `run_bind`, `run_tryCatch`, `run_liftM`, `run_compilePath`: how actions run.
* `Yields`: what is known of every value of an action, whatever the cache.
* `Raises`: the same for every error.
-/

namespace SqlJson.Action

variable {α β : Type} {x : Action α} {f : α → Action β} {P : α → Prop} {Q : β → Prop} {a : α}
  {E : Error → Prop}

/-! ## Running -/

/-- **A sequence of actions** runs on the cache that the first one leaves. -/
theorem run_bind (x : Action α) (f : α → Action β) (cache : PathCache) :
    (x >>= f).run.run cache =
      match x.run.run cache with
      | (.ok a, after) => (f a).run.run after
      | (.error e, after) => (.error e, after) := by
  have hrun : (x >>= f).run.run cache =
      (ExceptT.bindCont f (x.run.run cache).1).run (x.run.run cache).2 := rfl
  rw [hrun]
  rcases x.run.run cache with ⟨result, after⟩
  cases result <;> rfl

/-- An error is handled on the cache that is left. -/
theorem run_tryCatch (x : Action α) (handle : Error → Action α) (cache : PathCache) :
    (tryCatch x handle).run.run cache =
      match x.run.run cache with
      | (.ok a, after) => (.ok a, after)
      | (.error e, after) => (handle e).run.run after := by
  have hrun : (tryCatch x handle).run.run cache =
      (ExceptT.tryCatch (ExceptT.mk (pure (x.run.run cache).1)) handle).run.run (x.run.run cache).2 := rfl
  rw [hrun]
  rcases x.run.run cache with ⟨result, after⟩
  cases result <;> rfl

/-- What may fail without a cache leaves it alone. -/
theorem run_liftM (e : Except Error α) (cache : PathCache) :
    (liftM e : Action α).run.run cache = (e, cache) := rfl

theorem run_compilePath (text : String) (cache : PathCache) :
    (compilePath text).run.run cache = cache.get text := rfl

theorem run_compileOptional {text : String} {path : Path} {cache : PathCache}
    (h : (cache.get text).1 = .ok path) :
    (compileOptional (some text)).run.run cache = (.ok (some path), (cache.get text).2) := by
  rw [compileOptional, run_bind, run_compilePath]
  rcases hget : cache.get text with ⟨result, after⟩
  rw [hget] at h
  cases h
  rfl

/-! ## Values -/

/-- **What is known of every value of an action**, whatever the cache it is run on. -/
def Yields (x : Action α) (P : α → Prop) : Prop :=
  ∀ cache value after, x.run.run cache = (.ok value, after) → P value

theorem yields_pure (h : P a) : Yields (pure a) P := by
  intro cache value after hrun
  cases hrun
  exact h

theorem yields_liftM {e : Except Error α} (h : ∀ a, e = .ok a → P a) : Yields (liftM e) P := by
  intro cache value after hrun
  rw [run_liftM, Prod.mk.injEq] at hrun
  exact h value hrun.1

theorem Yields.bind (hx : Yields x P) (hf : ∀ a, P a → Yields (f a) Q) : Yields (x >>= f) Q := by
  intro cache value after hrun
  rw [run_bind] at hrun
  rcases h : x.run.run cache with ⟨result, between⟩
  rw [h] at hrun
  cases result with
  | ok a => exact hf a (hx cache a between h) between value after hrun
  | error e => cases hrun

/-- A step whose value does not matter. -/
theorem yields_bind (hf : ∀ a, Yields (f a) Q) : Yields (x >>= f) Q := by
  have hx : Yields x fun _ => True := fun _ _ _ _ => trivial
  exact hx.bind fun a _ => hf a

theorem Yields.tryCatch {handle : Error → Action α} (hx : Yields x P) (hh : ∀ e, Yields (handle e) P) :
    Yields (tryCatch x handle) P := by
  intro cache value after hrun
  rw [run_tryCatch] at hrun
  rcases h : x.run.run cache with ⟨result, between⟩
  rw [h] at hrun
  cases result with
  | ok a =>
    cases hrun
    exact hx cache value _ h
  | error e => exact hh e between value after hrun

/-! ## Errors -/

/-- **What is known of every error of an action**, whatever the cache it is run on. -/
def Raises (x : Action α) (E : Error → Prop) : Prop :=
  ∀ cache error after, x.run.run cache = (.error error, after) → E error

theorem raises_pure (a : α) : Raises (pure a) E := by
  intro cache error after hrun
  cases hrun

theorem raises_liftM {e : Except Error α} (h : ∀ error, e = .error error → E error) : Raises (liftM e) E := by
  intro cache error after hrun
  rw [run_liftM, Prod.mk.injEq] at hrun
  exact h error hrun.1

/-- A sequence of actions fails as the first one does, or as the second one does on its values. -/
theorem Raises.bind (hx : Raises x E) (hy : Yields x P) (hf : ∀ a, P a → Raises (f a) E) :
    Raises (x >>= f) E := by
  intro cache error after hrun
  rw [run_bind] at hrun
  rcases h : x.run.run cache with ⟨result, between⟩
  rw [h] at hrun
  cases result with
  | ok a => exact hf a (hy cache a between h) between error after hrun
  | error e =>
    cases hrun
    exact hx cache error _ h

theorem raises_bind (hx : Raises x E) (hf : ∀ a, Raises (f a) E) : Raises (x >>= f) E := by
  have hy : Yields x fun _ => True := fun _ _ _ _ => trivial
  exact hx.bind hy fun a _ => hf a

end SqlJson.Action
