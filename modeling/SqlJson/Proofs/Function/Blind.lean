import SqlJson.Proofs.Function.Action
import SqlJson.Proofs.Path.Cache

/-!
# Calls do not show the cache

An engine compiles all paths through its cache. What a call gives does not depend on what the cache holds,
so long as the cache is sound, and the call leaves a sound cache.

* `Blind`: computations that do not show the cache, and how they are put together.
* `blind_run`, `blind_call`, `blind_safeCall`: the calls of an engine.
-/

namespace SqlJson

variable {α β : Type} {maxSteps : ℕ}

/-- **What does not show the cache.** The result is the same on every sound cache, and a sound cache is
left. -/
def Blind (maxSteps : ℕ) (x : StateM PathCache α) : Prop :=
  ∃ result, ∀ cache : PathCache, cache.Sound maxSteps →
    (x.run cache).1 = result ∧ (x.run cache).2.Sound maxSteps

theorem blind_return (a : α) : Blind maxSteps (pure a) := ⟨a, fun _ h => ⟨rfl, h⟩⟩

theorem Blind.andThen {x : StateM PathCache α} {f : α → StateM PathCache β} (hx : Blind maxSteps x)
    (hf : ∀ a, Blind maxSteps (f a)) : Blind maxSteps (x >>= f) := by
  obtain ⟨a, ha⟩ := hx
  obtain ⟨b, hb⟩ := hf a
  refine ⟨b, ?_⟩
  intro cache hsound
  obtain ⟨hresult, hafter⟩ := ha cache hsound
  have hrun : (x >>= f).run cache = (f (x.run cache).1).run (x.run cache).2 := rfl
  rw [hrun, hresult]
  exact hb _ hafter

/-- What does not show the cache gives on any two sound caches the same, and leaves the first one sound. -/
theorem Blind.run_eq {x : StateM PathCache α} (hx : Blind maxSteps x) {cache cache' : PathCache}
    (h : cache.Sound maxSteps) (h' : cache'.Sound maxSteps) :
    (x.run cache).1 = (x.run cache').1 ∧ (x.run cache).2.Sound maxSteps := by
  obtain ⟨result, hresult⟩ := hx
  exact ⟨(hresult cache h).1.trans (hresult cache' h').1.symm, (hresult cache h).2⟩

namespace Action

variable {x : Action α} {f : α → Action β} {config : Config}

theorem blind_pure (a : α) : Blind maxSteps (pure a : Action α).run := blind_return (Except.ok a)

theorem blind_liftM (e : Except Error α) : Blind maxSteps (liftM e : Action α).run := blind_return e

/-- **A sequence of actions** does not show the cache if none of them does. -/
theorem blind_bind (hx : Blind maxSteps x.run) (hf : ∀ a, Blind maxSteps (f a).run) :
    Blind maxSteps (x >>= f).run := by
  have hrun : (x >>= f).run = x.run >>= ExceptT.bindCont f := rfl
  rw [hrun]
  refine hx.andThen ?_
  intro result
  cases result with
  | ok a => exact hf a
  | error e => exact blind_return (Except.error e)

theorem blind_tryCatch {handle : Error → Action α} (hx : Blind maxSteps x.run)
    (hh : ∀ e, Blind maxSteps (handle e).run) : Blind maxSteps (tryCatch x handle).run := by
  have hrun : (tryCatch x handle).run =
      x.run >>= fun result => (ExceptT.tryCatch (ExceptT.mk (pure result)) handle).run := rfl
  rw [hrun]
  refine hx.andThen ?_
  intro result
  cases result with
  | ok a => exact blind_return (Except.ok a)
  | error e => exact hh e

/-- **Compiling through the cache** does not show it. -/
theorem blind_compilePath (text : String) : Blind maxSteps (compilePath text).run :=
  ⟨Path.compile maxSteps text, fun _ h => PathCache.get_of_sound h text⟩

theorem blind_compileOptional (text : Option String) : Blind maxSteps (compileOptional text).run := by
  cases text with
  | none => exact blind_pure none
  | some text => exact blind_bind (blind_compilePath text) fun path => blind_pure (some path)

end Action

open SqlJson.Action

variable {config : Config}

/-! ## Calls -/

theorem blind_collectEdits (make : Path → α → Edit) (requests : List (Option String × α)) :
    Blind maxSteps (collectEdits make requests).run := by
  induction requests with
  | nil => exact blind_pure []
  | cons request rest ih =>
    obtain ⟨text, payload⟩ := request
    rw [collectEdits]
    refine blind_bind (blind_compileOptional text) ?_
    intro path
    cases path with
    | none => exact ih
    | some path =>
      refine blind_bind (blind_liftM _) ?_
      intro _
      exact blind_bind ih fun edits => blind_pure _

theorem blind_runEdits (make : Path → α → Edit) (json : Option Json) (requests : List (Option String × α)) :
    Blind maxSteps (runEdits config make json requests).run := by
  refine blind_bind (blind_collectEdits make requests) ?_
  intro edits
  cases json with
  | none => exact blind_pure SqlValue.null
  | some root => exact blind_bind (blind_liftM _) fun edited => blind_pure _

theorem blind_runLookup (input : Input) (path : Option String) (result : Json → Option SqlValue) :
    Blind maxSteps (runLookup config input path result).run :=
  blind_bind (blind_compileOptional path) fun _ => blind_pure _

theorem blind_runStripNulls (json : Option Json) (path : Option String) (stripping : Json.Stripping) :
    Blind maxSteps (runStripNulls config json path stripping).run := by
  refine blind_bind (blind_compileOptional path) ?_
  intro path
  cases path with
  | none => exact blind_pure SqlValue.null
  | some path =>
    cases json with
    | none => exact blind_pure SqlValue.null
    | some root =>
      simp only
      cases path.lookup root with
      | none => exact blind_pure _
      | some target => exact blind_bind (blind_liftM _) fun edited => blind_pure _

/-- **No call shows the cache.** -/
theorem blind_run (call : Call) : Blind maxSteps (call.run config).run := by
  cases call with
  | parseJson text mode =>
    cases text with
    | none => exact blind_pure SqlValue.null
    | some text => exact blind_bind (blind_liftM _) fun json => blind_pure _
  | toJson value stringify => exact blind_pure _
  | toJsonString value pretty => exact blind_pure _
  | jsonQuery input path => exact blind_runLookup input path _
  | jsonQueryArray input path => exact blind_runLookup input path _
  | jsonValue input path => exact blind_runLookup input path _
  | jsonValueArray input path => exact blind_runLookup input path _
  | jsonSet json edits create => exact blind_runEdits _ json edits
  | jsonRemove json paths => exact blind_runEdits _ json _
  | jsonArrayAppend json edits eachElement => exact blind_runEdits _ json edits
  | jsonArrayInsert json edits eachElement => exact blind_runEdits _ json edits
  | jsonType json => exact blind_pure _
  | jsonArray values => exact blind_pure _
  | jsonObject members => exact blind_pure _
  | jsonStripNulls json path arrays removeEmpty => exact blind_runStripNulls json path _
  | extract extractor json mode =>
    obtain ⟨lax, array, target⟩ := extractor
    cases json with
    | none => exact blind_pure SqlValue.null
    | some json =>
      cases lax with
      | true => cases array <;> exact blind_pure _
      | false => cases array <;> exact blind_liftM _

theorem blind_call (name : String) (args : List Argument) :
    Blind maxSteps (Engine.call config name args).run :=
  blind_bind (blind_liftM _) blind_run

theorem blind_safeCall (name : String) (args : List Argument) :
    Blind maxSteps (Engine.safeCall config name args).run :=
  blind_tryCatch (blind_call name args) fun _ => blind_pure SqlValue.null

end SqlJson
