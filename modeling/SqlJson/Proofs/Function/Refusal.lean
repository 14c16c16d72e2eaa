import SqlJson.Proofs.Edit.Agreement
import SqlJson.Proofs.Function.Blind
import SqlJson.Proofs.Function.Conversion
import SqlJson.Proofs.Function.DocumentArgument
import SqlJson.Proofs.Function.Failures

/-!
# Calls that are refused

A call with paths fails on account of its path arguments only. Those that are not `NULL` are compiled, and
checked for uses that fit no document, before the document is looked at.

* `Call.refusal?`: the error of the first path argument that cannot be used.
* `Action.FailsAs`: whether and how an action fails, and how that is put together.
* `Call.failsAs_run`: a call with paths fails as its path arguments say.
* `Engine.call_eq_error_iff`: the same for the calls of an engine, whatever the document.
-/

namespace SqlJson

open SqlJson.Except

/-! ## Path arguments -/

namespace Call

/-- **The path arguments** of a call that are not `NULL`, in their order. -/
def paths : Call → List String
  | jsonQuery _ path | jsonQueryArray _ path | jsonValue _ path | jsonValueArray _ path => path.toList
  | jsonStripNulls _ path .. => path.toList
  | jsonSet _ edits _ | jsonArrayAppend _ edits _ | jsonArrayInsert _ edits _ => edits.filterMap Prod.fst
  | jsonRemove _ paths => paths.filterMap id
  | _ => []

/-- Why a function cannot use a path on any document: the root is not removed, and nothing is inserted but
before an index. -/
def misuse? : Call → Path → Option Error
  | jsonRemove .., path => if path.steps = [] then some (.argument .rootRemoval) else none
  | jsonArrayInsert .., path =>
    match path.steps.getLast? with
    | some (.index _) => none
    | _ => some (.argument (.noFinalIndex path.text))
  | _, _ => none

/-- What is wrong with a path argument: it is no path, or the function cannot use it. -/
def fault? (maxSteps : ℕ) (call : Call) (text : String) : Option Error :=
  match Path.compile maxSteps text with
  | .error error => some error
  | .ok path => call.misuse? path

/-- **The error of the first path argument** with which something is wrong. -/
def refusal? (maxSteps : ℕ) (call : Call) : Option Error := call.paths.findSome? (call.fault? maxSteps)

theorem refusal?_onNull (maxSteps : ℕ) (call : Call) : call.onNull.refusal? maxSteps = call.refusal? maxSteps := by
  cases call <;> rfl

/-- Something is refused iff something is wrong with some path argument. -/
theorem exists_refusal_iff {maxSteps : ℕ} {call : Call} :
    (∃ e, call.refusal? maxSteps = some e) ↔
      ∃ text ∈ call.paths, ∃ e, call.fault? maxSteps text = some e := by
  rw [← Option.isSome_iff_exists, refusal?, List.findSome?_isSome_iff]
  simp only [Option.isSome_iff_exists]

end Call

/-! ## Failing -/

namespace Action

variable {α β : Type} {maxSteps : ℕ} {x : Action α} {f : α → Action β} {P : α → Prop} {r r' : Option Error}

/-- **Whether and how an action fails** on sound caches: with a given error, or not at all. It leaves a sound
cache. -/
def FailsAs (maxSteps : ℕ) (x : Action α) (r : Option Error) : Prop :=
  ∀ cache : PathCache, cache.Sound maxSteps → (x.run.run cache).2.Sound maxSteps ∧
    match r with
    | some e => (x.run.run cache).1 = .error e
    | none => ∃ a, (x.run.run cache).1 = .ok a

theorem failsAs_pure (a : α) : FailsAs maxSteps (pure a) none := fun _ h => ⟨h, a, rfl⟩

theorem failsAs_ok (a : α) : FailsAs maxSteps (liftM (.ok a : Except Error α)) none := fun _ h => ⟨h, a, rfl⟩

theorem failsAs_error (e : Error) : FailsAs maxSteps (liftM (.error e : Except Error α)) (some e) :=
  fun _ h => ⟨h, rfl⟩

/-- A sequence of actions fails as the first one does, or else as the second one does on its values. -/
theorem FailsAs.bind (hx : FailsAs maxSteps x r) (hy : Yields x P) (hf : ∀ a, P a → FailsAs maxSteps (f a) r') :
    FailsAs maxSteps (x >>= f) (r.or r') := by
  intro cache hcache
  obtain ⟨hsound, hresult⟩ := hx cache hcache
  rw [run_bind]
  rcases hrun : x.run.run cache with ⟨result, between⟩
  rw [hrun] at hsound hresult
  cases r with
  | some e =>
    cases hresult
    exact ⟨hsound, rfl⟩
  | none =>
    obtain ⟨a, ha⟩ := hresult
    cases ha
    exact hf a (hy cache a between hrun) between hsound

theorem failsAs_bind (hx : FailsAs maxSteps x r) (hf : ∀ a, FailsAs maxSteps (f a) r') :
    FailsAs maxSteps (x >>= f) (r.or r') := by
  have hy : Yields x fun _ => True := fun _ _ _ _ => trivial
  exact hx.bind hy fun a _ => hf a

/-- The error of an action on a sound cache. -/
theorem FailsAs.eq_error_iff (h : FailsAs maxSteps x r) {cache : PathCache} (hcache : cache.Sound maxSteps)
    (e : Error) : (x.run.run cache).1 = .error e ↔ r = some e := by
  obtain ⟨-, hresult⟩ := h cache hcache
  cases r with
  | some e' =>
    dsimp only at hresult
    rw [hresult, Except.error.injEq, Option.some.injEq]
  | none =>
    obtain ⟨a, ha⟩ := hresult
    rw [ha]
    exact iff_of_false nofun nofun

/-- What goes on with a path argument fails as that is refused, or else as what comes after it. -/
theorem failsAs_path {call : Call} {text : String} {use : Option Path → Action β}
    (h : ∀ path, FailsAs maxSteps (use (some path)) ((call.misuse? path).or r)) :
    FailsAs maxSteps (compileOptional (some text) >>= use) ((call.fault? maxSteps text).or r) := by
  intro cache hcache
  obtain ⟨hget, hsound⟩ := PathCache.get_of_sound hcache text
  have hrun : (compileOptional (some text) >>= use).run.run cache =
      match cache.get text with
      | (.ok path, after) => (use (some path)).run.run after
      | (.error e, after) => (.error e, after) := by
    rw [run_bind, compileOptional, run_bind, run_compilePath]
    rcases cache.get text with ⟨result, after⟩
    cases result <;> rfl
  rw [hrun, Call.fault?, ← hget]
  rcases hresult : cache.get text with ⟨result, after⟩
  rw [hresult] at hsound
  cases result with
  | ok path => exact h path after hsound
  | error e => exact ⟨hsound, rfl⟩

end Action

/-! ## Calls with paths -/

open SqlJson.Action

variable {config : Config} {α : Type} {maxSteps : ℕ} {call : Call}

theorem findSome?_cons_or {γ δ : Type} (f : γ → Option δ) (a : γ) (list : List γ) :
    (a :: list).findSome? f = (f a).or (list.findSome? f) := by
  rw [List.findSome?_cons]
  cases f a <;> rfl

/-- A path that a function can use in any case. -/
theorem failsAs_lookup {text : Option String} {use : Option Path → Action α}
    (hmisuse : ∀ path, call.misuse? path = none) (h : ∀ path, FailsAs maxSteps (use path) none) :
    FailsAs maxSteps (compileOptional text >>= use) (text.toList.findSome? (call.fault? maxSteps)) := by
  cases text with
  | none => exact failsAs_bind (failsAs_pure none) h
  | some text =>
    rw [Option.toList_some, findSome?_cons_or, List.findSome?_nil]
    refine failsAs_path fun path => ?_
    rw [hmisuse]
    exact h (some path)

/-- An edit is validated as its path is refused. -/
theorem failsAs_validate {edit : Edit} {r : Option Error}
    (h : edit.validate = match r with | some e => .error e | none => .ok ()) :
    FailsAs maxSteps (liftM edit.validate) r := by
  rw [h]
  cases r with
  | some e => exact failsAs_error e
  | none => exact failsAs_ok ()

section Edits

variable {make : Path → α → Edit}
  (hmake : ∀ path payload,
    (make path payload).validate = match call.misuse? path with | some e => .error e | none => .ok ())
include hmake

/-- **Collecting edits fails as the first path that is refused.** -/
theorem failsAs_collectEdits (requests : List (Option String × α)) :
    FailsAs maxSteps (collectEdits make requests)
      ((requests.filterMap Prod.fst).findSome? (call.fault? maxSteps)) := by
  induction requests with
  | nil => exact failsAs_pure []
  | cons request rest ih =>
    obtain ⟨text, payload⟩ := request
    rw [collectEdits]
    cases text with
    | none =>
      rw [compileOptional, pure_bind]
      exact ih
    | some text =>
      have htexts : ((some text, payload) :: rest).filterMap Prod.fst = text :: rest.filterMap Prod.fst := rfl
      rw [htexts, findSome?_cons_or]
      refine failsAs_path fun path => failsAs_bind (failsAs_validate (hmake path payload)) fun _ => ?_
      rw [← Option.or_none (o := List.findSome? _ _)]
      exact failsAs_bind ih fun edits => failsAs_pure _

theorem failsAs_runEdits (json : Option Json) (requests : List (Option String × α)) :
    FailsAs maxSteps (runEdits config make json requests)
      ((requests.filterMap Prod.fst).findSome? (call.fault? maxSteps)) := by
  rw [← Option.or_none (o := List.findSome? _ _)]
  refine (failsAs_collectEdits hmake requests).bind (yields_collectEdits make requests) fun edits hedits => ?_
  cases json with
  | none => exact failsAs_pure SqlValue.null
  | some root =>
    -- the edits were validated, so that none fails
    obtain ⟨new, hnew⟩ := Edit.exists_applyAll hedits config.maxArrayPad root
    simp only [hnew]
    exact failsAs_bind (failsAs_ok new) fun edited => failsAs_pure _

end Edits

theorem failsAs_runStripNulls (json : Option Json) (text : Option String) (stripping : Json.Stripping)
    (hmisuse : ∀ path, call.misuse? path = none) :
    FailsAs maxSteps (runStripNulls config json text stripping)
      (text.toList.findSome? (call.fault? maxSteps)) := by
  refine failsAs_lookup hmisuse fun path => ?_
  cases path with
  | none => exact failsAs_pure SqlValue.null
  | some path =>
    cases json with
    | none => exact failsAs_pure SqlValue.null
    | some root =>
      simp only
      cases path.lookup root with
      | none => exact failsAs_pure _
      | some target =>
        obtain ⟨result, happly, -⟩ :=
          Edit.exists_apply_set config.maxArrayPad root (Edit.replacement stripping target) path
        simp only [Edit.replacement] at happly
        simp only [happly]
        exact failsAs_bind (failsAs_ok _) fun edited => failsAs_pure _

theorem validate_insert (path : Path) (values : List Json) : (Edit.insert path values).validate =
    match (match path.steps.getLast? with
      | some (.index _) => none
      | _ => some (Error.argument (.noFinalIndex path.text))) with
    | some e => .error e
    | none => .ok () := by
  cases hlast : path.steps.getLast? with
  | none => simp [Edit.validate, Edit.finalIndex?, hlast]
  | some last => cases last <;> simp [Edit.validate, Edit.finalIndex?, hlast]

theorem validate_remove (path : Path) : (Edit.remove path).validate =
    match (if path.steps = [] then some (Error.argument .rootRemoval) else none) with
    | some e => .error e
    | none => .ok () := by
  cases hsteps : path.steps with
  | nil => simp [Edit.validate, Path.isRoot, hsteps]
  | cons s rest => simp [Edit.validate, Path.isRoot, hsteps]

/-- **A call with paths fails as its path arguments say.** -/
theorem Call.failsAs_run (h : call.TakesPaths) (maxSteps : ℕ) :
    FailsAs maxSteps (call.run config) (call.refusal? maxSteps) := by
  cases call with
  | jsonQuery input text | jsonQueryArray input text | jsonValue input text | jsonValueArray input text =>
    exact failsAs_lookup (fun _ => rfl) fun _ => failsAs_pure _
  | jsonStripNulls json text arrays removeEmpty => exact failsAs_runStripNulls json text _ fun _ => rfl
  | jsonSet json edits create => exact failsAs_runEdits (fun _ _ => rfl) json edits
  | jsonArrayAppend json edits eachElement => exact failsAs_runEdits (fun _ _ => rfl) json edits
  | jsonArrayInsert json edits eachElement =>
    exact failsAs_runEdits (fun path _ => validate_insert path _) json edits
  | jsonRemove json texts =>
    have hrun : FailsAs maxSteps (runEdits config (fun path _ => .remove path) json (texts.map (·, ())))
        (((texts.map (·, ())).filterMap Prod.fst).findSome? ((jsonRemove json texts).fault? maxSteps)) :=
      failsAs_runEdits (fun path _ => validate_remove path) json (texts.map (·, ()))
    rw [List.filterMap_map] at hrun
    exact hrun
  | _ => exact h.elim

namespace Engine

/-- A call that was understood fails as its path arguments say. -/
theorem failsAs_call {name : String} {args : List Argument} (hparse : Call.parse name args = .ok call)
    (h : call.TakesPaths) : FailsAs maxSteps (Engine.call config name args) (call.refusal? maxSteps) := by
  rw [call_of_parse hparse]
  exact Call.failsAs_run h maxSteps

/-- **Whether a call with paths fails does not depend on the document.** A call that was understood fails iff
some path argument is no path or cannot be used by the function, with the error of the first such argument, on
its own document and on any other that the function accepts. No call fails with an internal error, and edits
that a call makes of its arguments do not fail on any document. -/
theorem call_eq_error_iff {cache : PathCache} (hcache : cache.Sound config.maxPathSteps) :
    (∀ name args call, Call.parse name args = .ok call → call.TakesPaths →
      ((∃ e, ((Engine.call config name args).run.run cache).1 = .error e) ↔
        ∃ text ∈ call.paths, ∃ e, call.fault? config.maxPathSteps text = some e) ∧
      (∀ e, ((Engine.call config name args).run.run cache).1 = .error e ↔
        call.refusal? config.maxPathSteps = some e) ∧
      ∃ document rest, args = ⟨none, document⟩ :: rest ∧ ∀ other,
        ((∃ call', Call.parse name (⟨none, other⟩ :: rest) = .ok call') ↔ call.Accepts other) ∧
        (call.Accepts other → ∀ e,
          ((Engine.call config name (⟨none, other⟩ :: rest)).run.run cache).1 = .error e ↔
            call.refusal? config.maxPathSteps = some e)) ∧
      (∀ name args what, ((Engine.call config name args).run.run cache).1 ≠ .error (.internal what)) ∧
      ∀ (α : Type) (make : Path → α → Edit) requests edits,
        ((collectEdits make requests).run.run cache).1 = .ok edits →
          ∀ maxPad root, ∃ new, Edit.applyAll maxPad root edits = .ok new := by
  refine ⟨?_, ?_, ?_⟩
  · intro name args call hparse hpaths
    have hfails : FailsAs config.maxPathSteps (Engine.call config name args) _ := failsAs_call hparse hpaths
    have herror := hfails.eq_error_iff hcache
    refine ⟨?_, herror, ?_⟩
    · rw [← Call.exists_refusal_iff]
      exact exists_congr herror
    obtain ⟨document, rest, rfl, hvariants⟩ := Call.variants_parse hparse hpaths
    refine ⟨document, rest, rfl, fun other => ?_⟩
    obtain ⟨haccepts, call', hother, hnull⟩ | ⟨hrefuses, e, hother⟩ := hvariants other
    · refine ⟨iff_of_true ⟨call', hother⟩ haccepts, fun _ => ?_⟩
      have hpaths' : call'.TakesPaths := by
        rw [← Call.takesPaths_onNull, hnull, Call.takesPaths_onNull]
        exact hpaths
      rw [← Call.refusal?_onNull, ← hnull, Call.refusal?_onNull]
      exact (failsAs_call hother hpaths').eq_error_iff hcache
    · refine ⟨iff_of_false ?_ hrefuses, fun haccepts => absurd haccepts hrefuses⟩
      rintro ⟨call', hcall'⟩
      rw [hother] at hcall'
      cases hcall'
  · intro name args what hinternal
    exact raises_call config name args cache _ _ (Prod.ext hinternal rfl) what rfl
  · intro α make requests edits hedits maxPad root
    exact Edit.exists_applyAll (yields_collectEdits make requests cache edits _ (Prod.ext hedits rfl)) maxPad root

/-- The root is not removed, from `NULL` or any JSON. The argument after it is no path, but is not looked at. -/
theorem call_eq_error_iff_root :
    ((Engine.call Config.standard "JSON_REMOVE" [⟨none, .null⟩, ⟨none, .varchar "$.a"⟩, ⟨none, .null⟩,
        ⟨none, .varchar "$"⟩, ⟨none, .varchar "x"⟩]).run.run (newCache Config.standard)).1 =
      .error (.argument .rootRemoval) ∧
    ((Engine.call Config.standard "JSON_REMOVE" [⟨none, .json (.array [])⟩, ⟨none, .varchar "$.a"⟩, ⟨none, .null⟩,
        ⟨none, .varchar "$"⟩, ⟨none, .varchar "x"⟩]).run.run (newCache Config.standard)).1 =
      .error (.argument .rootRemoval) := by
  have hparse : Call.parse "JSON_REMOVE" [⟨none, .null⟩, ⟨none, .varchar "$.a"⟩, ⟨none, .null⟩,
      ⟨none, .varchar "$"⟩, ⟨none, .varchar "x"⟩] =
        .ok (.jsonRemove none [some "$.a", none, some "$", some "x"]) := by
    have hname : Text.asciiLower "JSON_REMOVE" = "json_remove" := Text.asciiLower_eq (by decide)
    simp only [Call.parse, hname]
    rfl
  have hrefusal : (Call.jsonRemove none [some "$.a", none, some "$", some "x"]).refusal?
      Config.standard.maxPathSteps = some (.argument .rootRemoval) := by
    decide +kernel
  have hcache : (newCache Config.standard).Sound Config.standard.maxPathSteps := PathCache.sound_empty _ _
  obtain ⟨hcalls, -⟩ := call_eq_error_iff hcache
  obtain ⟨-, herror, document, rest, hargs, hothers⟩ := hcalls _ _ _ hparse trivial
  cases hargs
  exact ⟨(herror _).2 hrefusal, ((hothers _).2 (.inr ⟨.array [], rfl⟩) _).2 hrefusal⟩

end Engine

end SqlJson
