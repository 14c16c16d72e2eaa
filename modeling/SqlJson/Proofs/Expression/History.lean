import SqlJson.Proofs.Expression.Blind

/-!
# Histories of an engine

An engine is asked for one thing after another, and its path cache is handed on. What it has been asked
before does not change an answer.

* `Request`, `Request.answer`, `answerAll`: what an engine can be asked, and its answers.
* `run_answerAll`: each answer is that of a new engine, and the cache stays sound.
-/

namespace SqlJson.Engine

/-- What an engine can be asked. -/
inductive Request where
  /-- The value of a call. -/
  | call (name : String) (args : List Argument)
  /-- The value of a call, with `NULL` for an error. -/
  | safeCall (name : String) (args : List Argument)
  /-- The value of an expression. -/
  | eval (text : String)
  /-- A compiled path. -/
  | compile (text : String)
  /-- To empty its path cache. -/
  | clear

/-- What an engine answers. -/
inductive Answer where
  | value (result : Except Error SqlValue)
  | path (result : Except Error Path)
  | cleared

namespace Request

/-- **The answer to a request.** -/
def answer (config : Config) : Request → StateM PathCache Answer
  | call name args => return .value (← (Engine.call config name args).run)
  | safeCall name args => return .value (← (Engine.safeCall config name args).run)
  | eval text => return .value (← (Expression.run config text).run)
  | compile text => return .path (← (compilePath text).run)
  | clear => do
    modify PathCache.clear
    return .cleared

/-- The answer of a new engine. -/
def answerAlone (config : Config) (request : Request) : Answer :=
  ((request.answer config).run (newCache config)).1

end Request

/-- **The answers to requests made in order.** -/
def answerAll (config : Config) : List Request → StateM PathCache (List Answer)
  | [] => return []
  | request :: rest => return (← request.answer config) :: (← answerAll config rest)

variable {maxSteps : ℕ} {config : Config} {cache : PathCache}

theorem sound_newCache (config : Config) : (newCache config).Sound config.maxPathSteps :=
  PathCache.sound_empty config.pathCacheCapacity config.maxPathSteps

theorem blind_clear : Blind maxSteps (modify PathCache.clear) :=
  ⟨⟨⟩, fun _ h => ⟨rfl, PathCache.sound_clear h⟩⟩

/-- **No request shows the cache**, one to clear it included. -/
theorem blind_answer (request : Request) : Blind maxSteps (request.answer config) := by
  cases request with
  | call name args => exact (blind_call name args).andThen fun result => blind_return _
  | safeCall name args => exact (blind_safeCall name args).andThen fun result => blind_return _
  | eval text => exact (Expression.blind_run text).andThen fun result => blind_return _
  | compile text => exact (Action.blind_compilePath text).andThen fun result => blind_return _
  | clear => exact blind_clear.andThen fun _ => blind_return _

/-- **Each answer is that of a new engine**, whatever was asked before, and the cache stays sound. -/
theorem run_answerAll (requests : List Request) (h : cache.Sound config.maxPathSteps) :
    ((answerAll config requests).run cache).1 = requests.map (Request.answerAlone config) ∧
      ((answerAll config requests).run cache).2.Sound config.maxPathSteps := by
  induction requests generalizing cache with
  | nil => exact ⟨rfl, h⟩
  | cons request rest ih =>
    obtain ⟨hanswer, hafter⟩ := (blind_answer request).run_eq h (sound_newCache config)
    obtain ⟨hrest, hend⟩ := ih hafter
    have hrun : (answerAll config (request :: rest)).run cache =
        (((request.answer config).run cache).1 ::
            ((answerAll config rest).run ((request.answer config).run cache).2).1,
          ((answerAll config rest).run ((request.answer config).run cache).2).2) := rfl
    rw [hrun]
    refine ⟨?_, hend⟩
    change _ :: _ = _
    rw [hanswer, hrest]
    rfl

end SqlJson.Engine
