import SqlJson.Proofs.Expression.Parts
import SqlJson.Proofs.Function.Blind

/-!
# Expressions do not show the cache

* `blind_evaluate`: the value of an expression does not depend on what the path cache holds.
* `blind_run`, `blind_runLine`: nor does the value of a text, or the line that shows it.
-/

namespace SqlJson.Expression

open SqlJson.Action

variable {maxSteps : ℕ} {config : Config} {items : List Expression} {fields : List (String × Expression)}
  {args : List (Option String × Expression)}

theorem blind_evaluateItems (h : ∀ item ∈ items, Blind maxSteps (evaluate config item).run) :
    Blind maxSteps (evaluateItems config items).run := by
  induction items with
  | nil =>
    rw [evaluateItems]
    exact Action.blind_pure []
  | cons item rest ih =>
    obtain ⟨hitem, hrest⟩ := List.forall_mem_cons.1 h
    rw [evaluateItems]
    exact blind_bind hitem fun value => blind_bind (ih hrest) fun values => Action.blind_pure _

theorem blind_evaluateFields (h : ∀ field ∈ fields, Blind maxSteps (evaluate config field.2).run) :
    Blind maxSteps (evaluateFields config fields).run := by
  induction fields with
  | nil =>
    rw [evaluateFields]
    exact Action.blind_pure []
  | cons field rest ih =>
    obtain ⟨hfield, hrest⟩ := List.forall_mem_cons.1 h
    rw [evaluateFields]
    exact blind_bind hfield fun value => blind_bind (ih hrest) fun values => Action.blind_pure _

theorem blind_evaluateArguments (h : ∀ arg ∈ args, Blind maxSteps (evaluate config arg.2).run) :
    Blind maxSteps (evaluateArguments config args).run := by
  induction args with
  | nil =>
    rw [evaluateArguments]
    exact Action.blind_pure []
  | cons arg rest ih =>
    obtain ⟨harg, hrest⟩ := List.forall_mem_cons.1 h
    rw [evaluateArguments]
    exact blind_bind harg fun value => blind_bind (ih hrest) fun values => Action.blind_pure _

/-- **No expression shows the cache**, with safe calls in it or without. -/
theorem blind_evaluate (e : Expression) : Blind maxSteps (evaluate config e).run := by
  induction e using induct with
  | literal value =>
    rw [evaluate]
    exact Action.blind_pure value
  | typed type text =>
    by_cases htype : type = .json
    · subst htype
      rw [evaluate]
      exact blind_call _ _
    · rw [evaluate_typed htype]
      exact blind_liftM _
  | array items ih =>
    rw [evaluate]
    exact blind_bind (blind_evaluateItems ih) fun values => Action.blind_pure _
  | struct fields ih =>
    rw [evaluate]
    exact blind_bind (blind_evaluateFields ih) fun values => Action.blind_pure _
  | call name safe args ih =>
    rw [evaluate]
    refine blind_bind (blind_evaluateArguments ih) ?_
    intro values
    cases safe with
    | true => exact blind_safeCall name values
    | false => exact blind_call name values

theorem blind_run (text : String) : Blind maxSteps (run config text).run :=
  blind_bind (blind_liftM (parse text)) blind_evaluate

/-- **The line that shows the value of a text** does not show the cache. -/
theorem blind_runLine (text : String) : Blind maxSteps (runLine config text) := by
  refine (blind_run text).andThen ?_
  intro result
  cases result with
  | ok value => exact blind_return _
  | error error => exact blind_return _

end SqlJson.Expression
