import ShugoCore.Engine.Decision

/-!
# A task from begin to end

`_run_gated_task` and `execute_task` of `decision_engine.py`, with every exit of
the pipeline and the three exception handlers around it.
-/

namespace ShugoCore

namespace Engine

open Py Prog

variable {σ φ : Type} [Builtins φ] (env : Env σ φ)

/-- `_governor_trigger_kind`. -/
def governorTriggerKind (e : GovernorError) : String :=
  let message := lit (e.message.toLower)
  if lit "step budget" <:+: message then "step_budget_exhausted"
  else if lit "deadline" <:+: message then "task_deadline_exceeded"
  else "runaway_loop"

/-- `list(trail) + ["RECORD"]`. -/
def stages : EngineM σ φ (PyVal φ) := do
  let trail ← env.ask .trail
  pure (.list ((trail ++ [lit "RECORD"]).map .str))

/-- `sorted({str(v).split(":")[0] for v in call_errors.values()})`. -/
def errorClasses (errors : List (Str × Str)) : List Str :=
  ((errors.map fun e => e.2.takeWhile (· ≠ 58)).dedup).insertionSort (· ≤ ·)

/-- The detail of a `no_viable_action` event. -/
def noActionDetail (errors : List (Str × Str)) (decision : Obj φ) : Str :=
  lit "no viable action proposed by the model ensemble" ++
    (if errorClasses errors = [] then []
      else lit "; call_errors=" ++ (lit ",").intercalate (errorClasses errors)) ++
    (if isText (lit "null_proposal") (fetch (lit "proposal_source") decision)
      then lit "; model returned a well-formed null proposal" else [])

/-- `{str(k)[:64]: str(v)[:80] for k, v in call_errors.items()}`. -/
def shortErrors (errors : List (Str × Str)) : Obj φ :=
  errors.foldl (fun d e => setKey (e.1.take 64) (.str (e.2.take 80)) d) []

/-- The exit of a task whose policy check failed. -/
def refuseTask (task : Obj φ) (reason : Option Str) : EngineM σ φ (Obj φ) := do
  recordBlock env "task" task (reasonOr reason "policy check failed")
  env.ask (.reportViolation "invariant_violations" (stringOf (reasonOr reason "policy")))
  env.ask (.step .idle)
  let trail ← stages env
  pure (obj [("status", text "refused"), ("outcome", text "policy_block"),
    ("reason", .str (reasonOr reason "policy check failed")), ("stages", trail)])

/-- The exit of a task without an executable proposal. -/
def noViableAction (task decision : Obj φ) : EngineM σ φ (Obj φ) := do
  let errors ← env.ask .callErrors
  env.ask (.recordEvent (lit "no_viable_action") (obj
    [("task_type", taskTypeText task),
      ("detail", .str (sanitizeText (noActionDetail errors decision) 200))]))
  env.ask (.step .idle)
  env.ask .resolveStep
  let trail ← stages env
  pure (withDecisionMeta (obj [("status", text "error"), ("outcome", text "no_viable_action"),
    ("message", text "no viable action proposed by the model ensemble"),
    ("call_errors", .dict (shortErrors errors)), ("stages", trail)]) decision)

/-- The statuses of a multi-step result. -/
def stepStatuses (result : Obj φ) : List (PyVal φ) :=
  match fetch (lit "steps_results") result with
  | .list entries => entries.map fun entry =>
      .str (strOf ((getKey (lit "status") (dictOrEmpty entry)).getD (text "unknown")))
  | _ => []

/-- `str(result.get("status", "unknown"))`. -/
def statusText (result : Obj φ) : Str :=
  strOf ((getKey (lit "status") result).getD (text "unknown"))

/-- The `outcome` of a multi-step result. -/
def multiStepOutcome (result : Obj φ) : String :=
  if !truthy (orElse (fetch (lit "steps_results") result) (.list [])) then "policy_block"
  else if strOf (fetch (lit "status") result) = lit "success" then "success"
  else "task_failure"

/-- The branch of a multi-step decision. -/
def runMultiStep (task decision : Obj φ) : EngineM σ φ (Obj φ) := do
  env.ask (.appendTrail (lit "EXECUTE"))
  env.ask (.step .executing)
  let result ← executeMultiStep env decision
  env.ask (.appendTrail (lit "EVALUATE"))
  env.ask (.step .evaluating)
  env.ask (.recordEvent (lit "tool_execution") (obj
    [("task_type", taskTypeText task), ("action_type", text "multi_step_process"),
      ("status", .str (statusText result)),
      ("detail", sanitized (.list (stepStatuses result)) 200)]))
  env.ask .resolveStep
  let trail ← stages env
  let executed := truthy (orElse (fetch (lit "steps_results") result) (.list []))
  pure (setKey (lit "stages") trail
    (setKey (lit "outcome") (text (multiStepOutcome result))
      (setKey (lit "result_status") (.str (statusText result))
        (setKey (lit "executed") (.bool executed) result))))

/-- The exit of a decision that the gate refused. -/
def refuseDecision (decision : Obj φ) (reason : Option Str) : EngineM σ φ (Obj φ) := do
  recordBlock env "decision" decision (reasonOr reason "gated")
  env.ask (.step .idle)
  env.ask .resolveStep
  let trail ← stages env
  pure (withDecisionMeta (obj [("status", text "refused"), ("outcome", text "policy_block"),
    ("reason", .str (reasonOr reason "gated")), ("stages", trail)]) decision)

/-- The last part of `_run_gated_task`: an action that the gate allowed. -/
def runAction (task decision : Obj φ) : EngineM σ φ (Obj φ) := do
  env.ask (.appendTrail (lit "EXECUTE"))
  env.ask (.step .executing)
  env.ask (.consumeStep 1)
  let result ← executeGated env decision
  env.ask (.updateModelPerformance task decision result)
  env.ask (.logDecision task (dictOrEmpty (env.redact (.dict decision)))
    (dictOrEmpty (env.redact (.dict result))))
  env.ask (.appendTrail (lit "EVALUATE"))
  env.ask (.step .evaluating)
  env.ask (.recordEvent (lit "tool_execution") (obj
    [("task_type", taskTypeText task), ("action_type", fetch (lit "action_type") decision),
      ("status", .str (statusText result)), ("detail", sanitized (.dict result) 200)]))
  env.ask .resolveStep
  let trail ← stages env
  pure (setKey (lit "stages") trail
    (setKey (lit "result_status") (.str (statusText result))
      (setKey (lit "executed") (.bool true)
        (setKey (lit "outcome") (text "success") result))))

/-- `task.get("context", {}).get("attention_state")`. -/
def attentionState (task : Obj φ) : Except Exn (PyVal φ) :=
  methodGet (lit "attention_state") ((getKey (lit "context") task).getD (.dict []))

/-- `_run_gated_task` once there is a decision. -/
def runDecision (task decision : Obj φ) : EngineM σ φ (Obj φ) :=
  if !truthy (fetch (lit "action_type") decision) then noViableAction env task decision
  else if isText (lit "multi_step_process") (fetch (lit "action_type") decision) then
    runMultiStep env task decision
  else do
    let attention ← builtin (attentionState task)
    let (allowed, reason) ← gateDecision env decision attention
    if !allowed then refuseDecision env decision reason
    else runAction env task decision

/-- `_run_gated_task`. -/
def runGatedTask (task : Obj φ) : EngineM σ φ (Obj φ) := do
  env.ask (.appendTrail (lit "GATE"))
  env.ask (.step .gating)
  let (allowed, reason) ← evaluatePolicy env task
  if !allowed then refuseTask env task reason
  else do
    env.ask (.appendTrail (lit "DECIDE"))
    env.ask (.step .deciding)
    let decision ← env.ask (.makeDecision task)
    runDecision env task decision

/-! ## `execute_task` -/

/-- The result of a task that the governor stopped. -/
def governorBlock (reason : Str) (stages : PyVal φ) : Obj φ :=
  obj [("status", text "refused"), ("outcome", text "governor_block"),
    ("reason", .str (sanitizeText reason 160)), ("stages", stages)]

/-- The reference that `begin_task` is called with. -/
def taskRef (task : Obj φ) : Option String :=
  match (getKey (lit "type") task).getD (text "unknown") with
  | .none => none
  | v => some (stringOf (strOf v))

/-- `begin_task` with its own handler: the result of a refused task, if it was refused. -/
def begin? (task : Obj φ) : EngineM σ φ (Option (Obj φ)) :=
  attempt
    (do
      env.ask (.beginTask (taskRef task))
      pure none)
    fun
    | .governor e => do
        env.ask (.recordEvent (lit "governor_block") (obj
          [("kind", text "begin_task"), ("detail", text "GovernorError")]))
        pure (some (governorBlock (lit e.message) (.list [text "GATE", text "RECORD"])))
    | e => raise e

/-- The `try` block of `execute_task`. -/
def taskBody (task : Obj φ) : EngineM σ φ (Obj φ) := do
  env.ask .evaluate
  match ← begin? env task with
  | some refused => pure refused
  | none => do
      env.ask .resetTrail
      ensure (runGatedTask env task) (env.ask .endTask)

/-- The `except` clauses of `execute_task`. -/
def taskHandler (task : Obj φ) : Raised → EngineM σ φ (Obj φ)
  | .halt reason => do
      env.ask (.recordEvent (lit "fallback_halt") (obj [("detail", text "FallbackHalt")]))
      let trail ← stages env
      pure (obj [("status", text "refused"), ("outcome", text "governor_block"),
        ("reason", .str (sanitizeText (lit reason) 160)), ("terminal", .bool true),
        ("stages", trail)])
  | .governor e => do
      env.ask (.reportViolation (governorTriggerKind e) e.message)
      env.ask (.recordEvent (lit "governor_block") (obj
        [("kind", text (governorTriggerKind e)), ("detail", text "GovernorError")]))
      let trail ← stages env
      pure (governorBlock (lit e.message) trail)
  | .other name => do
      env.ask (.recordEvent (lit "task_failure") (obj
        [("task_type", taskTypeText task), ("error", .str name)]))
      env.ask .resolveStep
      let trail ← stages env
      pure (obj [("status", text "error"), ("outcome", text "task_failure"),
        ("message", .str name), ("stages", trail)])

/-- `execute_task`. -/
def executeTask (task : Obj φ) : EngineM σ φ (Obj φ) :=
  attempt (taskBody env task) (taskHandler env task)

/-- The history of a task that starts in a world. -/
def history (task : Obj φ) (w : World σ) : List (Event σ φ) := (executeTask env task ⟨w, []⟩).2.events

end Engine

end ShugoCore
