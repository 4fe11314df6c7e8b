import ShugoCore.Engine.Execution

/-!
# The gated pipeline

`execute_task` of `decision_engine.py` with what it calls: the task-level policy,
the gate of a decision, the execution of a gated decision, and the expansion of a
multi-step decision.

What the models propose, and what the personality and persona layers make of it,
is the answer to one call, `make_decision`.  It may be any dictionary.
-/

namespace ShugoCore

namespace Engine

open Py Prog

variable {σ φ : Type} [Builtins φ] (env : Env σ φ)

/-- `sanitize_text(v, n)`. -/
def sanitized (v : PyVal φ) (n : Int) : PyVal φ := .str (sanitizeText (strOf v) n)

/-- `sanitize_text(task.get("type", "unknown"), 64)`. -/
def taskTypeText (task : Obj φ) : PyVal φ :=
  sanitized ((getKey (lit "type") task).getD (text "unknown")) 64

/-- `reason or other`. -/
def reasonOr (reason : Option Str) (other : String) : Str :=
  match reason with
  | some r => if r.isEmpty then lit other else r
  | none => lit other

/-- The texts as the fallback controller holds them. -/
def stringOf (s : Str) : String := String.ofList (s.map fun c => Char.ofNat c.val)

/-- `_record_block`. -/
def recordBlock (kind : String) (o : Obj φ) (reason : Str) : EngineM σ φ Unit := do
  env.ask (.recordEvent (lit "policy_block") (obj
    [("kind", text kind), ("reason", .str (sanitizeText reason 120)),
      ("content", sanitized (env.redact (.dict o)) 200)]))
  env.ask .resolveStep
  env.ask (.audit (lit "policy_block") (obj
    [("kind", text kind), ("reason", .str (sanitizeText reason 120))]))

/-! ## Task-level policy -/

/-- The text that `detect_bias` and `is_privacy_compliant` look at. -/
def taskContent (task : Obj φ) : Str :=
  strOf ((getKey (lit "content") task).getD ((getKey (lit "prompt") task).getD (text "")))

/-- The patterns of `detect_bias`, `sensitive_patterns` and then `loaded_words`. -/
def biasPatterns : List String :=
  ["all women are", "all men are", "gender stereotype", "race is", "racial superiority",
    "ethnic cleansing", "all asians", "all blacks", "all whites", "all hispanics", "all muslims",
    "all christians", "religious inferior", "old people are", "disabled people are", "ageist",
    "inferior", "superior race", "master race", "subhuman", "should be eradicated",
    "should be eliminated"]

/-- `detect_bias`. -/
def detectBias (task : Obj φ) : Bool :=
  biasPatterns.any fun p => decide (lit p <:+: env.lower (taskContent task))

/-- `is_privacy_compliant`. -/
def isPrivacyCompliant (task : Obj φ) : EngineM σ φ Bool := do
  let audited ← env.ask (.canAudit task)
  pure (audited && !env.secretInText (taskContent task))

/-- The refusal of side effects in `SAFE_STATE`. -/
def safeStateText : Str :=
  lit "execution is in SAFE_STATE (read-only); side-effecting action blocked"

/-- The refusal without a consent grant. -/
def noGrantText (actionType : PyVal φ) : Str :=
  lit "no external consent grant for side-effecting action '" ++ strOf actionType ++ lit "'"

/-- The part of `_evaluate_policy` for consent-gated task types: the refusal, if any. -/
def taskConsent (gated : Bool) (taskType : PyVal φ) : EngineM σ φ (Option Str) :=
  if !gated then pure none
  else do
    let mode ← env.ask .mode
    if mode = .safeState then pure (some safeStateText)
    else do
      let granted ← env.ask (.hasGrant (strOf taskType))
      pure (if granted then none else some (noGrantText taskType))

/-- `needed and not check`, turned round: whether the task passes the check. -/
def ifNeeded (needed : Bool) (check : EngineM σ φ Bool) : EngineM σ φ Bool :=
  if needed then check else pure true

/-- The checks of `_evaluate_policy` after consent. -/
def taskChecks (task : Obj φ) : EngineM σ φ (Bool × Option Str) :=
  if truthy (fetch (lit "manipulative") task) then
    pure (false, some (lit "invariant: no_manipulation"))
  else do
    let explained ← ifNeeded (truthy (fetch (lit "requires_explanation") task))
      (env.ask (.canExplain task))
    if !explained then pure (false, some (lit "cannot provide required explanation"))
    else if detectBias env task then pure (false, some (lit "bias detected"))
    else do
      let compliant ← ifNeeded (truthy (fetch (lit "involves_personal_data") task))
        (isPrivacyCompliant env task)
      if !compliant then pure (false, some (lit "privacy compliance required"))
      else do
        let audited ← ifNeeded (truthy (fetch (lit "requires_audit") task))
          (env.ask (.canAudit task))
        if !audited then pure (false, some (lit "cannot provide required audit trail"))
        else pure (true, none)

/-- `_evaluate_policy`. -/
def evaluatePolicy (task : Obj φ) : EngineM σ φ (Bool × Option Str) := do
  let (allowed, reason) ← env.ask (.checkPolicy task)
  if !allowed then pure (false, reason)
  else
    let taskType := fetch (lit "type") task
    if isText (lit "harmful") taskType then pure (false, some (lit "invariant: no_harm"))
    else do
      let gated ← builtin (valueIn (consentGatedActionTypes env.features) taskType)
      match ← taskConsent env gated taskType with
      | some r => pure (false, some r)
      | none => taskChecks env task

/-! ## The gate of a decision -/

/-- `has_grant_for_attended_action`. -/
def hasGrantForAttendedAction (actionType : Str) (attention : PyVal φ) :
    EngineM σ φ (Bool × Option Str) :=
  match attention with
  | .none => do
      let granted ← env.ask (.hasGrant actionType)
      pure (granted, none)
  | attention =>
      if !(isText (lit "attending") attention || isText (lit "unknown") attention) then
        pure (false, some (lit "human attention is '" ++ strOf attention ++
          lit "' (need 'attending' or 'unknown')"))
      else do
        let granted ← env.ask (.hasGrant actionType)
        if !granted then
          pure (false, some (lit "no external consent grant for '" ++ actionType ++ lit "'"))
        else pure (true, none)

/-- The consent check of `_gate_decision`, with or without an attention state. -/
def consentCheck (actionType attention : PyVal φ) : EngineM σ φ (Bool × Option Str) :=
  match attention with
  | .none => do
      let granted ← env.ask (.hasGrant (strOf actionType))
      pure (if granted then (true, none) else (false, some (noGrantText actionType)))
  | attention => hasGrantForAttendedAction env (strOf actionType) attention

/-- The description that an operator is asked to approve. -/
def approvalRequest (decision : Obj φ) : Obj φ :=
  obj [("action_type", fetch (lit "action_type") decision),
    ("params", env.redact (orElse (fetch (lit "params") decision) (.dict []))),
    ("confidence", fetch (lit "confidence") decision)]

/-- The last part of `_gate_decision`: human approval. -/
def approvalCheck (decision : Obj φ) : EngineM σ φ (Bool × Option Str) := do
  let verdict ← env.ask (.requestApproval (approvalRequest env decision))
  if !verdict.approved then do
    env.ask (.audit (lit "approval_denied") (obj
      [("action_type", fetch (lit "action_type") decision), ("reason", .str verdict.reason)]))
    pure (false, some (lit "approval denied: " ++ verdict.reason))
  else do
    env.ask (.audit (lit "approval_granted") (obj
      [("action_type", fetch (lit "action_type") decision)]))
    pure (true, none)

/-- The part of `_gate_decision` for consent-gated action types. -/
def consentGate (decision : Obj φ) (attention : PyVal φ) : EngineM σ φ (Bool × Option Str) := do
  let mode ← env.ask .mode
  if mode = .safeState then pure (false, some safeStateText)
  else do
    let (ok, reason) ← consentCheck env (fetch (lit "action_type") decision) attention
    if !ok then pure (false, reason)
    else approvalCheck env decision

/-- `_gate_decision`.  An absent attention state is `None`. -/
def gateDecision (decision : Obj φ) (attention : PyVal φ) : EngineM σ φ (Bool × Option Str) := do
  let (allowed, reason) ← env.ask (.checkPolicy decision)
  if !allowed then pure (false, reason)
  else do
    let gated ← builtin
      (valueIn (consentGatedActionTypes env.features) (fetch (lit "action_type") decision))
    if !gated then pure (true, none)
    else consentGate env decision attention

/-! ## Execution -/

/-- `_with_decision_meta`. -/
def withDecisionMeta (result decision : Obj φ) : Obj φ :=
  setDefault (lit "action_type") (fetch (lit "action_type") decision)
    (setDefault (lit "proposal_source") (fetch (lit "proposal_source") decision) result)

/-- The value of `_trace`, without the entries that are `None`. -/
def traceOf (seq : Nat) (decision : Obj φ) : Obj φ :=
  (Key.str (lit "execution_id"), .str (lit ("exe-" ++ toString seq))) ::
    match fetch (lit "decision_id") decision with
    | .none => []
    | id => [(Key.str (lit "decision_id"), id)]

/-- The decision with its lineage, which the policy token binds. -/
def traced (seq : Nat) (decision : Obj φ) : Obj φ :=
  setKey (lit "_trace") (.dict (traceOf seq decision)) decision

/-- `_execute_gated`. -/
def executeGated (decision : Obj φ) : EngineM σ φ (Obj φ) := do
  let seq ← env.ask .nextExecution
  let h ← digest env (traced seq decision)
  let token := obj [("verdict", text "allow"), ("decision_hash", .str h)]
  let result ← execute env (setKey (lit "_policy") (.dict token) (traced seq decision))
  pure (withDecisionMeta result decision)

/-- `0.0`. -/
def zero : PyVal φ := .float (FloatFormat.read ⟨false, [0], [0], none⟩)

/-- The decision of one step. -/
def subDecision (decision : Obj φ) (index : Nat) (step : Obj φ) : Obj φ :=
  obj [("action_type", fetch (lit "action_type") step),
    ("params", orElse (fetch (lit "params") step) (.dict [])),
    ("confidence", (getKey (lit "confidence") decision).getD zero),
    ("model_outputs", (getKey (lit "model_outputs") decision).getD (.dict [])),
    ("step_index", .int index)]

/-- The entry of a step that the gate refused. -/
def refuseStep (sub : Obj φ) (reason : Option Str) : EngineM σ φ (Obj φ) := do
  recordBlock env "step" sub (reasonOr reason "gated")
  pure (report "refused" "reason" (reasonOr reason "gated"))

/-- One round of the loop of `_execute_multi_step`. -/
def executeStep (decision : Obj φ) (index : Nat) : PyVal φ → EngineM σ φ (Obj φ)
  | .dict step => do
      let sub := subDecision decision index step
      -- The gate is called without the attention state of the task.
      let (allowed, reason) ← gateDecision env sub .none
      if !allowed then refuseStep env sub reason
      else do
        env.ask (.consumeStep 1)
        executeGated env sub
  | _ => pure (report "refused" "reason" (lit "invalid step"))

/-- The loop of `_execute_multi_step`. -/
def executeSteps (decision : Obj φ) : Nat → List (PyVal φ) → EngineM σ φ (List (Obj φ))
  | _, [] => pure []
  | index, step :: steps => do
      let result ← executeStep env decision index step
      let results ← executeSteps decision (index + 1) steps
      pure (result :: results)

/-- `(decision.get("params") or {}).get("steps") or []`. -/
def stepsOf (decision : Obj φ) : Except Exn (PyVal φ) :=
  (methodGet (lit "steps") (orElse (fetch (lit "params") decision) (.dict []))).map
    fun steps => orElse steps (.list [])

/-- `_execute_multi_step`. -/
def executeMultiStep (decision : Obj φ) : EngineM σ φ (Obj φ) := do
  let steps ← builtin (stepsOf decision)
  if !truthy steps then do
    recordBlock env "decision" decision (lit "multi-step with no steps")
    pure (report "refused" "reason" (lit "no steps provided"))
  else do
    let steps ← builtin (iterate steps)
    let results ← executeSteps env decision 0 steps
    let succeeded := results.all fun entry => strOf (fetch (lit "status") entry) = lit "success"
    pure (obj [("status", text (if succeeded then "success" else "error")),
      ("steps_results", .list (results.map .dict))])

end Engine

end ShugoCore
