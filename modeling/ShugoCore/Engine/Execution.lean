import ShugoCore.Engine.World

/-!
# The execution layer

`ExecutionLayer.execute` and `_dispatch` of `execution_layer.py`.  A decision is
dispatched only if it carries the digest of its own content; `_dispatch` then picks
an executor by action type and turns every exception into a result.

The executors themselves are calls on the environment.
-/

namespace ShugoCore

namespace Engine

open Py Prog

variable {σ φ : Type} [Builtins φ] (env : Env σ φ)

/-- A text value. -/
def text (s : String) : PyVal φ := .str (lit s)

/-- `{"status": status, key: value}`. -/
def report (status key : String) (value : Str) : Obj φ :=
  obj [("status", text status), (key, .str value)]

/-- `canonical_hash` of a dictionary. -/
def digest (d : Obj φ) : EngineM σ φ Str :=
  match canonicalHash env.hashes (.dict d) with
  | some h => pure h
  | none => raise (.ofExn .typeError)

/-- A registered handler, or `not_implemented` without one. -/
def runHandler (name missing : String) (decision : Obj φ) : EngineM σ φ (PyVal φ) := do
  match ← env.ask (.handler (lit name) decision) with
  | some result => pure result
  | none => pure (.dict (report "not_implemented" "reason" (lit missing)))

/-- The `try` block of `_dispatch`. -/
def dispatchBody (decision : Obj φ) : EngineM σ φ (PyVal φ) :=
  let actionType := fetch (lit "action_type") decision
  if isText (lit "api_call") actionType then env.ask (.tool .apiCall decision)
  else if isText (lit "news_api") actionType then env.ask (.tool .newsApi decision)
  else if isText (lit "search_api") actionType then env.ask (.tool .searchApi decision)
  else if isText (lit "database_update") actionType then env.ask (.tool .databaseUpdate decision)
  else if isText (lit "hardware_interaction") actionType then
    env.ask (.tool .hardwareInteraction decision)
  else if isText (lit "multi_step_process") actionType then
    pure (.dict (report "refused" "reason"
      (lit "multi_step_process must be expanded and individually gated by the decision engine")))
  else if isText (lit "record_observation") actionType then
    runHandler env "record_observation"
      "no handler registered for 'record_observation'; actions are never simulated" decision
  else if isText (lit "speak") actionType then
    runHandler env "speak"
      "no speech provider registered for 'speak'; actions are never simulated" decision
  else if isText (lit "ask_user") actionType then
    runHandler env "ask_user"
      "no speech provider registered for 'ask_user'; actions are never simulated" decision
  else if truthy actionType then do
    match ← env.ask (.handler (strOf actionType) decision) with
    | some result => pure result
    | none => pure (.dict (report "error" "message" (lit "Unknown action type")))
  else pure (.dict (report "error" "message" (lit "Unknown action type")))

/-- `_dispatch`. -/
def dispatch (decision : Obj φ) : EngineM σ φ (PyVal φ) := do
  env.ask (.dispatch decision)
  attempt (dispatchBody env decision) fun e => pure (.dict (report "error" "message" e.name))

/-- `{k: v for k, v in decision.items() if k != "_policy"}`. -/
def clean (decision : Obj φ) : Obj φ := decision.filter fun i => keyNotIn [lit "_policy"] i.1

/-- The branches of `execute` up to the audit entry. -/
def executeVerdict (decision : Obj φ) : EngineM σ φ (PyVal φ) :=
  match fetch (lit "_policy") decision with
  | .dict verdict =>
      if !isText (lit "allow") (fetch (lit "verdict") verdict) then
        pure (.dict (report "refused" "reason" (lit "policy verdict is not 'allow'")))
      else do
        let h ← digest env (clean decision)
        if !isText h (fetch (lit "decision_hash") verdict) then
          pure (.dict (report "refused" "reason"
            (lit "policy verdict does not match decision content")))
        else dispatch env (clean decision)
  | _ => pure (.dict (report "refused" "reason" (lit "missing policy verdict (fail-closed)")))

/-- The last part of `execute`: the audit entry of a result.  Only a dictionary has
the `get` that it calls. -/
def reportExecution (decision : Obj φ) : PyVal φ → EngineM σ φ (Obj φ)
  | .dict result => do
      env.ask (.audit (lit "execution") (obj
        [("action_type", fetch (lit "action_type") (clean decision)),
          ("status", fetch (lit "status") result),
          ("reason", .str (sanitizeText (strOf (orElse (fetch (lit "reason") result)
            (orElse (fetch (lit "message") result) (text "")))) 120))]))
      pure result
  | _ => raise (.ofExn .attributeError)

/-- `execute`. -/
def execute (decision : Obj φ) : EngineM σ φ (Obj φ) := do
  let result ← executeVerdict env decision
  reportExecution env decision result

end Engine

end ShugoCore
