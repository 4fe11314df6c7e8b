import ShugoCore.Fallbacks.Controller
import ShugoCore.Lib.Wp
import ShugoCore.Memory.CoreIdentity

/-!
# What the decision engine works with

A task runs against shared objects: the governor and the fallback controller, the
consent registry, the approval broker, the memory, the models, the handlers.
Other threads use the same objects.  So the engine is a program that makes calls,
and between two of its calls anything may have happened.

* `World` holds the objects whose behaviour is modelled elsewhere, the engine's
  own fields, and the rest as a type variable.
* `Env` answers the calls.  `interfere` is what the other threads did before a
  call, and may be any function of the whole world.  Calls on modelled objects
  are answered by their models, and the others by `reply`, which may return
  anything and raise anything.
* `Run` is the world with the history of the task: each call, the world it was
  answered in, and its answer.

The deterministic helpers that the claims do not depend on, and the digest, are
functions of the environment.
-/

namespace ShugoCore

namespace Engine

open Py

/-- An exception that unwinds the engine: the two it treats by name, and any
other by the name of its class. -/
inductive Raised where
  | halt (reason : String)
  | governor (e : GovernorError)
  | other (name : Str)
deriving DecidableEq

/-- The exceptions of the built-in operations. -/
def Raised.ofExn : Exn → Raised
  | .attributeError => .other (lit "AttributeError")
  | .typeError => .other (lit "TypeError")
  | .valueError => .other (lit "ValueError")
  | .overflowError => .other (lit "OverflowError")
  | .recursionError => .other (lit "RecursionError")

/-- The exceptions of the fallback controller. -/
def Raised.ofFallback : FallbackError → Raised
  | .halt reason => .halt reason
  | .governor e => .governor e

/-- `type(exc).__name__`. -/
def Raised.name : Raised → Str
  | .halt _ => lit "FallbackHalt"
  | .governor _ => lit "GovernorError"
  | .other name => name

/-- The objects of a task.  `rest` stands for every object that is not modelled. -/
structure World (σ : Type) where
  fallbacks : FallbackController
  consents : ConsentRegistry
  /-- Whether Tier 3 has the registry's `has_grant` as its consent checker. -/
  checkerWired : Bool
  /-- `_decision_seq`. -/
  decisionSeq : Nat
  /-- `_task_trail`. -/
  taskTrail : List Str
  /-- `time.time()`. -/
  clock : Seconds
  /-- `time.monotonic()`. -/
  monotonic : Seconds
  /-- Open circuits of the execution layer. -/
  breakers : Nat
  /-- Unconsumed Tier 1 events. -/
  backlog : Option Nat
  rest : σ

/-- The governor of the fallback controller, which is the engine's. -/
abbrev World.governor {σ : Type} (w : World σ) : ExecutionGovernor := w.fallbacks.governor

/-- The built-in executors of `_dispatch`. -/
inductive Tool where
  | apiCall | newsApi | searchApi | databaseUpdate | hardwareInteraction
deriving DecidableEq, Repr

/-- What `request_approval` returns. -/
structure Verdict where
  approved : Bool
  reason : Str
deriving DecidableEq

/-- A call of the engine. -/
inductive Call (φ : Type) where
  | evaluate
  | reportViolation (kind detail : String)
  | beginTask (ref : Option String)
  | step (next : AgentState)
  | consumeStep (count : Int)
  | endTask
  | mode
  | checkPolicy (action : Obj φ)
  | hasGrant (actionType : Str)
  | requestApproval (description : Obj φ)
  /-- `self._decision_seq += 1`. -/
  | nextExecution
  /-- `self._task_trail = []`. -/
  | resetTrail
  | appendTrail (stage : Str)
  /-- `list(self._task_trail)`. -/
  | trail
  | makeDecision (task : Obj φ)
  /-- `subconscious.last_call_errors`. -/
  | callErrors
  | canExplain (task : Obj φ)
  | canAudit (task : Obj φ)
  | recordEvent (kind : Str) (payload : Obj φ)
  | resolveStep
  /-- An entry of the audit chain, whose failure is logged and ignored. -/
  | audit (kind : Str) (payload : Obj φ)
  | updateModelPerformance (task decision result : Obj φ)
  | logDecision (task decision result : Obj φ)
  /-- `_dispatch` is entered. -/
  | dispatch (decision : Obj φ)
  | tool (t : Tool) (decision : Obj φ)
  /-- A registered handler, if there is one. -/
  | handler (name : Str) (decision : Obj φ)

/-- What a call returns. -/
@[reducible] def Answer {φ : Type} : Call φ → Type
  | .mode => AgentState
  | .checkPolicy _ => Bool × Option Str
  | .hasGrant _ => Bool
  | .requestApproval _ => Verdict
  | .nextExecution => Nat
  | .trail => List Str
  | .makeDecision _ => Obj φ
  | .callErrors => List (Str × Str)
  | .canExplain _ => Bool
  | .canAudit _ => Bool
  | .tool _ _ => PyVal φ
  | .handler _ _ => Option (PyVal φ)
  | _ => Unit

/-- What the engine runs in. -/
structure Env (σ φ : Type) where
  features : Features
  hashes : Hashlib
  /-- `redact`. -/
  redact : PyVal φ → PyVal φ
  /-- `str.lower`. -/
  lower : Str → Str
  /-- `_SECRET_IN_TEXT_PATTERN.search`. -/
  secretInText : Str → Bool
  /-- What other threads do to the shared objects before a call. -/
  interfere : World σ → World σ
  /-- The calls on objects that are not modelled. -/
  reply : (call : Call φ) → World σ → Except Raised (Answer call) × σ

/-- A call that was made, with the world it was answered in. -/
structure Event (σ φ : Type) where
  world : World σ
  call : Call φ
  outcome : Except Raised (Answer call)

/-- The world and the history of a task. -/
structure Run (σ φ : Type) where
  world : World σ
  events : List (Event σ φ)

/-- The engine's programs. -/
abbrev EngineM (σ φ α : Type) := Prog Raised (Run σ φ) α

variable {σ φ : Type} [Builtins φ]

/-- A call on the governor. -/
def World.onGovernor (w : World σ) (r : ExecutionGovernor.Result) : Except Raised Unit × World σ :=
  (r.1.mapError .governor, { w with fallbacks := { w.fallbacks with governor := r.2 } })

/-- The consent checker of Tier 3. -/
def World.checker (w : World σ) : Option (Str → Bool) :=
  if w.checkerWired then some (w.consents.hasGrant w.clock) else none

namespace Env

/-- A call that is left to the environment. -/
def ofReply (env : Env σ φ) (w : World σ) (call : Call φ) :
    Except Raised (Answer call) × World σ :=
  ((env.reply call w).1, { w with rest := (env.reply call w).2 })

/-- What a call returns or raises, and the world after it. -/
def answer (env : Env σ φ) (w : World σ) : (call : Call φ) → Except Raised (Answer call) × World σ
  | .evaluate =>
      let r := w.fallbacks.evaluate w.monotonic w.breakers w.backlog
      ((r.1.map fun _ => ()).mapError .ofFallback, { w with fallbacks := r.2 })
  | .reportViolation kind detail =>
      let r := w.fallbacks.reportViolation kind detail
      (r.1.mapError .ofFallback, { w with fallbacks := r.2 })
  | .beginTask ref => w.onGovernor (w.governor.beginTask w.monotonic ref)
  | .step next => w.onGovernor (w.governor.step w.monotonic next)
  | .consumeStep count => w.onGovernor (w.governor.consumeStep w.monotonic count)
  | .endTask => w.onGovernor (.ok (), w.governor.endTask w.monotonic)
  | .mode => (.ok w.governor.mode, w)
  | .checkPolicy action => ((CoreIdentity.check w.checker action).mapError .ofExn, w)
  | .hasGrant actionType => (.ok (w.consents.hasGrant w.clock actionType), w)
  | .nextExecution => (.ok (w.decisionSeq + 1), { w with decisionSeq := w.decisionSeq + 1 })
  | .resetTrail => (.ok (), { w with taskTrail := [] })
  | .appendTrail stage => (.ok (), { w with taskTrail := w.taskTrail ++ [stage] })
  | .trail => (.ok w.taskTrail, w)
  | .audit kind payload => (.ok (), (env.ofReply w (.audit kind payload)).2)
  | .dispatch _ => (.ok (), w)
  | .requestApproval d => env.ofReply w (.requestApproval d)
  | .makeDecision task => env.ofReply w (.makeDecision task)
  | .callErrors => env.ofReply w .callErrors
  | .canExplain task => env.ofReply w (.canExplain task)
  | .canAudit task => env.ofReply w (.canAudit task)
  | .recordEvent kind payload => env.ofReply w (.recordEvent kind payload)
  | .resolveStep => env.ofReply w .resolveStep
  | .updateModelPerformance t d r => env.ofReply w (.updateModelPerformance t d r)
  | .logDecision t d r => env.ofReply w (.logDecision t d r)
  | .tool t d => env.ofReply w (.tool t d)
  | .handler n d => env.ofReply w (.handler n d)

/-- Make a call. -/
def ask (env : Env σ φ) (call : Call φ) : EngineM σ φ (Answer call) := fun s =>
  let w := env.interfere s.world
  let r := env.answer w call
  (r.1, ⟨r.2, s.events ++ [⟨w, call, r.1⟩]⟩)

end Env

/-- Run a built-in operation. -/
def builtin {α : Type} (r : Except Exn α) : EngineM σ φ α := Prog.ofExcept (r.mapError .ofExn)

end Engine

end ShugoCore
