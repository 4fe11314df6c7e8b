import ShugoCore.Governor.Latches
import ShugoCore.Lib.Dict

/-!
# The fallback controller

`fallbacks.py`.  A trigger has a severity, read from the configured table, and
`_fire` passes it on to the governor and then records it in the controller's
own `mode`.  `report_violation` counts violations of two kinds up to a
threshold and fires every other kind at once.  `evaluate` looks at the circuit
breakers, the Tier 1 backlog and the time since the last progress, and fires
what it finds in that order.

The observations that `evaluate` makes of the execution layer, the memory and
the clock are arguments.  The audit entries are best effort and are not part of
the state; `_last_detail` is written and never read, and is left out.
-/

namespace ShugoCore

/-- `FallbackController.mode`. -/
inductive FallbackMode where
  | normal | paused | safeState | halted
deriving DecidableEq, Repr

/-- The three cases of `_fire`. -/
inductive Severity where
  | safeState | pause | halt
deriving DecidableEq, Repr

/-- `_fire` reads a severity text in lower case; what is neither `halt` nor
`safe_state` is a pause. -/
def Severity.ofText (text : String) : Severity :=
  if text.toLower = "halt" then .halt
  else if text.toLower = "safe_state" then .safeState
  else .pause

/-- The latch a severity asks the governor for. -/
def Severity.latch : Severity → Latch
  | safeState => .safeState
  | pause => .paused
  | halt => .halted

/-- The mode a severity records. -/
def Severity.mode : Severity → FallbackMode
  | safeState => .safeState
  | pause => .paused
  | halt => .halted

/-- `DEFAULT_SEVERITIES`. -/
def defaultSeverities : Dict String String :=
  [("circuit_breakers_open", "pause"),
    ("episodic_backlog", "pause"),
    ("maintenance_worker_failure", "pause"),
    ("task_stalled", "safe_state"),
    ("step_budget_exhausted", "safe_state"),
    ("task_deadline_exceeded", "safe_state"),
    ("invariant_violations", "safe_state"),
    ("memory_failure", "halt"),
    ("audit_failure", "halt"),
    ("collision_detected", "halt"),
    ("joint_limit_approached", "safe_state"),
    ("velocity_exceeded", "safe_state"),
    ("acceleration_exceeded", "safe_state"),
    ("workspace_boundary_violated", "safe_state"),
    ("emergency_stop_activated", "halt"),
    ("human_presence_detected", "safe_state"),
    ("planning_failure", "pause"),
    ("ros2_connection_lost", "safe_state"),
    ("gazebo_connection_lost", "pause"),
    ("mobile_node_lost", "pause"),
    ("mobile_sensor_anomaly", "pause"),
    ("android_lifecycle_paused", "pause"),
    ("device_power_low", "pause"),
    ("device_thermal_high", "pause"),
    ("accelerator_failure", "pause"),
    ("network_transport_exhausted", "pause"),
    ("network_peer_lost", "pause"),
    ("memory_sync_conflict_storm", "safe_state"),
    ("audit_chain_broken", "halt")]

/-- `_DEFAULT_THRESHOLDS` and its overrides. -/
structure Thresholds where
  breakersOpen : ℚ := 2
  episodicBacklog : ℚ := 200
  invariantViolations : ℚ := 10
  maintenanceFailures : ℚ := 3
  stallSeconds : ℚ := 120
deriving DecidableEq, Repr

/-- What a call on the controller may raise. -/
inductive FallbackError where
  /-- `FallbackHalt`, with its reason. -/
  | halt (reason : String)
  /-- The `GovernorError` of a refused resume. -/
  | governor (e : GovernorError)
deriving DecidableEq, Repr

/-- The fields of `FallbackController`.  `severities` holds the overrides. -/
structure FallbackController where
  governor : ExecutionGovernor
  thresholds : Thresholds := {}
  severities : Dict String String := []
  mode : FallbackMode := .normal
  violations : Dict String Nat := []
deriving DecidableEq, Repr

/-- What `status` reports. -/
structure FallbackStatus where
  mode : FallbackMode
  governorState : AgentState
  violations : Dict String Nat
deriving DecidableEq, Repr

/-- `f"{x:.1f}"`: one decimal, ties to even. -/
def formatTenths (x : ℚ) : String :=
  let y := |x| * 10
  let low := y.floor
  let n := if y - low < 1 / 2 then low
    else if 1 / 2 < y - low then low + 1
    else if low % 2 = 0 then low else low + 1
  (if x < 0 then "-" else "") ++ toString (n / 10) ++ "." ++ toString (n % 10)

namespace FallbackController

def status (c : FallbackController) : FallbackStatus :=
  ⟨c.mode, c.governor.state, c.violations⟩

/-- The severity configured for a trigger. -/
def severityOf (c : FallbackController) (kind : String) : Severity :=
  .ofText (((c.severities.get? kind).orElse fun _ => defaultSeverities.get? kind).getD "pause")

/-- `_fire`.  The governor is told first; a halt then raises. -/
def fire (c : FallbackController) (kind detail : String) :
    Except FallbackError Unit × FallbackController :=
  match c.severityOf kind with
  | .halt => (.error (.halt (kind ++ ": " ++ (detail.take 150).toString)),
      { c with governor := c.governor.halt, mode := .halted })
  | .safeState => (.ok (), { c with governor := c.governor.safeState, mode := .safeState })
  | .pause => (.ok (), { c with governor := c.governor.pause, mode := .paused })

/-- Fire triggers in order, until one raises. -/
def fireAll (c : FallbackController) :
    List (String × String) → Except FallbackError Unit × FallbackController
  | [] => (.ok (), c)
  | (kind, detail) :: ts =>
      match c.fire kind detail with
      | (.error e, c') => (.error e, c')
      | (.ok _, c') => c'.fireAll ts

/-- The threshold of the kinds in `_THRESHOLDED`. -/
def thresholdOf (c : FallbackController) (kind : String) : Option ℚ :=
  if kind = "invariant_violations" then some c.thresholds.invariantViolations
  else if kind = "maintenance_worker_failure" then some c.thresholds.maintenanceFailures
  else none

/-- The violation count a report of this kind leads to. -/
def countAfter (c : FallbackController) (kind : String) : Nat :=
  (c.violations.get? kind).getD 0 + 1

/-- A report of this kind fires. -/
def Fires (c : FallbackController) (kind : String) : Prop :=
  ∀ t ∈ c.thresholdOf kind, t ≤ (c.countAfter kind : ℚ)

instance (c : FallbackController) (kind : String) : Decidable (c.Fires kind) :=
  inferInstanceAs (Decidable (∀ t ∈ c.thresholdOf kind, _))

def reportViolation (c : FallbackController) (kind detail : String) :
    Except FallbackError Unit × FallbackController :=
  let c' := { c with violations := c.violations.set kind (c.countAfter kind) }
  if c.Fires kind then c'.fire kind detail else (.ok (), c')

/-- The triggers `evaluate` finds, in the order it looks for them.  `breakers` is
the number of open circuits, zero without an execution layer, and `backlog` the
length of Tier 1, if there is a memory. -/
def triggers (c : FallbackController) (now : Seconds) (breakers : Nat) (backlog : Option Nat) :
    List (String × String) :=
  (if c.thresholds.breakersOpen ≤ breakers then
    [("circuit_breakers_open", toString breakers ++ " open circuit(s)")] else []) ++
  (match backlog with
    | some n => if c.thresholds.episodicBacklog ≤ n then
        [("episodic_backlog", toString n ++ " unconsumed Tier 1 events")] else []
    | none => []) ++
  (match c.governor.secondsSinceProgress now with
    | some stalled => if c.thresholds.stallSeconds < stalled then
        [("task_stalled", "no progress for " ++ formatTenths stalled ++ "s")] else []
    | none => [])

def evaluate (c : FallbackController) (now : Seconds) (breakers : Nat) (backlog : Option Nat) :
    Except FallbackError FallbackStatus × FallbackController :=
  if c.mode ≠ .normal then (.ok c.status, c)
  else
    match c.fireAll (c.triggers now breakers backlog) with
    | (.error e, c') => (.error e, c')
    | (.ok _, c') => (.ok c'.status, c')

def resume (c : FallbackController) (now : Seconds) (resumedBy : String) :
    Except FallbackError Unit × FallbackController :=
  match c.governor.resume now resumedBy with
  | (.error e, g) => (.error (.governor e), { c with governor := g })
  | (.ok _, g) => (.ok (), { c with governor := g, violations := [], mode := .normal })

/-! ## Runs -/

/-- A call on the controller, or a call that a task makes on its governor. -/
inductive Op where
  | reportViolation (kind detail : String)
  | evaluate (now : Seconds) (breakers : Nat) (backlog : Option Nat)
  | resume (now : Seconds) (resumedBy : String)
  | task (c : ExecutionGovernor.TaskCall)
deriving DecidableEq, Repr

/-- The state after a call. -/
def exec (c : FallbackController) : Op → FallbackController
  | .reportViolation kind detail => (c.reportViolation kind detail).2
  | .evaluate now breakers backlog => (c.evaluate now breakers backlog).2
  | .resume now by' => (c.resume now by').2
  | .task t => { c with governor := c.governor.exec t.op }

/-- A controller over a fresh governor, with any configuration. -/
def new (budget : Int) (deadline : Seconds) (thresholds : Thresholds)
    (severities : Dict String String) : FallbackController where
  governor := .new budget deadline
  thresholds := thresholds
  severities := severities

/-! ## What firing does -/

/-- A trigger leaves the configuration alone, asks the governor for the latch of
its severity, and records the mode of its severity. -/
theorem fire_snd (c : FallbackController) (kind detail : String) :
    (c.fire kind detail).2 =
      { c with
        governor := c.governor.latch (c.severityOf kind).latch
        mode := (c.severityOf kind).mode } := by
  simp only [fire]
  cases c.severityOf kind <;> rfl

/-- A trigger raises exactly when its severity is a halt. -/
theorem fire_raises_iff (c : FallbackController) (kind detail : String) :
    Raises (c.fire kind detail).1 ↔ c.severityOf kind = .halt := by
  simp only [fire]
  cases c.severityOf kind <;> simp

@[simp] theorem severityOf_fire (c : FallbackController) (kind detail kind' : String) :
    (c.fire kind detail).2.severityOf kind' = c.severityOf kind' := by
  rw [fire_snd]
  rfl

/-- A list of triggers fires its head and, unless that is a halt, its tail. -/
theorem fireAll_cons (c : FallbackController) (kind detail : String) (ts : List (String × String)) :
    (c.fireAll ((kind, detail) :: ts)).2 =
      if c.severityOf kind = .halt then (c.fire kind detail).2
      else ((c.fire kind detail).2.fireAll ts).2 := by
  have hr := fire_raises_iff c kind detail
  rw [fireAll]
  split
  · rename_i he
    rw [he] at hr
    rw [if_pos (hr.1 (raises_error _)), he]
  · rename_i he
    rw [he] at hr
    rw [if_neg fun h => not_raises_ok _ (hr.2 h), he]

/-- A report fires or only counts. -/
theorem reportViolation_snd (c : FallbackController) (kind detail : String) :
    (c.reportViolation kind detail).2 =
      if c.Fires kind then
        { c with
          violations := c.violations.set kind (c.countAfter kind)
          governor := c.governor.latch (c.severityOf kind).latch
          mode := (c.severityOf kind).mode }
      else { c with violations := c.violations.set kind (c.countAfter kind) } := by
  simp only [reportViolation]
  split
  · rw [fire_snd]; rfl
  · rfl

theorem evaluate_snd (c : FallbackController) (now : Seconds) (breakers : Nat)
    (backlog : Option Nat) :
    (c.evaluate now breakers backlog).2 =
      if c.mode = .normal then (c.fireAll (c.triggers now breakers backlog)).2 else c := by
  simp only [evaluate]
  by_cases hm : c.mode = .normal
  · rw [if_neg (not_not.2 hm), if_pos hm]
    split <;> rename_i he <;> rw [he]
  · rw [if_pos hm, if_neg hm]

/-- A resume either is refused and changes nothing, or lifts the latch, returns the
controller to normal and counts as progress. -/
theorem resume_cases (c : FallbackController) (now : Seconds) (by' : String) :
    (Raises (c.resume now by').1 ∧ (c.resume now by').2 = c) ∨
    ((c.resume now by').1 = .ok () ∧ (c.resume now by').2.mode = .normal ∧
      (c.resume now by').2.governor = (c.governor.resume now by').2 ∧
      (c.resume now by').2.governor.latched = none ∧
      (c.resume now by').2.governor.lastProgressAt = some now) := by
  simp only [resume]
  rcases c.governor.resume_cases now by' with ⟨⟨e, hr⟩, he⟩ | ⟨hok, -, he⟩
  · refine .inl ?_
    rw [show c.governor.resume now by' = (.error e, c.governor) from Prod.ext hr he]
    exact ⟨raises_error _, rfl⟩
  · refine .inr ?_
    rw [show c.governor.resume now by' = (.ok (), (c.governor.resume now by').2) from
      Prod.ext hok rfl]
    exact ⟨rfl, rfl, rfl, by rw [he], by rw [he]⟩

end FallbackController

end ShugoCore
