import ShugoCore.Mesh.Routing
import ShugoCore.Robotics.Planner

/-!
# Commands for the robot

`RoboticsExecutionHandler.handle` of `robotics_handler.py`.  A decision to stop latches the
emergency stop and publishes a velocity of zero.  A decision to move is refused while the latch
is on.  Otherwise it is made into a command, which is a message for a topic, and the command is
published.  A failure on the way is raised to the caller.

The connection is what the interface says about itself when it is asked, and the planner is the
planner as it answers this call.  What a read action returns is left out, since it publishes
nothing.
-/

namespace ShugoCore

open Py

variable {φ : Type} [Builtins φ]

/-- What a decision says of a robot action. -/
structure RobotDecision (φ : Type) where
  actionType : Str
  params : PyVal φ

/-- What `__init__` keeps of its arguments. -/
structure RobotConfig where
  maxLinearVelocity : PyFloat ℚ
  maxAngularVelocity : PyFloat ℚ
  workspaceBounds : Dict Str (PyFloat ℚ × PyFloat ℚ)
  jointLimits : JointLimits
  watchdogTimeout : PyFloat ℚ
deriving DecidableEq, Repr

namespace RobotConfig

/-- The workspace, if none is given. -/
def defaultWorkspace : Dict Str (PyFloat ℚ × PyFloat ℚ) :=
  [(lit "x", .finite (-2), .finite 2), (lit "y", .finite (-2), .finite 2),
    (lit "z", .finite 0, .finite 2)]

/-- The configuration of `__init__`. -/
def new (maxLinearVelocity maxAngularVelocity : PyFloat ℚ)
    (workspaceBounds : Dict Str (PyFloat ℚ × PyFloat ℚ)) (jointLimits : JointLimits)
    (watchdogTimeout : PyFloat ℚ) : RobotConfig where
  maxLinearVelocity := PyFloat.max (PyFloat.nearest (1 / 100)) maxLinearVelocity
  maxAngularVelocity := PyFloat.max (PyFloat.nearest (1 / 100)) maxAngularVelocity
  workspaceBounds := if workspaceBounds = [] then defaultWorkspace else workspaceBounds
  jointLimits := jointLimits
  watchdogTimeout := PyFloat.max (PyFloat.nearest (1 / 10)) watchdogTimeout

end RobotConfig

/-- What `handle` returns. -/
inductive RobotReply where
  | navigate (twist : Twist)
  | manipulate (joints : List Str)
  | gripper (position : PyFloat ℚ)
  | look (pan tilt : PyFloat ℚ)
  | emergencyStop
  | reading
  | refused (reason : Str)
  | error (message : Str)
deriving DecidableEq, Repr

/-- `result["status"] == "success"`. -/
def RobotReply.isSuccess : RobotReply → Bool
  | .navigate _ | .manipulate _ | .gripper _ | .look _ _ | .emergencyStop | .reading => true
  | .refused _ | .error _ => false

/-- A motion that is ready to be published. -/
inductive Command where
  | navigate (twist : Twist)
  | manipulate (trajectory : JointTrajectory)
  | gripper (position : PyFloat ℚ)
  | look (pan tilt : PyFloat ℚ)
deriving DecidableEq, Repr

/-! ## Topics and messages -/

def cmdVel : Str := lit "/cmd_vel"

def gripperCmd : Str := lit "/gripper_cmd"

def armController : Str := lit "/arm_controller/follow_joint_trajectory"

def headController : Str := lit "/head_controller/follow_joint_trajectory"

namespace Command

/-- The topic of a command. -/
def topic : Command → Str
  | .navigate _ => cmdVel
  | .manipulate _ => armController
  | .gripper _ => gripperCmd
  | .look _ _ => headController

/-- The message of a command. -/
def message : Command → Message
  | .navigate twist => .twist twist
  | .manipulate trajectory => .trajectory trajectory
  | .gripper position =>
      .trajectory ⟨[lit "gripper_joint"], [⟨[position], [], [], .finite (1 / 2)⟩]⟩
  | .look pan tilt =>
      .trajectory ⟨[lit "neck_pan_joint", lit "neck_tilt_joint"],
        [⟨[pan, tilt], [], [], .finite (1 / 2)⟩]⟩

/-- What is returned after a command.  The velocity is reported as `publish` has left it. -/
def reply : Command → Message → RobotReply
  | .navigate _, .twist sent => .navigate sent
  | .navigate twist, .trajectory _ => .navigate twist
  | .manipulate trajectory, _ => .manipulate trajectory.jointNames
  | .gripper position, _ => .gripper position
  | .look pan tilt, _ => .look pan tilt

theorem isSuccess_reply (c : Command) (sent : Message) : (c.reply sent).isSuccess = true := by
  cases c <;> cases sent <;> rfl

end Command

/-! ## From a decision to a command -/

theorem exists_of_map_ok {α β : Type} {x : Except RobotError α} {f : α → β} {b : β}
    (h : x.map f = .ok b) : ∃ a, x = .ok a ∧ f a = b := by
  cases x with
  | error e => cases h
  | ok a => exact ⟨a, rfl, Except.ok.inj h⟩

/-- A command, or an answer without one. -/
abbrev Prepared := Except RobotError (RobotReply ⊕ Command)

/-- The command that is prepared, if there is one. -/
def Prepared.command : Prepared → Option Command
  | .ok (.inr c) => some c
  | .ok (.inl _) | .error _ => none

section

variable [FloatReader]

/-- An exception of a value. -/
def raised {α : Type} (x : Except Exn α) : Except RobotError α := x.mapError .value

def connectionLost : RobotReply := .refused (lit "ros2 connection lost")

def emergencyStopRefusal : RobotReply :=
  .refused (lit "emergency stop active (operator reset required)")

/-- `decision.get("params") or {}`, which must have a `get`. -/
def robotParams (params : PyVal φ) : Except RobotError (Obj φ) :=
  match orElse params (.dict []) with
  | .dict d => .ok d
  | _ => .error (.value .attributeError)

/-- `float(params.get(key, default))`. -/
def floatParam (params : Obj φ) (key : String) (default : PyFloat ℚ) :
    Except RobotError (PyFloat ℚ) :=
  match getKey (lit key) params with
  | some v => raised (toFloat v)
  | none => .ok default

/-- `_clamp_velocity`. -/
def clampVelocity (value limit : PyFloat ℚ) : PyFloat ℚ := PyFloat.clamp limit.neg limit value

def handleNavigate (c : RobotConfig) (connected : Bool) (params : PyVal φ) : Prepared :=
  if !connected then .ok (.inl connectionLost)
  else do
    let params ← robotParams params
    let linearX ← floatParam params "linear_x" (.finite 0)
    let linearY ← floatParam params "linear_y" (.finite 0)
    let angularZ ← floatParam params "angular_z" (.finite 0)
    return .inr (.navigate
      ⟨⟨clampVelocity linearX c.maxLinearVelocity, clampVelocity linearY c.maxLinearVelocity, .finite 0⟩,
        ⟨.finite 0, .finite 0, clampVelocity angularZ c.maxAngularVelocity⟩⟩)

/-- `target[axis]`, if `axis in target`.  A text and a list have no such item even then. -/
def axisOf (axis : Str) : PyVal φ → Except Exn (Option (PyVal φ))
  | .dict d => .ok (getKey axis d)
  | .str s => if axis <:+: s then .error .typeError else .ok none
  | .list xs => if xs.any (isText axis) then .error .typeError else .ok none
  | _ => .error .typeError

/-- `_check_workspace`, from an axis on. -/
def checkWorkspace (c : RobotConfig) (target : PyVal φ) : List Str → Except Exn Bool
  | [] => .ok true
  | axis :: axes => do
      match ← axisOf axis target with
      | none => checkWorkspace c target axes
      | some v =>
          let bounds := (Dict.get? c.workspaceBounds axis).getD (.negInf, .posInf)
          match numberOf v with
          | none => .error .typeError
          | some x => if x.lt bounds.1 || bounds.2.lt x then .ok false else checkWorkspace c target axes

/-- `float(target.get(axis, 0.0))`. -/
def coordinate (target : PyVal φ) (axis : String) : Except Exn (PyFloat ℚ) :=
  match target with
  | .dict d => match getKey (lit axis) d with
      | some v => toFloat v
      | none => .ok (.finite 0)
  | _ => .error .attributeError

def handleManipulate (c : RobotConfig) (planner : MotionPlanner) (connected : Bool)
    (params : PyVal φ) :
    Prepared := do
  let params ← robotParams params
  let target := getOr "target" (.dict []) params
  if !truthy target then return .inl (.error (lit "no target specified"))
  else if !connected then return .inl connectionLost
  else if !(← raised (checkWorkspace c target [lit "x", lit "y", lit "z"])) then
    return .inl (.refused (lit "target outside workspace bounds"))
  else
    let x ← raised (coordinate target "x")
    let y ← raised (coordinate target "y")
    let z ← raised (coordinate target "z")
    match ← planner.planToPose ⟨x, y, z⟩ with
    | none => return .inl (.error (lit "planning failed"))
    | some trajectory =>
        match planner.validateTrajectory trajectory with
        | .error reason => return .inl (.refused reason)
        | .ok () =>
            if ← planner.checkCollision trajectory then return .inl (.refused (lit "collision detected"))
            else return .inr (.manipulate trajectory)

/-- `str(params.get("action", "")).strip().lower()`. -/
def gripperVerb (params : Obj φ) : Str :=
  lowerLetters (strip (strOf (getOr "action" (.str []) params)))

def handleGripper (connected : Bool) (params : PyVal φ) : Prepared :=
  if !connected then .ok (.inl connectionLost)
  else do
    let params ← robotParams params
    let position ← floatParam params "position" (.finite 0)
    if gripperVerb params = lit "grasp" then
      return .inr (.gripper (← floatParam params "position" (.finite (1 / 2))))
    else if gripperVerb params = lit "release" then
      return .inr (.gripper (← floatParam params "position" (.finite 0)))
    else return .inr (.gripper position)

/-- `_handle_look`, with a second look at the latch. -/
def handleLook (connected stopped : Bool) (params : PyVal φ) : Prepared :=
  if !connected then .ok (.inl connectionLost)
  else if stopped then .ok (.inl (.refused (lit "emergency stop active")))
  else do
    let params ← robotParams params
    let pan ← floatParam params "pan" (.finite 0)
    let tilt ← floatParam params "tilt" (.finite 0)
    return .inr (.look (PyFloat.clamp (.finite (-3 / 2)) (.finite (3 / 2)) pan)
      (PyFloat.clamp (.finite (-1)) (.finite 1) tilt))

/-! ### What the handlers can return -/

theorem handleNavigate_ok {c : RobotConfig} {connected : Bool} {params : PyVal φ}
    {x : RobotReply ⊕ Command} (h : handleNavigate c connected params = .ok x) :
    x = .inl connectionLost ∨ ∃ twist, x = .inr (.navigate twist) := by
  unfold handleNavigate at h
  split at h
  · cases h
    exact .inl rfl
  · obtain ⟨params, -, h⟩ := ok_of_bind h
    obtain ⟨linearX, -, h⟩ := ok_of_bind h
    obtain ⟨linearY, -, h⟩ := ok_of_bind h
    obtain ⟨angularZ, -, h⟩ := ok_of_bind h
    cases h
    exact .inr ⟨_, rfl⟩

/-- Only a trajectory that the planner has made and judged to be valid is a command. -/
theorem handleManipulate_ok {c : RobotConfig} {planner : MotionPlanner} {connected : Bool}
    {params : PyVal φ} {x : RobotReply ⊕ Command}
    (h : handleManipulate c planner connected params = .ok x) :
    (∃ reply, x = .inl reply ∧ reply.isSuccess = false) ∨
      ∃ position trajectory, planner.planToPose position = .ok (some trajectory) ∧
        planner.validateTrajectory trajectory = .ok () ∧ x = .inr (.manipulate trajectory) := by
  unfold handleManipulate at h
  obtain ⟨params, -, h⟩ := ok_of_bind h
  dsimp only at h
  split at h
  · cases h
    exact .inl ⟨_, rfl, rfl⟩
  · split at h
    · cases h
      exact .inl ⟨_, rfl, rfl⟩
    · obtain ⟨inside, -, h⟩ := ok_of_bind h
      split at h
      · cases h
        exact .inl ⟨_, rfl, rfl⟩
      · obtain ⟨px, -, h⟩ := ok_of_bind h
        obtain ⟨py, -, h⟩ := ok_of_bind h
        obtain ⟨pz, -, h⟩ := ok_of_bind h
        obtain ⟨plan, hplan, h⟩ := ok_of_bind h
        split at h
        · cases h
          exact .inl ⟨_, rfl, rfl⟩
        · rename_i trajectory
          split at h
          · cases h
            exact .inl ⟨_, rfl, rfl⟩
          · rename_i hvalid
            obtain ⟨collides, -, h⟩ := ok_of_bind h
            split at h
            · cases h
              exact .inl ⟨_, rfl, rfl⟩
            · cases h
              exact .inr ⟨_, _, hplan, hvalid, rfl⟩

theorem handleGripper_ok {connected : Bool} {params : PyVal φ} {x : RobotReply ⊕ Command}
    (h : handleGripper connected params = .ok x) :
    x = .inl connectionLost ∨ ∃ position, x = .inr (.gripper position) := by
  unfold handleGripper at h
  split at h
  · cases h
    exact .inl rfl
  · obtain ⟨params, -, h⟩ := ok_of_bind h
    obtain ⟨position, -, h⟩ := ok_of_bind h
    split at h
    · obtain ⟨closed, -, h⟩ := ok_of_bind h
      cases h
      exact .inr ⟨_, rfl⟩
    · split at h
      · obtain ⟨opened, -, h⟩ := ok_of_bind h
        cases h
        exact .inr ⟨_, rfl⟩
      · cases h
        exact .inr ⟨_, rfl⟩

/-- A look is a command with numbers. -/
theorem handleLook_ok {connected stopped : Bool} {params : PyVal φ} {x : RobotReply ⊕ Command}
    (h : handleLook connected stopped params = .ok x) :
    (∃ reason, x = .inl (.refused reason)) ∨ ∃ pan tilt,
      pan.isFinite = true ∧ tilt.isFinite = true ∧ x = .inr (.look pan tilt) := by
  unfold handleLook at h
  split at h
  · cases h
    exact .inl ⟨_, rfl⟩
  · split at h
    · cases h
      exact .inl ⟨_, rfl⟩
    · obtain ⟨params, -, h⟩ := ok_of_bind h
      obtain ⟨pan, -, h⟩ := ok_of_bind h
      obtain ⟨tilt, -, h⟩ := ok_of_bind h
      cases h
      exact .inr ⟨_, _, PyFloat.isFinite_clamp rfl rfl pan, PyFloat.isFinite_clamp rfl rfl tilt, rfl⟩

/-! ### The choice of the handler -/

/-- What `handle` does with a decision after the latch check, up to the publishing. -/
def prepare (c : RobotConfig) (planner : MotionPlanner) (connected stopped : Bool)
    (d : RobotDecision φ) :
    Prepared :=
  if d.actionType = lit "robot_navigate" then handleNavigate c connected d.params
  else if d.actionType = lit "robot_manipulate" then handleManipulate c planner connected d.params
  else if d.actionType = lit "robot_gripper" then handleGripper connected d.params
  else if d.actionType = lit "robot_look" then handleLook connected stopped d.params
  else .ok (.inl (.error (lit "unknown robotics action: " ++ d.actionType)))

/-- An answer without a command is no success. -/
theorem not_isSuccess_of_prepare {c : RobotConfig} {planner : MotionPlanner}
    {connected stopped : Bool} {d : RobotDecision φ} {reply : RobotReply}
    (h : prepare c planner connected stopped d = .ok (.inl reply)) : reply.isSuccess = false := by
  unfold prepare at h
  split at h
  · rcases handleNavigate_ok h with h | ⟨twist, h⟩
    · cases h
      rfl
    · cases h
  · split at h
    · rcases handleManipulate_ok h with ⟨reply', h, hfail⟩ | ⟨position, trajectory, -, -, h⟩
      · cases h
        exact hfail
      · cases h
    · split at h
      · rcases handleGripper_ok h with h | ⟨position, h⟩
        · cases h
          rfl
        · cases h
      · split at h
        · rcases handleLook_ok h with ⟨reason, h⟩ | ⟨pan, tilt, -, -, h⟩
          · cases h
            rfl
          · cases h
        · cases h
          rfl

end

/-! ## The handler -/

/-- `RoboticsExecutionHandler`. -/
structure RoboticsHandler where
  config : RobotConfig
  ros2 : Ros2
  emergencyStopActive : Bool
  lastCommandTime : Seconds
deriving DecidableEq, Repr

/-- What a call of `handle` reads besides the handler. -/
structure RobotReadings where
  connected : Bool
  planner : MotionPlanner
  publishedAt : Seconds
  updatedAt : Seconds

namespace RoboticsHandler

/-- `__init__`. -/
def new (config : RobotConfig) (ros2 : Ros2) (now : Seconds) : RoboticsHandler where
  config := config
  ros2 := ((ros2.createPublisher "/cmd_vel" "Twist").createPublisher "/gripper_cmd"
    "JointTrajectory").createPublisher "/arm_controller/follow_joint_trajectory" "JointTrajectory"
  emergencyStopActive := false
  lastCommandTime := now

/-- `_update_watchdog`. -/
def updateWatchdog (h : RoboticsHandler) (now : Seconds) : RoboticsHandler :=
  { h with lastCommandTime := now }

/-- `check_watchdog`. -/
def checkWatchdog (h : RoboticsHandler) (now : Seconds) : Bool :=
  h.config.watchdogTimeout.lt (.finite (now - h.lastCommandTime))

/-- Publish a message. -/
def publish (transport : Transport) (h : RoboticsHandler) (now : Seconds) (topic : Str)
    (m : Message) :
    Except RobotError Message × RoboticsHandler :=
  ((h.ros2.publish transport now topic m).1, { h with ros2 := (h.ros2.publish transport now topic m).2 })

/-- The end of a motion handler: publish and restart the watchdog. -/
def send (transport : Transport) (h : RoboticsHandler) (r : RobotReadings) (c : Command) :
    Except RobotError RobotReply × RoboticsHandler :=
  match h.publish transport r.publishedAt c.topic c.message with
  | (.error e, h) => (.error e, h)
  | (.ok sent, h) => (.ok (c.reply sent), h.updateWatchdog r.updatedAt)

/-- `_handle_stop`. -/
def handleStop (transport : Transport) (h : RoboticsHandler) (r : RobotReadings) :
    Except RobotError RobotReply × RoboticsHandler :=
  match { h with emergencyStopActive := true }.publish transport r.publishedAt cmdVel (.twist .zero) with
  | (.error e, h) => (.error e, h)
  | (.ok _, h) => (.ok .emergencyStop, h)

theorem fst_send (transport : Transport) (h : RoboticsHandler) (r : RobotReadings) (c : Command) :
    (h.send transport r c).1 =
      (h.ros2.publish transport r.publishedAt c.topic c.message).1.map c.reply := by
  simp only [send, publish]
  cases (h.ros2.publish transport r.publishedAt c.topic c.message).1 <;> rfl

@[simp] theorem ros2_send (transport : Transport) (h : RoboticsHandler) (r : RobotReadings)
    (c : Command) :
    (h.send transport r c).2.ros2 = (h.ros2.publish transport r.publishedAt c.topic c.message).2 := by
  simp only [send, publish]
  cases (h.ros2.publish transport r.publishedAt c.topic c.message).1 <;> rfl

theorem fst_handleStop (transport : Transport) (h : RoboticsHandler) (r : RobotReadings) :
    (h.handleStop transport r).1 =
      (h.ros2.publish transport r.publishedAt cmdVel (.twist .zero)).1.map fun _ => .emergencyStop := by
  simp only [handleStop, publish]
  cases (h.ros2.publish transport r.publishedAt cmdVel (.twist .zero)).1 <;> rfl

@[simp] theorem ros2_handleStop (transport : Transport) (h : RoboticsHandler) (r : RobotReadings) :
    (h.handleStop transport r).2.ros2 =
      (h.ros2.publish transport r.publishedAt cmdVel (.twist .zero)).2 := by
  simp only [handleStop, publish]
  cases (h.ros2.publish transport r.publishedAt cmdVel (.twist .zero)).1 <;> rfl

theorem snd_send_of_ok {transport : Transport} {h : RoboticsHandler} {r : RobotReadings} {c : Command}
    {sent : Message} (hok : (h.publish transport r.publishedAt c.topic c.message).1 = .ok sent) :
    (h.send transport r c).2 =
      (h.publish transport r.publishedAt c.topic c.message).2.updateWatchdog r.updatedAt := by
  simp only [send]
  split <;> rename_i heq <;> rw [heq] at hok ⊢
  cases hok

theorem snd_send_of_error {transport : Transport} {h : RoboticsHandler} {r : RobotReadings}
    {c : Command}
    {e : RobotError} (herror : (h.publish transport r.publishedAt c.topic c.message).1 = .error e) :
    (h.send transport r c).2 = (h.publish transport r.publishedAt c.topic c.message).2 := by
  simp only [send]
  split <;> rename_i heq <;> rw [heq] at herror ⊢
  cases herror

theorem snd_handleStop (transport : Transport) (h : RoboticsHandler) (r : RobotReadings) :
    (h.handleStop transport r).2 =
      ({ h with emergencyStopActive := true }.publish transport r.publishedAt cmdVel
        (.twist .zero)).2 := by
  simp only [handleStop]
  split <;> rename_i heq <;> rw [heq]

/-- With a publisher for the topic a command is sent alike on both interfaces. -/
theorem send_stub_eq_real {h : RoboticsHandler} {c : Command}
    (hc : c.topic ∈ h.ros2.publishers.map Prod.fst) (r : RobotReadings) :
    h.send .stub r c = h.send .real r c := by
  simp only [send, publish]
  rw [Ros2.publish_stub_eq_real hc]

theorem handleStop_stub_eq_real {h : RoboticsHandler}
    (hstop : cmdVel ∈ h.ros2.publishers.map Prod.fst)
    (r : RobotReadings) : h.handleStop .stub r = h.handleStop .real r := by
  simp only [handleStop, publish]
  rw [Ros2.publish_stub_eq_real hstop]

/-- `reset_emergency_stop`. -/
def resetEmergencyStop (h : RoboticsHandler) : RoboticsHandler :=
  { h with emergencyStopActive := false }

/-- `ROBOTICS_SAFETY_ACTION_TYPES`. -/
def safetyActionTypes : List Str := [lit "robot_stop"]

/-- `ROBOTICS_READ_ACTION_TYPES`. -/
def readActionTypes : List Str := [lit "robot_query_state", lit "robot_scan"]

/-- The rest of `handle`, once a motion is prepared. -/
def finish (transport : Transport) (h : RoboticsHandler) (r : RobotReadings) :
    Prepared → Except RobotError RobotReply × RoboticsHandler
  | .error e => (.error e, h)
  | .ok (.inl reply) => (.ok reply, h)
  | .ok (.inr c) => h.send transport r c

/-- `handle`. -/
def handle [FloatReader] (transport : Transport) (h : RoboticsHandler) (r : RobotReadings)
    (d : RobotDecision φ) :
    Except RobotError RobotReply × RoboticsHandler :=
  if d.actionType ∈ safetyActionTypes then h.handleStop transport r
  else if d.actionType ∈ readActionTypes then (.ok .reading, h)
  else if h.emergencyStopActive then (.ok emergencyStopRefusal, h)
  else h.finish transport r (prepare h.config r.planner r.connected h.emergencyStopActive d)

end RoboticsHandler

end ShugoCore
