import ShugoCore.Robotics.Delivery

/-!
# Joint limits

Limits for the joints are given to the handler and to the planner.  The handler keeps its own
and never looks at them.  The stub planner compares a trajectory with its limits, and as long as
these are numbers every position it lets through is inside them.  The MoveIt planner compares
nothing.  The gripper goes where it is told to, and the head is cut off at limits of its own.

So a position that is published is inside the limits exactly when it happens to be
(`joint_limits_hold_iff`).
-/

namespace ShugoCore

open Py Machine

/-- A position is inside the limits of a joint, if it has any. -/
def JointLimits.Allow (limits : JointLimits) (name : Str) (position : PyFloat ℚ) : Prop :=
  ∀ bounds ∈ Dict.get? limits name, bounds.1.le position = true ∧ position.le bounds.2 = true

/-- Every position of a trajectory is inside the limits of its joint. -/
def WithinLimits (limits : JointLimits) (t : JointTrajectory) : Prop :=
  ∀ point ∈ t.points, ∀ joint ∈ t.jointNames.zip point.positions, limits.Allow joint.1 joint.2

/-- What a trajectory comes to once NaNs and infinities are zeroed. -/
theorem withinLimits_zeroed {limits : JointLimits} {t : JointTrajectory} :
    WithinLimits limits t.zeroed ↔ ∀ point ∈ t.points, ∀ joint ∈ t.jointNames.zip point.positions,
      limits.Allow joint.1 (zeroed joint.2) := by
  simp only [WithinLimits, JointTrajectory.zeroed]
  rw [List.forall_mem_map]
  refine forall₂_congr fun point _ => ?_
  rw [JointTrajectoryPoint.zeroed, List.zip_map_right, List.forall_mem_map]
  rfl

/-! ## The stub planner -/

namespace StubMoveItPlanner

/-- The limits are numbers. -/
def FiniteLimits (s : StubMoveItPlanner) : Prop :=
  ∀ i ∈ s.jointLimits, i.2.1.isFinite = true ∧ i.2.2.isFinite = true

/-- Every position of a plan was cut off at the limits of its joint. -/
theorem clamped_of_ikPositions {s : StubMoveItPlanner} {position : Vector3} {i : Nat}
    {names : List Str}
    {positions : List (PyFloat ℚ)} (h : s.ikPositions position i names = .ok positions) :
    ∀ joint ∈ names.zip positions, ∃ v,
      joint.2 = PyFloat.clamp (s.limitsOf joint.1).1 (s.limitsOf joint.1).2 v := by
  induction names generalizing i positions with
  | nil => exact fun joint hjoint => by simp at hjoint
  | cons name names ih =>
      rw [ikPositions] at h
      obtain ⟨pos, -, h⟩ := ok_of_bind h
      obtain ⟨rest, hrest, h⟩ := ok_of_bind h
      cases h
      intro joint hjoint
      rcases List.mem_cons.1 hjoint with rfl | hjoint
      · exact ⟨pos, rfl⟩
      · exact ih hrest joint hjoint

/-- A valid trajectory has no joint outside its limits. -/
theorem not_outside_of_valid {s : StubMoveItPlanner} {t : JointTrajectory}
    (h : s.validateTrajectory t = .ok ()) :
    ∀ point ∈ t.points, ∀ joint ∈ t.jointNames.zip point.positions, s.outside joint = false := by
  unfold validateTrajectory at h
  split at h
  · cases h
  · split at h
    · cases h
    · rename_i hnone
      intro point hpoint joint hjoint
      have hfind := List.findSome?_eq_none_iff.1 hnone point hpoint
      rw [Option.map_eq_none_iff, List.find?_eq_none] at hfind
      simpa using hfind joint hjoint

theorem planToPose_ok {s : StubMoveItPlanner} {position : Vector3} {t : JointTrajectory}
    (h : s.planToPose position = .ok (some t)) :
    ∃ positions, s.ikPositions position 0 s.jointNames = .ok positions ∧
      t = ⟨s.jointNames, [⟨positions, [], [], .finite 1⟩]⟩ := by
  obtain ⟨positions, hpositions, h⟩ := ok_of_bind h
  cases h
  exact ⟨positions, hpositions, rfl⟩

/-- What the stub plans and judges to be valid is inside its limits, if they are numbers. -/
theorem withinLimits_of_valid {s : StubMoveItPlanner} (hfinite : s.FiniteLimits) {position : Vector3}
    {t : JointTrajectory} (hplan : s.planToPose position = .ok (some t))
    (hvalid : s.validateTrajectory t = .ok ()) : WithinLimits s.jointLimits t.zeroed := by
  rw [withinLimits_zeroed]
  intro point hpoint joint hjoint bounds hbounds
  have hinside := not_outside_of_valid hvalid point hpoint joint hjoint
  obtain ⟨positions, hpositions, rfl⟩ := planToPose_ok hplan
  obtain rfl := List.mem_singleton.1 hpoint
  have hlimits : s.limitsOf joint.1 = bounds := by
    rw [limitsOf, Option.mem_def.1 hbounds]
    rfl
  have hnumbers := hfinite _ (Dict.mem_of_get? hbounds)
  obtain ⟨v, hv⟩ := clamped_of_ikPositions hpositions joint hjoint
  have hnumber : joint.2.isFinite = true := by
    rw [hv, hlimits]
    exact PyFloat.isFinite_clamp hnumbers.1 hnumbers.2 v
  rw [outside, hlimits, Bool.or_eq_false_iff] at hinside
  rw [zeroed, if_pos hnumber]
  obtain ⟨lo, hi⟩ := bounds
  obtain ⟨name, x⟩ := joint
  cases lo <;> cases hi <;> cases x <;> simp_all [PyFloat.lt, PyFloat.le, PyFloat.isFinite]

end StubMoveItPlanner

/-! ## What a call asks for -/

/-- The positions of the joints that a planner plans for a pose: what the stub computes, and what the
planning group returns. -/
def MotionPlanner.Moves (planner : MotionPlanner) (position : Vector3) (joint : Str × PyFloat ℚ) :
    Prop :=
  match planner with
  | .stub s => ∃ positions, s.ikPositions position 0 s.jointNames = .ok positions ∧
      joint ∈ s.jointNames.zip positions
  | .moveIt m => ∃ points, m.plan position = some points ∧
      ∃ point ∈ points, joint ∈ m.jointNames.zip point.positions

/-- The planner compares the positions with limits that are numbers. -/
def MotionPlanner.Compares : MotionPlanner → Prop
  | .stub s => s.FiniteLimits
  | .moveIt _ => False

/-- The planner finds nothing wrong with a trajectory. -/
def MotionPlanner.Approves (planner : MotionPlanner) (t : JointTrajectory) : Prop :=
  planner.validateTrajectory t = .ok () ∧ planner.checkCollision t = .ok false

theorem MotionPlanner.moves_iff {planner : MotionPlanner} {position : Vector3} {t : JointTrajectory}
    (hplan : planner.planToPose position = .ok (some t)) {joint : Str × PyFloat ℚ} :
    planner.Moves position joint ↔ ∃ point ∈ t.points, joint ∈ t.jointNames.zip point.positions := by
  cases planner with
  | stub s =>
      obtain ⟨positions, hpositions, rfl⟩ := StubMoveItPlanner.planToPose_ok hplan
      simp [Moves, hpositions]
  | moveIt m =>
      obtain ⟨points, hpoints, rfl⟩ := Option.map_eq_some_iff.1 (Except.ok.inj hplan)
      simp [Moves, hpoints]

/-- A trajectory that MoveIt lets through does not go back in time. -/
theorem MoveItPlanner.decreases_of_timeViolation {i : Nat} {points : List JointTrajectoryPoint}
    (h : MoveItPlanner.timeViolation i points = none) : decreases points = false := by
  induction points generalizing i with
  | nil => rfl
  | cons p points ih =>
      cases points with
      | nil => rfl
      | cons q points =>
          rw [MoveItPlanner.timeViolation] at h
          split at h
          · cases h
          · rename_i hlt
            rw [decreases, ih h, Bool.or_false]
            simpa using hlt

/-- Nor does any plan that its planner lets through. -/
theorem MotionPlanner.decreases_of_valid {planner : MotionPlanner} {position : Vector3}
    {t : JointTrajectory} (hplan : planner.planToPose position = .ok (some t))
    (hvalid : planner.validateTrajectory t = .ok ()) : decreases t.points = false := by
  cases planner with
  | stub s =>
      obtain ⟨positions, -, rfl⟩ := StubMoveItPlanner.planToPose_ok hplan
      rfl
  | moveIt m =>
      dsimp only [validateTrajectory, MoveItPlanner.validateTrajectory] at hvalid
      split_ifs at hvalid
      split at hvalid
      · cases hvalid
      · split at hvalid
        · cases hvalid
        · rename_i htime
          exact MoveItPlanner.decreases_of_timeViolation htime

/-- What a planner that compares has planned and let through is inside its limits. -/
theorem MotionPlanner.allow_of_compares {planner : MotionPlanner} (hcompares : planner.Compares)
    {position : Vector3} {t : JointTrajectory} (hplan : planner.planToPose position = .ok (some t))
    (hvalid : planner.validateTrajectory t = .ok ()) : WithinLimits planner.jointLimits t.zeroed := by
  cases planner with
  | stub s => exact StubMoveItPlanner.withinLimits_of_valid hcompares hplan hvalid
  | moveIt m => exact hcompares.elim

section

variable {φ : Type} [Builtins φ] [FloatReader]

/-- The pose that the parameters of `robot_manipulate` ask for, inside the workspace. -/
def AsksPose (c : RobotConfig) (params : PyVal φ) (position : Vector3) : Prop :=
  ∃ p, robotParams params = .ok p ∧ truthy (getOr "target" (.dict []) p) = true ∧
    checkWorkspace c (getOr "target" (.dict []) p) [lit "x", lit "y", lit "z"] = .ok true ∧
    coordinate (getOr "target" (.dict []) p) "x" = .ok position.x ∧
    coordinate (getOr "target" (.dict []) p) "y" = .ok position.y ∧
    coordinate (getOr "target" (.dict []) p) "z" = .ok position.z

/-- The position that the parameters of `robot_gripper` ask for. -/
def gripperPosition (params : PyVal φ) : Except RobotError (PyFloat ℚ) := do
  let p ← robotParams params
  floatParam p "position" (.finite (if gripperVerb p = lit "grasp" then 1 / 2 else 0))

/-- The pan and the tilt that the parameters of `robot_look` ask for. -/
def lookAngles (params : PyVal φ) : Except RobotError (PyFloat ℚ × PyFloat ℚ) := do
  let p ← robotParams params
  return (← floatParam p "pan" (.finite 0), ← floatParam p "tilt" (.finite 0))

omit [FloatReader] in
theorem raised_ok_iff {α : Type} {x : Except Exn α} {a : α} : raised x = .ok a ↔ x = .ok a := by
  cases x <;> simp [raised, Except.mapError]

theorem handleGripper_eq (params : PyVal φ) :
    handleGripper true params = (gripperPosition params).map fun position => .inr (.gripper position) := by
  simp only [handleGripper, gripperPosition, Bool.not_true, Bool.false_eq_true, if_false]
  cases robotParams params with
  | error e => rfl
  | ok p =>
      dsimp only [bind, Except.bind]
      simp only [floatParam]
      cases hkey : getKey (lit "position") p with
      | none =>
          by_cases hgrasp : gripperVerb p = lit "grasp"
          · simp only [hgrasp, if_true]
            rfl
          · simp only [hgrasp, if_false]
            split <;> rfl
      | some v =>
          dsimp only
          cases raised (toFloat v) with
          | error e => rfl
          | ok position =>
              dsimp only
              split
              · rfl
              · split <;> rfl

theorem handleLook_eq (params : PyVal φ) :
    handleLook true false params = (lookAngles params).map fun angles =>
      .inr (.look (PyFloat.clamp (.finite (-3 / 2)) (.finite (3 / 2)) angles.1)
        (PyFloat.clamp (.finite (-1)) (.finite 1) angles.2)) := by
  simp only [handleLook, lookAngles, Bool.not_true, Bool.false_eq_true, if_false]
  cases robotParams params with
  | error e => rfl
  | ok p =>
      dsimp only [bind, Except.bind]
      cases floatParam p "pan" (.finite 0) with
      | error e => rfl
      | ok pan =>
          dsimp only
          cases floatParam p "tilt" (.finite 0) with
          | error e => rfl
          | ok tilt => rfl

theorem handleManipulate_eq_iff {c : RobotConfig} {planner : MotionPlanner} {params : PyVal φ}
    {t : JointTrajectory} :
    handleManipulate c planner true params = .ok (.inr (.manipulate t)) ↔
      ∃ position, AsksPose c params position ∧ planner.planToPose position = .ok (some t) ∧
        planner.Approves t := by
  constructor
  · intro h
    unfold handleManipulate at h
    obtain ⟨p, hp, h⟩ := ok_of_bind h
    dsimp only at h
    split at h
    · cases h
    · rename_i htarget
      rw [if_neg (by simp)] at h
      obtain ⟨inside, hinside, h⟩ := ok_of_bind h
      split at h
      · cases h
      · rename_i hinside'
        obtain ⟨x, hx, h⟩ := ok_of_bind h
        obtain ⟨y, hy, h⟩ := ok_of_bind h
        obtain ⟨z, hz, h⟩ := ok_of_bind h
        obtain ⟨plan, hplan, h⟩ := ok_of_bind h
        obtain rfl : inside = true := by simpa using hinside'
        have hasks : AsksPose c params ⟨x, y, z⟩ :=
          ⟨p, hp, by simpa using htarget, raised_ok_iff.1 hinside, raised_ok_iff.1 hx,
            raised_ok_iff.1 hy, raised_ok_iff.1 hz⟩
        split at h
        · cases h
        · split at h
          · cases h
          · rename_i hvalid
            obtain ⟨collides, hcollides, h⟩ := ok_of_bind h
            split at h
            · cases h
            · rename_i hfree
              obtain rfl : collides = false := by simpa using hfree
              cases h
              exact ⟨_, hasks, hplan, hvalid, hcollides⟩
  · rintro ⟨⟨x, y, z⟩, ⟨p, hp, htarget, hinside, hx, hy, hz⟩, hplan, hvalid, hfree⟩
    unfold handleManipulate
    simp only [hp, htarget, hinside, hx, hy, hz, hplan, hvalid, hfree, raised, Except.mapError, bind,
      Except.bind, pure, Except.pure, Bool.not_true, Bool.false_eq_true, if_false]

end

namespace RoboticsHandler

/-- A position is inside the limits of the handler and of the planner. -/
def Allows (h : RoboticsHandler) (planner : MotionPlanner) (name : Str) (position : PyFloat ℚ) :
    Prop :=
  h.config.jointLimits.Allow name position ∧ planner.jointLimits.Allow name position

/-- A motion is not refused, its topic has a publisher, and the interval of the topic is over. -/
structure Free (transport : Transport) (h : RoboticsHandler) (r : RobotReadings) (topic : Str) :
    Prop where
  running : h.emergencyStopActive = false
  connected : r.connected = true
  publisher : transport = .real → (Dict.get? h.ros2.publishers topic).isSome = true
  inTime : ∀ last ∈ Dict.get? h.ros2.lastPublishTime topic, h.ros2.minInterval ≤ r.publishedAt - last

section

variable {φ : Type} [Builtins φ] [FloatReader]

/-- Every trajectory that an operation publishes is inside the limits of the handler and of the
planner. -/
def PublishesInside (transport : Transport) (h : RoboticsHandler) : Operation φ → Prop
  | .handle r action params =>
      ∀ entry ∈ (h.act transport r action params).2.ros2.log.drop h.ros2.log.length,
        ∀ t, entry.2 = .trajectory t →
          WithinLimits h.config.jointLimits t ∧ WithinLimits r.planner.jointLimits t
  | .reset => True

/-- What the parameters ask for is inside the limits, unless the motion is refused or dropped: the
position of the gripper, the pan and the tilt as they are cut off, and the positions that the planner
plans for the pose.  Its own limits are kept by a planner that compares. -/
def AsksInside (transport : Transport) (h : RoboticsHandler) : Operation φ → Prop
  | .handle r .gripper params => h.Free transport r gripperCmd →
      ∀ position, gripperPosition params = .ok position →
        h.Allows r.planner (lit "gripper_joint") (zeroed position)
  | .handle r .look params => h.Free transport r headController →
      ∀ pan tilt, lookAngles params = .ok (pan, tilt) →
        h.Allows r.planner (lit "neck_pan_joint")
          (PyFloat.clamp (.finite (-3 / 2)) (.finite (3 / 2)) pan) ∧
        h.Allows r.planner (lit "neck_tilt_joint") (PyFloat.clamp (.finite (-1)) (.finite 1) tilt)
  | .handle r .manipulate params => h.Free transport r armController →
      ∀ position t, AsksPose h.config params position →
        r.planner.planToPose position = .ok (some t) → r.planner.Approves t →
        ∀ joint, r.planner.Moves position joint →
          h.config.jointLimits.Allow joint.1 (zeroed joint.2) ∧
            (r.planner.Compares ∨ r.planner.jointLimits.Allow joint.1 (zeroed joint.2))
  | .handle _ .navigate _ | .handle _ .stop _ | .reset => True

/-! ## One call -/

variable {transport : Transport} {h : RoboticsHandler} {r : RobotReadings} {action : RobotAction}
  {params : PyVal φ}

/-- A call without a command publishes no trajectory. -/
theorem publishesInside_of_none (hnone : h.commandOf r action params = none) :
    h.PublishesInside transport (.handle r action params) := by
  rcases h.act_cases r action params with
    ⟨rfl, hact⟩ | ⟨-, result, hact, -⟩ | ⟨c, hc, -, -⟩
  · dsimp only [PublishesInside]
    rw [hact, ros2_handleStop, Ros2.log_publish, List.drop_left]
    rintro ⟨topic, m⟩ hentry t rfl
    cases (Ros2.mem_added hentry).2
  · dsimp only [PublishesInside]
    rw [hact]
    simp
  · rw [hnone] at hc
    cases hc

omit [FloatReader] in
/-- A trajectory that names joints, and whose times do not go back, passes the check. -/
theorem validate_of_forward {t : JointTrajectory} (hnames : t.jointNames ≠ [])
    (hforward : decreases t.points = false) :
    (Message.trajectory t).validate = .ok (.trajectory t.zeroed) := by
  simp only [Message.validate, validateJointTrajectory, if_neg hnames, hforward, Bool.false_eq_true,
    if_false]
  rfl

omit [FloatReader] in
/-- The real interface looks for a publisher first. -/
theorem outgoing_of_publisher {ros : Ros2} {topic : Str} {m : Message}
    (hpublisher : transport = .real → (Dict.get? ros.publishers topic).isSome = true) :
    ros.outgoing transport topic m = m.validate := by
  cases transport with
  | stub => rfl
  | real =>
      obtain ⟨msgType, hmsg⟩ := Option.isSome_iff_exists.1 (hpublisher rfl)
      simp only [Ros2.outgoing, hmsg]

/-- A command that moves joints publishes its trajectory, zeroed, if it is not dropped and passes the
check. -/
theorem publishesInside_of_command {c : Command} (hc : h.commandOf r action params = some c)
    {t : JointTrajectory} (hm : c.message = .trajectory t) (hforward : decreases t.points = false) :
    h.PublishesInside transport (.handle r action params) ↔
      ((transport = .real → (Dict.get? h.ros2.publishers c.topic).isSome = true) →
        (∀ last ∈ Dict.get? h.ros2.lastPublishTime c.topic,
          h.ros2.minInterval ≤ r.publishedAt - last) →
        WithinLimits h.config.jointLimits t.zeroed ∧ WithinLimits r.planner.jointLimits t.zeroed) := by
  have hnever : t.jointNames = [] → ∀ limits, WithinLimits limits t.zeroed := by
    intro hnames limits
    rw [withinLimits_zeroed, hnames]
    intro point _ joint hjoint
    cases hjoint
  rcases h.act_cases r action params with
    ⟨rfl, -⟩ | ⟨hnone, -⟩ | ⟨c', hc', -, hact⟩
  · simp [commandOf] at hc
  · rw [hnone] at hc
    cases hc
  obtain rfl : c = c' := Option.some.inj (hc.symm.trans hc')
  dsimp only [PublishesInside]
  rw [hact, ros2_send, Ros2.log_publish, List.drop_left]
  have hlimited : h.ros2.limited r.publishedAt c.topic c.message = false ↔
      c.message.isEmergencyStop = true ∨
        ∀ last ∈ Dict.get? h.ros2.lastPublishTime c.topic, h.ros2.minInterval ≤ r.publishedAt - last :=
    Ros2.limited_eq_false_iff
  rw [hm] at hlimited ⊢
  simp only [Message.isEmergencyStop, Bool.false_eq_true, false_or] at hlimited
  rw [← hlimited]
  by_cases hnames : t.jointNames = []
  · refine iff_of_true (fun entry hentry t' ht' => ?_) fun _ _ => ⟨hnever hnames _, hnever hnames _⟩
    have hsent := Message.validate_trajectory (Ros2.mem_added hentry).2
    rw [ht', Message.trajectory.injEq] at hsent
    rw [hsent]
    exact ⟨hnever hnames _, hnever hnames _⟩
  simp only [Ros2.added]
  by_cases hdropped : h.ros2.limited r.publishedAt c.topic (.trajectory t) = true
  · rw [if_pos hdropped, hdropped]
    simp
  rw [if_neg hdropped]
  rw [Bool.not_eq_true] at hdropped
  by_cases hpublisher : transport = .real → (Dict.get? h.ros2.publishers c.topic).isSome = true
  · have hout : h.ros2.outgoing transport c.topic (.trajectory t) = .ok (.trajectory t.zeroed) :=
      (outgoing_of_publisher hpublisher).trans (validate_of_forward hnames hforward)
    rw [hout]
    constructor
    · exact fun hinside _ _ => hinside (c.topic, .trajectory t.zeroed) (List.mem_singleton.2 rfl) _ rfl
    · rintro hinside entry hentry t' ht'
      rw [List.mem_singleton.1 hentry, Message.trajectory.injEq] at ht'
      exact ht' ▸ hinside hpublisher hdropped
  · refine iff_of_true ?_ fun hpub => absurd hpub hpublisher
    obtain ⟨rfl, hnone⟩ := not_forall.1 hpublisher
    rw [Bool.not_eq_true, Option.isSome_eq_false_iff, Option.isNone_iff_eq_none] at hnone
    simp [Ros2.outgoing, hnone, Except.toOption]

/-- A robot that is not connected gets no command. -/
theorem connected_of_prepare {c : RobotConfig} {planner : MotionPlanner} {connected stopped : Bool}
    {d : RobotDecision φ} {command : Command}
    (h : prepare c planner connected stopped d = .ok (.inr command)) : connected = true := by
  cases connected with
  | true => rfl
  | false =>
      unfold prepare at h
      split at h
      · cases h
      · split at h
        · unfold handleManipulate at h
          obtain ⟨p, -, h⟩ := ok_of_bind h
          dsimp only at h
          split at h
          · cases h
          · cases h
        · split at h
          · cases h
          · split at h <;> cases h

/-- An action whose commands move joints publishes inside the limits if and only if each command that
it is free to send does. -/
theorem publishesInside_iff_prepare (topic : Str) (hstop : action ≠ .stop)
    (hmoves : ∀ c, prepare h.config r.planner true false ⟨action.actionType, params⟩ = .ok (.inr c) →
      c.topic = topic ∧ ∃ t, c.message = .trajectory t ∧ decreases t.points = false) :
    h.PublishesInside transport (.handle r action params) ↔ (h.Free transport r topic →
      ∀ c t, prepare h.config r.planner true false ⟨action.actionType, params⟩ = .ok (.inr c) →
        c.message = .trajectory t →
        WithinLimits h.config.jointLimits t.zeroed ∧ WithinLimits r.planner.jointLimits t.zeroed) := by
  cases hc : h.commandOf r action params with
  | none =>
      refine iff_of_true (publishesInside_of_none hc) fun hfree c t hprepare _ => ?_
      rw [commandOf, if_neg (by simp [hstop, hfree.running]), hfree.connected, hprepare] at hc
      cases hc
  | some c =>
      have hrunning : h.emergencyStopActive = false := by
        by_contra hactive
        rw [commandOf, if_pos (.inr (by simpa using hactive))] at hc
        cases hc
      have hprepare : prepare h.config r.planner r.connected false ⟨action.actionType, params⟩ =
          .ok (.inr c) := by
        rw [commandOf, if_neg (by simp [hstop, hrunning])] at hc
        unfold Prepared.command at hc
        split at hc
        · rename_i c' hprepare
          rw [hprepare, Option.some.inj hc]
        · cases hc
        · cases hc
      have hconnected := connected_of_prepare hprepare
      rw [hconnected] at hprepare
      obtain ⟨rfl, t, hm, hforward⟩ := hmoves c hprepare
      rw [publishesInside_of_command hc hm hforward]
      constructor
      · intro hinside hfree c' t' hprepare' hm'
        obtain rfl : c = c' := Sum.inr.inj (Except.ok.inj (hprepare.symm.trans hprepare'))
        obtain rfl : t = t' := Message.trajectory.inj (hm.symm.trans hm')
        exact hinside hfree.publisher hfree.inTime
      · intro hinside hpublisher hinTime
        exact hinside ⟨hrunning, hconnected, hpublisher, hinTime⟩ c t hprepare hm

theorem publishesInside_gripper_iff :
    h.PublishesInside transport (.handle r .gripper params) ↔
      h.AsksInside transport (.handle r .gripper params) := by
  have hprepare : prepare h.config r.planner true false ⟨RobotAction.gripper.actionType, params⟩ =
      (gripperPosition params).map fun position => .inr (.gripper position) := handleGripper_eq params
  rw [publishesInside_iff_prepare gripperCmd (by decide)]
  · refine imp_congr_right fun _ => ?_
    rw [hprepare]
    cases gripperPosition params with
    | error e => simp [Except.map]
    | ok position =>
        have hwithin : ∀ limits, WithinLimits limits (JointTrajectory.zeroed
            ⟨[lit "gripper_joint"], [⟨[position], [], [], .finite (1 / 2)⟩]⟩) ↔
              limits.Allow (lit "gripper_joint") (zeroed position) := by
          intro limits
          simp [withinLimits_zeroed]
        constructor
        · rintro hinside _ ⟨⟩
          obtain ⟨hhandler, hplanner⟩ := hinside _ _ rfl rfl
          exact ⟨(hwithin _).1 hhandler, (hwithin _).1 hplanner⟩
        · rintro hinside _ _ ⟨⟩ ⟨⟩
          obtain ⟨hhandler, hplanner⟩ := hinside position rfl
          exact ⟨(hwithin _).2 hhandler, (hwithin _).2 hplanner⟩
  · intro c hc
    rw [hprepare] at hc
    obtain ⟨position, -, hc⟩ := exists_of_map_ok hc
    cases hc
    exact ⟨rfl, _, rfl, rfl⟩

theorem publishesInside_look_iff :
    h.PublishesInside transport (.handle r .look params) ↔
      h.AsksInside transport (.handle r .look params) := by
  have hprepare : prepare h.config r.planner true false ⟨RobotAction.look.actionType, params⟩ =
      (lookAngles params).map fun angles =>
        .inr (.look (PyFloat.clamp (.finite (-3 / 2)) (.finite (3 / 2)) angles.1)
          (PyFloat.clamp (.finite (-1)) (.finite 1) angles.2)) := handleLook_eq params
  rw [publishesInside_iff_prepare headController (by decide)]
  · refine imp_congr_right fun _ => ?_
    rw [hprepare]
    cases lookAngles params with
    | error e => simp [Except.map]
    | ok angles =>
        obtain ⟨pan, tilt⟩ := angles
        have hwithin : ∀ {pan tilt : PyFloat ℚ}, pan.isFinite = true → tilt.isFinite = true →
            ∀ limits, WithinLimits limits (JointTrajectory.zeroed
              ⟨[lit "neck_pan_joint", lit "neck_tilt_joint"],
                [⟨[pan, tilt], [], [], .finite (1 / 2)⟩]⟩) ↔
              limits.Allow (lit "neck_pan_joint") pan ∧ limits.Allow (lit "neck_tilt_joint") tilt := by
          intro pan tilt hpan htilt limits
          simp only [withinLimits_zeroed, List.forall_mem_cons, List.zip_cons_cons, List.zip_nil_left,
            List.not_mem_nil, false_implies, implies_true, and_true, zeroed, hpan, htilt, if_true]
        have hpan : (PyFloat.clamp (.finite (-3 / 2)) (.finite (3 / 2)) pan).isFinite = true :=
          PyFloat.isFinite_clamp rfl rfl pan
        have htilt : (PyFloat.clamp (.finite (-1)) (.finite 1) tilt).isFinite = true :=
          PyFloat.isFinite_clamp rfl rfl tilt
        have hcut := hwithin hpan htilt
        constructor
        · rintro hinside _ _ ⟨⟩
          obtain ⟨hhandler, hplanner⟩ := hinside _ _ rfl rfl
          obtain ⟨hpan, htilt⟩ := (hcut _).1 hhandler
          obtain ⟨hpan', htilt'⟩ := (hcut _).1 hplanner
          exact ⟨⟨hpan, hpan'⟩, htilt, htilt'⟩
        · rintro hinside _ _ ⟨⟩ ⟨⟩
          obtain ⟨⟨hpan, hpan'⟩, htilt, htilt'⟩ := hinside pan tilt rfl
          exact ⟨(hcut _).2 ⟨hpan, htilt⟩, (hcut _).2 ⟨hpan', htilt'⟩⟩
  · intro c hc
    rw [hprepare] at hc
    obtain ⟨angles, -, hc⟩ := exists_of_map_ok hc
    cases hc
    exact ⟨rfl, _, rfl, rfl⟩

theorem publishesInside_manipulate_iff :
    h.PublishesInside transport (.handle r .manipulate params) ↔
      h.AsksInside transport (.handle r .manipulate params) := by
  have hprepare : ∀ c, prepare h.config r.planner true false
      ⟨RobotAction.manipulate.actionType, params⟩ = .ok (.inr c) → ∃ position t, c = .manipulate t ∧
        AsksPose h.config params position ∧ r.planner.planToPose position = .ok (some t) ∧
        r.planner.Approves t := by
    intro c hc
    have hhandle : handleManipulate h.config r.planner true params = .ok (.inr c) := hc
    have hkind := prepares_of_prepare hc
    cases hkind with
    | manipulate _ t _ _ =>
        obtain ⟨position, hasks, hplan, happroves⟩ := handleManipulate_eq_iff.1 hhandle
        exact ⟨position, t, rfl, hasks, hplan, happroves⟩
  rw [publishesInside_iff_prepare armController (by decide)]
  · refine imp_congr_right fun _ => ?_
    constructor
    · intro hinside position t hasks hplan happroves joint hjoint
      obtain ⟨hhandler, hplanner⟩ := hinside (.manipulate t) t
        (handleManipulate_eq_iff.2 ⟨position, hasks, hplan, happroves⟩) rfl
      rw [withinLimits_zeroed] at hhandler hplanner
      obtain ⟨point, hpoint, hmem⟩ := (MotionPlanner.moves_iff hplan).1 hjoint
      exact ⟨hhandler point hpoint joint hmem, .inr (hplanner point hpoint joint hmem)⟩
    · intro hinside c t hc hm
      obtain ⟨position, t', rfl, hasks, hplan, happroves⟩ := hprepare c hc
      cases hm
      have hall := hinside position t hasks hplan happroves
      have hjoint : ∀ point ∈ t.points, ∀ joint ∈ t.jointNames.zip point.positions,
          r.planner.Moves position joint :=
        fun point hpoint joint hmem => (MotionPlanner.moves_iff hplan).2 ⟨point, hpoint, hmem⟩
      refine ⟨?_, ?_⟩
      · rw [withinLimits_zeroed]
        exact fun point hpoint joint hmem => (hall joint (hjoint point hpoint joint hmem)).1
      · by_cases hcompares : r.planner.Compares
        · exact MotionPlanner.allow_of_compares hcompares hplan happroves.1
        · rw [withinLimits_zeroed]
          exact fun point hpoint joint hmem =>
            (hall joint (hjoint point hpoint joint hmem)).2.resolve_left hcompares
  · intro c hc
    obtain ⟨position, t, rfl, -, hplan, happroves⟩ := hprepare c hc
    exact ⟨rfl, t, rfl, MotionPlanner.decreases_of_valid hplan happroves.1⟩

/-- A move of the base and a stop publish velocities. -/
theorem publishesInside_of_velocity (haction : action = .navigate ∨ action = .stop) :
    h.PublishesInside transport (.handle r action params) := by
  rcases h.act_cases r action params with
    ⟨rfl, hact⟩ | ⟨hnone, -⟩ | ⟨c, hc, hprepares, hact⟩
  · exact publishesInside_of_none (by simp [commandOf])
  · exact publishesInside_of_none hnone
  · rcases haction with rfl | rfl
    · cases hprepares with
      | navigate twist =>
          dsimp only [PublishesInside]
          rw [hact, ros2_send, Ros2.log_publish, List.drop_left]
          rintro ⟨topic, m⟩ hentry t rfl
          cases (Ros2.mem_added hentry).2
    · simp [commandOf] at hc

theorem publishesInside_iff (transport : Transport) (h : RoboticsHandler) (op : Operation φ) :
    h.PublishesInside transport op ↔ h.AsksInside transport op := by
  cases op with
  | reset => exact Iff.rfl
  | handle r action params =>
      cases action with
      | gripper => exact publishesInside_gripper_iff
      | look => exact publishesInside_look_iff
      | manipulate => exact publishesInside_manipulate_iff
      | navigate => exact iff_of_true (publishesInside_of_velocity (.inl rfl)) trivial
      | stop => exact iff_of_true (publishesInside_of_velocity (.inr rfl)) trivial

end

end RoboticsHandler

open RoboticsHandler in
/-- In every sequence of operations, on either interface and with any planner: every trajectory
that is published is inside the limits of the handler and of the planner, if and only if every call
that is neither refused nor dropped asks for positions inside the limits. -/
theorem joint_limits_hold_iff {φ : Type} [Builtins φ] [FloatReader] (transport : Transport)
    (h : RoboticsHandler) (ops : List (Operation φ)) :
    Meets (perform transport) (PublishesInside transport) h ops ↔
      Meets (perform transport) (AsksInside transport) h ops :=
  meets_congr (I := fun _ => True) (fun _ _ _ _ => trivial)
    (fun h op _ => publishesInside_iff transport h op) trivial

/-- A handler that keeps the gripper below 0.8. -/
def carefulRobot : RoboticsHandler :=
  .new
    (.new (.finite 1) (.finite 1) [] [(lit "gripper_joint", .finite 0, .finite (4 / 5))] (.finite 5))
    (.new (.finite 10)) 0

/-- To open the gripper to 50. -/
def openWide : Operation WholeFloat :=
  .handle ⟨true, .stub (.new [] [] (.finite 1) []), 1, 1⟩ .gripper
    (.dict (obj [("position", .int 50)]))

open RoboticsHandler in
/-- The gripper is sent beyond the limit that the handler was given for it. -/
theorem gripper_beyond_limit :
    letI : FloatReader := ⟨fun _ => none⟩
    ¬ Meets (perform .stub) (PublishesInside .stub) carefulRobot [openWide] := by
  let _ : FloatReader := ⟨fun _ => none⟩
  rintro ⟨hinside, -⟩
  have hbeyond :=
    (hinside (gripperCmd, (Command.gripper (.finite 50)).message) (by decide +kernel) _ rfl).1
    _ (List.mem_singleton.2 rfl) (lit "gripper_joint", .finite 50) (by decide)
    (.finite 0, .finite (4 / 5)) (by decide +kernel)
  exact absurd hbeyond.2 (by decide +kernel)

end ShugoCore
