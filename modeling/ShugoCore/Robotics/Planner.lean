import ShugoCore.Robotics.Ros2

/-!
# Plans for the arm

`moveit_planner.py`.  A planner makes a trajectory for a pose and judges trajectories.
`StubMoveItPlanner` computes joint positions from the pose, cuts them off at the joint limits and
judges a trajectory by comparing it with them.  `MoveItPlanner` returns what the planning group
plans, and judges a trajectory without a look at the limits.

The planning group is not part of the repository, so its plan for a pose is open.
-/

namespace ShugoCore

open Py

/-- The limits of joints, by name. -/
abbrev JointLimits := Dict Str (PyFloat ℚ × PyFloat ℚ)

/-- `math.pi`. -/
def mathPi : ℚ := 884279719003555 / 2 ^ 48

/-! ## The stub -/

/-- A box in the way, with the numbers that `check_collision` reads. -/
structure CollisionObject where
  x : PyFloat ℚ
  y : PyFloat ℚ
  sizeX : PyFloat ℚ
  sizeY : PyFloat ℚ
deriving DecidableEq, Repr

/-- `StubMoveItPlanner`. -/
structure StubMoveItPlanner where
  jointNames : List Str
  jointLimits : JointLimits
  velocityLimit : PyFloat ℚ
  collisionObjects : List CollisionObject
deriving DecidableEq, Repr

namespace StubMoveItPlanner

/-- `DEFAULT_JOINT_NAMES`. -/
def defaultJointNames : List Str :=
  [lit "joint_1", lit "joint_2", lit "joint_3", lit "joint_4", lit "joint_5", lit "joint_6"]

/-- `DEFAULT_JOINT_LIMITS`. -/
def defaultJointLimits : JointLimits :=
  defaultJointNames.map fun name => (name, .finite (-mathPi), .finite mathPi)

/-- `__init__`. -/
def new (jointNames : List Str) (jointLimits : JointLimits) (velocityLimit : PyFloat ℚ)
    (collisionObjects : List CollisionObject) : StubMoveItPlanner where
  jointNames := if jointNames = [] then defaultJointNames else jointNames
  jointLimits := if jointLimits = [] then defaultJointLimits else jointLimits
  velocityLimit := PyFloat.max (PyFloat.nearest (1 / 100)) velocityLimit
  collisionObjects := collisionObjects

/-- `self._joint_limits.get(name, (-math.pi, math.pi))`. -/
def limitsOf (s : StubMoveItPlanner) (name : Str) : PyFloat ℚ × PyFloat ℚ :=
  (Dict.get? s.jointLimits name).getD (.finite (-mathPi), .finite mathPi)

/-- `scales`. -/
def scales : List (PyFloat ℚ) := [1 / 2, 2 / 5, 3 / 10, 1 / 5, 1 / 10, 1 / 20].map PyFloat.nearest

/-- The position of a joint before it is cut off.  There are six scales. -/
def ikPosition (position : Vector3) (i : Nat) : Except RobotError (PyFloat ℚ) :=
  match scales[i]? with
  | none => .error .indexError
  | some scale =>
      match [position.x, position.y, position.z][i]? with
      | some v => .ok (v.mul scale)
      | none => .ok ((position.x.add position.y).mul scale)

/-- The loop of `compute_ik`, from a joint on. -/
def ikPositions (s : StubMoveItPlanner) (position : Vector3) :
    Nat → List Str → Except RobotError (List (PyFloat ℚ))
  | _, [] => .ok []
  | i, name :: names => do
      let pos ← ikPosition position i
      let rest ← ikPositions s position (i + 1) names
      return PyFloat.clamp (s.limitsOf name).1 (s.limitsOf name).2 pos :: rest

/-- `plan_to_pose`: one point, after one second. -/
def planToPose (s : StubMoveItPlanner) (position : Vector3) :
    Except RobotError (Option JointTrajectory) := do
  let positions ← s.ikPositions position 0 s.jointNames
  return some ⟨s.jointNames, [⟨positions, [], [], .finite 1⟩]⟩

/-- A joint is outside its limits. -/
def outside (s : StubMoveItPlanner) (joint : Str × PyFloat ℚ) : Bool :=
  joint.2.lt (s.limitsOf joint.1).1 || (s.limitsOf joint.1).2.lt joint.2

/-- A joint moves too fast between two points. -/
def tooFast (s : StubMoveItPlanner) (dt next previous : PyFloat ℚ) : Bool :=
  s.velocityLimit.lt (((next.sub previous).abs).div dt)

/-- The first joint that moves too fast. -/
def velocityViolation (s : StubMoveItPlanner) (names : List Str) :
    List JointTrajectoryPoint → Option Str
  | p :: q :: points =>
      let dt := q.timeFromStart.sub p.timeFromStart
      -- No time passes between the points, so there is no velocity to look at.
      let here := if dt.le (.finite 0) then none
        else (names.zip (q.positions.zip p.positions)).find? fun joint => s.tooFast dt joint.2.1 joint.2.2
      match here with
      | some joint => some joint.1
      | none => velocityViolation s names (q :: points)
  | _ => none

/-- The first joint that is outside its limits. -/
def limitViolation (s : StubMoveItPlanner) (t : JointTrajectory) : Option Str :=
  t.points.findSome? fun point => ((t.jointNames.zip point.positions).find? s.outside).map Prod.fst

/-- `validate_trajectory`, with the reason of a refusal. -/
def validateTrajectory (s : StubMoveItPlanner) (t : JointTrajectory) : Except Str Unit :=
  if t.points = [] then .error (lit "empty trajectory")
  else
    match s.limitViolation t with
    | some name => .error (lit "joint '" ++ name ++ lit "' outside limits")
    | none =>
        match s.velocityViolation t.jointNames t.points with
        | some name => .error (lit "joint '" ++ name ++ lit "' velocity exceeds limit")
        | none => .ok ()

/-- The first two joints are in a box. -/
def hits (positions : List (PyFloat ℚ)) (o : CollisionObject) : Except RobotError Bool :=
  match positions with
  | [] => .error .indexError
  | v :: rest =>
      if (v.sub o.x).abs.lt o.sizeX then
        match rest with
        | [] => .error .indexError
        | w :: _ => .ok ((w.sub o.y).abs.lt o.sizeY)
      else .ok false

/-- `check_collision`. -/
def checkCollision (s : StubMoveItPlanner) (t : JointTrajectory) : Except RobotError Bool :=
  t.points.anyM fun point => s.collisionObjects.anyM (hits point.positions)

end StubMoveItPlanner

/-! ## MoveIt -/

/-- `MoveItPlanner`, with what its group plans for a pose. -/
structure MoveItPlanner where
  jointNames : List Str
  jointLimits : JointLimits
  plan : Vector3 → Option (List JointTrajectoryPoint)

namespace MoveItPlanner

/-- `plan_to_pose`. -/
def planToPose (m : MoveItPlanner) (position : Vector3) : Option JointTrajectory :=
  (m.plan position).map fun points => ⟨m.jointNames, points⟩

/-- The check of one point. -/
def pointViolation (names : List Str) (point : JointTrajectoryPoint) : Option Str :=
  if !point.positions.all PyFloat.isFinite then some (lit "NaN/Inf in positions")
  else if !point.velocities.all PyFloat.isFinite then some (lit "NaN/Inf in velocities")
  else if !point.accelerations.all PyFloat.isFinite then some (lit "NaN/Inf in accelerations")
  else if point.positions ≠ [] ∧ point.positions.length ≠ names.length then
    some (lit "positions/joint_names size mismatch")
  else none

/-- `f"point {i}: ..."`. -/
def atPoint (i : Nat) (reason : Str) : Str :=
  lit "point " ++ (Literal.ofInt i).text ++ lit ": " ++ reason

/-- The first point that fails its check. -/
def violation (names : List Str) : Nat → List JointTrajectoryPoint → Option Str
  | _, [] => none
  | i, point :: points =>
      match pointViolation names point with
      | some reason => some (atPoint i reason)
      | none => violation names (i + 1) points

/-- The first point that is before the one that it follows. -/
def timeViolation : Nat → List JointTrajectoryPoint → Option Str
  | i, p :: q :: points =>
      if q.timeFromStart.lt p.timeFromStart then
        some (atPoint (i + 1) (lit "time_from_start must be non-decreasing"))
      else timeViolation (i + 1) (q :: points)
  | _, _ => none

/-- `validate_trajectory`, with the reason of a refusal. -/
def validateTrajectory (t : JointTrajectory) : Except Str Unit :=
  if t.points = [] then .error (lit "empty trajectory")
  else if t.jointNames = [] then .error (lit "trajectory has no joint names")
  else
    match violation t.jointNames 0 t.points with
    | some reason => .error reason
    | none =>
        match timeViolation 0 t.points with
        | some reason => .error reason
        | none => .ok ()

end MoveItPlanner

/-! ## Either of them -/

/-- `BaseMoveItPlanner`. -/
inductive MotionPlanner where
  | stub (s : StubMoveItPlanner)
  | moveIt (m : MoveItPlanner)

namespace MotionPlanner

def jointLimits : MotionPlanner → JointLimits
  | .stub s => s.jointLimits
  | .moveIt m => m.jointLimits

def planToPose : MotionPlanner → Vector3 → Except RobotError (Option JointTrajectory)
  | .stub s, position => s.planToPose position
  | .moveIt m, position => .ok (m.planToPose position)

def validateTrajectory : MotionPlanner → JointTrajectory → Except Str Unit
  | .stub s, t => s.validateTrajectory t
  | .moveIt _, t => MoveItPlanner.validateTrajectory t

def checkCollision : MotionPlanner → JointTrajectory → Except RobotError Bool
  | .stub s, t => s.checkCollision t
  | .moveIt _, _ => .ok false

end MotionPlanner

end ShugoCore
