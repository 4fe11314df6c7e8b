import ShugoCore.Clock
import ShugoCore.Lib.Binary64
import ShugoCore.Lib.Dict

/-!
# Messages to the robot

`ros2_interface.py`.  A message is a velocity for the base or a trajectory for joints.  Before
it is sent, components that are no numbers are zeroed, and a trajectory is checked.  A topic
takes one message in an interval.  A message that comes too early is dropped without a word,
unless it is a velocity of zero.

There are two interfaces.  `StubROS2Interface` keeps what is published in a log, and
`ROS2Interface` hands it to the publisher that was registered for the topic.  Both keep the same
data, and what was handed to the publishers is a log too.
-/

namespace ShugoCore

open Py

/-- `Vector3`. -/
structure Vector3 where
  x : PyFloat ℚ
  y : PyFloat ℚ
  z : PyFloat ℚ
deriving DecidableEq, Repr

/-- `Twist`. -/
structure Twist where
  linear : Vector3
  angular : Vector3
deriving DecidableEq, Repr

/-- `JointTrajectoryPoint`. -/
structure JointTrajectoryPoint where
  positions : List (PyFloat ℚ)
  velocities : List (PyFloat ℚ)
  accelerations : List (PyFloat ℚ)
  timeFromStart : PyFloat ℚ
deriving DecidableEq, Repr

/-- `JointTrajectory`. -/
structure JointTrajectory where
  jointNames : List Str
  points : List JointTrajectoryPoint
deriving DecidableEq, Repr

/-- What is published. -/
inductive Message where
  | twist (t : Twist)
  | trajectory (t : JointTrajectory)
deriving DecidableEq, Repr

/-- What a command can raise. -/
inductive RobotError where
  /-- A value of the wrong kind. -/
  | value (e : Exn)
  | indexError
  /-- `ValueError("trajectory has no joint names")`. -/
  | noJointNames
  /-- `ValueError("trajectory time_from_start must be non-decreasing")`. -/
  | decreasingTime
  /-- `RuntimeError("No publisher registered for topic ...")`. -/
  | noPublisher (topic : Str)
deriving DecidableEq, Repr

/-- `Vector3()`. -/
def Vector3.zero : Vector3 := ⟨.finite 0, .finite 0, .finite 0⟩

/-- `Twist()`. -/
def Twist.zero : Twist := ⟨.zero, .zero⟩

/-! ## Checks before publishing -/

/-- `_clean` of `sanitize_twist`. -/
def clean (v : PyFloat ℚ) : PyFloat ℚ :=
  if v.isFinite then PyFloat.clamp (.finite (-100)) (.finite 100) v else .finite 0

/-- `sanitize_twist`. -/
def sanitizeTwist (twist : Twist) : Twist where
  linear := ⟨clean twist.linear.x, clean twist.linear.y, clean twist.linear.z⟩
  angular := ⟨clean twist.angular.x, clean twist.angular.y, clean twist.angular.z⟩

/-- A number, and zero for a NaN or an infinity. -/
def zeroed (v : PyFloat ℚ) : PyFloat ℚ := if v.isFinite then v else .finite 0

/-- A point of a trajectory with nothing but numbers in it. -/
def JointTrajectoryPoint.zeroed (p : JointTrajectoryPoint) : JointTrajectoryPoint :=
  { p with
    positions := p.positions.map ShugoCore.zeroed
    velocities := p.velocities.map ShugoCore.zeroed
    accelerations := p.accelerations.map ShugoCore.zeroed }

/-- A trajectory with nothing but numbers in it. -/
def JointTrajectory.zeroed (t : JointTrajectory) : JointTrajectory :=
  { t with points := t.points.map JointTrajectoryPoint.zeroed }

/-- A point is before the point that it follows. -/
def decreases : List JointTrajectoryPoint → Bool
  | p :: q :: points => q.timeFromStart.lt p.timeFromStart || decreases (q :: points)
  | _ => false

/-- `validate_joint_trajectory`. -/
def validateJointTrajectory (t : JointTrajectory) : Except RobotError JointTrajectory :=
  if t.jointNames = [] then .error .noJointNames
  else if decreases t.points then .error .decreasingTime
  else .ok t.zeroed

/-- The check that a message gets. -/
def Message.validate : Message → Except RobotError Message
  | .twist t => .ok (.twist (sanitizeTwist t))
  | .trajectory t => do return .trajectory (← validateJointTrajectory t)

/-- A trajectory that passes the check is left with its numbers. -/
theorem Message.validate_trajectory {t : JointTrajectory} {sent : Message}
    (h : (Message.trajectory t).validate = .ok sent) : sent = .trajectory t.zeroed := by
  dsimp only [Message.validate, validateJointTrajectory] at h
  split_ifs at h <;> cases h
  rfl

/-- `is_emergency_stop`: a velocity of zero, as far as the base can move. -/
def Message.isEmergencyStop : Message → Bool
  | .twist t => t.linear.x = .finite 0 && t.linear.y = .finite 0 && t.angular.z = .finite 0
  | .trajectory _ => false

/-! ## The interfaces -/

/-- The data of an interface. -/
structure Ros2 where
  minInterval : Seconds
  /-- `_publishers`: the message type of each topic. -/
  publishers : Dict Str Str
  lastPublishTime : Dict Str Seconds
  /-- `_published_log`, or what was handed to the publishers. -/
  log : List (Str × Message)
deriving DecidableEq, Repr

/-- Which of the two interfaces it is. -/
inductive Transport where
  | stub
  | real
deriving DecidableEq, Repr

namespace Ros2

/-- `_min_interval`. -/
def interval (rateLimitHz : PyFloat ℚ) : Seconds :=
  match PyFloat.max (PyFloat.nearest (1 / 10)) rateLimitHz with
  | .finite q => 1 / q
  | .nan | .posInf | .negInf => 0

/-- An interface that nothing was published on. -/
def new (rateLimitHz : PyFloat ℚ) : Ros2 := ⟨interval rateLimitHz, [], [], []⟩

/-- `create_publisher`, for the message types that the handler has. -/
def createPublisher (r : Ros2) (topic msgType : String) : Ros2 :=
  { r with publishers := Dict.set r.publishers (lit topic) (lit msgType) }

/-- The rate limit drops the message. -/
def limited (r : Ros2) (now : Seconds) (topic : Str) (m : Message) : Bool :=
  !m.isEmergencyStop && (Dict.get? r.lastPublishTime topic).any fun last => now - last < r.minInterval

/-- The clock reading of the last message on a topic. -/
def touch (r : Ros2) (now : Seconds) (topic : Str) : Ros2 :=
  { r with lastPublishTime := Dict.set r.lastPublishTime topic now }

/-- One more message. -/
def append (r : Ros2) (topic : Str) (m : Message) : Ros2 := { r with log := r.log ++ [(topic, m)] }

/-- What the interface sends of a message, unless it raises. -/
def outgoing (transport : Transport) (r : Ros2) (topic : Str) (m : Message) :
    Except RobotError Message :=
  match transport with
  | .stub => m.validate
  | .real =>
      match Dict.get? r.publishers topic with
      | none => .error (.noPublisher topic)
      | some _ => m.validate

/-- `publish`.  The message is changed in place, so the caller sees what was sent. -/
def publish (transport : Transport) (r : Ros2) (now : Seconds) (topic : Str) (m : Message) :
    Except RobotError Message × Ros2 :=
  if r.limited now topic m then (.ok m, r)
  else
    -- The time is kept before anything can fail.
    match r.outgoing transport topic m with
    | .error e => (.error e, r.touch now topic)
    | .ok sent => (.ok sent, (r.touch now topic).append topic sent)

/-- What a call of `publish` adds to the log. -/
def added (transport : Transport) (r : Ros2) (now : Seconds) (topic : Str) (m : Message) :
    List (Str × Message) :=
  if r.limited now topic m then []
  else (r.outgoing transport topic m).toOption.toList.map fun sent => (topic, sent)

@[simp] theorem log_publish (transport : Transport) (r : Ros2) (now : Seconds) (topic : Str)
    (m : Message) :
    (r.publish transport now topic m).2.log = r.log ++ r.added transport now topic m := by
  simp only [publish, added]
  split
  · exact (List.append_nil _).symm
  · split
    · rename_i e h
      rw [h]
      exact (List.append_nil _).symm
    · rename_i sent h
      rw [h]
      rfl

@[simp] theorem publishers_publish (transport : Transport) (r : Ros2) (now : Seconds) (topic : Str)
    (m : Message) : (r.publish transport now topic m).2.publishers = r.publishers := by
  simp only [publish]
  split
  · rfl
  · split <;> rfl

@[simp] theorem minInterval_publish (transport : Transport) (r : Ros2) (now : Seconds) (topic : Str)
    (m : Message) : (r.publish transport now topic m).2.minInterval = r.minInterval := by
  simp only [publish]
  split
  · rfl
  · split <;> rfl

/-- A message that is published without an exception is dropped or added. -/
theorem log_publish_of_ok {transport : Transport} {r : Ros2} {now : Seconds} {topic : Str}
    {m sent : Message} (h : (r.publish transport now topic m).1 = .ok sent) :
    (r.publish transport now topic m).2.log =
      if r.limited now topic m then r.log else r.log ++ [(topic, sent)] := by
  simp only [publish] at h ⊢
  split
  · rfl
  · rename_i hlimited
    rw [if_neg hlimited] at h
    split at h
    · cases h
    · cases h
      rfl

/-- A message is let through if it is a velocity of zero, or if the interval is over. -/
theorem limited_eq_false_iff {r : Ros2} {now : Seconds} {topic : Str} {m : Message} :
    r.limited now topic m = false ↔ m.isEmergencyStop = true ∨
      ∀ last ∈ Dict.get? r.lastPublishTime topic, r.minInterval ≤ now - last := by
  simp only [limited]
  cases Dict.get? r.lastPublishTime topic <;> cases m.isEmergencyStop <;> simp

/-- To stop the base is never too early. -/
theorem limited_zero (r : Ros2) (now : Seconds) (topic : Str) :
    r.limited now topic (.twist .zero) = false :=
  limited_eq_false_iff.2 (.inl rfl)

/-- A message leaves the times of the other topics. -/
theorem get?_lastPublishTime_publish (transport : Transport) (r : Ros2) (now : Seconds)
    {topic other : Str} (h : topic ≠ other) (m : Message) :
    Dict.get? (r.publish transport now topic m).2.lastPublishTime other =
      Dict.get? r.lastPublishTime other := by
  simp only [publish]
  split
  · rfl
  · split <;> exact Dict.get?_set_of_ne _ h _

/-- With a publisher for the topic both interfaces do the same. -/
theorem publish_stub_eq_real {r : Ros2} {topic : Str} (h : topic ∈ r.publishers.map Prod.fst)
    (now : Seconds) (m : Message) : r.publish .stub now topic m = r.publish .real now topic m := by
  obtain ⟨msgType, htype⟩ := Dict.get?_of_mem_keys h
  simp only [publish, outgoing]
  rw [htype]

/-- What is sent was checked. -/
theorem validate_of_outgoing {transport : Transport} {r : Ros2} {topic : Str} {m sent : Message}
    (h : r.outgoing transport topic m = .ok sent) : m.validate = .ok sent := by
  unfold outgoing at h
  split at h
  · exact h
  · split at h
    · cases h
    · exact h

/-- The check does not look for publishers. -/
theorem validate_ne_noPublisher (m : Message) (topic : Str) :
    m.validate ≠ .error (.noPublisher topic) := by
  cases m with
  | twist t => exact fun h => by cases h
  | trajectory t =>
      dsimp only [Message.validate, validateJointTrajectory]
      split_ifs <;> exact fun h => by cases h

/-- A message that is added was checked. -/
theorem mem_added {transport : Transport} {r : Ros2} {now : Seconds} {topic : Str} {m : Message}
    {entry : Str × Message} (h : entry ∈ r.added transport now topic m) :
    entry.1 = topic ∧ m.validate = .ok entry.2 := by
  unfold added at h
  split at h
  · cases h
  · obtain ⟨sent, hsent, rfl⟩ := List.mem_map.1 h
    refine ⟨rfl, ?_⟩
    cases hout : r.outgoing transport topic m with
    | error e =>
        rw [hout] at hsent
        cases hsent
    | ok sent' =>
        rw [hout] at hsent
        rw [validate_of_outgoing hout, List.mem_singleton.1 hsent]

end Ros2

end ShugoCore
