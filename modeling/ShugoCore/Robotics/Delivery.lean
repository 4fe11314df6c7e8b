import ShugoCore.Lib.Run
import ShugoCore.Robotics.Handler

/-!
# What is reported was published

A motion handler returns success once `publish` has returned.  But `publish` also returns when
it has dropped the message.  So a call that succeeds has published one message if its message is
a velocity of zero or the interval of the topic is over, and it has published nothing otherwise
(`reported_published_iff`).
-/

namespace ShugoCore

open Py Machine

variable {φ : Type} [Builtins φ]

/-- The actions that publish. -/
inductive RobotAction where
  | navigate
  | manipulate
  | gripper
  | look
  | stop
deriving DecidableEq, Repr

namespace RobotAction

def actionType : RobotAction → Str
  | .navigate => lit "robot_navigate"
  | .manipulate => lit "robot_manipulate"
  | .gripper => lit "robot_gripper"
  | .look => lit "robot_look"
  | .stop => lit "robot_stop"

/-- The topic that the handler of the action publishes on. -/
def topic : RobotAction → Str
  | .navigate | .stop => cmdVel
  | .manipulate => armController
  | .gripper => gripperCmd
  | .look => headController

/-- A command is of the kind of its action, and its planner or its numbers are as they should. -/
inductive Prepares (planner : MotionPlanner) : RobotAction → Command → Prop
  | navigate (twist : Twist) : Prepares planner .navigate (.navigate twist)
  | manipulate (position : Vector3) (t : JointTrajectory)
      (planned : planner.planToPose position = .ok (some t))
      (valid : planner.validateTrajectory t = .ok ()) : Prepares planner .manipulate (.manipulate t)
  | gripper (position : PyFloat ℚ) : Prepares planner .gripper (.gripper position)
  | look (pan tilt : PyFloat ℚ) (panFinite : pan.isFinite = true) (tiltFinite : tilt.isFinite = true) :
      Prepares planner .look (.look pan tilt)

theorem Prepares.topic_eq {planner : MotionPlanner} {action : RobotAction} {c : Command}
    (h : Prepares planner action c) : c.topic = action.topic := by
  cases h <;> rfl

end RobotAction

/-- What is done with a handler. -/
inductive Operation (φ : Type) where
  | handle (r : RobotReadings) (action : RobotAction) (params : PyVal φ)
  | reset

section

variable [FloatReader]

namespace RoboticsHandler

/-- `handle` of an action that publishes. -/
def act (transport : Transport) (h : RoboticsHandler) (r : RobotReadings) (action : RobotAction)
    (params : PyVal φ) : Except RobotError RobotReply × RoboticsHandler :=
  h.handle transport r ⟨action.actionType, params⟩

/-- One operation. -/
def perform (transport : Transport) (h : RoboticsHandler) : Operation φ → RoboticsHandler
  | .handle r action params => (h.act transport r action params).2
  | .reset => h.resetEmergencyStop

/-- A call that reports success has added one message to the topic of its action. -/
def ReportedPublished (transport : Transport) (h : RoboticsHandler) : Operation φ → Prop
  | .handle r action params => ∀ reply, (h.act transport r action params).1 = .ok reply →
      reply.isSuccess = true →
      ∃ m, (h.act transport r action params).2.ros2.log = h.ros2.log ++ [(action.topic, m)]
  | .reset => True

/-- The command of a call, if it gets as far as publishing. -/
def commandOf (h : RoboticsHandler) (r : RobotReadings) (action : RobotAction) (params : PyVal φ) :
    Option Command :=
  if action = .stop ∨ h.emergencyStopActive then none
  else
    (prepare h.config r.planner r.connected false ⟨action.actionType, params⟩).command

/-- The message of a call comes when the interval of its topic is over, or it is a velocity of
zero. -/
def InTime (h : RoboticsHandler) : Operation φ → Prop
  | .handle r action params => ∀ c ∈ h.commandOf r action params,
      c.message.isEmergencyStop = true ∨
        ∀ last ∈ Dict.get? h.ros2.lastPublishTime c.topic, h.ros2.minInterval ≤ r.publishedAt - last
  | .reset => True

/-! ## One call -/

theorem prepares_of_prepare {c : RobotConfig} {planner : MotionPlanner} {connected stopped : Bool}
    {action : RobotAction} {params : PyVal φ} {command : Command}
    (h : prepare c planner connected stopped ⟨action.actionType, params⟩ = .ok (.inr command)) :
    RobotAction.Prepares planner action command := by
  cases action with
  | navigate =>
      rcases handleNavigate_ok h with h | ⟨twist, h⟩
      · cases h
      · cases h
        exact .navigate twist
  | manipulate =>
      rcases handleManipulate_ok h with ⟨reply, h, -⟩ | ⟨position, trajectory, hplanned, hvalid, h⟩
      · cases h
      · cases h
        exact .manipulate position trajectory hplanned hvalid
  | gripper =>
      rcases handleGripper_ok h with h | ⟨position, h⟩
      · cases h
      · cases h
        exact .gripper position
  | look =>
      rcases handleLook_ok h with ⟨reason, h⟩ | ⟨pan, tilt, hpan, htilt, h⟩
      · cases h
      · cases h
        exact .look pan tilt hpan htilt
  | stop => cases h

/-- A call stops the robot, or ends without a command, or sends one. -/
theorem act_cases (h : RoboticsHandler) (r : RobotReadings) (action : RobotAction)
    (params : PyVal φ) :
    (action = .stop ∧ ∀ transport, h.act transport r action params = h.handleStop transport r) ∨
    (h.commandOf r action params = none ∧ ∃ result,
      (∀ transport, h.act transport r action params = (result, h)) ∧
        ∀ reply, result = .ok reply → reply.isSuccess = false) ∨
    ∃ c, h.commandOf r action params = some c ∧ RobotAction.Prepares r.planner action c ∧
      ∀ transport, h.act transport r action params = h.send transport r c := by
  by_cases hstop : action = .stop
  · subst hstop
    exact .inl ⟨rfl, fun _ => rfl⟩
  have hsafety : action.actionType ∉ safetyActionTypes := by
    cases action <;> first | exact absurd rfl hstop | decide
  have hread : action.actionType ∉ readActionTypes := by cases action <;> decide
  have hact (transport : Transport) : h.act transport r action params =
      if h.emergencyStopActive then (.ok emergencyStopRefusal, h)
      else h.finish transport r
        (prepare h.config r.planner r.connected h.emergencyStopActive
          ⟨action.actionType, params⟩) := by
    simp only [act, handle]
    rw [if_neg hsafety, if_neg hread]
  cases hstopped : h.emergencyStopActive with
  | true =>
      refine .inr (.inl
        ⟨by simp [commandOf, hstopped], .ok emergencyStopRefusal, fun transport => ?_, ?_⟩)
      · rw [hact, if_pos hstopped]
      · rintro reply ⟨⟩
        rfl
  | false =>
      simp only [hstopped, Bool.false_eq_true, if_false] at hact
      rw [commandOf, if_neg (by simp [hstop, hstopped])]
      cases hprepare : prepare h.config r.planner r.connected false ⟨action.actionType, params⟩ with
      | error e =>
          refine .inr (.inl ⟨rfl, .error e, fun transport => ?_, fun reply hreply => by cases hreply⟩)
          rw [hact, hprepare, finish]
      | ok x =>
          cases x with
          | inl reply =>
              refine .inr (.inl ⟨rfl, .ok reply, fun transport => by rw [hact, hprepare, finish], ?_⟩)
              rintro _ ⟨⟩
              exact not_isSuccess_of_prepare hprepare
          | inr c =>
              exact .inr (.inr ⟨c, rfl, prepares_of_prepare hprepare,
                fun transport => by rw [hact, hprepare, finish]⟩)

theorem reportedPublished_iff (transport : Transport) (h : RoboticsHandler) (op : Operation φ) :
    h.ReportedPublished transport op ↔ h.InTime op := by
  cases op with
  | reset => exact Iff.rfl
  | handle r action params =>
      dsimp only [ReportedPublished, InTime]
      rcases h.act_cases r action params with
        ⟨rfl, hact⟩ | ⟨hnone, result, hact, hfail⟩ | ⟨c, hc, hprepares, hact⟩
      · refine iff_of_true ?_ fun c hc => by simp [commandOf] at hc
        rw [hact, fst_handleStop, ros2_handleStop]
        intro reply hreply _
        obtain ⟨sent, hsent, -⟩ := exists_of_map_ok hreply
        rw [Ros2.log_publish_of_ok hsent, Ros2.limited_zero]
        exact ⟨sent, rfl⟩
      · rw [hact, hnone]
        refine iff_of_true (fun reply hreply hsuccess => ?_) fun c hc => by cases hc
        rw [hfail reply hreply] at hsuccess
        cases hsuccess
      · rw [hact, hc, fst_send, ros2_send]
        simp only [Option.mem_some_iff, forall_eq', ← Ros2.limited_eq_false_iff]
        constructor
        · intro hreported
          by_contra hlimited
          have hlimited : h.ros2.limited r.publishedAt c.topic c.message = true := by
            simpa using hlimited
          have hsent :
              (h.ros2.publish transport r.publishedAt c.topic c.message).1 = .ok c.message := by
            rw [Ros2.publish, if_pos hlimited]
          -- The message is dropped, so the log stays as it is.
          obtain ⟨m, hlog⟩ := hreported (c.reply c.message) (by rw [hsent]; rfl)
            (Command.isSuccess_reply _ _)
          rw [Ros2.log_publish_of_ok hsent, if_pos hlimited] at hlog
          exact absurd (congrArg List.length hlog) (by simp)
        · intro hlimited reply hreply _
          obtain ⟨sent, hsent, -⟩ := exists_of_map_ok hreply
          rw [Ros2.log_publish_of_ok hsent, hlimited, hprepares.topic_eq]
          exact ⟨sent, rfl⟩

end RoboticsHandler

open RoboticsHandler in
/-- In every sequence of calls, on either interface: each call that reports success has published
exactly one message, on the topic of its action, if and only if each message that is no velocity
of zero comes when the interval of its topic is over. -/
theorem reported_published_iff (transport : Transport) (h : RoboticsHandler)
    (ops : List (Operation φ)) :
    Meets (perform transport) (ReportedPublished transport) h ops ↔
      Meets (perform transport) InTime h ops :=
  meets_congr (I := fun _ => True) (fun _ _ _ _ => trivial)
    (fun h op _ => reportedPublished_iff transport h op) trivial

end

/-- A handler with the default limits, on a stub with the default rate. -/
def deskRobot : RoboticsHandler :=
  .new (.new (.finite 1) (.finite 1) [] [] (.finite 5)) (.new (.finite 10)) 0

/-- A slow move forward, told to a healthy robot. -/
def creep (now : Seconds) : Operation WholeFloat :=
  .handle ⟨true, .stub (.new [] [] (.finite 1) []), now, now⟩ .navigate
    (.dict (obj [("linear_x", .int 1)]))

open RoboticsHandler in
/-- A second move after 0.05 s is reported and not published. -/
theorem creep_twice_published_once :
    letI : FloatReader := ⟨fun _ => none⟩
    ¬ Meets (perform .stub) (ReportedPublished .stub) deskRobot [creep 0, creep (1 / 20)] := by
  let _ : FloatReader := ⟨fun _ => none⟩
  rintro ⟨-, hsecond, -⟩
  obtain ⟨m, hlog⟩ :=
    hsecond (.navigate ⟨⟨.finite 1, .finite 0, .finite 0⟩, .zero⟩) (by decide +kernel) rfl
  have hlength := congrArg List.length hlog
  rw [List.length_append, List.length_singleton] at hlength
  exact absurd hlength (by decide +kernel)

end ShugoCore
