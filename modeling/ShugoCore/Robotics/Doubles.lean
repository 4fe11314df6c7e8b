import ShugoCore.Robotics.Delivery

/-!
# The stub for the real interface

Two handlers, one over `StubROS2Interface` and one over `ROS2Interface`, are given the same
operations at the same times.  They start alike, with publishers for the base, the gripper and
the arm.  There is no publisher for the head.  So they stay alike until a look is published,
which the stub logs and the real interface refuses with an exception
(`stub_like_real_iff`).
-/

namespace ShugoCore

open Py Machine

variable {φ : Type} [Builtins φ]

/-- A handler over the stub and one over the real interface. -/
structure Doubles where
  stub : RoboticsHandler
  real : RoboticsHandler
deriving DecidableEq, Repr

namespace Doubles

/-- Both are constructed at the same time. -/
def new (config : RobotConfig) (rateLimitHz : PyFloat ℚ) (now : Seconds) : Doubles :=
  ⟨.new config (.new rateLimitHz) now, .new config (.new rateLimitHz) now⟩

section

variable [FloatReader]

/-- Both perform the operation. -/
def perform (s : Doubles) (op : Operation φ) : Doubles :=
  ⟨s.stub.perform .stub op, s.real.perform .real op⟩

/-- The operation returns or raises alike, and leaves the same messages published. -/
def Alike (s : Doubles) (op : Operation φ) : Prop :=
  (s.perform op).stub.ros2.log = (s.perform op).real.ros2.log ∧
    match op with
    | .handle r action params =>
        (s.stub.act .stub r action params).1 = (s.real.act .real r action params).1
    | .reset => True

/-- A look does not get as far as publishing: the robot is stopped, or it is not connected, or
the numbers cannot be read. -/
def NoLook (s : Doubles) : Operation φ → Prop
  | .handle r .look params => s.stub.commandOf r .look params = none
  | _ => True

/-! ## One operation -/

/-- The handlers are the same, and know nothing of the head. -/
structure Twins (s : Doubles) : Prop where
  same : s.stub = s.real
  registered : ∀ topic ∈ [cmdVel, gripperCmd, armController],
    topic ∈ s.stub.ros2.publishers.map Prod.fst
  headless : Dict.get? s.stub.ros2.publishers headController = none
  headUnused : Dict.get? s.stub.ros2.lastPublishTime headController = none

/-- Twins do the same if nothing is published for the head. -/
theorem Twins.act_eq {s : Doubles} (h : s.Twins) {r : RobotReadings} {action : RobotAction}
    {params : PyVal φ} (hlook : action = .look → s.stub.commandOf r action params = none) :
    s.stub.act .stub r action params = s.real.act .real r action params := by
  rw [← h.same]
  rcases s.stub.act_cases r action params with
    ⟨rfl, hact⟩ | ⟨hnone, result, hact, hfail⟩ | ⟨c, hc, hprepares, hact⟩
  · rw [hact, hact]
    exact RoboticsHandler.handleStop_stub_eq_real (h.registered _ (by decide)) r
  · rw [hact, hact]
  · rw [hact, hact]
    refine RoboticsHandler.send_stub_eq_real (h.registered _ ?_) r
    rw [hprepares.topic_eq]
    cases action with
    | look => rw [hlook rfl] at hc; cases hc
    | navigate | manipulate | gripper | stop => decide

/-- A look that is published tells the two apart. -/
theorem Twins.not_alike {s : Doubles} (h : s.Twins) {r : RobotReadings} {params : PyVal φ}
    {c : Command}
    (hc : s.stub.commandOf r .look params = some c) : ¬ s.Alike (.handle r .look params) := by
  rintro ⟨-, halike⟩
  dsimp only at halike
  rw [← h.same] at halike
  rcases s.stub.act_cases r .look params with ⟨hlook, -⟩ | ⟨hnone, -⟩ | ⟨c', hc', hprepares, hact⟩
  · cases hlook
  · rw [hnone] at hc
    cases hc
  · have htopic : c'.topic = headController := hprepares.topic_eq
    have hlimited : s.stub.ros2.limited r.publishedAt headController c'.message = false :=
      Ros2.limited_eq_false_iff.2 (.inr fun last hlast => by rw [h.headUnused] at hlast; cases hlast)
    rw [hact, hact, RoboticsHandler.fst_send, RoboticsHandler.fst_send, htopic, Ros2.publish,
      Ros2.publish, hlimited] at halike
    simp only [Ros2.outgoing, h.headless] at halike
    cases hvalid : c'.message.validate with
    | error e =>
        rw [hvalid] at halike
        exact Ros2.validate_ne_noPublisher _ _ (hvalid.trans (congrArg _ (Except.error.inj halike)))
    | ok sent =>
        rw [hvalid] at halike
        cases halike

theorem Twins.act_eq_of_noLook {s : Doubles} (h : s.Twins) {r : RobotReadings} {action : RobotAction}
    {params : PyVal φ} (hop : s.NoLook (.handle r action params)) :
    s.stub.act .stub r action params = s.real.act .real r action params :=
  h.act_eq fun haction => by subst haction; exact hop

/-- Twins stay twins until a look is published. -/
theorem Twins.perform {s : Doubles} (h : s.Twins) {op : Operation φ} (hop : s.NoLook op) :
    (s.perform op).Twins := by
  cases op with
  | reset =>
      refine ⟨?_, h.registered, h.headless, h.headUnused⟩
      show s.stub.resetEmergencyStop = s.real.resetEmergencyStop
      rw [h.same]
  | handle r action params =>
      have hros2 : (s.stub.act .stub r action params).2.ros2 = s.stub.ros2 ∨ ∃ topic m,
          topic ≠ headController ∧ (s.stub.act .stub r action params).2.ros2 =
            (s.stub.ros2.publish .stub r.publishedAt topic m).2 := by
        rcases s.stub.act_cases r action params with
          ⟨rfl, hact⟩ | ⟨-, result, hact, -⟩ | ⟨c, hc, hprepares, hact⟩
        · exact .inr ⟨cmdVel, .twist .zero, by decide, by rw [hact, RoboticsHandler.ros2_handleStop]⟩
        · exact .inl (by rw [hact])
        · refine .inr ⟨c.topic, c.message, ?_, by rw [hact, RoboticsHandler.ros2_send]⟩
          rw [hprepares.topic_eq]
          cases action with
          | look => rw [show s.stub.commandOf r .look params = none from hop] at hc; cases hc
          | navigate | manipulate | gripper | stop => decide
      have hsame := congrArg Prod.snd (h.act_eq_of_noLook hop)
      have hafter : (s.perform (.handle r action params)).stub.ros2 =
        (s.stub.act .stub r action params).2.ros2 := rfl
      rcases hros2 with hros2 | ⟨topic, m, htopic, hros2⟩ <;> rw [hros2] at hafter
      · exact ⟨hsame, by rw [hafter]; exact h.registered, by rw [hafter]; exact h.headless,
          by rw [hafter]; exact h.headUnused⟩
      · refine ⟨hsame, ?_, ?_, ?_⟩
        · rw [hafter, Ros2.publishers_publish]
          exact h.registered
        · rw [hafter, Ros2.publishers_publish]
          exact h.headless
        · rw [hafter, Ros2.get?_lastPublishTime_publish _ _ _ htopic]
          exact h.headUnused

/-- Twins tell a look that is published from everything else. -/
theorem Twins.alike_iff {s : Doubles} (h : s.Twins) (op : Operation φ) :
    s.Alike op ↔ s.NoLook op := by
  constructor
  · intro halike
    match op with
    | .reset | .handle _ .navigate _ | .handle _ .manipulate _ | .handle _ .gripper _
    | .handle _ .stop _ =>
        trivial
    | .handle r .look params =>
        rw [NoLook, Option.eq_none_iff_forall_ne_some]
        exact fun c hc => h.not_alike hc halike
  · intro hop
    refine ⟨by rw [(h.perform hop).same], ?_⟩
    cases op with
    | reset => trivial
    | handle r action params => exact congrArg Prod.fst (h.act_eq_of_noLook hop)

end

/-- The publishers of a new handler. -/
theorem publishers_new (config : RobotConfig) (rateLimitHz : PyFloat ℚ) (now : Seconds) :
    (new config rateLimitHz now).stub.ros2.publishers =
      [(cmdVel, lit "Twist"), (gripperCmd, lit "JointTrajectory"),
        (armController, lit "JointTrajectory")] := by
  show Dict.set (Dict.set (Dict.set [] cmdVel _) gripperCmd _) armController _ = _
  decide

theorem twins_new (config : RobotConfig) (rateLimitHz : PyFloat ℚ) (now : Seconds) :
    (new config rateLimitHz now).Twins where
  same := rfl
  registered := by
    rw [publishers_new]
    decide
  headless := by
    rw [publishers_new]
    decide
  headUnused := rfl

end Doubles

open Doubles in
/-- From the construction on, in every sequence of operations: each one returns or raises alike
over the stub and over the real interface and leaves the same messages published, if and only if
no look gets as far as publishing. -/
theorem stub_like_real_iff [FloatReader] (config : RobotConfig) (rateLimitHz : PyFloat ℚ)
    (now : Seconds) (ops : List (Operation φ)) :
    Meets Doubles.perform Alike (Doubles.new config rateLimitHz now) ops ↔
      Meets Doubles.perform NoLook (Doubles.new config rateLimitHz now) ops :=
  meets_congr (fun _ op h halike => h.perform ((h.alike_iff op).1 halike)) (fun _ op h => h.alike_iff op)
    (twins_new config rateLimitHz now)

/-- To look straight ahead. -/
def lookAhead : Operation WholeFloat :=
  .handle ⟨true, .stub (.new [] [] (.finite 1) []), 1, 1⟩ .look (.dict [])

open Doubles in
/-- The stub logs a look, and the real interface raises. -/
theorem look_only_on_stub :
    letI : FloatReader := ⟨fun _ => none⟩
    ¬ Meets Doubles.perform Alike
      (Doubles.new (.new (.finite 1) (.finite 1) [] [] (.finite 5)) (.finite 10) 0) [lookAhead] := by
  let _ : FloatReader := ⟨fun _ => none⟩
  rintro ⟨⟨hlog, -⟩, -⟩
  exact absurd hlog (by decide +kernel)

end ShugoCore
