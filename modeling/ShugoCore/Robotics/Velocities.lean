import ShugoCore.Robotics.Delivery
import ShugoCore.Robotics.Threads

/-!
# Velocities that are no numbers

A requested velocity is cut off at the limit and cleaned when it is published.  To clean it is to
make a NaN or an infinity zero, but what was cut off is neither: `min(limit, nan)` is the limit.
So a component that is no number is published as a velocity at the limit, unless the limit is
infinite (`velocity_obeys_iff`).

`robot_navigate` publishes its velocity at once.  The continuous mode keeps it, and its loop
publishes it again and again while other threads run.  It is cleaned in place, which changes
nothing the second time.
-/

namespace ShugoCore

open Py Machine

variable {φ : Type}

/-! ## One component -/

/-- A limit as `__init__` leaves it. -/
def Limit (limit : PyFloat ℚ) : Prop := limit = .posInf ∨ ∃ q : ℚ, 0 < q ∧ limit = .finite q

/-- What is published for a component is within the limit, and is zero if the component is no
number. -/
def Obeys (limit requested published : PyFloat ℚ) : Prop :=
  limit.neg.le published = true ∧ published.le limit = true ∧
    (requested.isFinite = false → published = .finite 0)

theorem nearest_hundredth :
    PyFloat.nearest (1 / 100) = .finite (5764607523034235 / 576460752303423488) := by
  decide +kernel

theorem limit_max (v : PyFloat ℚ) : Limit (PyFloat.max (PyFloat.nearest (1 / 100)) v) := by
  rw [nearest_hundredth]
  cases v with
  | nan => exact .inr ⟨_, by norm_num, rfl⟩
  | posInf => exact .inl rfl
  | negInf => exact .inr ⟨_, by norm_num, rfl⟩
  | finite q =>
      simp only [PyFloat.max, PyFloat.lt, decide_eq_true_eq]
      split
      · rename_i h
        exact .inr ⟨q, lt_trans (by norm_num) h, rfl⟩
      · exact .inr ⟨_, by norm_num, rfl⟩

/-- To clean a number is to cut it off at 100. -/
theorem clean_finite (q : ℚ) : clean (.finite q) = .finite (-100 ⊔ (100 ⊓ q)) := by
  simp [clean, PyFloat.isFinite]

@[simp] theorem clean_clean (v : PyFloat ℚ) : clean (clean v) = clean v := by
  cases v with
  | finite q => simp [clean_finite]
  | nan | posInf | negInf => rfl

/-- The number that a component is cut off to. -/
def cutOff (limit : ℚ) : PyFloat ℚ → ℚ
  | .finite q => -limit ⊔ (limit ⊓ q)
  -- `min(limit, nan)` is the limit.
  | .nan | .posInf => limit
  | .negInf => -limit

theorem clampVelocity_finite {limit : ℚ} (h : 0 < limit) (v : PyFloat ℚ) :
    clampVelocity v (.finite limit) = .finite (cutOff limit v) := by
  have hneg : -limit < limit := by linarith
  cases v with
  | finite q => simp [clampVelocity, cutOff, PyFloat.neg]
  | nan | posInf =>
      simp [clampVelocity, cutOff, PyFloat.neg, PyFloat.clamp, PyFloat.max, PyFloat.min, PyFloat.lt, hneg]
  | negInf => simp [clampVelocity, cutOff, PyFloat.neg, PyFloat.clamp, PyFloat.max, PyFloat.min, PyFloat.lt]

theorem cutOff_bounds {limit : ℚ} (h : 0 < limit) (v : PyFloat ℚ) :
    -limit ≤ cutOff limit v ∧ cutOff limit v ≤ limit := by
  have hneg : -limit ≤ limit := by linarith
  cases v with
  | finite q => exact ⟨le_sup_left, sup_le hneg inf_le_left⟩
  | nan | posInf => exact ⟨hneg, le_rfl⟩
  | negInf => exact ⟨le_rfl, hneg⟩

theorem cutOff_ne_zero {limit : ℚ} (h : 0 < limit) {v : PyFloat ℚ} (hv : v.isFinite = false) :
    cutOff limit v ≠ 0 := by
  cases v with
  | finite q => cases hv
  | nan | posInf => exact h.ne'
  | negInf => exact neg_ne_zero.2 h.ne'

/-- With an infinite limit nothing is cut off but a NaN. -/
theorem clampVelocity_posInf (v : PyFloat ℚ) :
    clampVelocity v .posInf = if v = .nan then .posInf else v := by
  cases v <;> simp [clampVelocity, PyFloat.neg, PyFloat.clamp, PyFloat.max, PyFloat.min, PyFloat.lt]

/-- A component that is cut off and cleaned is right if and only if it was a number, or there is
no limit. -/
theorem obeys_iff {limit : PyFloat ℚ} (h : Limit limit) (v : PyFloat ℚ) :
    Obeys limit v (clean (clampVelocity v limit)) ↔ v.isFinite = true ∨ limit = .posInf := by
  rcases h with rfl | ⟨limit, hpos, rfl⟩
  · refine iff_of_true ?_ (.inr rfl)
    rw [clampVelocity_posInf]
    cases v with
    | finite q =>
        rw [if_neg (by simp), clean_finite]
        exact ⟨rfl, rfl, fun h => by cases h⟩
    | nan | posInf | negInf => exact ⟨rfl, rfl, fun _ => rfl⟩
  · obtain ⟨hlo, hhi⟩ := cutOff_bounds hpos v
    have hne : PyFloat.finite limit ≠ .posInf := fun h => by cases h
    rw [clampVelocity_finite hpos, clean_finite]
    simp only [Obeys, PyFloat.neg, PyFloat.le, decide_eq_true_eq, PyFloat.finite.injEq, hne, or_false]
    -- What is within the limit is within it after it is cut off at 100.
    have hbounds : -limit ≤ -100 ⊔ (100 ⊓ cutOff limit v) ∧ -100 ⊔ (100 ⊓ cutOff limit v) ≤ limit := by
      constructor
      · exact le_sup_of_le_right (le_inf (by linarith) hlo)
      · exact sup_le (by linarith) (inf_le_of_right_le hhi)
    cases hv : v.isFinite with
    | true => exact iff_of_true ⟨hbounds.1, hbounds.2, fun h => by cases h⟩ rfl
    | false =>
        refine iff_of_false (fun hobeys => cutOff_ne_zero hpos hv ?_) (fun h => by cases h)
        have hzero := hobeys.2.2 rfl
        grind

/-! ## Requests -/

/-- A request for a velocity. -/
inductive VelocityRequest (φ : Type) where
  /-- The parameters of a `robot_navigate`. -/
  | navigate (params : PyVal φ)
  /-- The arguments of `start_continuous_navigate` or `update_continuous_navigate`. -/
  | continuous (linearX angularZ : PyFloat ℚ)

/-- A velocity of the base from its three components. -/
def baseVelocity (linearX linearY angularZ : PyFloat ℚ) : Twist :=
  ⟨⟨linearX, linearY, .finite 0⟩, ⟨.finite 0, .finite 0, angularZ⟩⟩

/-- A velocity with its components cut off. -/
def Twist.clamped (c : RobotConfig) (t : Twist) : Twist :=
  baseVelocity (clampVelocity t.linear.x c.maxLinearVelocity)
    (clampVelocity t.linear.y c.maxLinearVelocity) (clampVelocity t.angular.z c.maxAngularVelocity)

/-- Each component of a velocity that is published obeys its limit. -/
def Twist.Obeys (c : RobotConfig) (requested published : Twist) : Prop :=
  (ShugoCore.Obeys c.maxLinearVelocity requested.linear.x published.linear.x ∧
    ShugoCore.Obeys c.maxLinearVelocity requested.linear.y published.linear.y ∧
    ShugoCore.Obeys c.maxLinearVelocity requested.linear.z published.linear.z) ∧
  ShugoCore.Obeys c.maxAngularVelocity requested.angular.x published.angular.x ∧
    ShugoCore.Obeys c.maxAngularVelocity requested.angular.y published.angular.y ∧
    ShugoCore.Obeys c.maxAngularVelocity requested.angular.z published.angular.z

/-- Each component of a request is a number, or has no limit. -/
def Twist.Numbers (c : RobotConfig) (requested : Twist) : Prop :=
  (requested.linear.x.isFinite = true ∨ c.maxLinearVelocity = .posInf) ∧
    (requested.linear.y.isFinite = true ∨ c.maxLinearVelocity = .posInf) ∧
    (requested.angular.z.isFinite = true ∨ c.maxAngularVelocity = .posInf)

theorem obeys_zero {limit : PyFloat ℚ} (h : Limit limit) :
    ShugoCore.Obeys limit (.finite 0) (.finite 0) := by
  rcases h with rfl | ⟨limit, hpos, rfl⟩
  · exact ⟨rfl, rfl, fun _ => rfl⟩
  · refine ⟨?_, ?_, fun _ => rfl⟩
    · simpa [PyFloat.neg, PyFloat.le] using hpos.le
    · simpa [PyFloat.le] using hpos.le

/-- The velocity that is published for a request. -/
theorem obeys_clamped_iff {c : RobotConfig} (hlinear : Limit c.maxLinearVelocity)
    (hangular : Limit c.maxAngularVelocity) (linearX linearY angularZ : PyFloat ℚ) :
    let requested := baseVelocity linearX linearY angularZ
    Twist.Obeys c requested (sanitizeTwist (requested.clamped c)) ↔ requested.Numbers c := by
  have hclean : clean (.finite 0) = .finite 0 := by
    rw [clean_finite]
    norm_num
  simp only [Twist.Obeys, Twist.Numbers, sanitizeTwist, Twist.clamped, baseVelocity, hclean,
    obeys_iff hlinear, obeys_iff hangular, obeys_zero hlinear, obeys_zero hangular, and_true, true_and,
    and_assoc]

/-! ## What is published -/

/-- The continuous mode cuts off what it is asked for. -/
theorem continuousTwist_eq {c : RobotConfig} (hlinear : Limit c.maxLinearVelocity)
    (linearX angularZ : PyFloat ℚ) :
    RobotSystem.continuousTwist c linearX angularZ =
      (baseVelocity linearX (.finite 0) angularZ).clamped c := by
  have hzero : clampVelocity (.finite 0) c.maxLinearVelocity = .finite 0 := by
    rcases hlinear with hlimit | ⟨limit, hpos, hlimit⟩
    · rw [hlimit, clampVelocity_posInf]
      rfl
    · rw [hlimit, clampVelocity_finite hpos, cutOff, inf_eq_right.2 hpos.le, sup_eq_right.2]
      linarith
  simp only [RobotSystem.continuousTwist, Twist.clamped, baseVelocity, hzero]

theorem sanitizeTwist_sanitizeTwist (t : Twist) : sanitizeTwist (sanitizeTwist t) = sanitizeTwist t := by
  simp only [sanitizeTwist, clean_clean]

/-- A velocity that was published, or dropped, is still the same once it is cleaned. -/
theorem Ros2.sanitizeTwist_sent {transport : Transport} {r : Ros2} {now : Seconds} {topic : Str}
    {v : Twist} {sent : Message} (h : (r.publish transport now topic (.twist v)).1 = .ok sent) :
    ∃ t, sent = .twist t ∧ sanitizeTwist t = sanitizeTwist v := by
  simp only [publish] at h
  split at h
  · cases h
    exact ⟨v, rfl, rfl⟩
  · split at h
    · cases h
    · rename_i hout
      cases h
      have hvalid := validate_of_outgoing hout
      cases hvalid
      exact ⟨_, rfl, sanitizeTwist_sanitizeTwist v⟩

namespace RobotSystem

/-- The continuous mode holds a velocity at an index, cleaned or not. -/
def Holds (s : RobotSystem φ) (i : Nat) (twist : Twist) : Prop :=
  ∃ v, s.velocities[i]? = some v ∧ sanitizeTwist v = sanitizeTwist twist

theorem holds_setVelocity (s : RobotSystem φ) (twist : Twist) :
    (s.setVelocity twist).Holds s.velocities.length twist :=
  ⟨twist, List.getElem?_concat_length, rfl⟩

theorem Holds.of_velocities {s s' : RobotSystem φ} {i : Nat} {twist : Twist} (h : s.Holds i twist)
    (heq : s'.velocities = s.velocities) : s'.Holds i twist := by
  obtain ⟨v, hv, hclean⟩ := h
  exact ⟨v, heq ▸ hv, hclean⟩

theorem Holds.setVelocity {s : RobotSystem φ} {i : Nat} {twist : Twist} (h : s.Holds i twist)
    (next : Twist) : (s.setVelocity next).Holds i twist := by
  obtain ⟨v, hv, hclean⟩ := h
  refine ⟨v, ?_, hclean⟩
  have hlt := (List.getElem?_eq_some_iff.1 hv).1
  exact (List.getElem?_append_left hlt).trans hv

section

variable [Builtins φ] [FloatReader]

theorem Holds.advance {s : RobotSystem φ} {i : Nat} {twist : Twist} (h : s.Holds i twist)
    (transport : Transport) (k : Nat) (r : StepReadings) (t : RobotThread φ) :
    (s.advance transport k r t).Holds i twist := by
  cases t with
  | aiming next => exact (h.setVelocity next).of_velocities rfl
  | updating next => exact (h.setVelocity next).of_velocities rfl
  | driving velocity =>
      simp only [RobotSystem.advance]
      split
      · rename_i v hv
        simp only [cleanVelocity]
        split
        · rename_i sent hsent
          obtain ⟨t, ht, hclean⟩ := Ros2.sanitizeTwist_sent hsent
          cases ht
          obtain ⟨w, hw, hwclean⟩ := h
          by_cases hi : velocity = i
          · subst hi
            rw [hv, Option.some.injEq] at hw
            subst hw
            refine ⟨sent, ?_, hclean.trans hwclean⟩
            exact List.getElem?_set_self (List.getElem?_eq_some_iff.1 hv).1
          · refine ⟨w, ?_, hwclean⟩
            exact (List.getElem?_set_ne hi).trans hw
        · exact h.of_velocities rfl
        · exact h.of_velocities rfl
      · exact h.of_velocities rfl
  | ending next =>
      obtain ⟨events, hevents⟩ := s.setStopEvent_eq
      cases next with
      | none => exact h.of_velocities (by simp only [RobotSystem.advance, hevents]; rfl)
      | some next => exact h.of_velocities (by simp only [RobotSystem.advance, hevents]; rfl)
  | parting =>
      obtain ⟨events, hevents⟩ := s.setStopEvent_eq
      exact h.of_velocities (by simp only [RobotSystem.advance, hevents]; rfl)
  | halting next => cases next <;> exact h.of_velocities rfl
  | admitted d =>
      simp only [RobotSystem.advance]
      split <;> exact h.of_velocities rfl
  | looping | fetching =>
      simp only [RobotSystem.advance]
      split <;> exact h.of_velocities rfl
  | calling _ | publishing _ | refreshing | stopping _ | stilling _ | returning _ | arming _ | launching
  | waiting _ | checking | parking | beating | watching | sensing | alarmed _ | done _ =>
      exact h.of_velocities rfl

theorem Holds.step {s : RobotSystem φ} {i : Nat} {twist : Twist} (h : s.Holds i twist)
    (transport : Transport) (a : Action φ) : (s.step transport a).Holds i twist := by
  cases a with
  | reset => exact h.of_velocities rfl
  | thread a =>
      cases a with
      | call c => exact h.of_velocities rfl
      | step k r =>
          cases hk : s.threads[k]? with
          | none =>
              rw [RobotSystem.step, threadStep_of_none hk]
              exact h
          | some t =>
              rw [RobotSystem.step, threadStep_of_some hk]
              exact h.advance transport k r t

/-- Whatever runs, the velocity is held. -/
theorem Holds.run {s : RobotSystem φ} {i : Nat} {twist : Twist} (h : s.Holds i twist)
    (transport : Transport) (actions : List (Action φ)) :
    (Machine.run (RobotSystem.step transport) s actions).Holds i twist :=
  inv_run (I := fun s : RobotSystem φ => s.Holds i twist) (fun _ a hs => hs.step transport a) h actions

/-- What the loop publishes of a velocity that it holds is the velocity, cleaned. -/
theorem Holds.published {s : RobotSystem φ} {i : Nat} {twist published : Twist} (h : s.Holds i twist)
    {transport : Transport} {k : Nat} {r : StepReadings}
    (hk : s.threads[k]? = some (.driving i))
    (hentry : (cmdVel, .twist published) ∈
      (s.threadStep transport (.step k r)).handler.ros2.log.drop s.handler.ros2.log.length) :
    published = sanitizeTwist twist := by
  obtain ⟨v, hv, hclean⟩ := h
  rw [threadStep_of_some hk, log_advance, List.drop_left] at hentry
  simp only [pending, hv, Option.map_some, Option.getD_some] at hentry
  have hvalid := (Ros2.mem_added hentry).2
  cases hvalid
  exact hclean

end

end RobotSystem

section

variable [Builtins φ] [FloatReader]

/-- The components of a request, after `float`. -/
def VelocityRequest.requested : VelocityRequest φ → Except RobotError Twist
  | .navigate params => do
      let params ← robotParams params
      let linearX ← floatParam params "linear_x" (.finite 0)
      let linearY ← floatParam params "linear_y" (.finite 0)
      let angularZ ← floatParam params "angular_z" (.finite 0)
      return baseVelocity linearX linearY angularZ
  | .continuous linearX angularZ => .ok (baseVelocity linearX (.finite 0) angularZ)

theorem handleNavigate_velocity {c : RobotConfig} {connected : Bool} {params : PyVal φ} {twist : Twist}
    (h : handleNavigate c connected params = .ok (.inr (.navigate twist))) :
    ∃ linearX linearY angularZ,
      (VelocityRequest.navigate params).requested = .ok (baseVelocity linearX linearY angularZ) ∧
        twist = (baseVelocity linearX linearY angularZ).clamped c := by
  simp only [handleNavigate] at h
  split at h
  · cases h
  · obtain ⟨d, hparams, h⟩ := ok_of_bind h
    obtain ⟨linearX, hx, h⟩ := ok_of_bind h
    obtain ⟨linearY, hy, h⟩ := ok_of_bind h
    obtain ⟨angularZ, hz, h⟩ := ok_of_bind h
    cases h
    refine ⟨linearX, linearY, angularZ, ?_, rfl⟩
    simp only [VelocityRequest.requested, hparams, hx, hy, hz, bind, Except.bind]
    rfl

theorem prepare_navigate (c : RobotConfig) (planner : MotionPlanner) (connected stopped : Bool)
    (params : PyVal φ) :
    prepare c planner connected stopped ⟨RobotAction.navigate.actionType, params⟩ =
      handleNavigate c connected params := if_pos rfl

/-- A `robot_navigate` that gets as far as publishing has its velocity cut off. -/
theorem commandOf_navigate {h : RoboticsHandler} {r : RobotReadings} {params : PyVal φ} {twist : Twist}
    (hcommand : h.commandOf r .navigate params = some (.navigate twist)) :
    ∃ linearX linearY angularZ,
      (VelocityRequest.navigate params).requested = .ok (baseVelocity linearX linearY angularZ) ∧
        twist = (baseVelocity linearX linearY angularZ).clamped h.config := by
  simp only [RoboticsHandler.commandOf] at hcommand
  split at hcommand
  · cases hcommand
  · rw [prepare_navigate] at hcommand
    cases hprepare : handleNavigate h.config r.connected params with
    | error e =>
        rw [hprepare] at hcommand
        cases hcommand
    | ok x =>
        rw [hprepare] at hcommand
        cases x with
        | inl reply => cases hcommand
        | inr command =>
            cases hcommand
            exact handleNavigate_velocity hprepare

/-- A velocity is published for a request: by the call of `robot_navigate`, or by the loop after
the velocity was set and anything else has happened. -/
inductive Publishes (transport : Transport) (c : RobotConfig) : VelocityRequest φ → Twist → Prop
  | navigate {h : RoboticsHandler} {r : RobotReadings} {params : PyVal φ} {published : Twist}
      (config : h.config = c)
      (entry : (cmdVel, .twist published) ∈
        (h.act transport r .navigate params).2.ros2.log.drop h.ros2.log.length) :
      Publishes transport c (.navigate params) published
  | continuous {s s' : RobotSystem φ} {linearX angularZ : PyFloat ℚ}
      {actions : List (RobotSystem.Action φ)} {k : Nat} {r : StepReadings} {published : Twist}
      (later : run (RobotSystem.step transport)
        (s.setVelocity (RobotSystem.continuousTwist c linearX angularZ)) actions = s')
      (loop : s'.threads[k]? = some (.driving s.velocities.length))
      (entry : (cmdVel, .twist published) ∈
        (s'.threadStep transport (.step k r)).handler.ros2.log.drop s'.handler.ros2.log.length) :
      Publishes transport c (.continuous linearX angularZ) published

/-- What is published for a request is the request, cut off and cleaned. -/
theorem Publishes.eq {transport : Transport} {c : RobotConfig} (hlinear : Limit c.maxLinearVelocity)
    {q : VelocityRequest φ} {published : Twist} (h : Publishes transport c q published) :
    ∃ linearX linearY angularZ, q.requested = .ok (baseVelocity linearX linearY angularZ) ∧
      published = sanitizeTwist ((baseVelocity linearX linearY angularZ).clamped c) := by
  cases h with
  | @navigate h r params published config entry =>
      subst config
      rcases h.act_cases r .navigate params with
        ⟨hstop, -⟩ | ⟨-, result, hact, -⟩ | ⟨command, hcommand, hprepares, hact⟩
      · cases hstop
      · rw [hact, List.drop_length] at entry
        cases entry
      · cases hprepares with
        | navigate twist =>
            obtain ⟨linearX, linearY, angularZ, hrequested, rfl⟩ := commandOf_navigate hcommand
            refine ⟨linearX, linearY, angularZ, hrequested, ?_⟩
            rw [hact, RoboticsHandler.ros2_send, Ros2.log_publish, List.drop_left] at entry
            have hvalid := (Ros2.mem_added entry).2
            cases hvalid
            rfl
  | @continuous s s' linearX angularZ actions k r published later loop entry =>
      refine ⟨linearX, .finite 0, angularZ, rfl, ?_⟩
      have hheld := (RobotSystem.holds_setVelocity s
        (RobotSystem.continuousTwist c linearX angularZ)).run transport actions
      rw [later] at hheld
      rw [hheld.published loop entry, continuousTwist_eq hlinear]

end

/-- Whatever the limits are: what is published for a request is within the limits, with zero for
each component that is no number, if and only if each component of the request is a number or has
no limit. -/
theorem velocity_obeys_iff [Builtins φ] [FloatReader] (transport : Transport)
    (maxLinearVelocity maxAngularVelocity : PyFloat ℚ) (bounds : Dict Str (PyFloat ℚ × PyFloat ℚ))
    (limits : JointLimits) (timeout : PyFloat ℚ) {q : VelocityRequest φ} {published : Twist}
    (h : Publishes transport (.new maxLinearVelocity maxAngularVelocity bounds limits timeout) q
      published) :
    ∃ requested, q.requested = .ok requested ∧
      (Twist.Obeys (.new maxLinearVelocity maxAngularVelocity bounds limits timeout) requested published ↔
        requested.Numbers (.new maxLinearVelocity maxAngularVelocity bounds limits timeout)) := by
  have hlinear := limit_max maxLinearVelocity
  have hangular := limit_max maxAngularVelocity
  obtain ⟨linearX, linearY, angularZ, hrequested, rfl⟩ := h.eq hlinear
  exact ⟨_, hrequested, obeys_clamped_iff hlinear hangular linearX linearY angularZ⟩

/-- To move forward, told to a healthy robot. -/
def forward (linearX : PyVal WholeFloat) : PyVal WholeFloat := .dict (obj [("linear_x", linearX)])

/-- What the desk robot adds to its log when it is told to move forward. -/
def forwardLog (linearX : PyVal WholeFloat) : List (Str × Message) :=
  letI : FloatReader := ⟨fun _ => none⟩
  (deskRobot.act .stub ⟨true, .stub (.new [] [] (.finite 1) []), 0, 0⟩ .navigate
    (forward linearX)).2.ros2.log.drop deskRobot.ros2.log.length

/-- Forward at a speed of three is published as forward at the limit. -/
theorem three_is_cut_off :
    letI : FloatReader := ⟨fun _ => none⟩
    ∃ requested, (VelocityRequest.navigate (forward (.int 3))).requested = .ok requested ∧
      (Twist.Obeys (.new (.finite 1) (.finite 1) [] [] (.finite 5)) requested
          (baseVelocity (.finite 1) (.finite 0) (.finite 0)) ↔
        requested.Numbers (.new (.finite 1) (.finite 1) [] [] (.finite 5))) := by
  let _ : FloatReader := ⟨fun _ => none⟩
  have hentry : (cmdVel, .twist (baseVelocity (.finite 1) (.finite 0) (.finite 0))) ∈
      forwardLog (.int 3) := by decide +kernel
  exact velocity_obeys_iff .stub _ _ _ _ _ (.navigate (h := deskRobot) rfl hentry)

/-- Forward at a speed that is no number is published as forward at the limit. -/
theorem nan_is_full_speed :
    letI : FloatReader := ⟨fun _ => none⟩
    ¬ ∀ (q : VelocityRequest WholeFloat) (published : Twist),
      Publishes .stub deskRobot.config q published →
        ∀ requested, q.requested = .ok requested → Twist.Obeys deskRobot.config requested published := by
  let _ : FloatReader := ⟨fun _ => none⟩
  intro h
  have hentry : (cmdVel, .twist (baseVelocity (.finite 1) (.finite 0) (.finite 0))) ∈
      forwardLog (.float .nan) := by decide +kernel
  have hrequested : (VelocityRequest.navigate (forward (.float .nan))).requested =
      .ok (baseVelocity .nan (.finite 0) (.finite 0)) := rfl
  have hzero := (h _ _ (.navigate (h := deskRobot) rfl hentry) _ hrequested).1.1.2.2 rfl
  cases hzero

end ShugoCore
