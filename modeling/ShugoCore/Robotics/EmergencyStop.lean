import ShugoCore.Robotics.Threads

/-!
# Silence after an emergency stop

Once `_handle_stop` has returned, and until the stop is reset, nothing but a velocity of zero
should be published.  The latch is looked at when `handle` begins, and not when it publishes, and
the continuous mode does not look at it at all.  So it takes care to be silent (`Careful`): when
a stop returns, the latch is still on, no command is about to be published and no loop has a
velocity; and after that no call that was let in before prepares a motion, and the continuous
mode gets no velocity.  Every run with this care is silent
(`silent_after_emergency_stop`).
-/

namespace ShugoCore

open Py Machine

/-- Publishing the message moves nothing. -/
def Message.Still (m : Message) : Prop := m.validate = .ok (.twist .zero)

instance (m : Message) : Decidable m.Still := inferInstanceAs (Decidable (_ = _))

variable {φ : Type}

/-- The thread is in the continuous loop. -/
def RobotThread.inLoop : RobotThread φ → Bool
  | .looping | .waiting _ | .checking | .fetching | .driving _ | .beating => true
  | _ => false

namespace RobotSystem

/-- A velocity of the continuous mode is zero. -/
def stillAt (s : RobotSystem φ) (velocity : Nat) : Bool :=
  s.velocities[velocity]?.any fun twist => decide (Message.twist twist).Still

/-- The velocity of the continuous mode is zero, if there is one. -/
def velocityStill (s : RobotSystem φ) : Bool := s.velocity.all s.stillAt

theorem stillAt_iff {s : RobotSystem φ} {velocity : Nat} : s.stillAt velocity = true ↔
    ∃ twist, s.velocities[velocity]? = some twist ∧ (Message.twist twist).Still := by
  simp [stillAt, Option.any_eq_true]

theorem velocityStill_iff {s : RobotSystem φ} : s.velocityStill = true ↔
    ∀ velocity, s.velocity = some velocity → s.stillAt velocity = true := by
  simp [velocityStill, Option.all_eq_true]

/-- What the thread is about to publish moves nothing, nor does what the loop will publish next. -/
def mute (s : RobotSystem φ) : RobotThread φ → Bool
  | .publishing c => decide c.message.Still
  | .driving velocity => s.stillAt velocity && s.velocityStill
  | t => !t.inLoop || s.velocityStill

section

variable [Builtins φ] [FloatReader]

/-- What a thread may do so that the robot stays silent.
* A stop returns with the latch on, when all threads are mute.
* A call that was let in before the stop prepares no motion after it.
* No velocity is set for a loop that is running, and no loop is started with one. -/
def CarefulAt (s : RobotSystem φ) (r : StepReadings) : RobotThread φ → Prop
  | .returning _ => s.handler.emergencyStopActive = true ∧ ∀ t ∈ s.threads, s.mute t = true
  | .admitted d => s.silenced = true →
      ∀ c ∈ (prepare s.handler.config r.planner r.connected s.handler.emergencyStopActive d).command,
        c.message.Still
  | .aiming twist | .updating twist =>
      s.silenced = true → s.threads.any RobotThread.inLoop = true → (Message.twist twist).Still
  | .launching => s.silenced = true → s.velocityStill = true
  | _ => True

/-- An action with this care. -/
def Careful (s : RobotSystem φ) : Action φ → Prop
  | .thread (.step k r) => ∀ t ∈ s.threads[k]?, s.CarefulAt r t
  | .thread (.call _) | .reset => True

/-- While the robot is to be silent, nothing but a velocity of zero is published. -/
def Quiet (transport : Transport) (s : RobotSystem φ) (a : Action φ) : Prop :=
  s.silenced = true →
    ∀ entry ∈ (s.step transport a).handler.ros2.log.drop s.handler.ros2.log.length,
      entry.2 = .twist .zero

instance (s : RobotSystem φ) (r : StepReadings) (t : RobotThread φ) :
    Decidable (s.CarefulAt r t) := by
  cases t <;> simp only [CarefulAt] <;> infer_instance

instance (s : RobotSystem φ) (a : Action φ) : Decidable (s.Careful a) :=
  match a with
  | .thread (.step k r) => inferInstanceAs (Decidable (∀ t ∈ s.threads[k]?, s.CarefulAt r t))
  | .thread (.call _) | .reset => inferInstanceAs (Decidable True)

instance (transport : Transport) (s : RobotSystem φ) (a : Action φ) :
    Decidable (s.Quiet transport a) :=
  inferInstanceAs (Decidable (_ → _))

end

/-! ## The invariant -/

/-- While the robot is to be silent, the latch is on and all threads are mute. -/
def Silent (s : RobotSystem φ) : Prop :=
  s.silenced = true → s.handler.emergencyStopActive = true ∧ ∀ t ∈ s.threads, s.mute t = true

theorem still_zero : (Message.twist .zero).Still := by decide +kernel

/-- A velocity that is published is cleaned, and a clean velocity of zero is still. -/
theorem still_of_published {transport : Transport} {h : RoboticsHandler} {now : Seconds} {topic : Str}
    {m sent : Message} (hm : m.Still) (hsent : (h.publish transport now topic m).1 = .ok sent) :
    sent.Still := by
  have hsent : (h.ros2.publish transport now topic m).1 = .ok sent := hsent
  unfold Ros2.publish at hsent
  split at hsent
  · cases hsent
    exact hm
  · split at hsent
    · cases hsent
    · rename_i hout
      cases hsent
      have hvalid := Ros2.validate_of_outgoing hout
      rw [Message.Still] at hm
      rw [hm] at hvalid
      cases hvalid
      exact still_zero

/-- A thread stays mute if the velocities that are zero stay zero. -/
theorem mute_mono {s s' : RobotSystem φ}
    (hstill : ∀ velocity, s.stillAt velocity = true → s'.stillAt velocity = true)
    {t : RobotThread φ} (hloop : t.inLoop = true → s.velocityStill = true → s'.velocityStill = true)
    (ht : s.mute t = true) : s'.mute t = true := by
  cases t with
  | publishing c => exact ht
  | driving velocity =>
      obtain ⟨hheld, hnext⟩ := Bool.and_eq_true_iff.1 ht
      exact Bool.and_eq_true_iff.2 ⟨hstill velocity hheld, hloop rfl hnext⟩
  | looping | waiting _ | checking | fetching | beating =>
      simp only [mute, RobotThread.inLoop, Bool.not_true, Bool.false_or] at ht ⊢
      exact hloop rfl ht
  | calling _ | admitted _ | refreshing | stopping _ | stilling _ | returning _ | ending _ | halting _
  | arming _ | aiming _ | launching | updating _ | parting | parking | watching | sensing | alarmed _
  | done _ => rfl

theorem mute_congr {s s' : RobotSystem φ} (hvelocity : s'.velocity = s.velocity)
    (hvelocities : s'.velocities = s.velocities) {t : RobotThread φ} (ht : s.mute t = true) :
    s'.mute t = true := by
  have hstill : s'.stillAt = s.stillAt := by
    funext velocity
    rw [stillAt, stillAt, hvelocities]
  refine mute_mono (fun velocity h => hstill ▸ h) (fun _ h => ?_) ht
  rwa [velocityStill, hvelocity, hstill]

/-- A step that leaves the velocities and takes a thread to a mute point. -/
theorem Silent.goto {s s' : RobotSystem φ} (h : s.Silent) (hsilenced : s'.silenced = s.silenced)
    (hlatch : s.handler.emergencyStopActive = true → s'.handler.emergencyStopActive = true)
    (hvelocity : s'.velocity = s.velocity) (hvelocities : s'.velocities = s.velocities)
    (hthreads : s'.threads = s.threads) (k : Nat) {t : RobotThread φ}
    (ht : s.silenced = true → s.mute t = true) : (s'.goto k t).Silent := by
  intro hs
  have hsilent : s.silenced = true := hsilenced ▸ hs
  obtain ⟨hactive, hmute⟩ := h hsilent
  refine ⟨hlatch hactive, fun u hu => mute_congr hvelocity hvelocities ?_⟩
  have hu : u ∈ s.threads.set k t := hthreads ▸ hu
  rcases List.mem_or_eq_of_mem_set hu with hu | rfl
  · exact hmute u hu
  · exact ht hsilent

theorem Silent.fork {s : RobotSystem φ} (h : s.Silent) {t : RobotThread φ}
    (ht : s.silenced = true → s.mute t = true) : (s.fork t).Silent := by
  intro hs
  obtain ⟨hactive, hmute⟩ := h hs
  refine ⟨hactive, fun u hu => mute_congr rfl rfl ?_⟩
  rcases List.mem_append.1 hu with hu | hu
  · exact hmute u hu
  · exact List.mem_singleton.1 hu ▸ ht hs

/-- A step that publishes takes its thread to one of two points. -/
theorem Silent.publish {s : RobotSystem φ} (h : s.Silent) (transport : Transport) (k : Nat)
    (now : Seconds) (topic : Str) (m : Message) {failed next : RobotThread φ}
    (hfailed : s.silenced = true → s.mute failed = true)
    (hnext : s.silenced = true → s.mute next = true) :
    (s.publish transport k now topic m failed next).Silent := by
  refine h.goto rfl id rfl rfl rfl k fun hs => ?_
  split
  · exact hnext hs
  · exact hfailed hs

/-- A new velocity leaves the threads mute that are not in the loop, and the others if it is zero. -/
theorem mute_setVelocity {s : RobotSystem φ} {twist : Twist} {t : RobotThread φ}
    (ht : s.mute t = true) (hloop : t.inLoop = true → (Message.twist twist).Still) :
    (s.setVelocity twist).mute t = true := by
  refine mute_mono (fun velocity hstill => ?_) (fun hin _ => ?_) ht
  · obtain ⟨w, hw, hstill⟩ := stillAt_iff.1 hstill
    refine stillAt_iff.2 ⟨w, ?_, hstill⟩
    exact (List.getElem?_append_left (List.getElem?_eq_some_iff.1 hw).1).trans hw
  · refine velocityStill_iff.2 fun velocity hvelocity => ?_
    obtain rfl := Option.some.inj hvelocity
    exact stillAt_iff.2 ⟨twist, List.getElem?_concat_length, hloop hin⟩

/-- A velocity that is cleaned leaves the threads mute if it is zero. -/
theorem mute_cleanVelocity {s : RobotSystem φ} {velocity : Nat} {result : Except RobotError Message}
    (hresult : ∀ sent, result = .ok sent → sent.Still) {t : RobotThread φ} (ht : s.mute t = true) :
    (s.cleanVelocity velocity result).mute t = true := by
  simp only [cleanVelocity]
  split
  · rename_i sent
    have hstill (other : Nat) (h : s.stillAt other = true) :
        stillAt { s with velocities := s.velocities.set velocity sent } other = true := by
      obtain ⟨w, hw, h⟩ := stillAt_iff.1 h
      by_cases heq : velocity = other
      · subst heq
        exact stillAt_iff.2
          ⟨sent, List.getElem?_set_self (List.getElem?_eq_some_iff.1 hw).1, hresult _ rfl⟩
      · exact stillAt_iff.2 ⟨w, (List.getElem?_set_ne heq).trans hw, h⟩
    refine mute_mono hstill (fun _ h => ?_) ht
    exact velocityStill_iff.2 fun v hv => hstill v (velocityStill_iff.1 h v hv)
  · exact ht
  · exact ht

/-! ## Runs -/

/-- The message of a mute thread is still. -/
theorem still_of_pending {s : RobotSystem φ} {t : RobotThread φ} (ht : s.mute t = true)
    {topic : Str} {m : Message} (hp : s.pending t = some (topic, m)) : m.Still := by
  cases t with
  | publishing c =>
      cases hp
      exact of_decide_eq_true ht
  | stilling _ | halting _ | parking =>
      cases hp
      exact still_zero
  | driving velocity =>
      obtain ⟨twist, htwist, hstill⟩ := stillAt_iff.1 (Bool.and_eq_true_iff.1 ht).1
      rw [pending, htwist] at hp
      cases hp
      exact hstill
  | calling _ | admitted _ | refreshing | stopping _ | returning _ | ending _ | arming _ | aiming _
  | launching | updating _ | looping | waiting _ | checking | parting | fetching | beating | watching
  | sensing | alarmed _ | done _ => cases hp

/-- Setting a velocity leaves all threads mute, if it is zero or no loop is running. -/
theorem Silent.setVelocity {s : RobotSystem φ} (h : s.Silent) {twist : Twist} (k : Nat)
    {u : RobotThread φ} (hu : (s.setVelocity twist).mute u = true)
    (hcare : s.silenced = true → (s.threads.any RobotThread.inLoop) = true →
      (Message.twist twist).Still) :
    ((s.setVelocity twist).goto k u).Silent := by
  intro hs
  obtain ⟨hactive, hmute⟩ := h hs
  refine ⟨hactive, fun v hv => ?_⟩
  have hv : v ∈ s.threads.set k u := hv
  have hmuted : v ∈ s.threads → (s.setVelocity twist).mute v = true := fun hv =>
    mute_setVelocity (hmute v hv) fun hin => hcare hs (List.any_eq_true.2 ⟨v, hv, hin⟩)
  rcases List.mem_or_eq_of_mem_set hv with hv | rfl
  · exact mute_congr rfl rfl (hmuted hv)
  · exact mute_congr rfl rfl hu

/-- An iteration of the continuous loop leaves all threads mute: the velocity it publishes is
zero while the robot is to be silent, and so is what becomes of it. -/
theorem Silent.drive {s : RobotSystem φ} (h : s.Silent) (transport : Transport) (k : Nat)
    (now : Seconds) {velocity : Nat} {twist : Twist} (hmem : .driving velocity ∈ s.threads)
    (htwist : s.velocities[velocity]? = some twist) :
    ((s.publish transport k now cmdVel (.twist twist) (.done false) .beating).cleanVelocity velocity
      (s.handler.publish transport now cmdVel (.twist twist)).1).Silent := by
  have hmute (hs : s.silenced = true) := Bool.and_eq_true_iff.1 ((h hs).2 (.driving velocity) hmem)
  have hpublished :
      (s.publish transport k now cmdVel (.twist twist) (.done false) .beating).Silent :=
    h.publish transport k _ _ _ (fun _ => rfl) fun hs => (hmute hs).2
  intro hs
  obtain ⟨velocities, hvelocities⟩ := cleanVelocity_eq
    (s.publish transport k now cmdVel (.twist twist) (.done false) .beating) velocity
    (s.handler.publish transport now cmdVel (.twist twist)).1
  have hsilent : s.silenced = true := by rw [hvelocities] at hs; exact hs
  obtain ⟨hactive, hmuted⟩ := hpublished hsilent
  have hstill : (Message.twist twist).Still := by
    obtain ⟨w, hw, hstill⟩ := stillAt_iff.1 (hmute hsilent).1
    rw [htwist] at hw
    cases hw
    exact hstill
  refine ⟨by rw [hvelocities]; exact hactive, fun u hu => ?_⟩
  refine mute_cleanVelocity (fun sent hsent => still_of_published hstill hsent) (hmuted u ?_)
  rw [hvelocities] at hu
  exact hu

section

variable [Builtins φ] [FloatReader]

/-- With all threads mute, a step publishes nothing but a velocity of zero. -/
theorem Silent.quiet {s : RobotSystem φ} (h : s.Silent) (transport : Transport) (a : Action φ) :
    s.Quiet transport a := by
  intro hs entry hentry
  match a with
  | .reset | .thread (.call c) =>
      have hentry : entry ∈ s.handler.ros2.log.drop s.handler.ros2.log.length := hentry
      rw [List.drop_length] at hentry
      cases hentry
  | .thread (.step k r) =>
      rw [step] at hentry
      cases hk : s.threads[k]? with
      | none =>
          rw [threadStep_of_none hk, List.drop_length] at hentry
          cases hentry
      | some t =>
          rw [threadStep_of_some hk, log_advance, List.drop_left] at hentry
          cases hp : s.pending t with
          | none =>
              rw [hp] at hentry
              cases hentry
          | some p =>
              rw [hp] at hentry
              have hvalid := (Ros2.mem_added hentry).2
              have hstill : p.2.Still := still_of_pending ((h hs).2 t (List.mem_of_getElem? hk)) hp
              rw [Message.Still, hvalid] at hstill
              exact Except.ok.inj hstill

/-- With care, a thread that goes on leaves all threads mute. -/
theorem Silent.advance {s : RobotSystem φ} (h : s.Silent) (transport : Transport) {k : Nat}
    {r : StepReadings} {t : RobotThread φ} (hmem : t ∈ s.threads) (hcare : s.CarefulAt r t) :
    (s.advance transport k r t).Silent := by
  have hgo {s' : RobotSystem φ} (hsilenced : s'.silenced = s.silenced)
      (hlatch : s.handler.emergencyStopActive = true → s'.handler.emergencyStopActive = true)
      (hvelocity : s'.velocity = s.velocity) (hvelocities : s'.velocities = s.velocities)
      (hthreads : s'.threads = s.threads) {u : RobotThread φ}
      (hu : s.silenced = true → s.mute u = true) :
      (s'.goto k u).Silent := h.goto hsilenced hlatch hvelocity hvelocities hthreads k hu
  cases t with
  | calling d =>
      refine hgo rfl id rfl rfl rfl fun hs => ?_
      rw [(h hs).1]
      rfl
  | admitted d =>
      unfold RobotSystem.advance
      dsimp only
      split
      · rename_i c hc
        exact hgo rfl id rfl rfl rfl fun hs => decide_eq_true (hcare hs c hc)
      · exact hgo rfl id rfl rfl rfl fun _ => rfl
  | publishing c => exact h.publish transport k _ _ _ (fun _ => rfl) fun _ => rfl
  | refreshing => exact hgo rfl id rfl rfl rfl fun _ => rfl
  | stopping late =>
      intro hs
      refine ⟨rfl, fun u hu => mute_congr rfl rfl ?_⟩
      rcases List.mem_or_eq_of_mem_set hu with hu | rfl
      · exact (h hs).2 u hu
      · rfl
  | stilling late => exact h.publish transport k _ _ _ (fun _ => rfl) fun _ => rfl
  | returning late =>
      intro _
      refine ⟨hcare.1, fun u hu => mute_congr rfl rfl ?_⟩
      rcases List.mem_or_eq_of_mem_set hu with hu | rfl
      · exact hcare.2 u hu
      · rfl
  | ending next =>
      obtain ⟨events, hevents⟩ := s.setStopEvent_eq
      cases next <;> unfold RobotSystem.advance <;> dsimp only <;> rw [hevents] <;>
        exact hgo rfl id rfl rfl rfl fun _ => rfl
  | halting next =>
      cases next with
      | none => exact h.publish transport k _ _ _ (fun _ => rfl) fun _ => rfl
      | some twist => exact h.publish transport k _ _ _ (fun _ => rfl) fun _ => rfl
  | arming twist => exact hgo rfl id rfl rfl rfl fun _ => rfl
  | aiming twist => exact h.setVelocity k rfl hcare
  | launching =>
      have hdone : (s.goto k (.done false)).Silent := h.goto rfl id rfl rfl rfl k fun _ => rfl
      exact hdone.fork fun hs => hcare hs
  | updating twist => exact h.setVelocity k rfl hcare
  | looping =>
      unfold RobotSystem.advance
      dsimp only
      split
      · exact hgo rfl id rfl rfl rfl fun hs => (h hs).2 .looping hmem
      · exact hgo rfl id rfl rfl rfl fun _ => rfl
  | waiting event =>
      refine hgo rfl id rfl rfl rfl fun hs => ?_
      split
      · rfl
      · exact (h hs).2 (.waiting event) hmem
  | checking =>
      refine hgo rfl id rfl rfl rfl fun hs => ?_
      split
      · exact (h hs).2 .checking hmem
      · rfl
  | parting =>
      obtain ⟨events, hevents⟩ := s.setStopEvent_eq
      unfold RobotSystem.advance
      dsimp only
      rw [hevents]
      exact hgo rfl id rfl rfl rfl fun _ => rfl
  | parking => exact h.publish transport k _ _ _ (fun _ => rfl) fun _ => rfl
  | fetching =>
      unfold RobotSystem.advance
      dsimp only
      split
      · rename_i velocity hvelocity
        refine hgo rfl id rfl rfl rfl fun hs => ?_
        have hstill : s.velocityStill = true := (h hs).2 .fetching hmem
        exact Bool.and_eq_true_iff.2 ⟨velocityStill_iff.1 hstill velocity hvelocity, hstill⟩
      · exact hgo rfl id rfl rfl rfl fun _ => rfl
  | driving velocity =>
      unfold RobotSystem.advance
      dsimp only
      split
      · rename_i twist htwist
        exact h.drive transport k r.now hmem htwist
      · exact hgo rfl id rfl rfl rfl fun _ => rfl
  | beating => exact hgo rfl id rfl rfl rfl fun hs => (h hs).2 .beating hmem
  | watching | sensing | alarmed _ =>
      refine hgo rfl id rfl rfl rfl fun _ => ?_
      split <;> rfl
  | done _ => exact h

/-- Whatever happens with care, the robot stays silent. -/
theorem Silent.step {s : RobotSystem φ} (h : s.Silent) (transport : Transport) {a : Action φ}
    (hcare : s.Careful a) : (s.step transport a).Silent := by
  match a with
  | .reset => exact fun hs => by cases hs
  | .thread (.call c) =>
      refine h.fork fun _ => ?_
      cases c with
      | handle d =>
          unfold entry
          dsimp only
          split
          · rfl
          · split <;> rfl
      | startContinuousNavigate _ _ | updateContinuousNavigate _ _ | stopContinuousNavigate
      | watchdogIteration | sensorIteration => rfl
  | .thread (.step k r) =>
      rw [RobotSystem.step]
      cases hk : s.threads[k]? with
      | none =>
          rw [threadStep_of_none hk]
          exact h
      | some t =>
          rw [threadStep_of_some hk]
          exact h.advance transport (List.mem_of_getElem? hk) (hcare t hk)

end

end RobotSystem

open RobotSystem in
/-- In every interleaving with care: after an emergency stop has returned, and until it is reset,
nothing but a velocity of zero is published. -/
theorem silent_after_emergency_stop [Builtins φ] [FloatReader] (transport : Transport)
    (config : RobotConfig) (ros2 : Ros2) (now : Seconds) (actions : List (Action φ))
    (h : Meets (step transport) Careful (RobotSystem.new config ros2 now) actions) :
    Meets (step transport) (Quiet transport) (RobotSystem.new config ros2 now) actions :=
  h.imp (fun _ _ hs hcare => Silent.step hs transport hcare)
    (fun _ a hs _ => Silent.quiet hs transport a)
    (fun hs => by cases hs)

/-- A handler with the default limits, and no threads. -/
def idleRobot : RobotSystem WholeFloat :=
  .new (.new (.finite 1) (.finite 1) [] [] (.finite 5)) (.new (.finite 10)) 0

/-- Steps of a thread, at a time. -/
def stepsAt (now : Seconds) (thread : Nat) (count : Nat) : List (RobotSystem.Action WholeFloat) :=
  List.replicate count (.thread (.step thread ⟨now, true, .stub (.new [] [] (.finite 1) []), false⟩))

/-- A decision without parameters. -/
def told (actionType : String) : RobotSystem.Action WholeFloat :=
  .thread (.call (.handle ⟨lit actionType, .dict []⟩))

/-- A stop that returns with no thread on its way, and a decision to move that comes after it. -/
def stopThenMove : List (RobotSystem.Action WholeFloat) :=
  told "robot_stop" :: stepsAt 1 0 3 ++ told "robot_navigate" :: stepsAt 2 1 1

open RobotSystem in
/-- The stop is followed by silence. -/
theorem silent_stopThenMove :
    letI : FloatReader := ⟨fun _ => none⟩
    Meets (step .stub) (Quiet .stub) idleRobot stopThenMove := by
  have hcare : letI : FloatReader := ⟨fun _ => none⟩
      Meets (step .stub) Careful idleRobot stopThenMove := by decide +kernel
  exact @silent_after_emergency_stop _ _ ⟨fun _ => none⟩ .stub _ _ 0 stopThenMove hcare

open RobotSystem in
/-- The continuous mode drives on after a stop has returned. -/
theorem loop_drives_after_stop :
    letI : FloatReader := ⟨fun _ => none⟩
    ¬ Meets (step .stub) (Quiet .stub) idleRobot
      (.thread (.call (.startContinuousNavigate (.finite 1) (.finite 0))) :: stepsAt 0 0 5 ++
        told "robot_stop" :: stepsAt 1 2 3 ++ stepsAt 2 1 5) := by
  decide +kernel

end ShugoCore
