import ShugoCore.Lib.Run
import ShugoCore.Robotics.Handler

/-!
# Threads on one handler

Callers of a `RoboticsExecutionHandler`, its continuous loop, its watchdog and its sensor loop
run at the same time.  Each thread is at a point of its program, and a step takes one thread to
its next point.  The points lie between the accesses to what the threads share: the emergency
stop with its lock, the interface with its lock, the time of the last command, the velocity of
the continuous mode and its stop event.  An iteration of the watchdog or of the sensor loop is a
thread of its own.  To join a thread is to wait for it for two seconds at most, so nothing
follows from it.

A velocity is an object that `publish` cleans in place, so the continuous mode holds the index of
one.  A stop event is an object too, and the loop waits on the one it finds when it begins to
wait.

Two records are kept that the code does not have: whether an emergency stop has returned since
the last reset, and when a caller has last given a command.
-/

namespace ShugoCore

open Py Machine

/-- A point of the program of a thread. -/
inductive RobotThread (φ : Type) where
  /-- `handle`, before the latch check. -/
  | calling (d : RobotDecision φ)
  /-- `handle`, after the latch check. -/
  | admitted (d : RobotDecision φ)
  /-- `handle`, before a command is published. -/
  | publishing (c : Command)
  /-- `handle` or `update_continuous_navigate`, before `_update_watchdog`. -/
  | refreshing
  /-- `_handle_stop`.  The watchdog marks the call of an iteration that is late. -/
  | stopping (late : Bool)
  /-- `_handle_stop`, after the latch is set. -/
  | stilling (late : Bool)
  /-- `_handle_stop`, after the velocity of zero is published. -/
  | returning (late : Bool)
  /-- `stop_continuous_navigate`, on its own or before a new velocity. -/
  | ending (next : Option Twist)
  /-- `stop_continuous_navigate`, after the event is set. -/
  | halting (next : Option Twist)
  /-- `start_continuous_navigate`, before there is a new event. -/
  | arming (twist : Twist)
  /-- `start_continuous_navigate`, before there is a new velocity. -/
  | aiming (twist : Twist)
  /-- `start_continuous_navigate`, before the loop is started. -/
  | launching
  /-- `update_continuous_navigate`, before there is a new velocity. -/
  | updating (twist : Twist)
  /-- `_continuous_loop`, before it reads the event. -/
  | looping
  /-- `_continuous_loop`, while it waits on an event. -/
  | waiting (event : Nat)
  /-- `_continuous_loop`, before it checks the connection. -/
  | checking
  /-- `_continuous_loop`, after the connection was found lost. -/
  | parting
  /-- `_continuous_loop`, before its safe stop. -/
  | parking
  /-- `_continuous_loop`, before it reads the velocity. -/
  | fetching
  /-- `_continuous_loop`, before a velocity is published. -/
  | driving (velocity : Nat)
  /-- `_continuous_loop`, before `_update_watchdog`. -/
  | beating
  /-- `_watchdog_loop`, before `check_watchdog`. -/
  | watching
  /-- `_sensor_loop`, before the scan. -/
  | sensing
  /-- Either loop, before it looks at the latch. -/
  | alarmed (late : Bool)
  | done (late : Bool)

/-- What a step reads besides what the threads share. -/
structure StepReadings where
  now : Seconds
  connected : Bool
  planner : MotionPlanner
  obstacle : Bool

/-- A call that begins a thread. -/
inductive RobotCall (φ : Type) where
  | handle (d : RobotDecision φ)
  | startContinuousNavigate (linearX angularZ : PyFloat ℚ)
  | updateContinuousNavigate (linearX angularZ : PyFloat ℚ)
  | stopContinuousNavigate
  | watchdogIteration
  | sensorIteration

/-- What happens to the threads. -/
inductive ThreadAction (φ : Type) where
  | call (c : RobotCall φ)
  | step (thread : Nat) (r : StepReadings)

/-- A handler with its threads. -/
structure RobotSystem (φ : Type) where
  handler : RoboticsHandler
  /-- The velocities that were made for the continuous mode. -/
  velocities : List Twist
  /-- `_continuous_twist`. -/
  velocity : Option Nat
  /-- The stop events that were made, and whether they are set. -/
  events : List Bool
  /-- `_continuous_stop_event`. -/
  stopEvent : Option Nat
  threads : List (RobotThread φ)
  /-- An emergency stop has returned since the last reset. -/
  silenced : Bool
  /-- When a caller has last given a command. -/
  lastCaller : Seconds
  /-- The time of the last command was written by the continuous loop. -/
  refreshedByLoop : Bool

variable {φ : Type}

namespace RobotSystem

/-- A handler without threads. -/
def new (config : RobotConfig) (ros2 : Ros2) (now : Seconds) : RobotSystem φ where
  handler := .new config ros2 now
  velocities := []
  velocity := none
  events := []
  stopEvent := none
  threads := []
  silenced := false
  lastCaller := now
  refreshedByLoop := false

/-- A thread goes to a point of its program. -/
def goto (s : RobotSystem φ) (k : Nat) (t : RobotThread φ) : RobotSystem φ :=
  { s with threads := s.threads.set k t }

/-- One more thread. -/
def fork (s : RobotSystem φ) (t : RobotThread φ) : RobotSystem φ :=
  { s with threads := s.threads ++ [t] }

/-- A message is published, and the thread goes on or ends with an exception. -/
def publish (transport : Transport) (s : RobotSystem φ) (k : Nat) (now : Seconds) (topic : Str)
    (m : Message) (failed : RobotThread φ) (next : RobotThread φ) : RobotSystem φ :=
  let published := s.handler.publish transport now topic m
  { s with handler := published.2 }.goto k (match published.1 with
    | .ok _ => next
    | .error _ => failed)

/-- `_continuous_stop_event.set()`, if there is one. -/
def setStopEvent (s : RobotSystem φ) : RobotSystem φ :=
  match s.stopEvent with
  | some event => { s with events := s.events.set event true }
  | none => s

/-- A new velocity for the continuous mode. -/
def setVelocity (s : RobotSystem φ) (twist : Twist) : RobotSystem φ :=
  { s with velocities := s.velocities ++ [twist], velocity := some s.velocities.length }

/-- A caller gives a command. -/
def command (s : RobotSystem φ) (now : Seconds) : RobotSystem φ :=
  { s with lastCaller := max s.lastCaller now }

/-- `_update_watchdog`. -/
def refresh (s : RobotSystem φ) (now : Seconds) (byLoop : Bool) : RobotSystem φ :=
  { s with handler := s.handler.updateWatchdog now, refreshedByLoop := byLoop }

/-- An iteration of the watchdog is more than the timeout after the last command of a caller. -/
def isLate (s : RobotSystem φ) (now : Seconds) : Bool :=
  s.handler.config.watchdogTimeout.lt (.finite (now - s.lastCaller))

/-- What `publish` leaves of a velocity: a velocity that is sent is cleaned. -/
def cleanVelocity (s : RobotSystem φ) (velocity : Nat) (result : Except RobotError Message) :
    RobotSystem φ :=
  match result with
  | .ok (.twist sent) => { s with velocities := s.velocities.set velocity sent }
  | .ok (.trajectory _) | .error _ => s

/-- The velocity of the continuous mode. -/
def continuousTwist (c : RobotConfig) (linearX angularZ : PyFloat ℚ) : Twist :=
  ⟨⟨clampVelocity linearX c.maxLinearVelocity, .finite 0, .finite 0⟩,
    ⟨.finite 0, .finite 0, clampVelocity angularZ c.maxAngularVelocity⟩⟩

/-- Where a call begins.  A decision to stop goes to `_handle_stop` at once, and to read touches
nothing that is shared. -/
def entry (s : RobotSystem φ) : RobotCall φ → RobotThread φ
  | .handle d =>
      if d.actionType ∈ RoboticsHandler.safetyActionTypes then .stopping false
      else if d.actionType ∈ RoboticsHandler.readActionTypes then .done false
      else .calling d
  | .startContinuousNavigate linearX angularZ =>
      .ending (some (continuousTwist s.handler.config linearX angularZ))
  | .updateContinuousNavigate linearX angularZ =>
      .updating (continuousTwist s.handler.config linearX angularZ)
  | .stopContinuousNavigate => .ending none
  | .watchdogIteration => .watching
  | .sensorIteration => .sensing

/-- The topic and the message of a thread that is about to publish. -/
def pending (s : RobotSystem φ) : RobotThread φ → Option (Str × Message)
  | .publishing c => some (c.topic, c.message)
  | .stilling _ | .halting _ | .parking => some (cmdVel, .twist .zero)
  | .driving velocity => s.velocities[velocity]?.map fun twist => (cmdVel, .twist twist)
  | _ => none

/-- Setting the stop event changes nothing else. -/
theorem setStopEvent_eq (s : RobotSystem φ) :
    ∃ events, s.setStopEvent = { s with events := events } := by
  simp only [setStopEvent]
  split <;> exact ⟨_, rfl⟩

/-- Cleaning a velocity changes nothing else. -/
theorem cleanVelocity_eq (s : RobotSystem φ) (velocity : Nat) (result : Except RobotError Message) :
    ∃ velocities, s.cleanVelocity velocity result = { s with velocities := velocities } := by
  simp only [cleanVelocity]
  split <;> exact ⟨_, rfl⟩

theorem getElem?_goto {s : RobotSystem φ} {k : Nat} (hk : k < s.threads.length) (t : RobotThread φ) :
    (s.goto k t).threads[k]? = some t := List.getElem?_set_self hk

section

variable [Builtins φ] [FloatReader]

/-- Thread `k` goes on from a point of its program. -/
def advance (transport : Transport) (s : RobotSystem φ) (k : Nat) (r : StepReadings) :
    RobotThread φ → RobotSystem φ
  | .calling d => s.goto k (if s.handler.emergencyStopActive then .done false else .admitted d)
  | .admitted d =>
      match (prepare s.handler.config r.planner r.connected s.handler.emergencyStopActive d).command with
      | some c => s.goto k (.publishing c)
      | none => s.goto k (.done false)
  | .publishing c => s.publish transport k r.now c.topic c.message (.done false) .refreshing
  | .refreshing => ((s.refresh r.now false).command r.now).goto k (.done false)
  | .stopping late =>
      { s with handler := { s.handler with emergencyStopActive := true } }.goto k (.stilling late)
  | .stilling late => s.publish transport k r.now cmdVel (.twist .zero) (.done late) (.returning late)
  | .returning late => { s with silenced := true }.goto k (.done late)
  | .ending none => s.setStopEvent.goto k (.halting none)
  | .ending (some twist) => (s.setStopEvent.command r.now).goto k (.halting (some twist))
  | .halting none => s.publish transport k r.now cmdVel (.twist .zero) (.done false) (.done false)
  | .halting (some twist) =>
      s.publish transport k r.now cmdVel (.twist .zero) (.done false) (.arming twist)
  | .arming twist =>
      { s with events := s.events ++ [false], stopEvent := some s.events.length }.goto k (.aiming twist)
  | .aiming twist => (s.setVelocity twist).goto k .launching
  | .launching => (s.goto k (.done false)).fork .looping
  | .updating twist => (s.setVelocity twist).goto k .refreshing
  | .looping =>
      match s.stopEvent with
      | some event => s.goto k (.waiting event)
      | none => s.goto k (.done false)
  | .waiting event => s.goto k (if s.events[event]? = some true then .done false else .checking)
  | .checking => s.goto k (if r.connected then .fetching else .parting)
  | .parting => s.setStopEvent.goto k .parking
  | .parking => s.publish transport k r.now cmdVel (.twist .zero) (.done false) (.done false)
  | .fetching =>
      match s.velocity with
      | some velocity => s.goto k (.driving velocity)
      | none => s.goto k (.done false)
  | .driving velocity =>
      match s.velocities[velocity]? with
      | some twist =>
          (s.publish transport k r.now cmdVel (.twist twist) (.done false)
            .beating).cleanVelocity velocity
            (s.handler.publish transport r.now cmdVel (.twist twist)).1
      | none => s.goto k (.done false)
  | .beating => (s.refresh r.now true).goto k .looping
  | .watching =>
      s.goto k
        (if s.handler.checkWatchdog r.now then .alarmed (s.isLate r.now)
        else .done (s.isLate r.now))
  | .sensing => s.goto k (if r.obstacle then .alarmed false else .done false)
  | .alarmed late => s.goto k (if s.handler.emergencyStopActive then .done late else .stopping late)
  | .done _ => s

/-- What a step publishes is what its thread is about to publish. -/
theorem log_advance (transport : Transport) (s : RobotSystem φ) (k : Nat) (r : StepReadings)
    (t : RobotThread φ) :
    (s.advance transport k r t).handler.ros2.log = s.handler.ros2.log ++
      ((s.pending t).map fun p => s.handler.ros2.added transport r.now p.1 p.2).getD [] := by
  have hpublish (topic : Str) (m : Message) (failed next : RobotThread φ) :
      (s.publish transport k r.now topic m failed next).handler.ros2.log =
        s.handler.ros2.log ++ s.handler.ros2.added transport r.now topic m :=
    Ros2.log_publish transport s.handler.ros2 r.now topic m
  have hsame {s' : RobotSystem φ} (h : s'.handler.ros2 = s.handler.ros2) :
      s'.handler.ros2.log = s.handler.ros2.log ++ [] := by rw [h, List.append_nil]
  cases t with
  | publishing c => exact hpublish _ _ _ _
  | stilling late => exact hpublish _ _ _ _
  | parking => exact hpublish _ _ _ _
  | halting next => cases next <;> exact hpublish _ _ _ _
  | driving velocity =>
      unfold advance pending
      dsimp only
      cases s.velocities[velocity]? with
      | none => exact hsame rfl
      | some twist =>
          dsimp only
          obtain ⟨velocities, hvelocities⟩ := cleanVelocity_eq
            (s.publish transport k r.now cmdVel (.twist twist) (.done false) .beating) velocity
            (s.handler.publish transport r.now cmdVel (.twist twist)).1
          rw [hvelocities]
          exact hpublish _ _ (.done false) .beating
  | ending next =>
      obtain ⟨events, hevents⟩ := s.setStopEvent_eq
      cases next <;> unfold advance <;> dsimp only <;> rw [hevents] <;> exact hsame rfl
  | parting =>
      obtain ⟨events, hevents⟩ := s.setStopEvent_eq
      unfold advance
      dsimp only
      rw [hevents]
      exact hsame rfl
  | admitted d =>
      unfold advance
      dsimp only
      split <;> exact hsame rfl
  | looping | fetching =>
      unfold advance
      dsimp only
      split <;> exact hsame rfl
  | calling _ | refreshing | stopping _ | returning _ | arming _ | aiming _ | launching | updating _
  | waiting _ | checking | beating | watching | sensing | alarmed _ | done _ => exact hsame rfl

/-- A call is made, or a thread goes on. -/
def threadStep (transport : Transport) (s : RobotSystem φ) : ThreadAction φ → RobotSystem φ
  | .call c => s.fork (s.entry c)
  | .step k r =>
      match s.threads[k]? with
      | some t => s.advance transport k r t
      | none => s

theorem threadStep_of_none {s : RobotSystem φ} {k : Nat} (hk : s.threads[k]? = none)
    (transport : Transport) (r : StepReadings) : s.threadStep transport (.step k r) = s := by
  rw [threadStep, hk]

theorem threadStep_of_some {s : RobotSystem φ} {k : Nat} {t : RobotThread φ}
    (hk : s.threads[k]? = some t) (transport : Transport) (r : StepReadings) :
    s.threadStep transport (.step k r) = s.advance transport k r t := by
  rw [threadStep, hk]

/-- What happens to a handler: its threads go on, or an operator calls `reset_emergency_stop`. -/
inductive Action (φ : Type) where
  | thread (a : ThreadAction φ)
  | reset

/-- One action. -/
def step (transport : Transport) (s : RobotSystem φ) : Action φ → RobotSystem φ
  | .thread a => s.threadStep transport a
  | .reset => { s with handler := s.handler.resetEmergencyStop, silenced := false }

end

/-! ## A call on its own -/

/-- What the steps of a thread read that nothing interferes with. -/
def alone (r : RobotReadings) : List StepReadings :=
  let before : StepReadings := ⟨r.publishedAt, r.connected, r.planner, false⟩
  [before, before, before, ⟨r.updatedAt, r.connected, r.planner, false⟩]

theorem getElem?_publish_of_ok {transport : Transport} {s : RobotSystem φ} {k : Nat}
    (hk : k < s.threads.length)
    {now : Seconds} {topic : Str} {m sent : Message} (failed next : RobotThread φ)
    (h : (s.handler.publish transport now topic m).1 = .ok sent) :
    (s.publish transport k now topic m failed next).threads[k]? = some next := by
  refine (getElem?_goto hk _).trans ?_
  rw [h]

theorem getElem?_publish_of_error {transport : Transport} {s : RobotSystem φ} {k : Nat}
    (hk : k < s.threads.length) {now : Seconds} {topic : Str} {m : Message} {e : RobotError}
    (failed next : RobotThread φ) (h : (s.handler.publish transport now topic m).1 = .error e) :
    (s.publish transport k now topic m failed next).threads[k]? = some failed := by
  refine (getElem?_goto hk _).trans ?_
  rw [h]

section

variable [Builtins φ] [FloatReader]

theorem run_step {s : RobotSystem φ} {k : Nat} {t : RobotThread φ} (hk : s.threads[k]? = some t)
    (transport : Transport) (r : StepReadings) (rs : List StepReadings) :
    run (threadStep transport) s ((r :: rs).map (.step k)) =
      run (threadStep transport) (s.advance transport k r t) (rs.map (.step k)) := by
  rw [List.map_cons, run_cons, threadStep_of_some hk]

/-- A thread that is over stays where it is. -/
theorem run_done {s : RobotSystem φ} {k : Nat} {late : Bool} (hk : s.threads[k]? = some (.done late))
    (transport : Transport) (rs : List StepReadings) :
    run (threadStep transport) s (rs.map (.step k)) = s := by
  induction rs with
  | nil => rfl
  | cons r rs ih => rw [run_step hk, advance, ih]

theorem handleStop_alone {s : RobotSystem φ} {k : Nat} (hk : s.threads[k]? = some (.stopping false))
    (transport : Transport) (r : RobotReadings) :
    (run (threadStep transport) s ((alone r).map (.step k))).handler =
      (s.handler.handleStop transport r).2 := by
  rw [RoboticsHandler.snd_handleStop, alone, run_step hk]
  have hlt := (List.getElem?_eq_some_iff.1 hk).1
  generalize hlatched : s.advance transport k _ (.stopping false) = s'
  have hstilling : s'.threads[k]? = some (.stilling false) := hlatched ▸ getElem?_goto hlt _
  have hhandler : s'.handler = { s.handler with emergencyStopActive := true } := hlatched ▸ rfl
  have hlt := (List.getElem?_eq_some_iff.1 hstilling).1
  rw [run_step hstilling, advance, ← hhandler]
  cases hpublish : (s'.handler.publish transport r.publishedAt cmdVel (.twist .zero)).1 with
  | error e =>
      rw [run_done (getElem?_publish_of_error hlt (.done false) (.returning false) hpublish)]
      rfl
  | ok sent =>
      have hreturning := getElem?_publish_of_ok hlt (.done false) (.returning false) hpublish
      rw [run_step hreturning]
      generalize hreturned : RobotSystem.advance (φ := φ) transport _ k _ (.returning false) = s''
      have hdone : s''.threads[k]? = some (.done false) :=
        hreturned ▸ getElem?_goto (List.getElem?_eq_some_iff.1 hreturning).1 _
      rw [run_done hdone]
      exact hreturned ▸ rfl

theorem send_alone {s : RobotSystem φ} {k : Nat} {c : Command}
    (hk : s.threads[k]? = some (.publishing c)) (transport : Transport) (r : RobotReadings) :
    (run (threadStep transport) s (((alone r).drop 2).map (.step k))).handler =
      (s.handler.send transport r c).2 := by
  have hlt := (List.getElem?_eq_some_iff.1 hk).1
  rw [alone, List.drop_succ_cons, List.drop_succ_cons, List.drop_zero, run_step hk, advance]
  cases hpublish : (s.handler.publish transport r.publishedAt c.topic c.message).1 with
  | error e =>
      rw [run_done (getElem?_publish_of_error hlt (.done false) .refreshing hpublish),
        RoboticsHandler.snd_send_of_error hpublish]
      rfl
  | ok sent =>
      have hrefreshing := getElem?_publish_of_ok hlt (.done false) .refreshing hpublish
      rw [run_step hrefreshing, RoboticsHandler.snd_send_of_ok hpublish]
      rfl

/-- A call of `handle` that nothing interferes with does what `handle` does. -/
theorem handle_alone (transport : Transport) (s : RobotSystem φ) (r : RobotReadings)
    (d : RobotDecision φ) :
    (run (threadStep transport) s (.call (.handle d) :: (alone r).map (.step s.threads.length))).handler =
      (s.handler.handle transport r d).2 := by
  have hcall : (s.fork (s.entry (.handle d))).threads[s.threads.length]? = some (s.entry (.handle d)) :=
    List.getElem?_concat_length
  rw [run_cons, threadStep]
  generalize hk : s.threads.length = k at hcall ⊢
  generalize hfork : s.fork (s.entry (.handle d)) = s' at hcall ⊢
  have hhandler : s.handler = s'.handler := hfork ▸ rfl
  unfold entry at hcall
  dsimp only at hcall
  simp only [RoboticsHandler.handle]
  rw [hhandler]
  split
  · rename_i hsafety
    rw [if_pos hsafety] at hcall
    exact handleStop_alone hcall transport r
  · rename_i hsafety
    rw [if_neg hsafety] at hcall
    split
    · rename_i hread
      rw [if_pos hread] at hcall
      rw [run_done hcall]
    · rename_i hread
      rw [if_neg hread] at hcall
      have hlt := (List.getElem?_eq_some_iff.1 hcall).1
      rw [alone, run_step hcall]
      split
      · rename_i hlatch
        have hdone : (s'.advance transport k ⟨r.publishedAt, r.connected, r.planner, false⟩
            (.calling d)).threads[k]? = some (.done false) := by
          refine (getElem?_goto hlt _).trans ?_
          rw [if_pos hlatch]
        rw [run_done hdone]
        rfl
      · rename_i hlatch
        have hadmitted : (s'.advance transport k ⟨r.publishedAt, r.connected, r.planner, false⟩
            (.calling d)).threads[k]? = some (.admitted d) := by
          refine (getElem?_goto hlt _).trans ?_
          rw [if_neg hlatch]
        rw [run_step hadmitted]
        generalize hlet : s'.advance transport k _ (.calling d) = s'' at hadmitted ⊢
        have hhandler : s'.handler = s''.handler := hlet ▸ rfl
        have hlt := (List.getElem?_eq_some_iff.1 hadmitted).1
        rw [hhandler, advance]
        cases hprepare : prepare s''.handler.config r.planner r.connected
          s''.handler.emergencyStopActive d with
        | error e =>
            rw [Prepared.command, run_done (getElem?_goto hlt _)]
            rfl
        | ok x =>
            cases x with
            | inl reply =>
                rw [Prepared.command, run_done (getElem?_goto hlt _)]
                rfl
            | inr c => exact send_alone (getElem?_goto hlt _) transport r

end

end RobotSystem

end ShugoCore
