import ShugoCore.Robotics.Threads

/-!
# The dead-man switch

An iteration of the watchdog that is late, which is more than the timeout after the last command
of a caller, should leave the emergency stop on.  The watchdog looks at the time of the last
command, and the continuous loop writes this time too.  So a late iteration does nothing as long
as the loop has written the time within the timeout, and that is the only way for it to fail
(`dead_man_iff`).
-/

namespace ShugoCore

open Py Machine

variable {φ : Type}

namespace RobotSystem

/-- An iteration of the watchdog that was late and is over. -/
def overLate : RobotThread φ → Bool
  | .done late => late
  | _ => false

/-- Every iteration of the watchdog that was late and is over has left the emergency stop on. -/
def StoppedWhenLate (s : RobotSystem φ) : Prop :=
  ∀ t ∈ s.threads, overLate t = true → s.handler.emergencyStopActive = true

instance (s : RobotSystem φ) : Decidable s.StoppedWhenLate :=
  inferInstanceAs (Decidable (∀ t ∈ s.threads,
    overLate t = true → s.handler.emergencyStopActive = true))

/-- A late iteration of the watchdog does not find that the continuous loop has written the time
of the last command within the timeout, unless the emergency stop is on. -/
def NotFooled (s : RobotSystem φ) : ThreadAction φ → Prop
  | .step k r => s.threads[k]? = some .watching → s.isLate r.now = true → s.refreshedByLoop = true →
      s.handler.checkWatchdog r.now = true ∨ s.handler.emergencyStopActive = true
  | .call _ => True

/-- A late iteration of the watchdog that has set the latch, or is over. -/
def settled : RobotThread φ → Bool
  | .stilling late | .returning late | .done late => late
  | _ => false

/-- What holds as long as the watchdog is not fooled. -/
structure Watched (s : RobotSystem φ) : Prop where
  /-- A caller has not written a time after its command. -/
  refreshed : s.refreshedByLoop = false → s.handler.lastCommandTime ≤ s.lastCaller
  latched : ∀ t ∈ s.threads, settled t = true → s.handler.emergencyStopActive = true

theorem Watched.stoppedWhenLate {s : RobotSystem φ} (h : s.Watched) : s.StoppedWhenLate :=
  fun t ht hover => h.latched t ht (by cases t <;> first | exact hover | cases hover)

theorem Watched.goto {s : RobotSystem φ} (h : s.Watched) (k : Nat) {u : RobotThread φ}
    (hu : settled u = true → s.handler.emergencyStopActive = true) : (s.goto k u).Watched := by
  refine ⟨h.refreshed, fun v hv hsettled => ?_⟩
  rcases List.mem_or_eq_of_mem_set hv with hv | rfl
  · exact h.latched v hv hsettled
  · exact hu hsettled

/-- The watchdog is not fooled by a caller. -/
theorem checkWatchdog_of_late {s : RobotSystem φ} (h : s.handler.lastCommandTime ≤ s.lastCaller)
    {now : Seconds} (hlate : s.isLate now = true) : s.handler.checkWatchdog now = true := by
  unfold isLate at hlate
  simp only [RoboticsHandler.checkWatchdog]
  cases htimeout : s.handler.config.watchdogTimeout with
  | finite timeout =>
      rw [htimeout] at hlate
      simp only [PyFloat.lt, decide_eq_true_eq] at hlate ⊢
      linarith
  | negInf => rfl
  | nan | posInf =>
      rw [htimeout] at hlate
      cases hlate

theorem settled_entry (s : RobotSystem φ) (c : RobotCall φ) : settled (s.entry c) = false := by
  cases c with
  | handle d =>
      unfold entry
      dsimp only
      split
      · rfl
      · split <;> rfl
  | startContinuousNavigate _ _ | updateContinuousNavigate _ _ | stopContinuousNavigate
  | watchdogIteration | sensorIteration => rfl

/-- A thread that has published is where it can be after a success or after a failure. -/
theorem Watched.publish {s : RobotSystem φ} (h : s.Watched) (transport : Transport) (k : Nat)
    (now : Seconds) {topic : Str} {m : Message} {failed next : RobotThread φ}
    (hfailed : settled failed = true → s.handler.emergencyStopActive = true)
    (hnext : settled next = true → s.handler.emergencyStopActive = true) :
    (s.publish transport k now topic m failed next).Watched := by
  refine Watched.goto ?_ k ?_
  · exact ⟨h.refreshed, h.latched⟩
  · split
    · exact hnext
    · exact hfailed

section

variable [Builtins φ] [FloatReader]

theorem Watched.advance {s : RobotSystem φ} (h : s.Watched) (transport : Transport) {k : Nat}
    {r : StepReadings} {t : RobotThread φ} (hmem : t ∈ s.threads)
    (hfooled : t = .watching → s.isLate r.now = true → s.refreshedByLoop = true →
      s.handler.checkWatchdog r.now = true ∨ s.handler.emergencyStopActive = true) :
    (s.advance transport k r t).Watched := by
  have hsettled (hu : settled t = true) : s.handler.emergencyStopActive = true := h.latched t hmem hu
  have hnever {u : RobotThread φ} (hu : settled u = false) (hs : settled u = true) :
      s.handler.emergencyStopActive = true := by
    rw [hu] at hs
    cases hs
  obtain ⟨events, hevents⟩ := s.setStopEvent_eq
  cases t with
  | calling d => exact h.goto k (hnever (by split <;> rfl))
  | admitted d =>
      unfold RobotSystem.advance
      dsimp only
      split <;> exact h.goto k (hnever rfl)
  | publishing c => exact h.publish transport k r.now (hnever rfl) (hnever rfl)
  | refreshing =>
      refine Watched.goto ?_ k ?_
      · exact ⟨fun _ => le_max_right _ _, h.latched⟩
      · exact hnever rfl
  | stopping late =>
      refine Watched.goto ?_ k ?_
      · exact ⟨h.refreshed, fun _ _ _ => rfl⟩
      · exact fun _ => rfl
  | stilling late => exact h.publish transport k r.now hsettled hsettled
  | returning late =>
      refine Watched.goto ?_ k ?_
      · exact ⟨h.refreshed, h.latched⟩
      · exact hsettled
  | ending next =>
      cases next <;> unfold RobotSystem.advance <;> dsimp only <;> rw [hevents]
      · refine Watched.goto ?_ k (hnever rfl)
        exact ⟨h.refreshed, h.latched⟩
      · refine Watched.goto ?_ k (hnever rfl)
        exact ⟨fun hs => (h.refreshed hs).trans (le_max_left _ _), h.latched⟩
  | halting next => cases next <;> exact h.publish transport k r.now (hnever rfl) (hnever rfl)
  | arming twist | aiming twist | updating twist =>
      refine Watched.goto ?_ k ?_
      · exact ⟨h.refreshed, h.latched⟩
      · exact hnever rfl
  | launching =>
      have hdone : (s.goto k (.done false)).Watched := h.goto k (hnever rfl)
      refine ⟨hdone.refreshed, fun u hu hs => ?_⟩
      rcases List.mem_append.1 hu with hu | hu
      · exact hdone.latched u hu hs
      · rw [List.mem_singleton.1 hu] at hs
        cases hs
  | looping | fetching =>
      unfold RobotSystem.advance
      dsimp only
      split <;> exact h.goto k (hnever rfl)
  | waiting event => exact h.goto k (hnever (by split <;> rfl))
  | checking => exact h.goto k (hnever (by split <;> rfl))
  | parting =>
      unfold RobotSystem.advance
      dsimp only
      rw [hevents]
      refine Watched.goto ?_ k ?_
      · exact ⟨h.refreshed, h.latched⟩
      · exact hnever rfl
  | parking => exact h.publish transport k r.now (hnever rfl) (hnever rfl)
  | driving velocity =>
      unfold RobotSystem.advance
      dsimp only
      split
      · rename_i twist htwist
        have hpublished :
            (s.publish transport k r.now cmdVel (.twist twist) (.done false) .beating).Watched :=
          h.publish transport k r.now (hnever rfl) (hnever rfl)
        obtain ⟨velocities, hvelocities⟩ := cleanVelocity_eq
          (s.publish transport k r.now cmdVel (.twist twist) (.done false) .beating) velocity
          (s.handler.publish transport r.now cmdVel (.twist twist)).1
        rw [hvelocities]
        exact ⟨hpublished.refreshed, hpublished.latched⟩
      · exact h.goto k (hnever rfl)
  | beating =>
      refine Watched.goto ?_ k ?_
      · exact ⟨(fun hs => by cases hs), h.latched⟩
      · exact hnever rfl
  | watching =>
      refine h.goto k fun hu => ?_
      split at hu
      · cases hu
      · rename_i hcheck
        have hlate : s.isLate r.now = true := hu
        cases hloop : s.refreshedByLoop with
        | false => exact absurd (checkWatchdog_of_late (h.refreshed hloop) hlate) hcheck
        | true => exact (hfooled rfl hlate hloop).resolve_left hcheck
  | sensing => exact h.goto k (hnever (by split <;> rfl))
  | alarmed late =>
      refine h.goto k fun hu => ?_
      split at hu
      · assumption
      · cases hu
  | done late => exact h

/-- A step of a thread that leaves the watchdog not fooled. -/
theorem Watched.threadStep {s : RobotSystem φ} (h : s.Watched) (transport : Transport)
    {a : ThreadAction φ} (ha : s.NotFooled a) : (s.threadStep transport a).Watched := by
  cases a with
  | call c =>
      refine ⟨h.refreshed, fun t ht hs => ?_⟩
      rcases List.mem_append.1 ht with ht | ht
      · exact h.latched t ht hs
      · rw [List.mem_singleton.1 ht, settled_entry] at hs
        cases hs
  | step k r =>
      cases hk : s.threads[k]? with
      | none =>
          rw [threadStep_of_none hk]
          exact h
      | some t =>
          rw [threadStep_of_some hk]
          exact h.advance transport (List.mem_of_getElem? hk) fun ht => ha (ht ▸ hk)

/-- A late iteration that is fooled leaves the stop off. -/
theorem notFooled_of_stoppedWhenLate {s : RobotSystem φ} (transport : Transport) {a : ThreadAction φ}
    (h : (s.threadStep transport a).StoppedWhenLate) : s.NotFooled a := by
  cases a with
  | call c => trivial
  | step k r =>
      intro hk hlate _
      rw [threadStep_of_some hk] at h
      by_contra hfooled
      rw [not_or] at hfooled
      have hover : (s.advance transport k r .watching).threads = s.threads.set k (.done true) := by
        unfold RobotSystem.advance
        dsimp only
        rw [if_neg hfooled.1, hlate]
        rfl
      refine hfooled.2 (h (.done true) ?_ rfl)
      rw [hover]
      exact List.mem_of_getElem? (List.getElem?_set_self (List.getElem?_eq_some_iff.1 hk).1)

end

theorem watched_new (config : RobotConfig) (ros2 : Ros2) (now : Seconds) :
    (new config ros2 now : RobotSystem φ).Watched where
  refreshed _ := le_rfl
  latched _ ht := absurd ht List.not_mem_nil

end RobotSystem

open RobotSystem in
/-- In every run of calls and of loops, without a reset: every iteration of the watchdog that is
more than the timeout after the last command of a caller leaves the emergency stop on, if and
only if no such iteration finds the time of the last command written by the continuous loop
within the timeout while the stop is off. -/
theorem dead_man_iff [Builtins φ] [FloatReader] (transport : Transport) (config : RobotConfig)
    (ros2 : Ros2) (now : Seconds) (actions : List (ThreadAction φ)) :
    Always (threadStep transport) StoppedWhenLate (RobotSystem.new config ros2 now) actions ↔
      Meets (threadStep transport) NotFooled (RobotSystem.new config ros2 now) actions :=
  always_iff_meets_while (fun _ _ h ha => Watched.threadStep h transport ha)
    (fun _ _ h _ => ⟨notFooled_of_stoppedWhenLate transport,
      fun ha => (Watched.threadStep h transport ha).stoppedWhenLate⟩)
    (watched_new config ros2 now) (watched_new config ros2 now).stoppedWhenLate

/-- The continuous mode is started at 0 and drives at 4, and the watchdog looks at 6. -/
def forgottenDrive : List (ThreadAction WholeFloat) :=
  let stepsAt (now : Seconds) (thread count : Nat) : List (ThreadAction WholeFloat) :=
    List.replicate count (.step thread ⟨now, true, .stub (.new [] [] (.finite 1) []), false⟩)
  .call (.startContinuousNavigate (.finite 1) (.finite 0)) :: stepsAt 0 0 5 ++ stepsAt 4 1 6 ++
    .call .watchdogIteration :: stepsAt 6 2 1

open RobotSystem in
/-- With a timeout of five seconds the watchdog should stop the robot, and it does not. -/
theorem forgotten_drive_goes_on :
    letI : FloatReader := ⟨fun _ => none⟩
    ¬ Always (threadStep .stub) StoppedWhenLate
      (RobotSystem.new (.new (.finite 1) (.finite 1) [] [] (.finite 5)) (.new (.finite 10)) 0)
      forgottenDrive := by
  decide +kernel

end ShugoCore
