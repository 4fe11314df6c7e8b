import ShugoCore.Clock
import ShugoCore.Lib.Binary64
import ShugoCore.Lib.PyText
import ShugoCore.Lib.Run

/-!
# The maintenance worker

`MemoryManager._worker_loop` waits, makes one maintenance pass and waits again.  A pass that fails
doubles the wait, up to a minute, and the handler is to be the end of it: the worker lives on.

The handler multiplies a float by `2 ** failures`. From the power 1024 on that integer is not a
float, the multiplication raises, and what is raised in a handler leaves the loop. So the worker
outlives an outage exactly if fewer than 1024 passes in a row fail (`worker_outlives_iff`).
-/

namespace ShugoCore

open Py Machine

/-- What a `MemoryManager` gives its worker. -/
structure WorkerConfig where
  /-- `float(consolidation_interval)`. -/
  givenInterval : PyFloat ℚ
  maintenanceFailureThreshold : Int
  /-- `set_fallback_controller` wired one. -/
  hasFallbacks : Bool
  /-- `threading.TIMEOUT_MAX`. -/
  timeoutMax : ℚ
  minute_le_timeoutMax : 60 ≤ timeoutMax

/-- `consolidation_interval`. -/
def WorkerConfig.consolidationInterval (cfg : WorkerConfig) : PyFloat ℚ :=
  .max (.nearest (1 / 20)) cfg.givenInterval

/-- `_worker_stats`. -/
structure WorkerStats where
  lastSuccessAt : Option IsoSeconds
  lastError : Option Str
  consecutiveFailures : Nat
  maintenancePasses : Nat

/-- Where the thread is. -/
inductive WorkerStatus where
  | running
  | ended
  | raised (e : Exn)
  deriving DecidableEq

/-- The variables of `_worker_loop` and what it writes to. -/
structure Worker where
  status : WorkerStatus
  /-- `_stop_event` is set. -/
  stopped : Bool
  failures : Nat
  interval : PyFloat ℚ
  stats : WorkerStats
  /-- The violations reported to the fallback controller. -/
  violations : List (Str × Str)

/-- What `_maintenance_pass` does: it returns, or raises something with a text. -/
inductive PassOutcome where
  | returned
  | raised (text : Str)

/-- What happens to the worker. -/
inductive WorkerEvent where
  | stop
  | wake (now : Seconds) (outcome : PassOutcome)

namespace Worker

variable (cfg : WorkerConfig)

/-- The thread before its first wait. -/
def start : Worker where
  status := .running
  stopped := false
  failures := 0
  interval := cfg.consolidationInterval
  stats :=
    { lastSuccessAt := none, lastError := none, consecutiveFailures := 0, maintenancePasses := 0 }
  violations := []

/-- A pass that returns. -/
def succeed (s : Worker) (now : Seconds) : Worker :=
  { s with
    failures := 0
    interval := cfg.consolidationInterval
    stats := { s.stats with
      lastSuccessAt := some (utcNowIso now)
      consecutiveFailures := 0
      maintenancePasses := s.stats.maintenancePasses + 1 } }

/-- The handler of `_worker_loop`. -/
def fail (s : Worker) (text : Str) : Worker :=
  let failures := s.failures + 1
  match PyFloat.ofInt (2 ^ failures) with
  | .error e => { s with failures, status := .raised e }
  | .ok power =>
      { s with
        failures
        interval := .min (.finite 60) (.mul cfg.consolidationInterval power)
        stats := { s.stats with lastError := some (text.take 200), consecutiveFailures := failures }
        violations :=
          if cfg.hasFallbacks = true ∧ cfg.maintenanceFailureThreshold ≤ failures then
            s.violations ++ [(lit "maintenance_worker_failure", text)]
          else s.violations }

/-- `_worker_loop`, one round at a time. -/
def step (s : Worker) : WorkerEvent → Worker
  | .stop => { s with stopped := true }
  | .wake now outcome =>
      if s.status ≠ .running then s
      else if s.stopped then { s with status := .ended }
      else if PyFloat.lt (.finite cfg.timeoutMax) s.interval then
        { s with status := .raised .overflowError }
      else
        match outcome with
        | .returned => s.succeed cfg now
        | .raised text => s.fail cfg text

/-- The worker runs until it is stopped, waits for a minute at most, and for the configured time if
the last pass did not fail. -/
structure Outlives (s : Worker) : Prop where
  alive : s.status = .running ∨ s.stopped = true ∧ s.status = .ended
  wait : PyFloat.le s.interval (.finite 60) = true
  settled : s.failures = 0 → s.interval = cfg.consolidationInterval

/-- No pass before the stop is the thousand and twenty-fourth in a row to fail. -/
def ShortOutage (s : Worker) : WorkerEvent → Prop
  | .stop | .wake _ .returned => True
  | .wake _ (.raised _) => s.status = .running → s.stopped = false → s.failures < 1023

/-- A worker that has only failed so far. -/
structure Failing (n : Nat) (s : Worker) : Prop where
  outlives : Outlives cfg s
  status : s.status = .running
  stopped : s.stopped = false
  failures : s.failures = n

/-! ## One round -/

variable {cfg}

/-- A wait of a minute is none that the system refuses. -/
theorem lt_timeoutMax {x : PyFloat ℚ} (h : PyFloat.le x (.finite 60) = true) :
    PyFloat.lt (.finite cfg.timeoutMax) x = false := by
  have hmax := cfg.minute_le_timeoutMax
  cases x with
  | finite q =>
      simp only [PyFloat.le, PyFloat.lt, decide_eq_true_eq, decide_eq_false_iff_not, not_lt] at h ⊢
      exact h.trans hmax
  | nan | negInf => rfl
  | posInf => cases h

/-- A worker that waits makes its pass. -/
theorem step_wake {s : Worker} (h : Outlives cfg s) (hstatus : s.status = .running)
    (hstop : s.stopped = false) (now : Seconds) (outcome : PassOutcome) :
    step cfg s (.wake now outcome) =
      match outcome with
      | .returned => s.succeed cfg now
      | .raised text => s.fail cfg text := by
  simp [step, hstatus, hstop, lt_timeoutMax h.wait]

/-- What is left of a minute is at most a minute. -/
theorem min_le_minute (x : PyFloat ℚ) : PyFloat.le (.min (.finite 60) x) (.finite 60) = true := by
  cases x with
  | finite q => simp [PyFloat.le]
  | nan | posInf | negInf => simp [PyFloat.min, PyFloat.lt, PyFloat.le]

/-- The handler gets through if and only if the power of two is a float. -/
theorem fail_outlives {s : Worker} (hstatus : s.status = .running) (text : Str) :
    Outlives cfg (s.fail cfg text) ↔ s.failures < 1023 := by
  simp only [fail, PyFloat.ofInt_two_pow]
  by_cases hshort : s.failures < 1023
  · have hpower : s.failures + 1 < 1024 := by omega
    simp only [if_pos hpower, hshort, iff_true]
    exact ⟨Or.inl hstatus, min_le_minute _, fun h => absurd h s.failures.succ_ne_zero⟩
  · have hpower : ¬ s.failures + 1 < 1024 := by omega
    simp only [if_neg hpower, hshort, iff_false]
    intro h
    rcases h.alive with hrun | ⟨_, hended⟩
    · cases hrun
    · cases hended

theorem outlives_step (hminute : PyFloat.le cfg.consolidationInterval (.finite 60) = true)
    {s : Worker} (h : Outlives cfg s) (event : WorkerEvent) :
    Outlives cfg (step cfg s event) ↔ ShortOutage s event := by
  cases event with
  | stop =>
      have halive : s.status = .running ∨ true = true ∧ s.status = .ended :=
        h.alive.imp_right fun hended => ⟨rfl, hended.2⟩
      exact ⟨fun _ => trivial, fun _ => ⟨halive, h.wait, h.settled⟩⟩
  | wake now outcome =>
      rcases h.alive with hrun | ⟨hstop, hended⟩
      · rcases Bool.eq_false_or_eq_true s.stopped with hstop | hstop
        · have hnext : step cfg s (.wake now outcome) = { s with status := .ended } := by
            simp [step, hrun, hstop]
          rw [hnext]
          have houtlives : Outlives cfg { s with status := .ended } :=
            ⟨Or.inr ⟨hstop, rfl⟩, h.wait, h.settled⟩
          cases outcome with
          | returned => exact ⟨fun _ => trivial, fun _ => houtlives⟩
          | raised text =>
              exact ⟨fun _ _ hs => absurd (hs.symm.trans hstop) Bool.false_ne_true,
                fun _ => houtlives⟩
        · rw [step_wake h hrun hstop]
          cases outcome with
          | returned => exact ⟨fun _ => trivial, fun _ => ⟨Or.inl hrun, hminute, fun _ => rfl⟩⟩
          | raised text =>
              rw [fail_outlives hrun]
              simp [ShortOutage, hrun, hstop]
      · have hnext : step cfg s (.wake now outcome) = s := by simp [step, hended]
        rw [hnext]
        cases outcome with
        | returned => exact ⟨fun _ => trivial, fun _ => h⟩
        | raised text => simp [ShortOutage, hended, h]

theorem outlives_run (hminute : PyFloat.le cfg.consolidationInterval (.finite 60) = true)
    (events : List WorkerEvent) :
    Always (step cfg) (Outlives cfg) (start cfg) events ↔
      Meets (step cfg) ShortOutage (start cfg) events := by
  have hstep : ∀ s event, True → Outlives cfg s →
      (Outlives cfg (step cfg s event) ↔ ShortOutage s event) :=
    fun _ event _ hs => outlives_step hminute hs event
  have hstart : Outlives cfg (start cfg) := ⟨Or.inl rfl, hminute, fun _ => rfl⟩
  exact always_iff_meets (fun _ _ _ => trivial) hstep trivial hstart

/-- The loop survives 1023 failures. -/
theorem run_failures (hminute : PyFloat.le cfg.consolidationInterval (.finite 60) = true)
    (now : Seconds) (text : Str) {n : Nat} (hn : n ≤ 1023) :
    Failing cfg n
      (run (step cfg) (start cfg) (List.replicate n (.wake now (.raised text)))) := by
  induction n with
  | zero => exact ⟨⟨Or.inl rfl, hminute, fun _ => rfl⟩, rfl, rfl, rfl⟩
  | succ n ih =>
      have hbefore := ih (by omega)
      rw [List.replicate_succ', run_append, run_cons, run_nil]
      generalize run (step cfg) (start cfg) _ = s at hbefore
      have hfail : step cfg s (.wake now (.raised text)) = s.fail cfg text :=
        step_wake hbefore.outlives hbefore.status hbefore.stopped now (.raised text)
      have hpower : s.failures + 1 < 1024 := by
        rw [hbefore.failures]
        omega
      rw [hfail]
      refine ⟨(fail_outlives hbefore.status text).2 (by omega), ?_, ?_, ?_⟩
      · simp only [fail, PyFloat.ofInt_two_pow, if_pos hpower, hbefore.status]
      · simp only [fail, PyFloat.ofInt_two_pow, if_pos hpower, hbefore.stopped]
      · simp only [fail, PyFloat.ofInt_two_pow, if_pos hpower]
        rw [hbefore.failures]

/-- And not one more. -/
theorem run_outage (hminute : PyFloat.le cfg.consolidationInterval (.finite 60) = true)
    (now : Seconds) (text : Str) {n : Nat} (hn : n = 1023) :
    (run (step cfg) (start cfg) (List.replicate (n + 1) (.wake now (.raised text)))).status =
      .raised .overflowError := by
  have hbefore := run_failures hminute now text hn.le
  rw [List.replicate_succ', run_append, run_cons, run_nil]
  generalize run (step cfg) (start cfg) _ = s at hbefore
  have hpower : ¬ s.failures + 1 < 1024 := by
    rw [hbefore.failures]
    omega
  have hfail : step cfg s (.wake now (.raised text)) = s.fail cfg text :=
    step_wake hbefore.outlives hbefore.status hbefore.stopped now (.raised text)
  rw [hfail]
  simp only [fail, PyFloat.ofInt_two_pow, if_neg hpower]

end Worker

/-- For every configuration and every sequence of outcomes, the worker outlives it if and only if the
configured interval is a minute at most and no 1024 passes in a row fail before the stop. -/
theorem worker_outlives_iff (cfg : WorkerConfig) (events : List WorkerEvent) :
    Always (Worker.step cfg) (Worker.Outlives cfg) (.start cfg) events ↔
      PyFloat.le cfg.consolidationInterval (.finite 60) = true ∧
        Meets (Worker.step cfg) Worker.ShortOutage (.start cfg) events := by
  constructor
  · intro h
    exact ⟨h.first.wait, (Worker.outlives_run h.first.wait events).1 h⟩
  · rintro ⟨hminute, hmeets⟩
    exact (Worker.outlives_run hminute events).2 hmeets

/-- The worker of a manager with the default arguments. -/
def defaultWorker : WorkerConfig where
  givenInterval := .finite 10
  maintenanceFailureThreshold := 3
  hasFallbacks := true
  timeoutMax := 9223372036
  minute_le_timeoutMax := by norm_num

/-- Seventeen hours of a locked database. -/
theorem worker_killed_by_outage :
    ¬ Always (Worker.step defaultWorker) (Worker.Outlives defaultWorker) (.start defaultWorker)
        (List.replicate 1024 (.wake 0 (.raised (lit "database is locked")))) ∧
      (run (Worker.step defaultWorker) (.start defaultWorker)
        (List.replicate 1024 (.wake 0 (.raised (lit "database is locked"))))).status =
          .raised .overflowError := by
  have hinterval : PyFloat.le defaultWorker.consolidationInterval (.finite 60) = true := by
    decide +kernel
  have hraised := Worker.run_outage hinterval 0 (lit "database is locked") rfl
  refine ⟨fun h => ?_, hraised⟩
  rcases h.last.alive with hrun | ⟨_, hended⟩
  · rw [hraised] at hrun
    cases hrun
  · rw [hraised] at hended
    cases hended

end ShugoCore
