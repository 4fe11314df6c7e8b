import ShugoCore.Android.Monitor

/-!
# Pauses of the app and pauses of the engine

`on_pause` latches the engine and `on_resume` lifts the latch.  In between, the app is paused
and the engine is latched, unless somebody else resumes the controller: then the runtime still
says that it is paused, and from there on it ignores the pauses of the app shell, while its
resumes are refused.  A resume lifts whatever latch there is, be it that of a safety trigger or
of a halt that came while a task was running.
-/

namespace ShugoCore

open Machine

namespace FallbackController

theorem thresholdOf_eq_none {c : FallbackController} {kind : String}
    (h : kind ≠ "invariant_violations") (h' : kind ≠ "maintenance_worker_failure") :
    c.thresholdOf kind = none := by
  rw [thresholdOf, if_neg h, if_neg h']

/-- A trigger leaves a latch on a coherent governor. -/
theorem Coherent.latched_latch {c : FallbackController} (h : c.Coherent) (m : Latch) :
    (c.governor.latch m).latched ≠ none := by
  by_cases hs : c.governor.state = .halted
  · rcases c.governor.latch_cases m with ⟨-, he⟩ | ⟨hn, -⟩ | ⟨hn, -⟩
    · rw [he, h.owned .halted hs]
      exact Option.some_ne_none _
    · exact absurd hs hn
    · exact absurd hs hn
  · rw [ExecutionGovernor.latch_latched hs]
    exact Option.some_ne_none _

theorem Coherent.latched_fire {c : FallbackController} (h : c.Coherent) (kind detail : String) :
    (c.fire kind detail).2.governor.latched ≠ none := by
  rw [fire_snd]
  exact h.latched_latch _

theorem Coherent.latched_fireAll {c : FallbackController} (h : c.Coherent)
    (hl : c.governor.latched ≠ none) (ts : List (String × String)) :
    (c.fireAll ts).2.governor.latched ≠ none := by
  induction ts generalizing c with
  | nil => exact hl
  | cons t ts ih =>
      obtain ⟨kind, detail⟩ := t
      have hf : (c.fire kind detail).2.Coherent := by
        rw [fire_snd]
        exact h.latch _
      rw [fireAll_cons]
      split
      · exact h.latched_fire kind detail
      · exact ih hf (h.latched_fire kind detail)

theorem Coherent.latched_report {c : FallbackController} (h : c.Coherent)
    (hl : c.governor.latched ≠ none) (kind detail : String) :
    (c.reportViolation kind detail).2.governor.latched ≠ none := by
  rw [reportViolation_snd]
  split
  · exact h.latched_latch _
  · exact hl

/-- A call that lifts the latch. -/
def Lifts (c : FallbackController) : Op → Prop
  | .resume now by' => ¬ Raises (c.resume now by').1
  | .reportViolation _ _ | .evaluate _ _ _ | .task _ => False

/-- A latched governor is latched after a call if and only if the call is no resume, or one that
is refused. -/
theorem Coherent.latched_exec_iff {c : FallbackController} (h : c.Coherent)
    (hl : c.governor.latched ≠ none) (op : Op) :
    (c.exec op).governor.latched ≠ none ↔ ¬ c.Lifts op := by
  cases op with
  | reportViolation kind detail =>
      exact iff_of_true (h.latched_report hl kind detail) (fun hf => hf)
  | evaluate now breakers backlog =>
      refine iff_of_true ?_ (fun hf => hf)
      rw [FallbackController.exec, evaluate_snd]
      split
      · exact h.latched_fireAll hl _
      · exact hl
  | resume now by' =>
      simp only [Lifts, not_not, FallbackController.exec]
      rcases c.resume_cases now by' with ⟨hr, he⟩ | ⟨hok, -, -, hn, -⟩
      · rw [he]
        exact iff_of_true hl hr
      · refine iff_of_false (fun hne => hne hn) ?_
        rw [hok]
        exact not_raises_ok _
  | task t =>
      refine iff_of_true ?_ (fun hf => hf)
      simpa only [FallbackController.exec, ExecutionGovernor.latched_exec_task] using hl

end FallbackController

namespace AndroidRuntime

variable {limits : AndroidLimits} {rt : AndroidRuntime}

theorem onPause_fallbacks (hs : rt.state = .started) :
    rt.onPause.fallbacks =
      (rt.fallbacks.reportViolation "android_lifecycle_paused" "app shell paused").2 := by
  rw [onPause_eq, if_pos hs]
  rfl

/-- The pause of the app shell fires on its first report. -/
theorem pause_report_snd (c : FallbackController) :
    (c.reportViolation "android_lifecycle_paused" "app shell paused").2 =
      { c with
        violations := c.violations.set "android_lifecycle_paused"
          (c.countAfter "android_lifecycle_paused")
        governor := c.governor.latch (c.severityOf "android_lifecycle_paused").latch
        mode := (c.severityOf "android_lifecycle_paused").mode } := by
  have hfires : c.Fires "android_lifecycle_paused" := by
    intro t ht
    rw [FallbackController.thresholdOf_eq_none (by decide) (by decide)] at ht
    cases ht
  rw [FallbackController.reportViolation_snd, if_pos hfires]

/-- What the monitor does to the controller is a report, if anything. -/
theorem check_fallbacks (limits : AndroidLimits) (rt : AndroidRuntime) {a : Action}
    (ha : byMonitor a = true) :
    (rt.step limits a).state = rt.state ∧
      ((rt.step limits a).fallbacks = rt.fallbacks ∨ ∃ kind detail,
        (rt.step limits a).fallbacks = (rt.fallbacks.reportViolation kind detail).2) := by
  cases a with
  | wake =>
      simp only [step]
      split <;> exact ⟨rfl, .inl rfl⟩
  | checkPower r =>
      simp only [step]
      split
      · cases r with
        | unavailable | raises => exact ⟨rfl, .inl rfl⟩
        | status battery plugged =>
            rw [proceed_state, proceed_fallbacks, checkPower_status]
            split
            · exact ⟨rfl, .inr ⟨_, _, report_fallbacks _ _ _⟩⟩
            · exact ⟨rfl, .inl rfl⟩
      · exact ⟨rfl, .inl rfl⟩
  | checkThermal r =>
      simp only [step]
      split
      · cases r with
        | unavailable | raises => exact ⟨rfl, .inl rfl⟩
        | status raw =>
            rw [proceed_state, proceed_fallbacks, checkThermal_status]
            simp only
            split
            · split
              · exact ⟨rfl, .inr ⟨_, _, report_fallbacks _ _ _⟩⟩
              · exact ⟨rfl, .inl rfl⟩
            · exact ⟨rfl, .inl rfl⟩
      · exact ⟨rfl, .inl rfl⟩
  | create _ | pause | resume _ | destroy | controller _ => simp [byMonitor] at ha

/-! ## A paused app and its engine -/

/-- If the app is paused, the engine is latched. -/
def PausedLatched (rt : AndroidRuntime) : Prop :=
  rt.state = .paused → rt.fallbacks.governor.latched ≠ none

/-- Nobody else resumes the controller while the app is paused. -/
def LeavesPause (rt : AndroidRuntime) : Action → Prop
  | .controller op => rt.state = .paused → ¬ rt.fallbacks.Lifts op
  | _ => True

theorem coherent_check (h : rt.fallbacks.Coherent) {a : Action} (ha : byMonitor a = true) :
    (rt.step limits a).fallbacks.Coherent := by
  rcases (check_fallbacks limits rt ha).2 with he | ⟨kind, detail, he⟩ <;> rw [he]
  · exact h
  · exact h.exec (.reportViolation kind detail)

theorem pausedLatched_check (h : rt.fallbacks.Coherent) (hp : rt.PausedLatched) {a : Action}
    (ha : byMonitor a = true) : (rt.step limits a).PausedLatched := by
  intro hs
  obtain ⟨hstate, he⟩ := check_fallbacks limits rt ha
  have hl := hp (hstate ▸ hs)
  rcases he with he | ⟨kind, detail, he⟩ <;> rw [he]
  · exact hl
  · exact h.latched_report hl kind detail

theorem coherent_step (h : rt.fallbacks.Coherent) (a : Action) :
    (rt.step limits a).fallbacks.Coherent := by
  cases a with
  | create detected =>
      rcases onCreate_cases limits rt detected with he | ⟨-, _, he⟩ <;> rw [he]
      · exact h
      · exact h
  | pause =>
      by_cases hs : rt.state = .started
      · rw [step, onPause_fallbacks hs]
        exact h.exec (.reportViolation _ _)
      · rwa [step, onPause_eq, if_neg hs]
  | resume now =>
      simp only [step, onResume_eq]
      split
      · exact h.exec (.resume _ _)
      · exact h
  | destroy => exact h
  | wake | checkPower _ | checkThermal _ =>
      refine coherent_check h ?_
      rfl
  | controller op => exact h.exec op

theorem pausedLatched_step_iff (h : rt.fallbacks.Coherent) (hp : rt.PausedLatched) (a : Action) :
    (rt.step limits a).PausedLatched ↔ rt.LeavesPause a := by
  cases a with
  | create detected =>
      refine iff_of_true ?_ trivial
      rcases onCreate_cases limits rt detected with he | ⟨-, _, he⟩ <;> rw [he]
      · exact hp
      · exact fun hs => by cases hs
  | pause =>
      refine iff_of_true ?_ trivial
      by_cases hs : rt.state = .started
      · intro _
        rw [step, onPause_fallbacks hs, pause_report_snd]
        exact h.latched_latch _
      · rw [step, onPause_eq, if_neg hs]
        exact hp
  | resume now =>
      refine iff_of_true ?_ trivial
      simp only [step, onResume_eq]
      split
      · exact fun hs => by cases hs
      · exact hp
  | destroy => exact iff_of_true (fun hs => by cases hs) trivial
  | wake | checkPower _ | checkThermal _ =>
      exact iff_of_true (pausedLatched_check h hp rfl) trivial
  | controller op =>
      by_cases hs : rt.state = .paused
      · have hiff := h.latched_exec_iff (hp hs) op
        exact ⟨fun hl _ => hiff.1 (hl hs), fun hl _ => hiff.2 (hl hs)⟩
      · exact ⟨fun _ hs' => absurd hs' hs, fun _ hs' => absurd hs' hs⟩

/-- Along a run of a new runtime, the engine is latched whenever the app is paused, if and only if
nobody but the app shell ever resumes the controller while the app is paused. -/
theorem paused_latched_iff (limits : AndroidLimits) (budget : Int) (deadline : Seconds)
    (thresholds : Thresholds) (severities : Dict String String) (acceleration : AccelerationPolicy)
    (as : List Action) :
    Always (step limits) PausedLatched
        (new (.new budget deadline thresholds severities) acceleration) as ↔
      Meets (step limits) LeavesPause
        (new (.new budget deadline thresholds severities) acceleration) as :=
  always_iff_meets (I := fun rt => rt.fallbacks.Coherent) (fun _ a h => coherent_step h a)
    (fun _ a h hp => pausedLatched_step_iff h hp a)
    (FallbackController.coherent_new budget deadline thresholds severities)
    (fun hs => by cases hs)

/-! ## An app that is adrift -/

/-- A callback of the app shell other than that of its end, or a call of a task. -/
def Routine : Action → Prop
  | .create _ | .pause | .resume _ | .controller (.task _) => True
  | .destroy | .wake | .checkPower _ | .checkThermal _ | .controller _ => False

/-- The call of a task on the controller. -/
def taskOp : Action → Option FallbackController.Op
  | .controller op => some op
  | _ => none

/-- The controller refuses the resume of the app shell unless the governor stands in a pause or in
a safe state. -/
theorem resume_raises_iff (c : FallbackController) (now : Seconds) :
    Raises (c.resume now "android_lifecycle").1 ↔
      c.governor.state ≠ .paused ∧ c.governor.state ≠ .safeState := by
  simp only [FallbackController.resume, ExecutionGovernor.resume]
  rw [if_neg (by decide)]
  by_cases hstate : c.governor.state ≠ .paused ∧ c.governor.state ≠ .safeState
  · rw [if_pos hstate]
    exact iff_of_true (raises_error _) hstate
  · rw [if_neg hstate]
    exact iff_of_false (not_raises_ok _) hstate

theorem resume_raises_of_unlatched {c : FallbackController} (h : c.Coherent)
    (hl : c.governor.latched = none) (now : Seconds) :
    Raises (c.resume now "android_lifecycle").1 := by
  have hnot : ∀ m : Latch, c.governor.state ≠ m.state := fun m hm => by
    have howned := h.owned m hm
    rw [hl] at howned
    cases howned
  exact (resume_raises_iff c now).2 ⟨hnot .paused, hnot .safeState⟩

/-- Once the engine of a paused app runs, the app shell has lost it.  As long as the app does not end
and neither the monitor nor anyone else calls the controller, pauses are ignored, resumes are
refused, and the engine does what it would do if the app shell did nothing. -/
theorem adrift_ignores_app (limits : AndroidLimits) {rt : AndroidRuntime}
    (h : rt.fallbacks.Coherent) (hs : rt.state = .paused)
    (hl : rt.fallbacks.governor.latched = none) {as : List Action} (ha : ∀ a ∈ as, Routine a) :
    (run (step limits) rt as).state = .paused ∧
      (run (step limits) rt as).fallbacks.governor.latched = none ∧
      (run (step limits) rt as).fallbacks =
        run FallbackController.exec rt.fallbacks (as.filterMap taskOp) := by
  induction as generalizing rt with
  | nil => exact ⟨hs, hl, rfl⟩
  | cons a as ih =>
      rw [List.forall_mem_cons] at ha
      have hskip : rt.step limits a = rt → taskOp a = none →
          (run (step limits) rt (a :: as)).state = .paused ∧
            (run (step limits) rt (a :: as)).fallbacks.governor.latched = none ∧
            (run (step limits) rt (a :: as)).fallbacks =
              run FallbackController.exec rt.fallbacks ((a :: as).filterMap taskOp) := by
        intro he ht
        rw [run_cons, he, List.filterMap_cons_none ht]
        exact ih h hs hl ha.2
      cases a with
      | create detected =>
          refine hskip ?_ rfl
          rcases onCreate_cases limits rt detected with he | ⟨hnew, -⟩
          · exact he
          · rw [hs] at hnew
            cases hnew
      | pause =>
          refine hskip ?_ rfl
          rw [step, onPause_eq, if_neg (by simp [hs])]
      | resume now =>
          refine hskip ?_ rfl
          rw [step, onResume_eq, if_neg fun hok => hok.2 (resume_raises_of_unlatched h hl _)]
      | destroy | wake | checkPower _ | checkThermal _ => exact ha.1.elim
      | controller op =>
          cases op with
          | task t =>
              rw [run_cons, List.filterMap_cons_some (show taskOp (.controller (.task t)) = _ from rfl),
                run_cons]
              refine ih (h.exec (.task t)) hs ?_ ha.2
              simpa only [step, FallbackController.exec, ExecutionGovernor.latched_exec_task] using hl
          | reportViolation _ _ | evaluate _ _ _ | resume _ _ => exact ha.1.elim

theorem adrift_ignores_app_pause :
    let rt : AndroidRuntime :=
      ⟨.paused, .new 10 0 {} [], ⟨[], [], .nominal⟩, false, 0, false, .waiting, []⟩
    let as : List Action := [.pause, .controller (.task (.beginTask 1 none)), .resume 2]
    (run (step (.ofArgs 15 2 2)) rt as).state = .paused ∧
      (run (step (.ofArgs 15 2 2)) rt as).fallbacks.governor.latched = none ∧
      (run (step (.ofArgs 15 2 2)) rt as).fallbacks =
        run FallbackController.exec (.new 10 0 {} []) [.task (.beginTask 1 none)] := by
  intro rt as
  refine @adrift_ignores_app (.ofArgs 15 2 2) rt (FallbackController.coherent_new 10 0 {} []) rfl rfl
    as ?_
  rw [List.forall_mem_cons, List.forall_mem_cons, List.forall_mem_singleton]
  exact ⟨trivial, trivial, trivial⟩

/-! ## What a resume lifts -/

theorem run_tasks (rt : AndroidRuntime) (ts : List ExecutionGovernor.TaskCall) :
    run (step limits) rt (ts.map fun t => .controller (.task t)) =
      { rt with fallbacks := run FallbackController.exec rt.fallbacks (ts.map .task) } := by
  induction ts generalizing rt with
  | nil => rfl
  | cons t ts ih => exact ih _

theorem run_tasks_latched {c : FallbackController} (h : c.Coherent)
    (ts : List ExecutionGovernor.TaskCall) :
    (run FallbackController.exec c (ts.map .task)).Coherent ∧
      (run FallbackController.exec c (ts.map .task)).governor.latched = c.governor.latched := by
  induction ts generalizing c with
  | nil => exact ⟨h, rfl⟩
  | cons t ts ih =>
      obtain ⟨hc, hl⟩ := ih (h.exec (.task t))
      refine ⟨hc, hl.trans ?_⟩
      simp only [FallbackController.exec, ExecutionGovernor.latched_exec_task]

/-- Where the governor does not stand halted and a pause of the app pauses the engine, a pause and a
resume of the app, with calls of a task in between, lift whatever the engine was latched with before,
the latch of a halt that waits for a task included, if and only if no task is in flight when the
resume comes.  If one is, the resume is lost and the engine stays paused. -/
theorem pause_resume_lifts_iff (limits : AndroidLimits) {rt : AndroidRuntime}
    (h : rt.fallbacks.Coherent) (hs : rt.state = .started)
    (hstate : rt.fallbacks.governor.state ≠ .halted)
    (hsev : rt.fallbacks.severityOf "android_lifecycle_paused" = .pause)
    (ts : List ExecutionGovernor.TaskCall) (now : Seconds) :
    let before := run (step limits) rt (.pause :: ts.map fun t => .controller (.task t))
    let after := before.step limits (.resume now)
    (after.state = .started ∧ after.fallbacks.mode = .normal ∧
        after.fallbacks.governor.latched = none ↔ ¬ before.fallbacks.governor.InFlight) ∧
      (before.fallbacks.governor.InFlight →
        after.state = .paused ∧ after.fallbacks.governor.latched = some .paused) := by
  intro before after
  have hpaused : (rt.step limits .pause).fallbacks.governor.latched = some .paused := by
    rw [step, onPause_fallbacks hs, pause_report_snd, hsev]
    exact ExecutionGovernor.latch_latched hstate _
  have hbefore : before = { rt.step limits .pause with
      fallbacks := run FallbackController.exec (rt.step limits .pause).fallbacks (ts.map .task) } :=
    run_tasks (rt.step limits .pause) ts
  have hpstate : (rt.step limits .pause).state = .paused := by
    rw [step, onPause_eq, if_pos hs]
    rfl
  obtain ⟨hcoherent, hlatched⟩ := run_tasks_latched (@coherent_step limits rt h .pause) ts
  rw [hpaused] at hlatched
  have hb : before.state = .paused ∧ before.fallbacks.Coherent ∧
      before.fallbacks.governor.latched = some .paused := by
    rw [hbefore]
    exact ⟨hpstate, hcoherent, hlatched⟩
  have hafter : after = _ := onResume_eq before now
  have hraises := resume_raises_iff before.fallbacks now
  by_cases hin : before.fallbacks.governor.InFlight
  · have ht := hb.2.1.transient hin
    rw [if_neg fun hok => hok.2 (hraises.2 ⟨ht.1, ht.2.1⟩)] at hafter
    rw [hafter]
    refine ⟨iff_of_false (fun hx => ?_) (not_not.2 hin), fun _ => ⟨hb.1, hb.2.2⟩⟩
    rw [hb.1] at hx
    cases hx.1
  · have hsettled : before.fallbacks.governor.state = .paused :=
      hb.2.1.settled hin .paused hb.2.2 (by decide)
    have hnot : ¬ Raises (before.fallbacks.resume now "android_lifecycle").1 :=
      fun hr => (hraises.1 hr).1 hsettled
    rcases before.fallbacks.resume_cases now "android_lifecycle" with ⟨hr, -⟩ | ⟨-, hmode, -, hnone, -⟩
    · exact absurd hr hnot
    · rw [if_pos ⟨hb.1, hnot⟩] at hafter
      rw [hafter]
      exact ⟨iff_of_true ⟨rfl, hmode, hnone⟩ hin, fun hin' => absurd hin' hin⟩

theorem pause_resume_lifts_iff_task :
    let rt : AndroidRuntime :=
      ⟨.started, .new 10 0 {} [], ⟨[], [], .nominal⟩, false, 0, false, .waiting, []⟩
    let before := run (step (.ofArgs 15 2 2)) rt
      (.pause :: [ExecutionGovernor.TaskCall.endTask 1].map fun t => .controller (.task t))
    let after := before.step (.ofArgs 15 2 2) (.resume 2)
    (after.state = .started ∧ after.fallbacks.mode = .normal ∧
        after.fallbacks.governor.latched = none ↔ ¬ before.fallbacks.governor.InFlight) ∧
      (before.fallbacks.governor.InFlight →
        after.state = .paused ∧ after.fallbacks.governor.latched = some .paused) := by
  intro rt
  exact @pause_resume_lifts_iff (.ofArgs 15 2 2) rt
    (FallbackController.coherent_new 10 0 {} []) rfl (by decide) (by decide +kernel) [.endTask 1] 2

end AndroidRuntime

end ShugoCore
