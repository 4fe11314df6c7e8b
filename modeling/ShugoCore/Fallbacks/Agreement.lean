import ShugoCore.Fallbacks.Controller

/-!
# The controller's mode and the governor's latch

The two objects keep the same fact separately.  `_fire` tells the governor
first, so that the controller does not claim a mode the governor could not
engage, but it does not look at what the governor did.  A governor whose
transient state is halted drops every latch request, and the controller records
the mode all the same.  Those requests are the only way for the two to part.
-/

namespace ShugoCore

open Machine

/-- The mode that reports a latch. -/
def FallbackMode.ofLatch : Option Latch → FallbackMode
  | none => .normal
  | some .paused => .paused
  | some .safeState => .safeState
  | some .halted => .halted

@[simp] theorem FallbackMode.ofLatch_severity (s : Severity) :
    FallbackMode.ofLatch (some s.latch) = s.mode := by
  cases s <;> rfl

namespace FallbackController

/-- The controller reports the mode the governor is in. -/
def Agrees (c : FallbackController) : Prop :=
  (c.mode = .halted ↔ c.governor.latched = some .halted) ∧
  (c.mode = .paused ↔ c.governor.latched = some .paused) ∧
  (c.mode = .safeState ↔ c.governor.latched = some .safeState) ∧
  (c.mode = .normal ↔ c.governor.latched = none)

instance (c : FallbackController) : Decidable c.Agrees :=
  inferInstanceAs (Decidable (_ ∧ _ ∧ _ ∧ _))

theorem agrees_iff {c : FallbackController} :
    c.Agrees ↔ c.mode = .ofLatch c.governor.latched := by
  simp only [Agrees]
  generalize c.mode = m
  generalize c.governor.latched = l
  rcases l with _ | _ | _ | _ <;> cases m <;> simp [FallbackMode.ofLatch]

/-- No report fires a pause or a safe state at a governor that is already halted. -/
def Heard (c : FallbackController) : Op → Prop
  | .reportViolation kind _ =>
      ¬ (c.Fires kind ∧ c.severityOf kind ≠ .halt ∧ c.governor.state = .halted)
  | _ => True

/-- The governor of the controller is coherent. -/
abbrev Coherent (c : FallbackController) : Prop := c.governor.Coherent

theorem Coherent.fireAll {c : FallbackController} (h : c.Coherent) (ts : List (String × String)) :
    (c.fireAll ts).2.Coherent := by
  induction ts generalizing c with
  | nil => exact h
  | cons t ts ih =>
      obtain ⟨kind, detail⟩ := t
      have hf : (c.fire kind detail).2.Coherent := by
        rw [fire_snd]; exact h.latch _
      rw [fireAll_cons]
      split
      · exact hf
      · exact ih hf

theorem Coherent.exec {c : FallbackController} (h : c.Coherent) (op : Op) :
    (c.exec op).Coherent := by
  cases op with
  | reportViolation kind detail =>
      rw [FallbackController.exec, reportViolation_snd]
      split
      · exact h.latch _
      · exact h
  | evaluate now breakers backlog =>
      rw [FallbackController.exec, evaluate_snd]
      split
      · exact h.fireAll _
      · exact h
  | resume now by' =>
      rcases c.resume_cases now by' with ⟨-, he⟩ | ⟨-, -, hg, -⟩
      · rw [FallbackController.exec, he]; exact h
      · rw [Coherent, FallbackController.exec, hg]
        exact ExecutionGovernor.Coherent.resume h now by'
  | task t => exact ExecutionGovernor.Coherent.exec h t.op

theorem coherent_new (budget : Int) (deadline : Seconds) (thresholds : Thresholds)
    (severities : Dict String String) : (new budget deadline thresholds severities).Coherent :=
  ExecutionGovernor.coherent_new budget deadline

/-! ## One call -/

/-- A trigger that meets a governor which is not halted leaves the two in agreement. -/
theorem fire_agrees {c : FallbackController} (hs : c.governor.state ≠ .halted)
    (kind detail : String) : (c.fire kind detail).2.Agrees := by
  rw [fire_snd, agrees_iff]
  simp only [ExecutionGovernor.latch_latched hs, FallbackMode.ofLatch_severity]

/-- A trigger below a halt does not halt a coherent governor. -/
theorem fire_not_halted {c : FallbackController} (hs : c.governor.state ≠ .halted)
    {kind : String} (hsev : c.severityOf kind ≠ .halt) (detail : String) :
    (c.fire kind detail).2.governor.state ≠ .halted := by
  rw [fire_snd]
  rcases c.governor.latch_cases (c.severityOf kind).latch with ⟨h, -⟩ | ⟨-, -, he⟩ | ⟨-, -, he⟩
  · exact absurd h hs
  · simp only [he]
    cases hk : c.severityOf kind with
    | safeState => decide
    | pause => decide
    | halt => exact absurd hk hsev
  · simp only [he]
    exact hs

/-- Every list of triggers fired at a governor that is not halted keeps agreement. -/
theorem fireAll_agrees {c : FallbackController} (ha : c.Agrees)
    (hs : c.governor.state ≠ .halted) (ts : List (String × String)) :
    (c.fireAll ts).2.Agrees := by
  induction ts generalizing c with
  | nil => exact ha
  | cons t ts ih =>
      obtain ⟨kind, detail⟩ := t
      rw [fireAll_cons]
      split
      · exact fire_agrees hs kind detail
      · rename_i hsev
        exact ih (fire_agrees hs kind detail) (fire_not_halted hs hsev detail)

/-- What every run keeps: a coherent governor, and no latch behind a normal mode. -/
structure Sound (c : FallbackController) : Prop where
  coherent : c.Coherent
  released : c.mode = .normal → c.governor.latched = none

theorem Sound.agrees {c : FallbackController} (h : c.Sound) (hm : c.mode = .normal) : c.Agrees := by
  rw [agrees_iff, hm, h.released hm]
  rfl

/-- A halted transient state is a halted latch. -/
theorem Coherent.latched_of_halted {c : FallbackController} (h : c.Coherent)
    (hs : c.governor.state = .halted) : c.governor.latched = some .halted :=
  h.owned .halted hs

/-- Behind a normal mode the governor is not halted. -/
theorem Sound.not_halted {c : FallbackController} (h : c.Sound) (hm : c.mode = .normal) :
    c.governor.state ≠ .halted := by
  intro hs
  have hl := h.coherent.latched_of_halted hs
  rw [h.released hm] at hl
  cases hl

theorem Sound.exec {c : FallbackController} (h : c.Sound) (op : Op) : (c.exec op).Sound := by
  refine ⟨h.coherent.exec op, ?_⟩
  cases op with
  | reportViolation kind detail =>
      rw [FallbackController.exec, reportViolation_snd]
      split
      · intro hm
        cases hk : c.severityOf kind <;> rw [hk] at hm <;> cases hm
      · exact h.released
  | evaluate now breakers backlog =>
      rw [FallbackController.exec, evaluate_snd]
      split
      · rename_i hm
        exact (fireAll_agrees (h.agrees hm) (h.not_halted hm) _).2.2.2.1
      · exact h.released
  | resume now by' =>
      rcases c.resume_cases now by' with ⟨-, he⟩ | ⟨-, -, -, hl, -⟩
      · rw [FallbackController.exec, he]; exact h.released
      · exact fun _ => hl
  | task t =>
      simp only [FallbackController.exec, ExecutionGovernor.latched_exec_task]
      exact h.released

theorem sound_new (budget : Int) (deadline : Seconds) (thresholds : Thresholds)
    (severities : Dict String String) : (new budget deadline thresholds severities).Sound :=
  ⟨coherent_new budget deadline thresholds severities, fun _ => rfl⟩

/-- Some run of some configuration leads to this state. -/
def Reachable (c : FallbackController) : Prop :=
  ∃ budget deadline thresholds severities ops,
    run exec (new budget deadline thresholds severities) ops = c

theorem Reachable.sound {c : FallbackController} (h : c.Reachable) : c.Sound := by
  obtain ⟨budget, deadline, thresholds, severities, ops, rfl⟩ := h
  exact inv_run (I := Sound) (fun _ op h => h.exec op)
    (sound_new budget deadline thresholds severities) ops

/-- A report keeps agreement exactly when it does not fire below a halt at a
governor that is already halted. -/
theorem reportViolation_agrees_iff {c : FallbackController} (h : c.Coherent) (ha : c.Agrees)
    (kind detail : String) :
    (c.reportViolation kind detail).2.Agrees ↔ c.Heard (.reportViolation kind detail) := by
  rw [reportViolation_snd, Heard]
  split
  · rename_i hf
    by_cases hs : c.governor.state = .halted
    · -- The governor drops the request, so its latch is still the halt.
      have hl := h.latched_of_halted hs
      simp only [agrees_iff, ExecutionGovernor.latch, hs, if_pos, hl]
      cases hk : c.severityOf kind <;> simp [hf, Severity.mode, FallbackMode.ofLatch]
    · simp only [agrees_iff, ExecutionGovernor.latch_latched hs, FallbackMode.ofLatch_severity]
      simp [hs]
  · rename_i hf
    simp only [hf, false_and, not_false_iff, iff_true]
    exact ha

/-- One call keeps agreement exactly when it meets `Heard`. -/
theorem exec_agrees_iff {c : FallbackController} (h : c.Coherent) (ha : c.Agrees) (op : Op) :
    (c.exec op).Agrees ↔ c.Heard op := by
  cases op with
  | reportViolation kind detail => exact reportViolation_agrees_iff h ha kind detail
  | evaluate now breakers backlog =>
      refine ⟨fun _ => trivial, fun _ => ?_⟩
      rw [exec, evaluate_snd]
      split
      · -- A normal mode that agrees is no latch, and so no halted state.
        rename_i hm
        have hsound : c.Sound := ⟨h, ha.2.2.2.1⟩
        exact fireAll_agrees ha (hsound.not_halted hm) _
      · exact ha
  | resume now by' =>
      refine ⟨fun _ => trivial, fun _ => ?_⟩
      rcases c.resume_cases now by' with ⟨-, he⟩ | ⟨-, hm, -, hl, -⟩
      · rw [exec, he]; exact ha
      · rw [exec, agrees_iff, hm, hl]; rfl
  | task t =>
      refine ⟨fun _ => trivial, fun _ => ?_⟩
      rw [agrees_iff] at ha ⊢
      simp only [exec, ExecutionGovernor.latched_exec_task]
      exact ha

/-! ## Runs -/

/-- Under every configuration and along every run of reports, evaluations,
resumes and task calls, the controller reports the governor's latch after each
call exactly when no report fires below a halt at a governor that is already
halted. -/
theorem mode_agrees_iff (budget : Int) (deadline : Seconds) (thresholds : Thresholds)
    (severities : Dict String String) (ops : List Op) :
    Always exec Agrees (new budget deadline thresholds severities) ops ↔
      Meets exec Heard (new budget deadline thresholds severities) ops :=
  always_iff_meets (I := Coherent) (fun _ op h => h.exec op)
    (fun _ op h ha => exec_agrees_iff h ha op)
    (coherent_new budget deadline thresholds severities) (agrees_iff.2 rfl)

/-- A memory failure halts the governor; a planning failure after it makes the
controller report a pause. -/
theorem paused_reported_while_halted :
    ¬ Always exec Agrees (new 50 120 {} [])
        [.reportViolation "memory_failure" "sqlite locked",
          .reportViolation "planning_failure" "no path"] ∧
      (run exec (new 50 120 {} [])
        [.reportViolation "memory_failure" "sqlite locked",
          .reportViolation "planning_failure" "no path"]).mode = .paused ∧
      (run exec (new 50 120 {} [])
        [.reportViolation "memory_failure" "sqlite locked",
          .reportViolation "planning_failure" "no path"]).governor.latched = some .halted := by
  decide +kernel

end FallbackController

end ShugoCore
