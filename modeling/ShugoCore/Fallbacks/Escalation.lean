import ShugoCore.Fallbacks.Agreement

/-!
# A pause under later triggers

`_fire` overwrites the latch whatever it was, and `SAFE_STATE` lets tasks begin
where `PAUSED` does not.  So a pause holds until an operator resumes it as long
as no trigger of severity `safe_state` fires after it, whether from a later
report or later in the same pass of `evaluate`.  The other way out is the one
of every latch: a task in flight that steps back to `IDLE` before it ends.
-/

namespace ShugoCore

open Machine ExecutionGovernor

/-- How much a mode forbids: `halt > pause > safe_state > normal`. -/
def FallbackMode.rank : FallbackMode → Nat
  | normal => 0
  | safeState => 1
  | paused => 2
  | halted => 3

def Severity.rank (s : Severity) : Nat := s.mode.rank

/-- The severity a list of triggers ends on: a halt stops the list, otherwise
the last one is left standing. -/
def Severity.last : List Severity → Option Severity
  | [] => none
  | s :: ss => if s = .halt then some s else (Severity.last ss).orElse fun _ => some s

/-- The list has a pause, no halt, and ends on a safe state. -/
def Severity.Weakening (ss : List Severity) : Prop :=
  .pause ∈ ss ∧ .halt ∉ ss ∧ ss.getLast? = some .safeState

instance (ss : List Severity) : Decidable (Severity.Weakening ss) :=
  inferInstanceAs (Decidable (_ ∧ _ ∧ _))

namespace Severity

theorem last_eq_none {ss : List Severity} (h : last ss = none) : ss = [] := by
  cases ss with
  | nil => rfl
  | cons s ss =>
      rw [last] at h
      split at h
      · cases h
      · cases hl : last ss <;> rw [hl] at h <;> cases h

theorem last_eq_halt {ss : List Severity} (h : .halt ∈ ss) : last ss = some .halt := by
  induction ss with
  | nil => cases h
  | cons s ss ih =>
      by_cases hs : s = .halt
      · rw [last, if_pos hs, hs]
      · rw [last, if_neg hs, ih ((List.mem_cons.1 h).resolve_left (Ne.symm hs))]
        rfl

theorem last_eq_getLast {ss : List Severity} (h : .halt ∉ ss) : last ss = ss.getLast? := by
  induction ss with
  | nil => rfl
  | cons s ss ih =>
      rw [List.mem_cons, not_or] at h
      rw [last, if_neg (Ne.symm h.1), ih h.2]
      cases ss with
      | nil => rfl
      | cons s' ss' =>
          rw [List.getLast?_cons_cons]
          cases hl : (s' :: ss').getLast? with
          | none => simp at hl
          | some _ => rfl

/-- The severity left standing is at least every severity of the list exactly
when the list does not weaken a pause. -/
theorem le_last_iff {ss : List Severity} {s : Severity} (hl : last ss = some s) :
    (∀ t ∈ ss, t.rank ≤ s.rank) ↔ ¬ Weakening ss := by
  by_cases hh : .halt ∈ ss
  · -- A halt tops every severity.
    rw [last_eq_halt hh] at hl
    cases hl
    refine ⟨fun _ hw => hw.2.1 hh, fun _ t _ => ?_⟩
    cases t <;> decide
  · rw [last_eq_getLast hh] at hl
    have hmem : s ∈ ss := List.mem_of_getLast? hl
    simp only [Weakening]
    rw [hl]
    cases s with
    | halt => exact absurd hmem hh
    | pause =>
        refine ⟨fun _ hw => absurd hw.2.2 (by decide), fun _ t ht => ?_⟩
        cases t with
        | halt => exact absurd ht hh
        | pause => decide
        | safeState => decide
    | safeState =>
        constructor
        · rintro h ⟨hp, -, -⟩
          exact absurd (h .pause hp) (by decide)
        · intro hw t ht
          cases t with
          | halt => exact absurd ht hh
          | pause => exact absurd ⟨ht, hh, rfl⟩ hw
          | safeState => decide

end Severity

namespace FallbackController

/-- The severities of a list of triggers. -/
def severitiesOf (c : FallbackController) (ts : List (String × String)) : List Severity :=
  ts.map fun t => c.severityOf t.1

/-- `begin_task` is refused. -/
def Refuses (c : FallbackController) : Prop :=
  ∀ now ref, Raises (c.governor.beginTask now ref).1

/-- The call fires a trigger of severity `pause`. -/
def FiresPause (c : FallbackController) : Op → Prop
  | .reportViolation kind _ => c.Fires kind ∧ c.severityOf kind = .pause
  | .evaluate now breakers backlog =>
      c.mode = .normal ∧ .pause ∈ c.severitiesOf (c.triggers now breakers backlog)
  | _ => False

/-- The call weakens a pause: a report of severity `safe_state` reaches the
latch, an evaluation fires a safe state after a pause, or a task in flight
steps back to `IDLE`. -/
def Weakens (c : FallbackController) : Op → Prop
  | .reportViolation kind _ =>
      c.Fires kind ∧ c.severityOf kind = .safeState ∧ c.governor.state ≠ .halted
  | .evaluate now breakers backlog =>
      c.mode = .normal ∧ Severity.Weakening (c.severitiesOf (c.triggers now breakers backlog))
  | .task (.step now next) =>
      c.governor.InFlight ∧ next = .idle ∧ ¬ Raises (c.governor.step now next).1
  | _ => False

/-- The call is an operator's resume, and it succeeds. -/
def Resumes (c : FallbackController) : Op → Prop
  | .resume now by' => (c.resume now by').1 = .ok ()
  | _ => False

instance (c : FallbackController) (op : Op) : Decidable (c.FiresPause op) :=
  match op with
  | .reportViolation _ _ => inferInstanceAs (Decidable (_ ∧ _))
  | .evaluate _ _ _ => inferInstanceAs (Decidable (_ ∧ _))
  | .resume _ _ | .task _ => inferInstanceAs (Decidable False)

instance (c : FallbackController) (op : Op) : Decidable (c.Weakens op) :=
  match op with
  | .reportViolation _ _ => inferInstanceAs (Decidable (_ ∧ _ ∧ _))
  | .evaluate _ _ _ => inferInstanceAs (Decidable (_ ∧ _))
  | .task (.step _ _) => inferInstanceAs (Decidable (_ ∧ _ ∧ ¬ _))
  | .resume _ _ | .task (.beginTask _ _) | .task (.consumeStep _ _) | .task (.endTask _) =>
      inferInstanceAs (Decidable False)

instance (c : FallbackController) (op : Op) : Decidable (c.Resumes op) :=
  match op with
  | .resume now by' =>
      match h : (c.resume now by').1 with
      | .ok () => isTrue h
      | .error _ => isFalse fun hok => by rw [Resumes, h] at hok; cases hok
  | .reportViolation _ _ | .evaluate _ _ _ | .task _ => inferInstanceAs (Decidable False)

/-- What a standing pause is: a blocking latch that no task has opened, and a
controller that is not back to normal. -/
structure Standing (c : FallbackController) : Prop where
  coherent : c.Coherent
  latched : c.governor.latched = some .paused ∨ c.governor.latched = some .halted
  closed : ¬ c.governor.SteppedBack
  mode : c.mode ≠ .normal

theorem Standing.refuses {c : FallbackController} (h : c.Standing) : c.Refuses := by
  intro now ref
  refine (h.coherent.beginTask_raises_iff_of_blocking ?_ now ref).2 h.closed
  rcases h.latched with hl | hl
  · exact .inl (by simp [ExecutionGovernor.mode, hl, Latch.state])
  · exact .inr (by simp [ExecutionGovernor.mode, hl, Latch.state])

/-! ## What a list of triggers leaves behind -/

@[simp] theorem severitiesOf_fire (c : FallbackController) (kind detail : String)
    (ts : List (String × String)) :
    (c.fire kind detail).2.severitiesOf ts = c.severitiesOf ts := by
  simp [severitiesOf]

/-- The mode after a list of triggers is the mode of the severity left standing. -/
theorem fireAll_mode (c : FallbackController) (ts : List (String × String)) :
    (c.fireAll ts).2.mode =
      ((Severity.last (c.severitiesOf ts)).map Severity.mode).getD c.mode := by
  induction ts generalizing c with
  | nil => rfl
  | cons t ts ih =>
      obtain ⟨kind, detail⟩ := t
      have hcons : c.severitiesOf ((kind, detail) :: ts) =
          c.severityOf kind :: c.severitiesOf ts := rfl
      rw [fireAll_cons, hcons, Severity.last]
      split
      · rw [fire_snd]; rfl
      · rw [ih, severitiesOf_fire, fire_snd]
        cases Severity.last (c.severitiesOf ts) <;> rfl

theorem notSteppedBack_fireAll {c : FallbackController} (h : ¬ c.governor.SteppedBack)
    (ts : List (String × String)) : ¬ (c.fireAll ts).2.governor.SteppedBack := by
  induction ts generalizing c with
  | nil => exact h
  | cons t ts ih =>
      obtain ⟨kind, detail⟩ := t
      have hf : ¬ (c.fire kind detail).2.governor.SteppedBack := by
        rw [fire_snd]; exact notSteppedBack_latch h _
      rw [fireAll_cons]
      split
      · exact hf
      · exact ih hf

/-- A list of triggers that does not weaken its pause ends paused or halted. -/
theorem last_of_not_weakening {ss : List Severity} (hp : .pause ∈ ss)
    (hw : ¬ Severity.Weakening ss) :
    Severity.last ss = some .pause ∨ Severity.last ss = some .halt := by
  by_cases hh : .halt ∈ ss
  · exact .inr (Severity.last_eq_halt hh)
  · rw [Severity.last_eq_getLast hh]
    cases hl : ss.getLast? with
    | none =>
        rw [List.getLast?_eq_none_iff] at hl
        rw [hl] at hp
        cases hp
    | some s =>
        cases s with
        | halt => exact .inr rfl
        | pause => exact .inl rfl
        | safeState => exact absurd ⟨hp, hh, hl⟩ hw

/-! ## One call -/

/-- A report leaves a pause standing when its severity is a pause, and keeps one
standing when it does not weaken it. -/
theorem standing_report {c : FallbackController} (h : c.Coherent) (hb : ¬ c.governor.SteppedBack)
    {kind : String} (hf : c.Fires kind)
    (hs : c.severityOf kind ≠ .safeState ∨ c.governor.state = .halted) (detail : String) :
    (c.reportViolation kind detail).2.Standing := by
  rw [reportViolation_snd, if_pos hf]
  refine ⟨h.latch _, ?_, notSteppedBack_latch hb _, ?_⟩
  · by_cases hst : c.governor.state = .halted
    · simp only [ExecutionGovernor.latch, hst, if_pos]
      exact .inr (h.latched_of_halted hst)
    · have hsev := hs.resolve_right hst
      rw [latch_latched hst]
      cases hk : c.severityOf kind with
      | safeState => exact absurd hk hsev
      | pause => exact .inl rfl
      | halt => exact .inr rfl
  · intro hm
    cases hk : c.severityOf kind <;> rw [hk] at hm <;> cases hm

/-- An evaluation that fires a pause and does not weaken it leaves it standing. -/
theorem Sound.standing_evaluate {c : FallbackController} (h : c.Sound)
    (hb : ¬ c.governor.SteppedBack) {now : Seconds} {breakers : Nat} {backlog : Option Nat}
    (hm : c.mode = .normal) (hp : .pause ∈ c.severitiesOf (c.triggers now breakers backlog))
    (hw : ¬ Severity.Weakening (c.severitiesOf (c.triggers now breakers backlog))) :
    (c.evaluate now breakers backlog).2.Standing := by
  rw [evaluate_snd, if_pos hm]
  have hagree := fireAll_agrees (h.agrees hm) (h.not_halted hm) (c.triggers now breakers backlog)
  have hmode := fireAll_mode c (c.triggers now breakers backlog)
  rcases last_of_not_weakening hp hw with hl | hl
  · rw [hl] at hmode
    refine ⟨h.coherent.fireAll _, .inl (hagree.2.1.1 hmode), notSteppedBack_fireAll hb _, ?_⟩
    rw [hmode]
    exact fun hc => by cases hc
  · rw [hl] at hmode
    refine ⟨h.coherent.fireAll _, .inr (hagree.1.1 hmode), notSteppedBack_fireAll hb _, ?_⟩
    rw [hmode]
    exact fun hc => by cases hc

/-- A call that neither resumes nor weakens keeps a standing pause. -/
theorem Standing.exec {c : FallbackController} (h : c.Standing) {op : Op}
    (hr : ¬ c.Resumes op) (hw : ¬ c.Weakens op) : (c.exec op).Standing := by
  cases op with
  | reportViolation kind detail =>
      by_cases hf : c.Fires kind
      · refine standing_report h.coherent h.closed hf ?_ detail
        by_cases hs : c.severityOf kind = .safeState
        · exact .inr (by_contra fun hst => hw ⟨hf, hs, hst⟩)
        · exact .inl hs
      · rw [FallbackController.exec, reportViolation_snd, if_neg hf]
        exact ⟨h.coherent, h.latched, h.closed, h.mode⟩
  | evaluate now breakers backlog =>
      rw [FallbackController.exec, evaluate_snd, if_neg h.mode]
      exact h
  | resume now by' =>
      rcases c.resume_cases now by' with ⟨-, he⟩ | ⟨hok, -⟩
      · rw [FallbackController.exec, he]; exact h
      · exact absurd hok hr
  | task t =>
      have hclosed : ¬ (c.governor.exec t.op).SteppedBack := by
        cases t with
        | step now next =>
            by_cases hraises : Raises (c.governor.step now next).1
            · rcases c.governor.step_cases now next with ⟨-, he⟩ | ⟨hok, -, -⟩
              · rw [ExecutionGovernor.TaskCall.op, ExecutionGovernor.exec, ExecutionGovernor.call, he]
                exact h.closed
              · exact absurd hraises (hok ▸ not_raises_ok ())
            · exact notSteppedBack_exec h.coherent h.closed fun hback =>
                hw ⟨hback.1, hback.2, hraises⟩
        | beginTask now ref => exact notSteppedBack_exec h.coherent h.closed trivial
        | consumeStep now count => exact notSteppedBack_exec h.coherent h.closed trivial
        | endTask now => exact notSteppedBack_exec h.coherent h.closed trivial
      refine ⟨ExecutionGovernor.Coherent.exec h.coherent t.op, ?_, hclosed, h.mode⟩
      simp only [FallbackController.exec, latched_exec_task]
      exact h.latched

/-- A call that fires a pause and does not weaken it leaves the pause standing. -/
theorem Sound.standing {c : FallbackController} (h : c.Sound) (hb : ¬ c.governor.SteppedBack)
    {op : Op} (hp : c.FiresPause op) (hw : ¬ c.Weakens op) : (c.exec op).Standing := by
  cases op with
  | reportViolation kind detail =>
      refine standing_report h.coherent hb hp.1 (.inl ?_) detail
      rw [hp.2]
      decide
  | evaluate now breakers backlog =>
      exact h.standing_evaluate hb hp.1 hp.2 fun hweak => hw ⟨hp.1, hweak⟩
  | resume now by' => exact absurd hp id
  | task t => exact absurd hp id

/-! ## Runs -/

/-- After a call that fires a pause, in any reachable state and under any
configuration: as long as no later call weakens the pause, nothing begins until
an operator's resume succeeds.  And an evaluation leaves a mode at least as
restrictive as everything it found exactly when it does not end on a safe state
after a pause, without a halt. -/
theorem pause_stands {c : FallbackController} (hc : c.Reachable) :
    (∀ op after, ¬ c.governor.SteppedBack → c.FiresPause op → ¬ c.Weakens op →
      Meets exec (fun c op => ¬ c.Weakens op ∧ ¬ c.Resumes op) (c.exec op) after →
      Always exec Refuses (c.exec op) after) ∧
    (∀ now breakers backlog, c.mode = .normal →
      ((∀ s ∈ c.severitiesOf (c.triggers now breakers backlog),
        s.rank ≤ (c.evaluate now breakers backlog).2.mode.rank) ↔
      ¬ c.Weakens (.evaluate now breakers backlog))) := by
  have h := hc.sound
  constructor
  · intro op after hb hp hw hafter
    have hstanding : Always exec Standing (c.exec op) after :=
      Always.of_inv (fun _ _ hs hok => hs.exec hok.2 hok.1) (h.standing hb hp hw) hafter
    exact hstanding.mono fun _ hs => hs.refuses
  · intro now breakers backlog hm
    rw [evaluate_snd, if_pos hm, fireAll_mode, hm]
    simp only [Weakens, hm, true_and]
    cases hl : Severity.last (c.severitiesOf (c.triggers now breakers backlog)) with
    | none =>
        rw [Severity.last_eq_none hl]
        refine ⟨fun _ hw => ?_, fun _ s hs => ?_⟩
        · cases hw.1
        · cases hs
    | some s => exact Severity.le_last_iff hl

/-- A planning failure pauses the governor; a velocity violation reported after
it puts the safe state in its place, and the next task begins without a resume.
In one evaluation, two open circuits and a stall end on the safe state. -/
theorem pause_weakened_by_safe_state :
    (run exec (new 50 120 {} []) [.reportViolation "planning_failure" "no path"]).mode = .paused ∧
    ¬ Raises ((run exec (new 50 120 {} [])
        [.reportViolation "planning_failure" "no path",
          .reportViolation "velocity_exceeded" "2.0 m/s"]).governor.beginTask 1 none).1 ∧
    (run exec (new 50 120 {} [])
        [.task (.beginTask 0 none), .task (.endTask 0), .evaluate 200 2 none]).mode = .safeState ∧
    .pause ∈ (run exec (new 50 120 {} [])
        [.task (.beginTask 0 none), .task (.endTask 0)]).severitiesOf
      ((run exec (new 50 120 {} [])
        [.task (.beginTask 0 none), .task (.endTask 0)]).triggers 200 2 none) := by
  decide +kernel

/-- A planning failure, then attempts to begin, another pause and an operator
who gives no name: nothing begins. -/
theorem planning_failure_stands :
    Always exec Refuses
      ((new 50 120 {} []).exec (.reportViolation "planning_failure" "no path"))
      [.task (.beginTask 1 none), .reportViolation "network_peer_lost" "node-b",
        .resume 2 "", .task (.beginTask 3 none)] := by
  refine (pause_stands ⟨50, 120, {}, [], [], rfl⟩).1 _ _ ?_ ?_ ?_ ?_
  · decide
  · decide +kernel
  · decide +kernel
  · decide +kernel

end FallbackController

end ShugoCore
