import ShugoCore.Engine.Task

/-!
# What every call does, the pipeline does

Every program of the engine is put together from its calls.  So a relation between the
points of a task that every call respects is respected by the whole task.  The calls that
dispatch an action are kept apart from the others, since most of the pipeline makes none.

What the calls on the governor's task may break, `end_task` can restore: it comes last
whatever the task did.
-/

namespace ShugoCore

namespace Engine

open Py Prog

variable {σ φ : Type}

/-- The decision that a call dispatches. -/
def Call.dispatched? : Call φ → Option (Obj φ)
  | .dispatch decision => some decision
  | _ => none

section

variable [Builtins φ] {env : Env σ φ} {R : Run σ φ → Run σ φ → Prop} [IsPreorder (Run σ φ) R]
  (hask : ∀ {c : Call φ}, c.dispatched? = none → Moves R (env.ask c))

include hask

/-! ## The parts that dispatch nothing -/

theorem moves_recordBlock (kind : String) (o : Obj φ) (reason : Str) :
    Moves R (recordBlock env kind o reason) :=
  .bind (hask rfl) fun _ => .bind (hask rfl) fun _ => hask rfl

theorem moves_stages : Moves R (stages env) := .bind (hask rfl) fun _ => .pure _

theorem moves_taskConsent (gated : Bool) (taskType : PyVal φ) :
    Moves R (taskConsent env gated taskType) :=
  .ite (.pure _)
    (.bind (hask rfl) fun _ => .ite (.pure _) (.bind (hask rfl) fun _ => .pure _))

omit [Builtins φ] hask in
theorem moves_ifNeeded (needed : Bool) {check : EngineM σ φ Bool} (h : Moves R check) :
    Moves R (ifNeeded needed check) := .ite h (.pure _)

theorem moves_isPrivacyCompliant (task : Obj φ) : Moves R (isPrivacyCompliant env task) :=
  .bind (hask rfl) fun _ => .pure _

theorem moves_taskChecks (task : Obj φ) : Moves R (taskChecks env task) := by
  refine .ite (.pure _) (.bind (moves_ifNeeded _ (hask rfl)) fun explained => ?_)
  refine .ite (.pure _) (.ite (.pure _) ?_)
  refine .bind (moves_ifNeeded _ (moves_isPrivacyCompliant hask task)) fun compliant => ?_
  refine .ite (.pure _) (.bind (moves_ifNeeded _ (hask rfl)) fun audited => ?_)
  exact .ite (.pure _) (.pure _)

theorem moves_evaluatePolicy (task : Obj φ) : Moves R (evaluatePolicy env task) := by
  refine .bind (hask rfl) ?_
  rintro ⟨allowed, reason⟩
  refine .ite (.pure _) (.ite (.pure _) (.bind (.ofExcept _) fun gated => ?_))
  refine .bind (moves_taskConsent hask gated _) fun blocked => ?_
  cases blocked with
  | none => exact moves_taskChecks hask task
  | some r => exact .pure _

theorem moves_hasGrantForAttendedAction (actionType : Str) (attention : PyVal φ) :
    Moves R (hasGrantForAttendedAction env actionType attention) := by
  simp only [hasGrantForAttendedAction]
  split
  · exact .bind (hask rfl) fun _ => .pure _
  · exact .ite (.pure _) (.bind (hask rfl) fun _ => .ite (.pure _) (.pure _))

theorem moves_consentCheck (actionType attention : PyVal φ) :
    Moves R (consentCheck env actionType attention) := by
  simp only [consentCheck]
  split
  · exact .bind (hask rfl) fun _ => .pure _
  · exact moves_hasGrantForAttendedAction hask _ _

theorem moves_approvalCheck (decision : Obj φ) : Moves R (approvalCheck env decision) :=
  .bind (hask rfl) fun _ =>
    .ite (.bind (hask rfl) fun _ => .pure _) (.bind (hask rfl) fun _ => .pure _)

theorem moves_consentGate (decision : Obj φ) (attention : PyVal φ) :
    Moves R (consentGate env decision attention) := by
  refine .bind (hask rfl) fun mode => .ite (.pure _) (.bind (moves_consentCheck hask _ _) ?_)
  rintro ⟨ok, reason⟩
  exact .ite (.pure _) (moves_approvalCheck hask decision)

theorem moves_gateDecision (decision : Obj φ) (attention : PyVal φ) :
    Moves R (gateDecision env decision attention) := by
  refine .bind (hask rfl) ?_
  rintro ⟨allowed, reason⟩
  refine .ite (.pure _) (.bind (.ofExcept _) fun gated => ?_)
  exact .ite (.pure _) (moves_consentGate hask decision attention)

theorem moves_refuseTask (task : Obj φ) (reason : Option Str) :
    Moves R (refuseTask env task reason) :=
  .bind (moves_recordBlock hask _ _ _) fun _ => .bind (hask rfl) fun _ =>
    .bind (hask rfl) fun _ => .bind (moves_stages hask) fun _ => .pure _

theorem moves_noViableAction (task decision : Obj φ) : Moves R (noViableAction env task decision) :=
  .bind (hask rfl) fun _ => .bind (hask rfl) fun _ => .bind (hask rfl) fun _ =>
    .bind (hask rfl) fun _ => .bind (moves_stages hask) fun _ => .pure _

theorem moves_refuseDecision (decision : Obj φ) (reason : Option Str) :
    Moves R (refuseDecision env decision reason) :=
  .bind (moves_recordBlock hask _ _ _) fun _ => .bind (hask rfl) fun _ =>
    .bind (hask rfl) fun _ => .bind (moves_stages hask) fun _ => .pure _

theorem moves_refuseStep (sub : Obj φ) (reason : Option Str) : Moves R (refuseStep env sub reason) :=
  .bind (moves_recordBlock hask _ _ _) fun _ => .pure _

theorem moves_begin? (task : Obj φ) : Moves R (begin? env task) := by
  refine .attempt (.bind (hask rfl) fun _ => .pure _) ?_
  intro e
  cases e with
  | governor g => exact .bind (hask rfl) fun _ => .pure _
  | halt reason => exact .raise _
  | other name => exact .raise _

theorem moves_taskHandler (task : Obj φ) (e : Raised) : Moves R (taskHandler env task e) := by
  cases e with
  | halt reason => exact .bind (hask rfl) fun _ => .bind (moves_stages hask) fun _ => .pure _
  | governor g =>
      exact .bind (hask rfl) fun _ => .bind (hask rfl) fun _ =>
        .bind (moves_stages hask) fun _ => .pure _
  | other name =>
      exact .bind (hask rfl) fun _ => .bind (hask rfl) fun _ =>
        .bind (moves_stages hask) fun _ => .pure _

theorem moves_runHandler (name missing : String) (decision : Obj φ) :
    Moves R (runHandler env name missing decision) := by
  refine .bind (hask rfl) fun result => ?_
  cases result with
  | none => exact .pure _
  | some v => exact .pure _

omit hask in
theorem moves_digest (d : Obj φ) : Moves R (digest env d) := by
  simp only [digest]
  split
  · exact .pure _
  · exact .raise _

theorem moves_dispatchBody (decision : Obj φ) : Moves R (dispatchBody env decision) := by
  refine .ite (hask rfl) (.ite (hask rfl) (.ite (hask rfl) ?_))
  refine .ite (hask rfl) (.ite (hask rfl) (.ite (.pure _) ?_))
  refine .ite (moves_runHandler hask _ _ _) (.ite (moves_runHandler hask _ _ _) ?_)
  refine .ite (moves_runHandler hask _ _ _) (.ite (.bind (hask rfl) fun result => ?_) (.pure _))
  cases result with
  | none => exact .pure _
  | some v => exact .pure _

theorem moves_reportExecution (d : Obj φ) (result : PyVal φ) :
    Moves R (reportExecution env d result) := by
  cases result with
  | dict r => exact .bind (hask rfl) fun _ => .pure _
  | none | bool _ | int _ | float _ | str _ | list _ => exact .raise _

/-! ## The parts that dispatch -/

variable (hdispatch : ∀ d : Obj φ, Moves R (env.ask (.dispatch d)))

include hdispatch

theorem moves_dispatch (decision : Obj φ) : Moves R (dispatch env decision) :=
  .bind (hdispatch _) fun _ => .attempt (moves_dispatchBody hask _) fun _ => .pure _

theorem moves_execute (decision : Obj φ) : Moves R (execute env decision) := by
  refine .bind ?_ (moves_reportExecution hask decision)
  simp only [executeVerdict]
  split
  · refine .ite (.pure _) (.bind (moves_digest _) fun h => ?_)
    exact .ite (.pure _) (moves_dispatch hask hdispatch _)
  · exact .pure _

theorem moves_executeGated (decision : Obj φ) : Moves R (executeGated env decision) :=
  .bind (hask rfl) fun _ => .bind (moves_digest _) fun _ =>
    .bind (moves_execute hask hdispatch _) fun _ => .pure _

theorem moves_executeStep (decision : Obj φ) (index : Nat) (step : PyVal φ) :
    Moves R (executeStep env decision index step) := by
  cases step with
  | dict step =>
      refine .bind (moves_gateDecision hask _ _) ?_
      rintro ⟨allowed, reason⟩
      refine .ite (moves_refuseStep hask _ _) (.bind (hask rfl) fun _ => ?_)
      exact moves_executeGated hask hdispatch _
  | none | bool _ | int _ | float _ | str _ | list _ => exact .pure _

theorem moves_executeSteps (decision : Obj φ) (index : Nat) (steps : List (PyVal φ)) :
    Moves R (executeSteps env decision index steps) := by
  induction steps generalizing index with
  | nil => exact .pure _
  | cons step steps ih =>
      exact .bind (moves_executeStep hask hdispatch _ _ _) fun _ => .bind (ih _) fun _ => .pure _

theorem moves_executeMultiStep (decision : Obj φ) : Moves R (executeMultiStep env decision) := by
  refine .bind (.ofExcept _) fun steps => .ite ?_ (.bind (.ofExcept _) fun steps => ?_)
  · exact .bind (moves_recordBlock hask _ _ _) fun _ => .pure _
  · exact .bind (moves_executeSteps hask hdispatch _ _ _) fun _ => .pure _

theorem moves_runMultiStep (task decision : Obj φ) : Moves R (runMultiStep env task decision) :=
  .bind (hask rfl) fun _ => .bind (hask rfl) fun _ =>
    .bind (moves_executeMultiStep hask hdispatch _) fun _ => .bind (hask rfl) fun _ =>
      .bind (hask rfl) fun _ => .bind (hask rfl) fun _ => .bind (hask rfl) fun _ =>
        .bind (moves_stages hask) fun _ => .pure _

theorem moves_runAction (task decision : Obj φ) : Moves R (runAction env task decision) :=
  .bind (hask rfl) fun _ => .bind (hask rfl) fun _ => .bind (hask rfl) fun _ =>
    .bind (moves_executeGated hask hdispatch _) fun _ => .bind (hask rfl) fun _ =>
      .bind (hask rfl) fun _ => .bind (hask rfl) fun _ => .bind (hask rfl) fun _ =>
        .bind (hask rfl) fun _ => .bind (hask rfl) fun _ => .bind (moves_stages hask) fun _ =>
          .pure _

theorem moves_runDecision (task decision : Obj φ) : Moves R (runDecision env task decision) := by
  refine .ite (moves_noViableAction hask _ _) (.ite (moves_runMultiStep hask hdispatch _ _) ?_)
  refine .bind (.ofExcept _) fun attention => .bind (moves_gateDecision hask _ _) ?_
  rintro ⟨allowed, reason⟩
  exact .ite (moves_refuseDecision hask _ _) (moves_runAction hask hdispatch _ _)

theorem moves_runGatedTask (task : Obj φ) : Moves R (runGatedTask env task) := by
  refine .bind (hask rfl) fun _ => .bind (hask rfl) fun _ =>
    .bind (moves_evaluatePolicy hask task) ?_
  rintro ⟨allowed, reason⟩
  refine .ite (moves_refuseTask hask _ _) (.bind (hask rfl) fun _ => .bind (hask rfl) fun _ => ?_)
  exact .bind (hask rfl) fun decision => moves_runDecision hask hdispatch _ _

theorem moves_taskBody (task : Obj φ) : Moves R (taskBody env task) := by
  refine .bind (hask rfl) fun _ => .bind (moves_begin? hask task) fun refused => ?_
  cases refused with
  | some result => exact .pure _
  | none => exact .bind (hask rfl) fun _ => .ensure (moves_runGatedTask hask hdispatch _) (hask rfl)

end

/-! ## What `end_task` restores -/

section

/-- What a call does to the point of a task it is made at, it does whether it returns or
raises. -/
theorem moves_ask [Builtins φ] {env : Env σ φ} {c : Call φ} {R : Run σ φ → Run σ φ → Prop}
    (h : ∀ s, R s (env.ask c s).2) : Moves R (env.ask c) := by
  intro s
  have hs := h s
  simp only [wp]
  rcases hr : env.ask c s with ⟨e | a, t⟩ <;> rw [hr] at hs <;> exact hs

/-- The call works on the governor's task. -/
def Call.onTask : Call φ → Bool
  | .beginTask _ | .step _ | .consumeStep _ | .endTask => true
  | _ => false

variable [Builtins φ] {env : Env σ φ} {H : Run σ φ → Prop}
  (hoff : ∀ {c : Call φ}, c.onTask = false → Moves (Stays H) (env.ask c))

include hoff

theorem stays_taskHandler (task : Obj φ) (e : Raised) : Moves (Stays H) (taskHandler env task e) := by
  have hstages : Moves (Stays H) (stages env) := .bind (hoff rfl) fun _ => .pure _
  cases e with
  | halt reason => exact .bind (hoff rfl) fun _ => .bind hstages fun _ => .pure _
  | governor g =>
      exact .bind (hoff rfl) fun _ => .bind (hoff rfl) fun _ => .bind hstages fun _ => .pure _
  | other name =>
      exact .bind (hoff rfl) fun _ => .bind (hoff rfl) fun _ => .bind hstages fun _ => .pure _

variable
  (hbegin : ∀ {ref s}, H s → wp (env.ask (.beginTask ref)) (fun _ _ => True)
    (fun e t => (∃ g, e = .governor g) ∧ H t) s)

include hbegin

/-- A refused task leaves what was there. -/
theorem stays_begin? (task : Obj φ) {s : Run σ φ} (hs : H s) :
    wp (begin? env task) (fun r t => r ≠ none → H t) (fun _ => H) s := by
  simp only [begin?]
  rw [wp_attempt, wp_bind]
  refine wp_mono (hbegin hs) (fun _ _ _ h => absurd rfl h) ?_
  rintro _ t ⟨⟨e, rfl⟩, ht⟩
  have hrecord : Moves (Stays H) (env.ask (.recordEvent (lit "governor_block")
      (obj [("kind", text "begin_task"), ("detail", text "GovernorError")]))) := hoff rfl
  exact wp_mono (Moves.reaches (hrecord.bind fun _ => .pure _) ht) (fun _ _ h _ => h)
    (fun _ _ h => h)

variable (hend : ∀ s, Reaches H (env.ask .endTask) s)

include hend

/-- What `end_task` establishes, and the calls outside the task and a refused `begin_task`
keep, a task leaves, whatever it does. -/
theorem restores_taskBody (task : Obj φ) {s : Run σ φ} (hs : H s) :
    Reaches H (taskBody env task) s := by
  simp only [taskBody, Reaches]
  rw [wp_bind]
  refine wp_mono (Moves.reaches (hoff rfl) hs) (fun _ t ht => ?_) (fun _ _ h => h)
  rw [wp_bind]
  refine wp_mono (stays_begin? hoff hbegin task ht) (fun refused u hu => ?_) (fun _ _ h => h)
  cases refused with
  | some result => exact hu (fun h => by cases h)
  | none =>
      rw [wp_bind]
      -- setting a field cannot raise
      show wp (ensure (runGatedTask env task) (env.ask .endTask)) _ _ _
      rw [wp_ensure]
      exact wp_mono (wp_trivial _) (fun _ v _ => hend v) (fun _ v _ => hend v)

theorem restores_executeTask (task : Obj φ) {s : Run σ φ} (hs : H s) :
    Reaches H (executeTask env task) s :=
  (restores_taskBody hoff hbegin hend task hs).attempt (stays_taskHandler hoff task)

end

end Engine

end ShugoCore
