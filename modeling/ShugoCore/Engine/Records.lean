import ShugoCore.Engine.Binding
import ShugoCore.Engine.Stalls

/-!
# Every cycle ends in a record

`execute_task` turns every exception of its pipeline into a result with a status, an
outcome and the stages that ran.  Its `except` clauses make calls of their own, outside
any handler: the one for a `GovernorError` reports the violation, and a report whose
severity is a halt raises `FallbackHalt` again; each of them records an event.  And the
result of an action is the dictionary that the executor returned, with or without a
status.

* `Contract` is what an engine is set up with: the configured severities, and whether
  recording may fail and executors may leave out the status.
* `AtRest`: the governor has no task in flight, and is idle or in its latched mode.
* `every_cycle_recorded_iff`: every task, under everything that the collaborators of a
  contract may do, ends in a record exactly if the contract is sound.
-/

namespace ShugoCore

/-- No task is in flight, and the state is `IDLE` or the latched mode. -/
def ExecutionGovernor.AtRest (g : ExecutionGovernor) : Prop :=
  ¬ g.InFlight ∧ (g.state = .idle ∨ ∃ m ∈ g.latched, g.state = m.state)

namespace Engine

open Py Prog

variable {σ φ : Type}

/-! ## Contracts -/

/-- The trigger kinds of the `except` clause for a `GovernorError`. -/
def governorKinds : List String :=
  ["step_budget_exhausted", "task_deadline_exceeded", "runaway_loop"]

/-- The result has a status. -/
def HasStatus (d : Obj φ) : Prop := (getKey (lit "status") d).isSome = true

instance (d : Obj φ) : Decidable (HasStatus d) := inferInstanceAs (Decidable (_ = true))

/-- What an engine and its collaborators are set up to do. -/
structure Contract where
  severities : Dict String String
  /-- `record_event` and `resolve_step` may raise. -/
  recordingFails : Bool
  /-- An executor may return a dictionary without a status. -/
  statusless : Bool

namespace Contract

/-- The severity that is configured for a trigger. -/
def severityOf (k : Contract) (kind : String) : Severity :=
  (FallbackController.new 1 0 {} k.severities).severityOf kind

/-- An environment and a world in which a task may start. -/
structure Admits (k : Contract) (env : Env σ φ) (w : World σ) : Prop where
  configured : w.fallbacks.severities = k.severities
  /-- No other task is in flight. -/
  rested : w.governor.AtRest
  /-- Other threads leave the configuration alone, and begin no task. -/
  settled : ∀ w, (env.interfere w).fallbacks.severities = w.fallbacks.severities ∧
    (w.governor.AtRest → (env.interfere w).governor.AtRest)
  recording : k.recordingFails = false → ∀ w,
    (∀ kind payload, (env.reply (.recordEvent kind payload) w).1 = .ok ()) ∧
      (env.reply .resolveStep w).1 = .ok ()
  status : k.statusless = false → ∀ w d result,
    (∀ t, (env.reply (.tool t d) w).1 = .ok (.dict result) → HasStatus result) ∧
      ∀ name, (env.reply (.handler name d) w).1 = .ok (some (.dict result)) → HasStatus result

/-- Nothing that the `except` clauses call raises, and executors report a status. -/
def Sound (k : Contract) : Prop :=
  (∀ kind ∈ governorKinds, k.severityOf kind ≠ .halt) ∧ k.recordingFails = false ∧
    k.statusless = false

end Contract

/-- A result with a status, an outcome, and stages that end in `RECORD`. -/
def Recorded (d : Obj φ) : Prop :=
  HasStatus d ∧ (getKey (lit "outcome") d).isSome = true ∧
    ∃ stages, getKey (lit "stages") d = some (.list (stages ++ [text "RECORD"]))

/-- The task returns a record, and leaves the governor at rest. -/
structure EndsInRecord [Builtins φ] (env : Env σ φ) (task : Obj φ) (w : World σ) : Prop where
  returns : wp (executeTask env task) (fun d t => Recorded d ∧ t.world.governor.AtRest)
    (fun _ _ => False) ⟨w, []⟩

/-! ## The results of the pipeline -/

theorem getKey_setDefault_of_ne {k k' : Str} (h : k' ≠ k) (v : PyVal φ) (d : Obj φ) :
    getKey k (setDefault k' v d) = getKey k d := by
  simp only [setDefault]
  split
  · rfl
  · exact getKey_setKey_of_ne h v d

theorem Recorded.withDecisionMeta {d : Obj φ} (h : Recorded d) (decision : Obj φ) :
    Recorded (withDecisionMeta d decision) := by
  have hkeep : ∀ k, lit "action_type" ≠ k → lit "proposal_source" ≠ k →
      getKey k (Engine.withDecisionMeta d decision) = getKey k d := by
    intro k hk hk'
    rw [Engine.withDecisionMeta, getKey_setDefault_of_ne hk, getKey_setDefault_of_ne hk']
  simp only [Recorded, HasStatus]
  rw [hkeep _ (by decide) (by decide), hkeep _ (by decide) (by decide),
    hkeep _ (by decide) (by decide)]
  exact h

theorem HasStatus.withDecisionMeta {d : Obj φ} (h : HasStatus d) (decision : Obj φ) :
    HasStatus (withDecisionMeta d decision) := by
  simp only [HasStatus, Engine.withDecisionMeta]
  rw [getKey_setDefault_of_ne (by decide), getKey_setDefault_of_ne (by decide)]
  exact h

theorem hasStatus_report (status key : String) (value : Str) :
    HasStatus (report status key value : Obj φ) := by
  simp [HasStatus, report]

theorem hasStatus_setKey {k : Str} (hk : k ≠ lit "status") (v : PyVal φ) {d : Obj φ}
    (h : HasStatus d) : HasStatus (setKey k v d) := by
  simp only [HasStatus]
  rw [getKey_setKey_of_ne hk]
  exact h

/-- The value of `stages` ends in `RECORD`. -/
def EndsStages (v : PyVal φ) : Prop := ∃ stages, v = .list (stages ++ [text "RECORD"])

section

variable [Builtins φ] {env : Env σ φ}

theorem yields_stages : Yields EndsStages (stages env) := by
  refine .after fun trail => .pure ⟨trail.map .str, ?_⟩
  rw [List.map_append]
  rfl

theorem yields_refuseTask (task : Obj φ) (reason : Option Str) :
    Yields Recorded (refuseTask env task reason) := by
  refine .after fun _ => .after fun _ => .after fun _ => .bind yields_stages fun v hv => .pure ?_
  obtain ⟨xs, rfl⟩ := hv
  exact ⟨by simp [HasStatus], by simp, xs, by simp⟩

theorem yields_noViableAction (task decision : Obj φ) :
    Yields Recorded (noViableAction env task decision) := by
  refine .after fun _ => .after fun _ => .after fun _ => .after fun _ =>
    .bind yields_stages fun v hv => .pure (.withDecisionMeta ?_ _)
  obtain ⟨xs, rfl⟩ := hv
  exact ⟨by simp [HasStatus], by simp, xs, by simp⟩

theorem yields_refuseDecision (decision : Obj φ) (reason : Option Str) :
    Yields Recorded (refuseDecision env decision reason) := by
  refine .after fun _ => .after fun _ => .after fun _ => .bind yields_stages fun v hv =>
    .pure (.withDecisionMeta ?_ _)
  obtain ⟨xs, rfl⟩ := hv
  exact ⟨by simp [HasStatus], by simp, xs, by simp⟩

/-- The steps of a multi-step decision are summed up with a status. -/
theorem yields_executeMultiStep (decision : Obj φ) :
    Yields HasStatus (executeMultiStep env decision) := by
  refine .after fun steps => .ite (.after fun _ => .pure (hasStatus_report _ _ _)) ?_
  exact .after fun _ => .after fun _ => .pure (by simp [HasStatus])

theorem yields_runMultiStep (task decision : Obj φ) :
    Yields Recorded (runMultiStep env task decision) := by
  refine .after fun _ => .after fun _ => .bind (yields_executeMultiStep decision) fun d hd => ?_
  refine .after fun _ => .after fun _ => .after fun _ => .after fun _ =>
    .bind yields_stages fun v hv => .pure ?_
  obtain ⟨xs, rfl⟩ := hv
  refine ⟨?_, ?_, xs, getKey_setKey_self _ _ _⟩
  · exact hasStatus_setKey (by decide) _ (hasStatus_setKey (by decide) _
      (hasStatus_setKey (by decide) _ (hasStatus_setKey (by decide) _ hd)))
  · rw [getKey_setKey_of_ne (by decide), getKey_setKey_self]
    rfl

section

variable (hstatus : ∀ (w : World σ) (d result : Obj φ),
  (∀ t, (env.reply (.tool t d) w).1 = .ok (.dict result) → HasStatus result) ∧
    ∀ name, (env.reply (.handler name d) w).1 = .ok (some (.dict result)) → HasStatus result)

include hstatus

/-- If the value is a dictionary, it has a status. -/
theorem yields_dispatchBody (decision : Obj φ) :
    Yields (fun v => ∀ d, v = .dict d → HasStatus d) (dispatchBody env decision) := by
  have hreport : ∀ status key value (d : Obj φ), PyVal.dict (report status key value) = .dict d →
      HasStatus d := by
    rintro status key value d ⟨⟩
    exact hasStatus_report _ _ _
  have htool : ∀ t, Yields (fun v => ∀ d, v = .dict d → HasStatus d)
      (env.ask (.tool t decision)) := by
    intro t s
    refine wp_ask (fun w v _ hw _ d hv => ?_) (fun _ _ _ _ _ => True.intro)
    exact (hstatus w decision d).1 t (hv ▸ hw)
  have hhandler : ∀ name, Yields (fun r => ∀ d, r = some (.dict d) → HasStatus d)
      (env.ask (.handler name decision)) := by
    intro name s
    refine wp_ask (fun w r _ hw _ d hr => ?_) (fun _ _ _ _ _ => True.intro)
    exact (hstatus w decision d).2 name (hr ▸ hw)
  have hrun : ∀ name missing, Yields (fun v => ∀ d, v = .dict d → HasStatus d)
      (runHandler env name missing decision) := by
    refine fun name missing => .bind (hhandler _) fun r hr => ?_
    cases r with
    | none => exact .pure (hreport _ _ _)
    | some v => exact .pure fun d hd => hr d (congrArg some hd)
  refine .ite (htool _) (.ite (htool _) (.ite (htool _) (.ite (htool _) (.ite (htool _) ?_))))
  refine .ite (.pure (hreport _ _ _)) (.ite (hrun _ _) (.ite (hrun _ _) (.ite (hrun _ _) ?_)))
  refine .ite (.bind (hhandler _) fun r hr => ?_) (.pure (hreport _ _ _))
  cases r with
  | none => exact .pure (hreport _ _ _)
  | some v => exact .pure fun d hd => hr d (congrArg some hd)

theorem yields_execute (decision : Obj φ) : Yields HasStatus (execute env decision) := by
  have hrefuse : ∀ status key value, Yields (fun v => ∀ d, v = .dict d → HasStatus d)
      (pure (.dict (report status key value)) : EngineM σ φ (PyVal φ)) := by
    refine fun status key value => .pure ?_
    rintro d ⟨⟩
    exact hasStatus_report _ _ _
  have hverdict : Yields (fun v => ∀ d, v = .dict d → HasStatus d)
      (executeVerdict env decision) := by
    simp only [executeVerdict]
    split
    · refine .ite (hrefuse _ _ _) (.after fun h => .ite (hrefuse _ _ _) (.after fun _ => ?_))
      exact .attempt (yields_dispatchBody hstatus _) fun _ => hrefuse _ _ _
    · exact hrefuse _ _ _
  refine .bind hverdict fun v hv => ?_
  cases v with
  | dict d => exact .after fun _ => .pure (hv d rfl)
  | none | bool _ | int _ | float _ | str _ | list _ => exact .raise _

theorem yields_runAction (task decision : Obj φ) :
    Yields Recorded (runAction env task decision) := by
  have hgated : Yields HasStatus (executeGated env decision) :=
    .after fun _ => .after fun _ => .bind (yields_execute hstatus _) fun d hd =>
      .pure (hd.withDecisionMeta _)
  refine .after fun _ => .after fun _ => .after fun _ => .bind hgated fun d hd => ?_
  refine .after fun _ => .after fun _ => .after fun _ => .after fun _ => .after fun _ =>
    .after fun _ => .bind yields_stages fun v hv => .pure ?_
  obtain ⟨xs, rfl⟩ := hv
  refine ⟨?_, ?_, xs, getKey_setKey_self _ _ _⟩
  · exact hasStatus_setKey (by decide) _ (hasStatus_setKey (by decide) _
      (hasStatus_setKey (by decide) _ (hasStatus_setKey (by decide) _ hd)))
  · rw [getKey_setKey_of_ne (by decide), getKey_setKey_of_ne (by decide),
      getKey_setKey_of_ne (by decide), getKey_setKey_self]
    rfl

/-- Whatever the pipeline returns is a record. -/
theorem yields_runGatedTask (task : Obj φ) : Yields Recorded (runGatedTask env task) := by
  refine .after fun _ => .after fun _ => .after ?_
  rintro ⟨allowed, reason⟩
  refine .ite (yields_refuseTask task reason) (.after fun _ => .after fun _ => .after fun d => ?_)
  refine .ite (yields_noViableAction task d) (.ite (yields_runMultiStep task d) ?_)
  refine .after fun attention => .after ?_
  rintro ⟨allowed, reason⟩
  exact .ite (yields_refuseDecision d reason) (yields_runAction hstatus task d)

theorem yields_taskBody (task : Obj φ) : Yields Recorded (taskBody env task) := by
  have hbegin : Yields (fun r => ∀ d, r = some d → Recorded d) (begin? env task) := by
    refine .attempt (.after fun _ => .pure nofun) fun e => ?_
    cases e with
    | governor g =>
        refine .after fun _ => .pure ?_
        rintro d ⟨⟩
        exact ⟨by simp [HasStatus, governorBlock], by simp [governorBlock], [text "GATE"],
          by simp [governorBlock]⟩
    | halt reason => exact .raise _
    | other name => exact .raise _
  refine .after fun _ => .bind hbegin fun refused hr => ?_
  cases refused with
  | some d => exact .pure (hr d rfl)
  | none => exact .after fun _ => .ensure (yields_runGatedTask hstatus task)

omit hstatus in
/-- So is whatever an `except` clause returns. -/
theorem yields_taskHandler (task : Obj φ) (e : Raised) :
    Yields Recorded (taskHandler env task e) := by
  cases e with
  | halt reason =>
      refine .after fun _ => .bind yields_stages fun v hv => .pure ?_
      obtain ⟨xs, rfl⟩ := hv
      exact ⟨by simp [HasStatus], by simp, xs, by simp⟩
  | governor g =>
      refine .after fun _ => .after fun _ => .bind yields_stages fun v hv => .pure ?_
      obtain ⟨xs, rfl⟩ := hv
      exact ⟨by simp [HasStatus, governorBlock], by simp [governorBlock], xs,
        by simp [governorBlock]⟩
  | other name =>
      refine .after fun _ => .after fun _ => .bind yields_stages fun v hv => .pure ?_
      obtain ⟨xs, rfl⟩ := hv
      exact ⟨by simp [HasStatus], by simp, xs, by simp⟩

end

end

/-! ## What the calls leave alone -/

theorem atRest_latch {g : ExecutionGovernor} (h : g.AtRest) (m : Latch) : (g.latch m).AtRest := by
  rcases g.latch_cases m with ⟨-, he⟩ | ⟨-, -, he⟩ | ⟨-, hflight, -⟩
  · rwa [he]
  · rw [he]
    exact ⟨h.1, .inr ⟨m, rfl, rfl⟩⟩
  · exact absurd hflight h.1

theorem atRest_endTask (g : ExecutionGovernor) (now : Seconds) : (g.endTask now).AtRest := by
  refine ⟨fun h => h rfl, ?_⟩
  simp only [ExecutionGovernor.endTask]
  cases g.latched with
  | none => exact .inl rfl
  | some m => exact .inr ⟨m, rfl, rfl⟩

/-- What `evaluate` does is a sequence of latches, under the same configuration. -/
theorem atRest_evaluate {c : FallbackController} (h : c.governor.AtRest) (now : Seconds)
    (breakers : Nat) (backlog : Option Nat) :
    (c.evaluate now breakers backlog).2.governor.AtRest := by
  rw [FallbackController.evaluate_snd_eq_foldl]
  induction c.evaluateFires now breakers backlog generalizing c with
  | nil => exact h
  | cons t ts ih =>
      rw [List.foldl_cons]
      refine ih ?_
      rw [FallbackController.fire_snd]
      exact atRest_latch h _

theorem severities_evaluate (c : FallbackController) (now : Seconds) (breakers : Nat)
    (backlog : Option Nat) : (c.evaluate now breakers backlog).2.severities = c.severities := by
  rw [FallbackController.evaluate_snd_eq_foldl]
  induction c.evaluateFires now breakers backlog generalizing c with
  | nil => rfl
  | cons t ts ih => rw [List.foldl_cons, ih, FallbackController.fire_snd]

theorem atRest_reportViolation {c : FallbackController} (h : c.governor.AtRest)
    (kind detail : String) : (c.reportViolation kind detail).2.governor.AtRest := by
  rw [FallbackController.reportViolation_snd]
  split
  · exact atRest_latch h _
  · exact h

theorem severities_reportViolation (c : FallbackController) (kind detail : String) :
    (c.reportViolation kind detail).2.severities = c.severities := by
  rw [FallbackController.reportViolation_snd]
  split <;> rfl

namespace Contract

variable [Builtins φ] {env : Env σ φ} {w : World σ} {k : Contract}

/-- The configuration is that of the contract. -/
def Configured (k : Contract) (s : Run σ φ) : Prop := s.world.fallbacks.severities = k.severities

/-- The governor is at rest. -/
def Rested (s : Run σ φ) : Prop := s.world.governor.AtRest

theorem configured_ask (h : k.Admits env w) (c : Call φ) :
    Moves (Stays k.Configured) (env.ask c) := by
  have hanswer : ∀ w, (env.answer w c).2.fallbacks.severities = w.fallbacks.severities := by
    intro w
    cases c with
    | evaluate => exact severities_evaluate _ _ _ _
    | reportViolation kind detail => exact severities_reportViolation _ _ _
    | _ => rfl
  exact moves_ask fun s hs => (hanswer _).trans ((h.settled _).1.trans hs)

theorem rested_ask (h : k.Admits env w) {c : Call φ} (hc : c.onTask = false) :
    Moves (Stays Rested) (env.ask c) := by
  have hanswer : ∀ w : World σ, w.governor.AtRest → (env.answer w c).2.governor.AtRest := by
    intro w hw
    cases c with
    | evaluate => exact atRest_evaluate hw _ _ _
    | reportViolation kind detail => exact atRest_reportViolation hw _ _
    | beginTask _ | step _ | consumeStep _ | endTask => cases hc
    | _ => exact hw
  exact moves_ask fun s hs => hanswer _ ((h.settled _).2 hs)

theorem rested_beginTask (h : k.Admits env w) {ref : Option String} {s : Run σ φ}
    (hs : Rested s) :
    wp (env.ask (.beginTask ref)) (fun _ _ => True)
      (fun e t => (∃ g, e = .governor g) ∧ Rested t) s := by
  let w := env.interfere s.world
  show Ends _ _ ((w.governor.beginTask w.monotonic ref).1.mapError Raised.governor, _)
  rcases w.governor.beginTask_cases w.monotonic ref with ⟨⟨e, he⟩, hkept⟩ | ⟨hstate, -⟩
  · rw [he]
    refine ⟨⟨e, rfl⟩, ?_⟩
    show (w.governor.beginTask w.monotonic ref).2.AtRest
    rw [hkept]
    exact (h.settled _).2 hs
  · rw [ExecutionGovernor.beginTask_ok_iff.2 hstate]
    exact True.intro

theorem rested_endTask (s : Run σ φ) : Reaches Rested (env.ask .endTask) s :=
  atRest_endTask _ _

/-- The task leaves the governor at rest, whatever it does. -/
theorem rested_taskBody (h : k.Admits env w) (task : Obj φ) {s : Run σ φ} (hs : Rested s) :
    Reaches Rested (taskBody env task) s :=
  restores_taskBody (rested_ask h) (rested_beginTask h) rested_endTask task hs

/-! ## A sound contract -/

/-- A report raises exactly if it fires a halt. -/
theorem reportViolation_raises_iff (c : FallbackController) (kind detail : String) :
    Raises (c.reportViolation kind detail).1 ↔ c.Fires kind ∧ c.severityOf kind = .halt := by
  simp only [FallbackController.reportViolation]
  by_cases hf : c.Fires kind
  · rw [if_pos hf, FallbackController.fire_raises_iff]
    exact ⟨fun h => ⟨hf, h⟩, fun h => h.2⟩
  · rw [if_neg hf]
    exact iff_of_false (not_raises_ok _) fun h => hf h.1

theorem governorTriggerKind_mem (e : GovernorError) : governorTriggerKind e ∈ governorKinds := by
  unfold governorTriggerKind
  dsimp only
  split
  · exact List.mem_cons_self
  · split
    · exact List.mem_cons_of_mem _ List.mem_cons_self
    · exact List.mem_cons_of_mem _ (List.mem_cons_of_mem _ List.mem_cons_self)

theorem severityOf_of_configured {c : FallbackController} (h : c.severities = k.severities)
    (kind : String) : c.severityOf kind = k.severityOf kind := by
  simp only [Contract.severityOf, FallbackController.severityOf]
  rw [h]
  rfl

/-- A call that returns in every world keeps the configuration. -/
theorem completes_configured (h : k.Admits env w) {c : Call φ}
    (hok : ∀ w, w.fallbacks.severities = k.severities → ∃ a, (env.answer w c).1 = .ok a) :
    Completes k.Configured (env.ask c) fun _ => k.Configured := by
  intro s hs
  obtain ⟨a, ha⟩ := hok (env.interfere s.world) ((h.settled _).1.trans hs)
  have hmoves := (configured_ask h c).reaches hs
  unfold Reaches wp at hmoves
  simp only [wp]
  rcases hr : env.ask c s with ⟨r, t⟩
  rw [hr] at hmoves
  obtain rfl : r = .ok a := (congrArg Prod.fst hr).symm.trans ha
  exact hmoves

/-- Under a sound contract no `except` clause raises. -/
theorem completes_taskHandler (h : k.Admits env w) (hk : k.Sound) (task : Obj φ) (e : Raised) :
    Completes k.Configured (taskHandler env task e) fun _ => k.Configured := by
  obtain ⟨hkinds, hrecording, -⟩ := hk
  have hrecord : ∀ kind payload, Completes k.Configured (env.ask (.recordEvent kind payload))
      fun _ => k.Configured := fun kind payload =>
    completes_configured h fun w _ => ⟨(), (h.recording hrecording w).1 kind payload⟩
  have hresolve : Completes k.Configured (env.ask .resolveStep) fun _ => k.Configured :=
    completes_configured h fun w _ => ⟨(), (h.recording hrecording w).2⟩
  have hreport : ∀ e : GovernorError, Completes k.Configured
      (env.ask (.reportViolation (governorTriggerKind e) e.message)) fun _ => k.Configured := by
    refine fun e => completes_configured h fun w hw => ?_
    have hquiet : ¬ Raises (w.fallbacks.reportViolation (governorTriggerKind e) e.message).1 := by
      rw [reportViolation_raises_iff, severityOf_of_configured hw]
      exact fun hr => hkinds _ (governorTriggerKind_mem e) hr.2
    cases hr : (w.fallbacks.reportViolation (governorTriggerKind e) e.message).1 with
    | ok a => exact ⟨(), by rw [Env.answer, hr]; rfl⟩
    | error e => exact absurd ⟨e, hr⟩ hquiet
  have hstages : Completes k.Configured (stages env) fun _ => k.Configured :=
    .bind (completes_configured h fun w _ => ⟨_, rfl⟩) fun _ _ h => h
  cases e with
  | halt reason => exact .bind (hrecord _ _) fun _ => .bind hstages fun _ _ h => h
  | governor e =>
      exact .bind (hreport e) fun _ => .bind (hrecord _ _) fun _ => .bind hstages fun _ _ h => h
  | other name =>
      exact .bind (hrecord _ _) fun _ => .bind hresolve fun _ => .bind hstages fun _ _ h => h

/-- Under a sound contract every task ends in a record. -/
theorem endsInRecord_of_sound (h : k.Admits env w) (hk : k.Sound) (task : Obj φ) :
    EndsInRecord env task w := by
  have hrested := rested_taskBody h task (s := ⟨w, []⟩) h.rested
  have hstart : k.Configured (⟨w, []⟩ : Run σ φ) := h.configured
  have hconfigured := (moves_taskBody (fun _ => configured_ask h _)
    (fun d => configured_ask h (.dispatch d)) task).reaches hstart
  have hreturns := yields_taskBody (h.status hk.2.2) task ⟨w, []⟩
  constructor
  rw [executeTask, wp_attempt]
  refine wp_mono (wp_and hrested (wp_and hconfigured hreturns)) (fun d t ht => ⟨ht.2.2, ht.1⟩) ?_
  rintro e t ⟨hrest, hconf, -⟩
  have hhandled := wp_and (completes_taskHandler h hk task e t hconf)
    (wp_and ((stays_taskHandler (rested_ask h) task e).reaches hrest)
      (yields_taskHandler task e t))
  exact wp_mono hhandled (fun d t ht => ⟨ht.2.2, ht.2.1⟩) (fun _ _ ht => ht.1)

/-! ## Contracts that are not sound -/

/-- A fresh engine with the severities of the contract. -/
def fresh (k : Contract) : World Unit :=
  { consenting ⟨false, false, false, false⟩ 1 with fallbacks := .new 1 0 {} k.severities }

/-- Everything returns, except that the models raise. -/
def unruly (e : Raised) : Env Unit WholeFloat :=
  { obliging ⟨false, false, false, false⟩ [] with
    reply := fun
      | .makeDecision _, _ => (.error e, ())
      | c, w => (obliging ⟨false, false, false, false⟩ []).reply c w }

theorem admits_unruly (k : Contract) (e : Raised) : k.Admits (unruly e) k.fresh where
  configured := rfl
  rested := ⟨fun h => h rfl, .inl rfl⟩
  settled := fun _ => ⟨rfl, id⟩
  recording := fun _ _ => ⟨fun _ _ => rfl, rfl⟩
  status := by
    refine fun _ w d result => ⟨?_, ?_⟩
    · rintro t ⟨⟩
      decide
    · rintro name ⟨⟩
      decide

theorem fires_governorKind (c : FallbackController) {kind : String} (h : kind ∈ governorKinds) :
    c.Fires kind := by
  have hnone : c.thresholdOf kind = none := by
    simp only [governorKinds, List.mem_cons, List.not_mem_nil, or_false] at h
    rcases h with rfl | rfl | rfl <;> rfl
  intro t ht
  rw [hnone] at ht
  cases ht

/-- A report that halts leaves the clause for a `GovernorError`. -/
theorem not_endsInRecord_of_halt {k : Contract} {env : Env Unit WholeFloat} {w : World Unit}
    {task : Obj WholeFloat} {e : GovernorError} {t : Run Unit WholeFloat}
    (hbody : taskBody env task ⟨w, []⟩ = (.error (.governor e), t))
    (hconf : (env.interfere t.world).fallbacks.severities = k.severities)
    (h : k.severityOf (governorTriggerKind e) = .halt) : ¬ EndsInRecord env task w := by
  intro hend
  let c := (env.interfere t.world).fallbacks
  obtain ⟨r, hr⟩ : Raises (c.reportViolation (governorTriggerKind e) e.message).1 := by
    rw [reportViolation_raises_iff, severityOf_of_configured hconf]
    exact ⟨fires_governorKind c (governorTriggerKind_mem e), h⟩
  have hask : env.ask (.reportViolation (governorTriggerKind e) e.message) t =
      (.error (.ofFallback r), (env.ask (.reportViolation (governorTriggerKind e) e.message) t).2) := by
    refine Prod.ext ?_ rfl
    show Except.mapError _ (c.reportViolation (governorTriggerKind e) e.message).1 = _
    rw [hr]
    rfl
  have hrun := hend.returns
  rw [executeTask, wp_attempt, wp_of_error hbody, taskHandler, wp_bind, wp_of_error hask] at hrun
  exact hrun

/-- Each of the three kinds is that of some interlock. -/
theorem exists_governorTriggerKind {kind : String} (h : kind ∈ governorKinds) :
    ∃ e, governorTriggerKind e = kind := by
  simp only [governorKinds, List.mem_cons, List.not_mem_nil, or_false] at h
  rcases h with rfl | rfl | rfl
  · exact ⟨.budgetExhausted 2 1, by decide +kernel⟩
  · exact ⟨.deadlineExceeded, by decide +kernel⟩
  · exact ⟨.illegalTransition .idle .gating, by decide +kernel⟩

/-- Nothing can be recorded. -/
def mute : Env Unit WholeFloat :=
  { obliging ⟨false, false, false, false⟩ [] with
    reply := fun
      | .recordEvent _ _, _ => (.error (.other (lit "OSError")), ())
      | c, w => (obliging ⟨false, false, false, false⟩ []).reply c w }

/-- An engine that the fallback controller has paused. -/
def paused (k : Contract) : World Unit :=
  { k.fresh with fallbacks :=
    { FallbackController.new 1 0 {} k.severities with
      governor := (ExecutionGovernor.new 1 0).pause } }

theorem not_endsInRecord_of_error {env : Env Unit WholeFloat} {w : World Unit}
    {task : Obj WholeFloat} {e : Raised} {t : Run Unit WholeFloat}
    (h : executeTask env task ⟨w, []⟩ = (.error e, t)) : ¬ EndsInRecord env task w :=
  fun hend => (wp_of_error h).1 hend.returns

theorem not_endsInRecord_of_recording (k : Contract) : ¬ EndsInRecord mute [] k.paused := by
  obtain ⟨t, ht⟩ : ∃ t, executeTask mute [] ⟨k.paused, []⟩ = (.error (.other (lit "OSError")), t) :=
    ⟨_, rfl⟩
  exact not_endsInRecord_of_error ht

/-- The models propose to speak, and the handler returns an empty dictionary. -/
def bare : Env Unit WholeFloat :=
  { obliging ⟨false, false, false, false⟩ spoken with
    reply := fun
      | .handler _ _, _ => (.ok (some (.dict [])), ())
      | c, w => (obliging ⟨false, false, false, false⟩ spoken).reply c w }

/-- The engine in the middle of the task. -/
def begun (k : Contract) (state : AgentState) (trail : List Str) : World Unit :=
  { k.fresh with
    taskTrail := trail
    fallbacks := { FallbackController.new 1 0 {} k.severities with
      governor := { ExecutionGovernor.new 1 0 with
        state := state
        taskStartedAt := some 0
        stepsUsed := 0
        lastProgressAt := some 0
        currentTask := some "unknown" } } }

-- One call at a time: the states between them are known, and nothing is unfolded twice.
theorem taskBody_fresh (k : Contract)
    (reply : (call : Call WholeFloat) → World Unit → Except Raised (Answer call) × Unit)
    (d : Obj WholeFloat) :
    let env := { obliging ⟨false, false, false, false⟩ d with reply := reply }
    ∃ events, taskBody env [] ⟨k.fresh, []⟩ =
      ensure (runGatedTask env []) (env.ask .endTask) ⟨k.begun .observing [], events⟩ := by
  intro env
  obtain ⟨e₁, h₁⟩ : ∃ e₁, env.ask .evaluate ⟨k.fresh, []⟩ = (.ok (), ⟨k.fresh, e₁⟩) := ⟨_, rfl⟩
  obtain ⟨e₂, h₂⟩ : ∃ e₂, begin? env [] ⟨k.fresh, e₁⟩ = (.ok none, ⟨k.begun .observing [], e₂⟩) :=
    ⟨_, rfl⟩
  obtain ⟨e₃, h₃⟩ : ∃ e₃, env.ask .resetTrail ⟨k.begun .observing [], e₂⟩ =
      (.ok (), ⟨k.begun .observing [], e₃⟩) := ⟨_, rfl⟩
  refine ⟨e₃, ?_⟩
  rw [taskBody, bind_of_ok h₁, bind_of_ok h₂]
  dsimp only
  rw [bind_of_ok h₃]

section

variable (k : Contract) (trail : List Str) (events : List (Event Unit WholeFloat))

theorem runAction_bare :
    ∃ d t, runAction bare [] spoken ⟨k.begun .deciding trail, events⟩ = (.ok d, t) ∧
      getKey (lit "status") d = none := by
  have hd := isDecision_spoken
  have hhash : ∀ seq, ∃ h, canonicalHash bare.hashes (.dict (traced seq spoken)) = some h :=
    fun seq => ⟨_, (hd.traced seq).canonicalHash _⟩
  obtain ⟨payload, h⟩ :=
    executeGated_of_hash (fun seq => clean_of_unsigned (hd.traced seq).unsigned) hhash
  rw [runAction, h]
  exact ⟨_, _, rfl, rfl⟩

theorem runDecision_bare :
    ∃ d t, runDecision bare [] spoken ⟨k.begun .deciding trail, events⟩ = (.ok d, t) ∧
      getKey (lit "status") d = none := by
  have hplain : runDecision bare [] spoken = (gateDecision bare spoken .none >>= fun gated =>
      if !gated.1 then refuseDecision bare spoken gated.2 else runAction bare [] spoken) := rfl
  obtain ⟨e₁, hgate⟩ : ∃ e₁, gateDecision bare spoken .none ⟨k.begun .deciding trail, events⟩ =
      (.ok (true, none), ⟨k.begun .deciding trail, e₁⟩) := ⟨_, rfl⟩
  obtain ⟨d, t, hd, hs⟩ := runAction_bare k trail e₁
  refine ⟨d, t, ?_, hs⟩
  rw [hplain, bind_of_ok hgate]
  exact hd

theorem runGatedTask_bare :
    ∃ d t, runGatedTask bare [] ⟨k.begun .observing [], events⟩ = (.ok d, t) ∧
      getKey (lit "status") d = none := by
  let gate := [lit "GATE"]
  let decide := [lit "GATE", lit "DECIDE"]
  obtain ⟨e₁, h₁⟩ : ∃ e₁, bare.ask (.appendTrail (lit "GATE")) ⟨k.begun .observing [], events⟩ =
      (.ok (), ⟨k.begun .observing gate, e₁⟩) := ⟨_, rfl⟩
  obtain ⟨e₂, h₂⟩ : ∃ e₂, bare.ask (.step .gating) ⟨k.begun .observing gate, e₁⟩ =
      (.ok (), ⟨k.begun .gating gate, e₂⟩) := ⟨_, rfl⟩
  obtain ⟨e₃, h₃⟩ : ∃ e₃, evaluatePolicy bare [] ⟨k.begun .gating gate, e₂⟩ =
      (.ok (true, none), ⟨k.begun .gating gate, e₃⟩) := ⟨_, rfl⟩
  obtain ⟨e₄, h₄⟩ : ∃ e₄, bare.ask (.appendTrail (lit "DECIDE")) ⟨k.begun .gating gate, e₃⟩ =
      (.ok (), ⟨k.begun .gating decide, e₄⟩) := ⟨_, rfl⟩
  obtain ⟨e₅, h₅⟩ : ∃ e₅, bare.ask (.step .deciding) ⟨k.begun .gating decide, e₄⟩ =
      (.ok (), ⟨k.begun .deciding decide, e₅⟩) := ⟨_, rfl⟩
  obtain ⟨e₆, h₆⟩ : ∃ e₆, bare.ask (.makeDecision []) ⟨k.begun .deciding decide, e₅⟩ =
      (.ok spoken, ⟨k.begun .deciding decide, e₆⟩) := ⟨_, rfl⟩
  obtain ⟨d, t, hd, hs⟩ := runDecision_bare k decide e₆
  refine ⟨d, t, ?_, hs⟩
  rw [runGatedTask, bind_of_ok h₁, bind_of_ok h₂, bind_of_ok h₃]
  dsimp only
  rw [if_neg (by decide), bind_of_ok h₄, bind_of_ok h₅, bind_of_ok h₆]
  exact hd

end

theorem not_endsInRecord_of_result {env : Env Unit WholeFloat} {w : World Unit}
    {task d : Obj WholeFloat} {t : Run Unit WholeFloat}
    (hbody : taskBody env task ⟨w, []⟩ = (.ok d, t)) (hd : getKey (lit "status") d = none) :
    ¬ EndsInRecord env task w := by
  intro hend
  have hrun := hend.returns
  rw [executeTask, wp_attempt] at hrun
  unfold wp at hrun
  rw [hbody] at hrun
  have hstatus : HasStatus d := hrun.1.1
  rw [HasStatus, hd] at hstatus
  cases hstatus

theorem not_endsInRecord_of_statusless (k : Contract) : ¬ EndsInRecord bare [] k.fresh := by
  obtain ⟨events, hbody⟩ : ∃ events, taskBody bare [] ⟨k.fresh, []⟩ =
      ensure (runGatedTask bare []) (bare.ask .endTask) ⟨k.begun .observing [], events⟩ :=
    taskBody_fresh k bare.reply spoken
  obtain ⟨d, t, hd, hs⟩ := runGatedTask_bare k events
  have hresult : taskBody bare [] ⟨k.fresh, []⟩ = (.ok d, (bare.ask .endTask t).2) := by
    rw [hbody, ensure, hd]
    rfl
  exact not_endsInRecord_of_result hresult hs

theorem admits_bare {k : Contract} (h : k.statusless = true) : k.Admits bare k.fresh where
  configured := rfl
  rested := ⟨fun h => h rfl, .inl rfl⟩
  settled := fun _ => ⟨rfl, id⟩
  recording := fun _ _ => ⟨fun _ _ => rfl, rfl⟩
  status := fun hk => absurd (h.symm.trans hk) (by decide)

theorem admits_mute {k : Contract} (h : k.recordingFails = true) : k.Admits mute k.paused where
  configured := rfl
  rested := ⟨fun h => h rfl, .inr ⟨.paused, rfl, rfl⟩⟩
  settled := fun _ => ⟨rfl, id⟩
  recording := fun hk => absurd (h.symm.trans hk) (by decide)
  status := by
    refine fun _ w d result => ⟨?_, ?_⟩
    · rintro t ⟨⟩
      decide
    · rintro name ⟨⟩
      decide

theorem taskBody_unruly (k : Contract) (e : Raised) :
    ∃ t, taskBody (unruly e) [] ⟨k.fresh, []⟩ = (.error e, t) ∧
      t.world.fallbacks.severities = k.severities := by
  obtain ⟨events, hbody⟩ : ∃ events, taskBody (unruly e) [] ⟨k.fresh, []⟩ =
      ensure (runGatedTask (unruly e) []) ((unruly e).ask .endTask) ⟨k.begun .observing [], events⟩ :=
    taskBody_fresh k (unruly e).reply []
  obtain ⟨t, ht, hconf⟩ : ∃ t, runGatedTask (unruly e) [] ⟨k.begun .observing [], events⟩ =
      (.error e, t) ∧ ((unruly e).ask .endTask t).2.world.fallbacks.severities = k.severities :=
    ⟨_, rfl, rfl⟩
  refine ⟨((unruly e).ask .endTask t).2, ?_, hconf⟩
  rw [hbody, ensure, ht]
  rfl

/-- For every contract: every task, whatever the collaborators that it admits return and
raise, ends in a record exactly if none of the three severities of the governor's
interlocks is a halt, recording cannot fail, and every executor reports a status. -/
theorem every_cycle_recorded_iff (k : Contract) :
    (∀ (σ φ : Type) [Builtins φ] (env : Env σ φ) (w : World σ) (task : Obj φ),
      k.Admits env w → EndsInRecord env task w) ↔ k.Sound := by
  constructor
  · intro h
    refine ⟨fun kind hkind hhalt => ?_, ?_, ?_⟩
    · obtain ⟨e, rfl⟩ := exists_governorTriggerKind hkind
      obtain ⟨t, hbody, hconf⟩ := taskBody_unruly k (.governor e)
      exact not_endsInRecord_of_halt hbody hconf hhalt
        (h Unit WholeFloat (unruly (.governor e)) k.fresh [] (admits_unruly k _))
    · refine Bool.eq_false_iff.2 fun hfails => ?_
      exact not_endsInRecord_of_recording k
        (h Unit WholeFloat mute k.paused [] (admits_mute hfails))
    · refine Bool.eq_false_iff.2 fun hstatusless => ?_
      exact not_endsInRecord_of_statusless k
        (h Unit WholeFloat bare k.fresh [] (admits_bare hstatusless))
  · intro hk σ φ _ env w task h
    exact endsInRecord_of_sound h hk task

/-- An engine that is configured to halt when a task takes longer than 120 seconds. -/
def hurried : World Unit :=
  { consenting ⟨false, false, false, false⟩ 1 with
    fallbacks := .new 1 120 {} [("task_deadline_exceeded", "halt")] }

/-- Every call takes 100 seconds. -/
def slow : Env Unit WholeFloat :=
  { obliging ⟨false, false, false, false⟩ [] with
    interfere := fun w => { w with monotonic := w.monotonic + 100 } }

/-- What a program raises. -/
def raised? {α : Type} : Except Raised α → Option Raised
  | .error e => some e
  | .ok _ => none

/-- The deadline passes, and the clause that should record it raises `FallbackHalt`. -/
theorem deadline_halt_escapes :
    hurried.governor.AtRest ∧
    (∃ t, taskBody slow [] ⟨hurried, []⟩ = (.error (.governor .deadlineExceeded), t)) ∧
    ¬ EndsInRecord slow [] hurried := by
  have hraised : raised? (taskBody slow [] ⟨hurried, []⟩).1 =
      some (.governor .deadlineExceeded) := by decide +kernel
  have hconf : (slow.interfere (taskBody slow [] ⟨hurried, []⟩).2.world).fallbacks.severities =
      [("task_deadline_exceeded", "halt")] := by decide +kernel
  rcases hbody : taskBody slow [] ⟨hurried, []⟩ with ⟨e | d, t⟩
  · rw [hbody] at hraised hconf
    obtain rfl := Option.some.inj hraised
    refine ⟨⟨fun h => h rfl, .inl rfl⟩, ⟨t, rfl⟩, ?_⟩
    exact not_endsInRecord_of_halt (k := ⟨[("task_deadline_exceeded", "halt")], false, false⟩)
      hbody hconf (by decide +kernel)
  · rw [hbody] at hraised
    cases hraised

end Contract

end Engine

end ShugoCore
