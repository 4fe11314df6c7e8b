import ShugoCore.Engine.Attention

/-!
# A consent-gated action while nobody attends

The decisions of `attentionSafe` are the only ones that attention covers.  For every
other one there is a task without attention that dispatches a consent-gated action:
the operator has consented to every action type and approves what he is asked, and
the governor has a budget for all steps.

`Ready` is what such a task keeps: up to the first step that passes its gate, every
call returns.
-/

namespace ShugoCore

namespace Engine

open Py Prog

variable {φ : Type} [Builtins φ]

/-! ## A world that lets everything pass -/

/-- What the executors of the obliging environment return. -/
def done : Obj φ := obj [("status", text "success")]

/-- The models propose one decision, the operator approves it, and every call on an
object that is not modelled returns. -/
def obliging (f : Features) (decision : Obj φ) : Env Unit φ where
  features := f
  hashes := hashlib
  redact := id
  lower := id
  secretInText := fun _ => false
  interfere := id
  reply := fun
    | .requestApproval _, _ => (.ok ⟨true, []⟩, ())
    | .makeDecision _, _ => (.ok decision, ())
    | .tool _ _, _ => (.ok (.dict done), ())
    | .handler _ _, _ => (.ok (some (.dict done)), ())
    | .canExplain _, _ | .canAudit _, _ | .hasGrant _, _ => (.ok true, ())
    | .callErrors, _ => (.ok [], ())
    | .mode, _ => (.ok .idle, ())
    | .checkPolicy _, _ => (.ok (true, none), ())
    | .nextExecution, _ => (.ok 0, ())
    | .trail, _ => (.ok [], ())
    | .evaluate, _ | .reportViolation _ _, _ | .beginTask _, _ | .step _, _ | .consumeStep _, _
    | .endTask, _ | .resetTrail, _ | .appendTrail _, _ | .recordEvent _ _, _ | .resolveStep, _
    | .audit _ _, _ | .updateModelPerformance _ _ _, _ | .logDecision _ _ _, _
    | .dispatch _, _ => (.ok (), ())

/-- A grant without an expiry. -/
def standingGrant (actionType : Str) : Grant :=
  ⟨actionType, lit "operator", lit "any", [], 0, none⟩

/-- A fresh engine with a budget, whose operator has consented to everything. -/
def consenting (f : Features) (budget : Nat) : World Unit where
  fallbacks := .new budget 0 {} []
  consents := ⟨(consentGatedActionTypes f).map fun a => (a, [standingGrant a])⟩
  checkerWired := true
  decisionSeq := 0
  taskTrail := []
  clock := 0
  monotonic := 0
  breakers := 0
  backlog := none
  rest := ()

/-- A task while nobody is there. -/
def unattendedTask : Obj φ :=
  obj [("type", text "observe"), ("context", .dict (obj [("attention_state", text "absent")]))]

theorem hasGrant_consenting {f : Features} {a : Str} (h : a ∈ consentGatedActionTypes f)
    (budget : Nat) (now : Seconds) : (consenting f budget).consents.hasGrant now a = true := by
  have hget : ∀ types : List Str, a ∈ types →
      Dict.get? (types.map fun a => (a, [standingGrant a])) a = some [standingGrant a] := by
    intro types hmem
    induction types with
    | nil => cases hmem
    | cons b types ih =>
        by_cases hb : b = a
        · simp [Dict.get?, hb]
        · rw [List.map_cons, Dict.get?, if_neg hb]
          exact ih (List.mem_of_ne_of_mem (Ne.symm hb) hmem)
  rw [ConsentRegistry.hasGrant_iff, ConsentRegistry.entries, consenting, hget _ h]
  exact ⟨standingGrant a, List.mem_singleton.2 rfl, by simp [standingGrant, Grant.Unexpired]⟩

/-- What the gate and the governor have to find: every consent-gated type is granted,
nothing is latched, and there is a budget for the steps. -/
structure Prepared (f : Features) (steps : Nat) (state : AgentState) (g : ExecutionGovernor)
    (granted : Str → Bool) (wired : Bool) : Prop where
  consents : ∀ a ∈ consentGatedActionTypes f, granted a = true
  wired : wired = true
  unlatched : g.latched = none
  state : g.state = state
  noDeadline : g.taskDeadlineSeconds = 0
  budget : g.stepsUsed + steps ≤ g.stepBudget

/-- A point of the task at which all this holds. -/
def Ready (f : Features) (steps : Nat) (state : AgentState) (s : Run Unit φ) : Prop :=
  Prepared f steps state s.world.governor (s.world.consents.hasGrant s.world.clock)
    s.world.checkerWired

variable {f : Features} {decision : Obj φ} {n : Nat} {a : AgentState}

/-! ## Calls -/

/-- A call returns what the environment answers. -/
theorem completes_ask {c : Call φ} {I : Run Unit φ → Prop} {J : Answer c → Run Unit φ → Prop}
    (h : ∀ s, I s → ∃ r w, (obliging f decision).answer s.world c = (.ok r, w) ∧
      ∀ events, J r ⟨w, events⟩) : Completes I ((obliging f decision).ask c) J := by
  intro s hs
  obtain ⟨r, w, hr, hj⟩ := h s hs
  show Ends J _ (((obliging f decision).answer s.world c).1,
    ⟨((obliging f decision).answer s.world c).2, _⟩)
  rw [hr]
  exact hj _

theorem not_deadlinePassed {g : ExecutionGovernor} (h : g.taskDeadlineSeconds = 0)
    (now : Seconds) : g.deadlinePassed now = false := by
  simp only [ExecutionGovernor.deadlinePassed]
  split
  · rfl
  · simp [h]

omit [Builtins φ] in
/-- A governor call that returns leaves the rest of the world alone. -/
theorem ready_onGovernor {b : AgentState} {s : Run Unit φ} {g : ExecutionGovernor}
    (h : Prepared f n b g (s.world.consents.hasGrant s.world.clock) s.world.checkerWired) :
    ∃ r w, s.world.onGovernor (.ok (), g) = (.ok r, w) ∧
      ∀ events : List (Event Unit φ), Ready f n b ⟨w, events⟩ := ⟨(), _, rfl, fun _ => h⟩

theorem completes_step {b : AgentState} (hb : b ∈ a.allowed) :
    Completes (Ready f n a) ((obliging f decision).ask (.step b)) fun _ => Ready f n b := by
  refine completes_ask fun s hs => ?_
  have hstep : s.world.governor.step s.world.monotonic b =
      (.ok (), { s.world.governor with state := b, lastProgressAt := some s.world.monotonic }) := by
    rw [ExecutionGovernor.step, not_deadlinePassed hs.noDeadline, hs.state]
    simp [hb]
  rw [Env.answer, hstep]
  exact ready_onGovernor ⟨hs.consents, hs.wired, hs.unlatched, rfl, hs.noDeadline, hs.budget⟩

theorem completes_consumeStep :
    Completes (Ready f (n + 1) a) ((obliging f decision).ask (.consumeStep 1))
      fun _ => Ready f n a := by
  refine completes_ask fun s hs => ?_
  have hbudget := hs.budget
  have hconsume : ∃ used, used + n ≤ s.world.governor.stepBudget ∧
      s.world.governor.consumeStep s.world.monotonic 1 =
        (.ok (), { s.world.governor with stepsUsed := used }) := by
    rw [ExecutionGovernor.consumeStep, not_deadlinePassed hs.noDeadline]
    cases hstarted : s.world.governor.taskStartedAt with
    | none => exact ⟨s.world.governor.stepsUsed, by omega, rfl⟩
    | some started =>
        refine ⟨s.world.governor.stepsUsed + 1, by omega, ?_⟩
        have hle : ¬ s.world.governor.stepsUsed + 1 > s.world.governor.stepBudget := by omega
        simp [hle, hstarted]
  obtain ⟨used, hused, hconsume⟩ := hconsume
  rw [Env.answer, hconsume]
  exact ready_onGovernor ⟨hs.consents, hs.wired, hs.unlatched, hs.state, hs.noDeadline, hused⟩

omit [Builtins φ] in
theorem Ready.spend {s : Run Unit φ} (h : Ready f (n + 1) a s) : Ready f n a s :=
  ⟨h.consents, h.wired, h.unlatched, h.state, h.noDeadline, by have := h.budget; omega⟩

theorem completes_recordBlock (kind : String) (o : Obj φ) (reason : Str) :
    Completes (Ready f n a) (recordBlock (obliging f decision) kind o reason)
      fun _ => Ready f n a :=
  .bind (K := fun _ => Ready f n a) (fun _ h => h) fun _ =>
    .bind (K := fun _ => Ready f n a) (fun _ h => h) fun _ _ h => h

/-! ## The gate of a step -/

theorem mem_consentGated {b : Str} (h : b ∈ sideEffectingActionTypes) :
    b ∈ consentGatedActionTypes f := by
  simp only [consentGatedActionTypes, List.append_assoc]
  exact List.mem_append_left _ h

theorem harmful_not_gated : lit "harmful" ∉ consentGatedActionTypes f := by
  obtain ⟨robotics, mobile, shugonet, fleet⟩ := f
  cases robotics <;> cases mobile <;> cases shugonet <;> cases fleet <;> decide

omit [Builtins φ] in
theorem valueIn_of_hashable {d : Obj φ} (h : isUnhashable (fetch (lit "action_type") d) = false) :
    valueIn (consentGatedActionTypes f) (fetch (lit "action_type") d) = .ok (isGated f d) := by
  simp only [isGated]
  cases hv : fetch (lit "action_type") d with
  | list _ | dict _ =>
      rw [hv] at h
      cases h
  | none | bool _ | int _ | float _ | str _ => rfl

/-- Tier 3 answers for every step that does not abort, and lets those pass that pass. -/
theorem check_ready {granted : Str → Bool}
    (hg : ∀ b ∈ consentGatedActionTypes f, granted b = true) {step : Obj φ}
    (h : stepAborts (.dict step) = false) (index : Nat) :
    ∃ allowed reason, CoreIdentity.check (some granted) (subDecision decision index step) =
      .ok (allowed, reason) ∧ (stepPasses f (.dict step) = true → allowed = true) ∧
      (allowed = true → isUnhashable (fetch (lit "action_type") step) = false) := by
  rw [check_subDecision]
  cases hm : isManipulative step with
  | true =>
      have hno : stepPasses f (.dict step) = false := by simp [stepPasses, hm]
      rw [hno]
      split
      · exact ⟨false, _, rfl, fun h => (by cases h), fun h => by cases h⟩
      · exact ⟨false, _, rfl, fun h => (by cases h), fun h => by cases h⟩
  | false =>
      cases hv : fetch (lit "action_type") step with
      | list _ | dict _ => simp [stepAborts, hv, hm, isUnhashable] at h
      | none | bool _ | int _ | float _ => exact ⟨true, none, rfl, fun _ => rfl, fun _ => rfl⟩
      | str b =>
          by_cases hb : b = lit "harmful"
          · have hno : stepPasses f (.dict step) = false := by
              simp [stepPasses, isGated, hv, hb, harmful_not_gated]
            rw [hno, hb]
            exact ⟨false, _, rfl, fun h => (by cases h), fun h => by cases h⟩
          · refine ⟨true, none, ?_, fun _ => rfl, fun _ => rfl⟩
            by_cases hs : b ∈ sideEffectingActionTypes
            · simp [isText, valueIn, strOf, hb, hs, hg b (mem_consentGated hs), bind, Except.bind]
              rfl
            · simp [isText, valueIn, hb, hs, bind, Except.bind]
              rfl

/-- The operator approves. -/
theorem completes_approvalCheck (d : Obj φ) :
    Completes (Ready f n a) (approvalCheck (obliging f decision) d)
      fun r s => Ready f n a s ∧ r.1 = true :=
  .bind (K := fun verdict s => Ready f n a s ∧ verdict = ⟨true, []⟩) (fun _ h => ⟨h, rfl⟩) (by
    rintro verdict s ⟨hs, rfl⟩
    exact ⟨hs, rfl⟩)

/-- The consent gate lets pass what is consented to. -/
theorem completes_consentGate {d : Obj φ} (hg : isGated f d = true) (ha : a ≠ .safeState) :
    Completes (Ready f n a) (consentGate (obliging f decision) d .none)
      fun r s => Ready f n a s ∧ r.1 = true := by
  obtain ⟨b, hb, hmem⟩ : ∃ b, fetch (lit "action_type") d = .str b ∧
      b ∈ consentGatedActionTypes f := by
    unfold isGated at hg
    cases hv : fetch (lit "action_type") d <;> simp_all
  have hmode : Completes (Ready f n a) ((obliging f decision).ask .mode)
      fun mode s => Ready f n a s ∧ mode = a := by
    refine completes_ask fun s hs => ⟨_, _, rfl, fun _ => ⟨hs, ?_⟩⟩
    rw [ExecutionGovernor.mode, hs.unlatched]
    exact hs.state
  have hgrant : Completes (Ready f n a) ((obliging f decision).ask (.hasGrant b))
      fun granted s => Ready f n a s ∧ granted = true :=
    completes_ask fun s hs => ⟨_, _, rfl, fun _ => ⟨hs, hs.consents b hmem⟩⟩
  refine .bind hmode fun mode => .ite (fun h s hs => absurd (hs.2.symm.trans h) ha) fun _ => ?_
  have hcheck : Completes (Ready f n a) (consentCheck (obliging f decision)
      (fetch (lit "action_type") d) .none) fun r s => Ready f n a s ∧ r.1 = true := by
    rw [hb]
    refine .bind hgrant fun granted s hs => ?_
    obtain ⟨hs, rfl⟩ := hs
    exact ⟨hs, rfl⟩
  refine .mono (.bind hcheck fun r => ?_) (fun _ h => h.1) (fun _ _ h => h)
  obtain ⟨ok, reason⟩ := r
  refine .ite (fun h s hs => ?_) fun _ =>
    (completes_approvalCheck d).mono (fun _ h => h.1) fun _ _ h => h
  obtain ⟨-, rfl⟩ : Ready f n a s ∧ ok = true := hs
  cases h

theorem completes_gateDecision {step : Obj φ} (h : stepAborts (.dict step) = false)
    (ha : a ≠ .safeState) (index : Nat) :
    Completes (Ready f n a)
      (gateDecision (obliging f decision) (subDecision decision index step) .none)
      fun r s => Ready f n a s ∧ (stepPasses f (.dict step) = true → r.1 = true) := by
  refine .bind (K := fun r s => Ready f n a s ∧ (stepPasses f (.dict step) = true → r.1 = true) ∧
    (r.1 = true → isUnhashable (fetch (lit "action_type") step) = false)) (completes_ask ?_) ?_
  · intro s hs
    obtain ⟨allowed, reason, hc, hp⟩ := check_ready hs.consents h index
    refine ⟨(allowed, reason), s.world, ?_, fun _ => ⟨hs, hp⟩⟩
    rw [Env.answer, World.checker, if_pos hs.wired, hc]
    rfl
  · rintro ⟨allowed, reason⟩ s ⟨hs, hpass, hhash⟩
    cases allowed with
    | false => exact ⟨hs, hpass⟩
    | true =>
        have hin := valueIn_of_hashable (f := f) (hhash rfl)
        show wp (builtin (valueIn (consentGatedActionTypes f)
          (fetch (lit "action_type") (subDecision decision index step))) >>= _) _ _ s
        rw [actionType_subDecision, hin]
        cases hg : isGated f step with
        | false => exact ⟨hs, fun _ => rfl⟩
        | true =>
            refine wp_mono (completes_consentGate ?_ ha s hs) (fun _ _ h => ⟨h.1, fun _ => h.2⟩)
              (fun _ _ h => h)
            rw [isGated_subDecision, hg]

/-! ## The execution of a step -/

/-- The decision of a step, with its lineage. -/
theorem traced_subDecision (seq index : Nat) (step : Obj φ) :
    traced seq (subDecision decision index step) =
      obj [("action_type", fetch (lit "action_type") step),
        ("params", orElse (fetch (lit "params") step) (.dict [])),
        ("confidence", (getKey (lit "confidence") decision).getD zero),
        ("model_outputs", (getKey (lit "model_outputs") decision).getD (.dict [])),
        ("step_index", .int index),
        ("_trace", .dict (obj [("execution_id", .str (lit ("exe-" ++ toString seq)))]))] := by
  have hid : fetch (lit "decision_id") (subDecision decision index step) = .none := by
    simp [fetch, subDecision]
  rw [traced, traceOf, hid]
  simp [subDecision, obj, setKey]

theorem clean_traced_subDecision (seq index : Nat) (step : Obj φ) :
    clean (traced seq (subDecision decision index step)) =
      traced seq (subDecision decision index step) := by
  rw [traced_subDecision]
  simp [clean, obj, keyNotIn]

theorem writable_traced {step : Obj φ} (hd : Writable (.dict decision))
    (hs : Writable (.dict step)) (seq index : Nat) :
    Writable (.dict (traced seq (subDecision decision index step))) := by
  have hempty : Writable (.dict [] : PyVal φ) := ⟨_, rfl⟩
  rw [traced_subDecision]
  refine writable_obj ?_
  simp only [List.forall_mem_cons]
  refine ⟨hs.fetch _, (hs.fetch _).orElse hempty, hd.getD ⟨_, rfl⟩ _, hd.getD hempty _, ⟨_, rfl⟩,
    writable_obj ?_, fun i hi => absurd hi List.not_mem_nil⟩
  exact List.forall_mem_cons.2 ⟨⟨_, rfl⟩, fun i hi => absurd hi List.not_mem_nil⟩

/-- The policy token of a digest. -/
def allowToken (h : Str) : Obj φ := obj [("verdict", text "allow"), ("decision_hash", .str h)]

/-- The execution layer accepts the token of the engine. -/
theorem executeVerdict_token {σ : Type} {env : Env σ φ} {d : Obj φ} {h : Str}
    (hc : clean d = d) (hh : canonicalHash env.hashes (.dict d) = some h) :
    executeVerdict env (setKey (lit "_policy") (.dict (allowToken h)) d) = dispatch env d := by
  have hpolicy : fetch (lit "_policy") (setKey (lit "_policy") (.dict (allowToken h)) d) =
      .dict (allowToken h) := by
    rw [fetch, getKey_setKey_self, Option.getD_some]
  have hverdict : isText (lit "allow") (fetch (lit "verdict") (allowToken h : Obj φ)) = true := by
    simp [fetch, allowToken, text, isText]
  have hhash : isText h (fetch (lit "decision_hash") (allowToken h : Obj φ)) = true := by
    simp [fetch, allowToken, isText]
  rw [executeVerdict, hpolicy, clean_setKey_policy, hc, digest, hh]
  dsimp only
  rw [hverdict]
  show (if !isText h (fetch (lit "decision_hash") (allowToken h)) then _ else _) = _
  rw [hhash]
  rfl

/-- Every executor returns a dictionary. -/
theorem completes_dispatch (d : Obj φ) :
    Completes (Ready f n a) (dispatch (obliging f decision) d)
      fun r s => Ready f n a s ∧ ∃ result, r = .dict result := by
  have hhandler : ∀ name missing : String,
      Completes (Ready f n a) (runHandler (obliging f decision) name missing d)
        fun r s => Ready f n a s ∧ ∃ result, r = .dict result :=
    fun _ _ _ h => ⟨h, _, rfl⟩
  have hbody : Completes (Ready f n a) (dispatchBody (obliging f decision) d)
      fun r s => Ready f n a s ∧ ∃ result, r = .dict result := by
    refine .ite (fun _ _ h => ⟨h, _, rfl⟩) fun _ => .ite (fun _ _ h => ⟨h, _, rfl⟩) fun _ => ?_
    refine .ite (fun _ _ h => ⟨h, _, rfl⟩) fun _ => .ite (fun _ _ h => ⟨h, _, rfl⟩) fun _ => ?_
    refine .ite (fun _ _ h => ⟨h, _, rfl⟩) fun _ => .ite (fun _ _ h => ⟨h, _, rfl⟩) fun _ => ?_
    refine .ite (fun _ => hhandler _ _) fun _ => .ite (fun _ => hhandler _ _) fun _ => ?_
    refine .ite (fun _ => hhandler _ _) fun _ => .ite (fun _ _ h => ⟨h, _, rfl⟩) fun _ => ?_
    exact fun _ h => ⟨h, _, rfl⟩
  exact .bind (K := fun _ => Ready f n a) (fun _ h => h) fun _ => hbody.attempt

theorem digest_traced {step : Obj φ} (hd : Writable (.dict decision))
    (hs : Writable (.dict step)) (hashes : Hashlib) (seq index : Nat) :
    ∃ h, canonicalHash hashes (.dict (traced seq (subDecision decision index step))) = some h := by
  obtain ⟨j, hj⟩ := writable_traced hd hs seq index
  exact ⟨_, by rw [canonicalHash, canonicalJson, dumps, hj]; rfl⟩

/-- A decision without a token, if it has a digest, is dispatched with its lineage. -/
theorem executeGated_of_hash {σ : Type} {env : Env σ φ} {d : Obj φ}
    (hc : ∀ seq, clean (traced seq d) = traced seq d)
    (hh : ∀ seq, ∃ h, canonicalHash env.hashes (.dict (traced seq d)) = some h) :
    ∃ payload : Nat → Obj φ,
      executeGated env d = (do
        let seq ← env.ask .nextExecution
        let result ← (do
          let r ← dispatch env (traced seq d)
          reportExecution env (payload seq) r)
        pure (withDecisionMeta result d)) := by
  choose h hh using hh
  refine ⟨fun seq => setKey (lit "_policy") (.dict (allowToken (h seq))) (traced seq d), ?_⟩
  simp only [executeGated]
  refine congrArg _ (funext fun seq => ?_)
  rw [← executeVerdict_token (hc seq) (hh seq), digest, hh seq]
  rfl

/-- The engine dispatches the decision of a step, with its lineage. -/
theorem executeGated_subDecision {step : Obj φ} (hd : Writable (.dict decision))
    (hs : Writable (.dict step)) (index : Nat) :
    ∃ payload : Nat → Obj φ,
      executeGated (obliging f decision) (subDecision decision index step) = (do
        let seq ← (obliging f decision).ask .nextExecution
        let result ← (do
          let r ← dispatch (obliging f decision) (traced seq (subDecision decision index step))
          reportExecution (obliging f decision) (payload seq) r)
        pure (withDecisionMeta result (subDecision decision index step))) :=
  executeGated_of_hash (fun seq => clean_traced_subDecision seq index step)
    fun seq => digest_traced hd hs _ seq index

/-- A step that is executed returns. -/
theorem completes_executeGated {step : Obj φ} (hd : Writable (.dict decision))
    (hs : Writable (.dict step)) (index : Nat) :
    Completes (Ready f n a) (executeGated (obliging f decision) (subDecision decision index step))
      fun _ => Ready f n a := by
  obtain ⟨payload, heq⟩ := executeGated_subDecision (f := f) hd hs index
  rw [heq]
  refine .bind (K := fun _ => Ready f n a) (fun _ h => h) fun seq =>
    .bind (K := fun _ => Ready f n a) (.bind (completes_dispatch _) fun r s h => ?_) fun _ _ h => h
  obtain ⟨hr, result, rfl⟩ := h
  exact hr

/-! ## A consent-gated dispatch is reached -/

/-- The task has dispatched a consent-gated action. -/
def GatedDispatch (f : Features) (s : Run Unit φ) : Prop :=
  ∃ e ∈ s.events, ∃ payload ∈ e.call.dispatched?, isGated f payload = true

omit [Builtins φ] in
/-- It stays in the history. -/
theorem dispatchedRule (f : Features) :
    DispatchRule (Stays (GatedDispatch (φ := φ) f)) fun _ _ => True where
  quiet := by
    rintro s t ⟨more, he, -⟩ ⟨e, hmem, h⟩
    exact ⟨e, by rw [he]; exact List.mem_append_left _ hmem, h⟩
  stable := fun _ _ _ _ h => h
  dispatch := by
    rintro d seq s t w r - he ⟨e, hmem, h⟩
    exact ⟨e, by rw [he]; exact List.mem_append_left _ hmem, h⟩

theorem reaches_dispatch {d : Obj φ} (h : isGated f d = true) (s : Run Unit φ) :
    Reaches (GatedDispatch f) (dispatch (obliging f decision) d) s := by
  have hrest : Quiet (attempt (dispatchBody (obliging f decision) d)
      fun e => pure (.dict (report "error" "message" e.name))) :=
    .attempt (moves_dispatchBody quiet_ask _) fun _ => .pure _
  have hask : Reaches (GatedDispatch f) ((obliging f decision).ask (.dispatch d)) s :=
    ⟨_, List.mem_append_right _ (List.mem_singleton.2 rfl), d, rfl, h⟩
  exact hask.bind fun _ => (dispatchedRule f).moves hrest

/-- The execution of a consent-gated step dispatches it. -/
theorem reaches_executeGated {step : Obj φ} (hd : Writable (.dict decision))
    (hs : Writable (.dict step)) (hg : isGated f step = true) (index : Nat) (s : Run Unit φ) :
    Reaches (GatedDispatch f)
      (executeGated (obliging f decision) (subDecision decision index step)) s := by
  obtain ⟨payload, heq⟩ := executeGated_subDecision (f := f) hd hs index
  rw [heq]
  refine Completes.reaches (I := fun _ => True) (K := fun _ _ => True) (fun _ h => h) trivial ?_
  intro seq t _
  have hsub : isGated f (traced seq (subDecision decision index step)) = true := by
    rw [isGated_congr (actionType_traced seq _), isGated_subDecision, hg]
  refine ((reaches_dispatch hsub t).bind fun r => ?_).bind fun result => .pure _
  exact (dispatchedRule f).moves (moves_reportExecution quiet_ask _ r)

/-! ## The steps -/

theorem stepAborts_of_passes {step : PyVal φ} (h : stepPasses f step = true) :
    stepAborts step = false := by
  cases step with
  | none | bool _ | int _ | float _ | str _ | list _ => rfl
  | dict step =>
      cases hv : fetch (lit "action_type") step with
      | list _ | dict _ => simp [stepPasses, isGated, hv] at h
      | none | bool _ | int _ | float _ | str _ => simp [stepAborts, isUnhashable, hv]

/-- A step that does not abort returns, for one unit of the budget. -/
theorem completes_executeStep {step : PyVal φ} (hd : Writable (.dict decision))
    (hw : Writable step) (h : stepAborts step = false) (ha : a ≠ .safeState) (index : Nat) :
    Completes (Ready f (n + 1) a) (executeStep (obliging f decision) decision index step)
      fun _ => Ready f n a := by
  cases step with
  | none | bool _ | int _ | float _ | str _ | list _ => exact fun _ hs => hs.spend
  | dict step =>
      refine .bind (completes_gateDecision h ha index) fun r => .ite (fun _ => ?_) fun _ => ?_
      · refine .mono (.bind (completes_recordBlock _ _ _) fun _ => ?_) (fun _ hs => hs.1)
          fun _ _ hs => hs
        exact fun _ hs => hs.spend
      · refine .mono (.bind completes_consumeStep fun _ => ?_) (fun _ hs => hs.1) fun _ _ hs => hs
        exact completes_executeGated hd hw index

/-- A step that passes is dispatched. -/
theorem reaches_executeStep {step : PyVal φ} (hd : Writable (.dict decision))
    (hw : Writable step) (h : stepPasses f step = true) (ha : a ≠ .safeState) (index : Nat)
    {s : Run Unit φ} (hs : Ready f (n + 1) a s) :
    Reaches (GatedDispatch f) (executeStep (obliging f decision) decision index step) s := by
  have haborts := stepAborts_of_passes h
  cases step with
  | none | bool _ | int _ | float _ | str _ | list _ => cases h
  | dict step =>
      have hg : isGated f step = true := by
        rw [stepPasses, Bool.and_eq_true] at h
        exact h.1
      refine (completes_gateDecision haborts ha index).reaches hs ?_
      rintro ⟨allowed, reason⟩ t ⟨ht, hpass⟩
      obtain rfl : allowed = true := hpass h
      exact completes_consumeStep.reaches ht fun _ u _ => reaches_executeGated hd hw hg index u

/-- Whatever the gate says, a dispatch that is in the history stays there. -/
theorem dispatched_gate (d : Obj φ) (attention : PyVal φ) (s : Run Unit φ) :
    wp (gateDecision (obliging f decision) d attention) (fun r _ => r.1 = true → True)
      (fun _ _ => True) s :=
  wp_mono (wp_trivial _) (fun _ _ _ _ => trivial) (fun _ _ h => h)

/-- The loop gets to a step that passes, if no step before it aborts. -/
theorem reaches_executeSteps {steps : List (PyVal φ)} (hd : Writable (.dict decision))
    (hw : ∀ step ∈ steps, Writable step) (h : stepsSafe f steps = false) (ha : a ≠ .safeState)
    (index : Nat) {s : Run Unit φ} (hs : Ready f steps.length a s) :
    Reaches (GatedDispatch f) (executeSteps (obliging f decision) decision index steps) s := by
  induction steps generalizing index s with
  | nil => cases h
  | cons step steps ih =>
      obtain ⟨hstep, hsteps⟩ := List.forall_mem_cons.1 hw
      obtain ⟨haborts, hrest⟩ : stepAborts step = false ∧
          (stepPasses f step = true ∨ stepsSafe f steps = false) := by
        simpa [stepsSafe, Bool.or_eq_false_iff, or_iff_not_imp_left] using h
      cases hp : stepPasses f step with
      | true =>
          refine (reaches_executeStep hd hstep hp ha index hs).bind fun _ => ?_
          exact .bind ((dispatchedRule f).executeSteps dispatched_gate decision _ steps)
            fun _ => .pure _
      | false =>
          refine (completes_executeStep hd hstep haborts ha index).reaches hs fun _ t ht => ?_
          refine (ih hsteps ?_ (index + 1) ht).bind fun _ => .pure _
          exact hrest.resolve_left (by rw [hp]; decide)

/-! ## The task -/

/-- A multi-step decision that is not safe has steps that can be gone through. -/
theorem steps_of_unsafe (h : attentionSafe f decision = false) :
    isText (lit "multi_step_process") (fetch (lit "action_type") decision) = true ∧
      ∃ v steps, stepsOf decision = .ok v ∧ iterate v = .ok steps ∧ truthy v = true ∧
        stepsSafe f steps = false := by
  rw [attentionSafe, Bool.or_eq_false_iff, Bool.not_eq_false'] at h
  obtain ⟨hmulti, h⟩ := h
  refine ⟨hmulti, ?_⟩
  rw [stepList] at h
  cases hv : stepsOf decision with
  | error e => simp [hv, bind, Except.bind] at h
  | ok v =>
      cases hi : iterate v with
      | error e => simp [hv, hi, bind, Except.bind] at h
      | ok steps =>
          have hunsafe : stepsSafe f steps = false := by simpa [hv, hi, bind, Except.bind] using h
          refine ⟨v, steps, rfl, hi, ?_, hunsafe⟩
          cases v with
          | none | bool _ | int _ | float _ => cases hi
          | list xs | str xs | dict xs =>
              cases xs with
              | nil =>
                  cases hi
                  cases hunsafe
              | cons x xs => rfl

theorem writable_stepsOf {v : PyVal φ} (hd : Writable (.dict decision))
    (h : stepsOf decision = .ok v) : Writable v := by
  have hparams : Writable (orElse (fetch (lit "params") decision) (.dict [])) :=
    (hd.fetch _).orElse ⟨_, rfl⟩
  rw [stepsOf] at h
  cases hp : orElse (fetch (lit "params") decision) (.dict []) with
  | dict d =>
      rw [hp] at h hparams
      cases h
      exact (hparams.fetch _).orElse ⟨_, rfl⟩
  | none | bool _ | int _ | float _ | str _ | list _ =>
      rw [hp] at h
      cases h

/-- Enough budget for the steps of an unsafe decision leads to a dispatch. -/
theorem reaches_executeMultiStep (hd : Writable (.dict decision)) {v : PyVal φ}
    {steps : List (PyVal φ)} (hv : stepsOf decision = .ok v) (hi : iterate v = .ok steps)
    (ht : truthy v = true) (h : stepsSafe f steps = false) {s : Run Unit φ}
    (hs : Ready f steps.length .executing s) :
    Reaches (GatedDispatch f) (executeMultiStep (obliging f decision) decision) s := by
  have hloop : Reaches (GatedDispatch f)
      (executeSteps (obliging f decision) decision 0 steps) s :=
    reaches_executeSteps hd ((writable_stepsOf hd hv).iterate hi) h (by decide) 0 hs
  rw [executeMultiStep, hv]
  show Reaches _ (if !truthy v then _ else _) s
  rw [ht, hi]
  exact hloop.bind fun _ => .pure _

/-- The branch of a multi-step decision gets to its steps. -/
theorem reaches_runDecision (task : Obj φ) (hmulti : isText (lit "multi_step_process")
      (fetch (lit "action_type") decision) = true)
    (hsteps : ∀ s, Ready f n .executing s →
      Reaches (GatedDispatch f) (executeMultiStep (obliging f decision) decision) s)
    {s : Run Unit φ} (hs : Ready f n .deciding s) :
    Reaches (GatedDispatch f) (runDecision (obliging f decision) task decision) s := by
  have hrule : DispatchRule (Stays (GatedDispatch f)) fun (_ : Obj φ) _ => True := dispatchedRule f
  have htype : truthy (fetch (lit "action_type") decision) = true := by
    cases hf : fetch (lit "action_type") decision with
    | str b =>
        rw [hf] at hmulti
        rw [of_decide_eq_true hmulti]
        rfl
    | none | bool _ | int _ | float _ | list _ | dict _ =>
        rw [hf] at hmulti
        cases hmulti
  rw [runDecision, htype, hmulti]
  show Reaches _ ((obliging f decision).ask (.appendTrail (lit "EXECUTE")) >>= _) s
  refine Completes.reaches (I := Ready f n .deciding) (K := fun _ => Ready f n .deciding)
    (fun _ h => h) hs fun _ t ht => ?_
  refine (completes_step (by decide)).reaches ht fun _ u hu => ?_
  refine (hsteps u hu).bind fun result => ?_
  exact .bind (hrule.ask rfl) fun _ => .bind (hrule.ask rfl) fun _ => .bind (hrule.ask rfl) fun _ =>
    .bind (hrule.ask rfl) fun _ => .bind (hrule.moves (moves_stages quiet_ask)) fun _ => .pure _

omit [Builtins φ] in
theorem type_unattendedTask : fetch (lit "type") (unattendedTask : Obj φ) = text "observe" := by
  simp [fetch, unattendedTask]

omit [Builtins φ] in
/-- The task has no other key that the policy asks for. -/
theorem getKey_unattendedTask {k : String} (htype : "type" ≠ k) (hcontext : "context" ≠ k) :
    getKey (lit k) (unattendedTask : Obj φ) = none := by
  simp [unattendedTask, htype, hcontext]

theorem observe_not_gated : lit "observe" ∉ consentGatedActionTypes f := by
  obtain ⟨robotics, mobile, shugonet, fleet⟩ := f
  cases robotics <;> cases mobile <;> cases shugonet <;> cases fleet <;> decide

theorem check_unattendedTask (checker : Option (Str → Bool)) :
    CoreIdentity.check checker (unattendedTask : Obj φ) = .ok (true, none) := by
  have hkeys : ∀ k : String, "type" ≠ k → "context" ≠ k →
      fetch (lit k) (unattendedTask : Obj φ) = .none := by
    intro k htype hcontext
    rw [fetch, getKey_unattendedTask htype hcontext, Option.getD_none]
  simp only [CoreIdentity.check]
  rw [type_unattendedTask, hkeys "params" (by decide) (by decide),
    hkeys "manipulative" (by decide) (by decide),
    hkeys "involves_personal_data" (by decide) (by decide)]
  rfl

theorem detectBias_unattendedTask : detectBias (obliging f decision) unattendedTask = false := by
  have hcontent : taskContent (unattendedTask : Obj φ) = [] := by
    rw [taskContent, getKey_unattendedTask (by decide) (by decide),
      getKey_unattendedTask (by decide) (by decide)]
    rfl
  rw [detectBias, hcontent]
  show (biasPatterns.any fun p => decide (lit p <:+: [])) = false
  decide

/-- The task-level policy lets the task pass. -/
theorem completes_evaluatePolicy :
    Completes (Ready f n a) (evaluatePolicy (obliging f decision) unattendedTask)
      fun r s => Ready f n a s ∧ r.1 = true := by
  have hcheck : Completes (Ready f n a)
      ((obliging f decision).ask (.checkPolicy unattendedTask))
      fun r s => Ready f n a s ∧ r = (true, none) := by
    refine completes_ask fun s hs => ⟨(true, none), s.world, ?_, fun _ => ⟨hs, rfl⟩⟩
    rw [Env.answer, check_unattendedTask]
    rfl
  have hchecks : taskChecks (obliging f decision) unattendedTask = pure (true, none) := by
    have hkeys : ∀ k : String, "type" ≠ k → "context" ≠ k →
        truthy (fetch (lit k) (unattendedTask : Obj φ)) = false := by
      intro k htype hcontext
      rw [fetch, getKey_unattendedTask htype hcontext]
      rfl
    simp only [taskChecks]
    rw [hkeys "manipulative" (by decide) (by decide),
      hkeys "requires_explanation" (by decide) (by decide), detectBias_unattendedTask,
      hkeys "involves_personal_data" (by decide) (by decide),
      hkeys "requires_audit" (by decide) (by decide)]
    rfl
  have hgated : valueIn (consentGatedActionTypes f) (text "observe" : PyVal φ) = .ok false := by
    simp [valueIn, text, observe_not_gated]
  refine .bind hcheck fun r s h => ?_
  obtain ⟨hs, rfl⟩ := h
  show wp (if isText (lit "harmful") (fetch (lit "type") unattendedTask) then _
    else builtin (valueIn (consentGatedActionTypes f) (fetch (lit "type") unattendedTask)) >>= _) _ _ s
  rw [type_unattendedTask, hgated]
  show wp (taskChecks (obliging f decision) unattendedTask) _ _ s
  rw [hchecks]
  exact ⟨hs, rfl⟩

theorem reaches_runGatedTask (hdecide : ∀ s, Ready f n .deciding s →
      Reaches (GatedDispatch f) (runDecision (obliging f decision) unattendedTask decision) s)
    {s : Run Unit φ} (hs : Ready f n .observing s) :
    Reaches (GatedDispatch f) (runGatedTask (obliging f decision) unattendedTask) s := by
  refine Completes.reaches (I := Ready f n .observing) (K := fun _ => Ready f n .observing)
    (fun _ h => h) hs fun _ t ht => ?_
  refine (completes_step (by decide)).reaches ht fun _ t ht => ?_
  refine completes_evaluatePolicy.reaches ht ?_
  rintro ⟨allowed, reason⟩ t ⟨ht, hallowed⟩
  obtain rfl : allowed = true := hallowed
  refine Completes.reaches (I := Ready f n .gating) (K := fun _ => Ready f n .gating)
    (fun _ h => h) ht fun _ t ht => ?_
  refine (completes_step (by decide)).reaches ht fun _ t ht => ?_
  refine Completes.reaches (I := Ready f n .deciding)
    (K := fun d s => Ready f n .deciding s ∧ d = decision) (fun _ h => ⟨h, rfl⟩) ht ?_
  rintro d t ⟨ht, rfl⟩
  exact hdecide t ht

theorem reaches_executeTask (hdecide : ∀ s, Ready f n .deciding s →
      Reaches (GatedDispatch f) (runDecision (obliging f decision) unattendedTask decision) s) :
    Reaches (GatedDispatch f) (executeTask (obliging f decision) unattendedTask)
      ⟨consenting f n, []⟩ := by
  have hrule : DispatchRule (Stays (GatedDispatch f)) fun (_ : Obj φ) _ => True := dispatchedRule f
  have hevaluate : Completes (fun s => s.world = consenting f n)
      ((obliging f decision).ask .evaluate) fun _ s => s.world = consenting f n := by
    refine completes_ask fun s hs => ⟨(), consenting f n, ?_, fun _ => rfl⟩
    rw [hs]
    rfl
  have hbegin : Completes (fun s => s.world = consenting f n)
      (begin? (obliging f decision) unattendedTask)
      fun refused s => Ready f n .observing s ∧ refused = none := by
    refine .attempt (.bind (completes_ask fun s hs => ?_) fun _ s hs => ⟨hs, rfl⟩)
    rw [hs]
    refine ready_onGovernor (s := ⟨consenting f n, []⟩) ⟨?_, rfl, rfl, rfl, rfl, ?_⟩
    · exact fun b hb => hasGrant_consenting hb n _
    · show 0 + n ≤ (max 1 (n : Int)).toNat
      omega
  refine Reaches.attempt ?_ fun e => hrule.moves (moves_taskHandler quiet_ask _ e)
  refine hevaluate.reaches rfl fun _ s hs => hbegin.reaches hs ?_
  rintro refused t ⟨ht, rfl⟩
  refine Completes.reaches (I := Ready f n .observing) (K := fun _ => Ready f n .observing)
    (fun _ h => h) ht fun _ t ht => ?_
  exact (reaches_runGatedTask hdecide ht).ensure (hrule.ask rfl)

/-! ## Exactly the safe decisions are covered -/

/-- A decision that `canonical_json` can write, as every decision that was read from
JSON. -/
structure Proposal (φ : Type) [Builtins φ] where
  decision : Obj φ
  writable : (canonicalJson (.dict decision)).isSome = true

theorem Proposal.writable_dict (p : Proposal φ) : Writable (.dict p.decision) := by
  have h := p.writable
  rw [canonicalJson, dumps, Option.isSome_map] at h
  exact Option.isSome_iff_exists.1 h

omit [Builtins φ] in
theorem inattentive_unattendedTask : Inattentive (unattendedTask : Obj φ) := by
  refine ⟨text "absent", ?_, nofun, by simp [isText, text],
    by simp [isText, text]⟩
  simp [attentionState, unattendedTask, methodGet, fetch]

omit [Builtins φ] in
theorem decides_obliging (f : Features) (decision : Obj φ) :
    Decides (obliging f decision) decision := fun _ _ => rfl

/-- An unsafe decision is dispatched while nobody attends. -/
theorem gatedDispatch_of_unsafe {p : Proposal φ} (h : attentionSafe f p.decision = false) :
    ∃ n, ¬ NoGatedDispatch f (history (obliging f p.decision) unattendedTask (consenting f n)) := by
  obtain ⟨hmulti, v, steps, hv, hi, ht, hunsafe⟩ := steps_of_unsafe h
  refine ⟨steps.length, ?_⟩
  have hreach : Reaches (GatedDispatch f)
      (executeTask (obliging f p.decision) unattendedTask) ⟨consenting f steps.length, []⟩ :=
    reaches_executeTask fun _ => reaches_runDecision unattendedTask hmulti fun _ =>
      reaches_executeMultiStep p.writable_dict hv hi ht hunsafe
  obtain ⟨e, hmem, payload, hp, hg⟩ := hreach.final
  intro hno
  rw [hno e hmem payload hp] at hg
  cases hg

/-- The attention state covers every dispatch of a decision, for every task without
attention, every state of the shared objects and everything that other threads do,
exactly when the decision is safe for it. -/
theorem attention_covers_iff (f : Features) (p : Proposal φ) :
    (∀ (σ : Type) (env : Env σ φ) (w : World σ) (task : Obj φ), env.features = f →
      Decides env p.decision → Inattentive task → NoGatedDispatch f (history env task w)) ↔
    attentionSafe f p.decision = true := by
  constructor
  · intro hall
    by_contra hsafe
    obtain ⟨n, hn⟩ := gatedDispatch_of_unsafe (Bool.eq_false_iff.2 hsafe)
    exact hn (hall Unit _ _ _ rfl (decides_obliging f p.decision) inattentive_unattendedTask)
  · rintro hsafe σ env w task rfl hdec ht
    exact noGatedDispatch_of_safe ht hdec hsafe w

/-- A plan of one step that calls an API. -/
def callPlan : Obj WholeFloat :=
  obj [("action_type", text "multi_step_process"), ("params", .dict (obj
    [("steps", .list [.dict (obj [("action_type", text "api_call")])])]))]

/-- The step is dispatched while the human is absent. -/
theorem step_dispatched_while_absent :
    Inattentive (unattendedTask : Obj WholeFloat) ∧
    Decides (obliging ⟨false, false, false, false⟩ callPlan) callPlan ∧
    ¬ NoGatedDispatch ⟨false, false, false, false⟩
      (history (obliging ⟨false, false, false, false⟩ callPlan) unattendedTask
        (consenting ⟨false, false, false, false⟩ 1)) := by
  refine ⟨inattentive_unattendedTask, decides_obliging _ _, ?_⟩
  simp only [NoGatedDispatch]
  decide +kernel

end Engine

end ShugoCore
