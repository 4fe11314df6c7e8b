import ShugoCore.Engine.Gate

/-!
# Attention and multi-step decisions

A task may carry an attention state, and one that is neither `attending` nor
`unknown` refuses every consent-gated action.  The gate of a single action is given
that state.  The gate of a step is not, so a multi-step decision can dispatch a
consent-gated action while nobody attends.

The decisions for which this cannot happen are those of `attentionSafe`: no step is
consent-gated, apart from steps that Tier 3 refuses as manipulative and steps after
one that ends the task with a `TypeError`.
-/

namespace ShugoCore

namespace Engine

open Py Prog

variable {σ φ : Type} [Builtins φ]

/-! ## The decisions that attention covers -/

/-- Tier 3 refuses the step as manipulative. -/
def isManipulative (step : Obj φ) : Bool :=
  truthy (fetch (lit "manipulative")
    (dictOrEmpty (orElse (fetch (lit "params") step) (.dict []))))

/-- The value has no hash. -/
def isUnhashable : PyVal φ → Bool
  | .list _ | .dict _ => true
  | _ => false

/-- The gate of the step raises. -/
def stepAborts : PyVal φ → Bool
  | .dict step => isUnhashable (fetch (lit "action_type") step) && !isManipulative step
  | _ => false

/-- The step is consent-gated and Tier 3 does not refuse it as manipulative. -/
def stepPasses (f : Features) : PyVal φ → Bool
  | .dict step => isGated f step && !isManipulative step
  | _ => false

/-- No step before the first that aborts passes. -/
def stepsSafe (f : Features) : List (PyVal φ) → Bool
  | [] => true
  | step :: steps => stepAborts step || (!stepPasses f step && stepsSafe f steps)

/-- The steps of a multi-step decision, if it has any that can be gone through. -/
def stepList (decision : Obj φ) : Except Exn (List (PyVal φ)) := do
  iterate (← stepsOf decision)

/-- The decision dispatches no consent-gated action without the attention state. -/
def attentionSafe (f : Features) (decision : Obj φ) : Bool :=
  !isText (lit "multi_step_process") (fetch (lit "action_type") decision) ||
    match stepList decision with
    | .ok steps => stepsSafe f steps
    | .error _ => true

/-- The task carries an attention state that is neither `attending` nor `unknown`. -/
def Inattentive (task : Obj φ) : Prop :=
  ∃ a, attentionState task = .ok a ∧ a ≠ .none ∧ isText (lit "attending") a = false ∧
    isText (lit "unknown") a = false

/-- The models answer every request for a decision with this one. -/
def Decides (env : Env σ φ) (decision : Obj φ) : Prop :=
  ∀ task w, (env.reply (.makeDecision task) w).1 = .ok decision

/-- No consent-gated action is dispatched. -/
def NoGatedDispatch (f : Features) (events : List (Event σ φ)) : Prop :=
  ∀ e ∈ events, ∀ payload ∈ e.call.dispatched?, isGated f payload = false

/-! ## Programs that dispatch no consent-gated action -/

variable {env : Env σ φ}

/-- The task has dispatched no consent-gated action so far. -/
def Ungated (f : Features) (s : Run σ φ) : Prop := NoGatedDispatch f s.events

omit [Builtins φ] in
/-- A dispatch keeps a history free of consent-gated ones, if the decision is none. -/
theorem ungatedRule (f : Features) : DispatchRule (Stays (Ungated f))
    fun (decision : Obj φ) (_ : Run σ φ) => isGated f decision = false where
  quiet := by
    rintro s t ⟨more, he, hs⟩ hn e hmem payload hp
    rw [he] at hmem
    rcases List.mem_append.1 hmem with hmem | hmem
    · exact hn e hmem payload hp
    · rw [hs e hmem] at hp
      exact absurd hp (Option.not_mem_none _)
  stable := fun _ _ _ _ h => h
  dispatch := by
    intro decision seq s t w r hd he hn e hmem payload hp
    rw [he] at hmem
    rcases List.mem_append.1 hmem with hmem | hmem
    · exact hn e hmem payload hp
    · rw [List.mem_singleton.1 hmem] at hp
      obtain rfl : clean (traced seq decision) = payload := Option.some.inj hp
      rw [← hd]
      exact isGated_congr ((actionType_clean _).trans (actionType_traced seq decision))

/-! ## The gate of a step -/

@[simp] theorem actionType_subDecision (decision step : Obj φ) (index : Nat) :
    fetch (lit "action_type") (subDecision decision index step) = fetch (lit "action_type") step := by
  simp [fetch, subDecision]

@[simp] theorem params_subDecision (decision step : Obj φ) (index : Nat) :
    fetch (lit "params") (subDecision decision index step) =
      orElse (fetch (lit "params") step) (.dict []) := by
  simp [fetch, subDecision]

theorem isGated_subDecision (f : Features) (decision step : Obj φ) (index : Nat) :
    isGated f (subDecision decision index step) = isGated f step :=
  isGated_congr (actionType_subDecision decision step index)

/-- What Tier 3 says of a step, unless its action type is `harmful`. -/
theorem check_subDecision (checker : Option (Str → Bool)) (decision step : Obj φ) (index : Nat) :
    CoreIdentity.check checker (subDecision decision index step) =
      if isText (lit "harmful") (fetch (lit "action_type") step) then
        .ok (false, some (lit "invariant: no_harm"))
      else if isManipulative step then .ok (false, some (lit "invariant: no_manipulation"))
      else do
        let sideEffecting ← valueIn sideEffectingActionTypes (fetch (lit "action_type") step)
        if sideEffecting && !(checker.any fun f => f (strOf (fetch (lit "action_type") step))) then
          return (false, some (lit "invariant: consent_required"))
        else return (true, none) := by
  have htype : fetch (lit "type") (subDecision decision index step) = .none := by
    simp [fetch, subDecision]
  have hman : fetch (lit "manipulative") (subDecision decision index step) = .none := by
    simp [fetch, subDecision]
  have hpersonal :
      fetch (lit "involves_personal_data") (subDecision decision index step) = .none := by
    simp [fetch, subDecision]
  simp only [CoreIdentity.check, isManipulative]
  rw [htype, hman, hpersonal, actionType_subDecision, params_subDecision]
  rfl

theorem check_manipulative (checker : Option (Str → Bool)) {step : Obj φ}
    (h : isManipulative step = true) (decision : Obj φ) (index : Nat) :
    ∃ reason, CoreIdentity.check checker (subDecision decision index step) = .ok (false, reason) := by
  rw [check_subDecision, if_pos h]
  split
  · exact ⟨_, rfl⟩
  · exact ⟨_, rfl⟩

theorem check_unhashable {checker : Option (Str → Bool)} {step : Obj φ}
    (h : stepAborts (.dict step) = true) (decision : Obj φ) (index : Nat) :
    CoreIdentity.check checker (subDecision decision index step) = .error .typeError := by
  obtain ⟨hu, hm⟩ : isUnhashable (fetch (lit "action_type") step) = true ∧
      isManipulative step = false := by
    simpa [stepAborts] using h
  rw [check_subDecision, hm]
  cases hv : fetch (lit "action_type") step with
  | list xs => rfl
  | dict d => rfl
  | none | bool _ | int _ | float _ | str _ =>
      rw [hv] at hu
      cases hu

/-- A step whose gate raises ends the task there. -/
theorem wp_gateDecision_aborts {step : Obj φ} (h : stepAborts (.dict step) = true)
    (decision : Obj φ) (index : Nat) (attention : PyVal φ) (s : Run σ φ) :
    wp (gateDecision env (subDecision decision index step) attention) (fun _ _ => False)
      (fun _ _ => True) s := by
  simp only [gateDecision]
  rw [wp_bind]
  refine wp_ask ?_ (fun _ _ _ _ _ => True.intro)
  intro w a t ha _
  rw [Env.answer, check_unhashable h] at ha
  cases ha

/-- A manipulative step does not pass. -/
theorem wp_gateDecision_manipulative {step : Obj φ} (h : isManipulative step = true)
    (decision : Obj φ) (index : Nat) (attention : PyVal φ) (s : Run σ φ) :
    wp (gateDecision env (subDecision decision index step) attention) (fun r _ => r.1 = false)
      (fun _ _ => True) s := by
  simp only [gateDecision]
  rw [wp_bind]
  refine wp_ask ?_ (fun _ _ _ _ _ => True.intro)
  rintro w ⟨allowed, reason⟩ t ha _
  obtain ⟨r, hc⟩ := check_manipulative w.checker h decision index
  rw [Env.answer, hc] at ha
  obtain ⟨rfl, -⟩ : false = allowed ∧ r = reason := by simpa [Except.mapError] using ha
  rfl

theorem consentCheck_inattentive {a : PyVal φ} (hn : a ≠ .none)
    (ha : isText (lit "attending") a = false) (hu : isText (lit "unknown") a = false)
    (actionType : PyVal φ) :
    consentCheck env actionType a = pure (false, some (lit "human attention is '" ++ strOf a ++
      lit "' (need 'attending' or 'unknown')")) := by
  unfold consentCheck
  split
  · exact absurd rfl hn
  · unfold hasGrantForAttendedAction
    split
    · exact absurd rfl hn
    · rw [ha, hu]
      rfl

/-- Without attention, the gate refuses every consent-gated decision. -/
theorem wp_gateDecision_inattentive {a : PyVal φ} (hn : a ≠ .none)
    (ha : isText (lit "attending") a = false) (hu : isText (lit "unknown") a = false)
    (decision : Obj φ) (s : Run σ φ) :
    wp (gateDecision env decision a)
      (fun r _ => r.1 = true → isGated env.features decision = false) (fun _ _ => True) s := by
  refine wp_gateDecision_of (fun _ _ h => by cases h) (fun _ h _ => h) ?_
  intro _ _ t _ _
  simp only [consentGate]
  rw [wp_bind]
  refine wp_ask ?_ (fun _ _ _ _ _ => True.intro)
  intro _ mode _ _ _
  split
  · exact fun h => by cases h
  · rw [consentCheck_inattentive hn ha hu]
    exact fun h => by cases h

/-! ## The code meets the claim on these decisions -/

theorem ungated_executeStep {f : Features} {step : PyVal φ} (h : stepPasses f step = false)
    (decision : Obj φ) (index : Nat) :
    Moves (Stays (Ungated f)) (executeStep env decision index step) := by
  cases step with
  | none | bool _ | int _ | float _ | str _ | list _ => exact .pure _
  | dict step =>
      refine (ungatedRule f).executeStep fun s => ?_
      rw [isGated_subDecision]
      cases hg : isGated f step with
      | false => exact wp_mono (wp_trivial _) (fun _ _ _ _ => rfl) (fun _ _ h => h)
      | true =>
          have hm : isManipulative step = true := by simpa [stepPasses, hg] using h
          refine wp_mono (wp_gateDecision_manipulative hm decision index .none s) ?_ (fun _ _ h => h)
          intro r _ hr hr'
          rw [hr] at hr'
          cases hr'

/-- The loop stops at a step whose gate raises. -/
theorem wp_executeStep_aborts {f : Features} {step : PyVal φ} (h : stepAborts step = true)
    (decision : Obj φ) (index : Nat) (s : Run σ φ) :
    wp (executeStep env decision index step) (fun _ _ => False) (fun _ => Stays (Ungated f) s) s := by
  cases step with
  | none | bool _ | int _ | float _ | str _ | list _ => cases h
  | dict step =>
      show wp (gateDecision env (subDecision decision index step) .none >>= _) _ _ s
      rw [wp_bind]
      exact wp_mono (wp_and (moves_gateDecision quiet_ask _ _ s)
        (wp_gateDecision_aborts h decision index .none s)) (fun _ _ h => h.2.elim)
        (fun _ t h => (ungatedRule f).quiet s t h.1)

theorem ungated_executeSteps {f : Features} (decision : Obj φ) {steps : List (PyVal φ)}
    (h : stepsSafe f steps = true) (index : Nat) :
    Moves (Stays (Ungated f)) (executeSteps env decision index steps) := by
  induction steps generalizing index with
  | nil => exact .pure _
  | cons step steps ih =>
      cases ha : stepAborts step with
      | true =>
          intro s
          show wp (executeStep env decision index step >>= _) _ _ s
          rw [wp_bind]
          exact wp_mono (wp_executeStep_aborts ha decision index s) (fun _ _ h => h.elim)
            (fun _ _ h => h)
      | false =>
          obtain ⟨hp, hs⟩ : stepPasses f step = false ∧ stepsSafe f steps = true := by
            simpa [stepsSafe, ha] using h
          exact .bind (ungated_executeStep hp decision index) fun _ =>
            .bind (ih hs (index + 1)) fun _ => .pure _

omit [Builtins φ] in
/-- What follows a built-in operation may use its result. -/
theorem moves_builtin_bind {α β : Type} {R : Run σ φ → Run σ φ → Prop} [IsPreorder (Run σ φ) R]
    {r : Except Exn α} {k : α → EngineM σ φ β} (h : ∀ a, r = .ok a → Moves R (k a)) :
    Moves R (builtin r >>= k) := by
  cases r with
  | ok a => exact h a rfl
  | error e => exact fun s => refl_of R s

theorem ungated_executeMultiStep {f : Features} {decision : Obj φ}
    (h : ∀ steps, stepList decision = .ok steps → stepsSafe f steps = true) :
    Moves (Stays (Ungated f)) (executeMultiStep env decision) := by
  have hblock : Moves (Stays (Ungated f))
      (recordBlock env "decision" decision (lit "multi-step with no steps")) :=
    (ungatedRule f).moves (moves_recordBlock quiet_ask _ _ _)
  refine moves_builtin_bind fun v hv => .ite (.bind hblock fun _ => .pure _) ?_
  refine moves_builtin_bind fun steps hs => ?_
  have hlist : stepList decision = .ok steps := by
    rw [stepList, hv]
    exact hs
  exact .bind (ungated_executeSteps decision (h steps hlist) 0) fun _ => .pure _

theorem ungated_runDecision {task decision : Obj φ} (ht : Inattentive task)
    (hd : attentionSafe env.features decision = true) :
    Moves (Stays (Ungated env.features)) (runDecision env task decision) := by
  have hrule : DispatchRule (Stays (Ungated env.features))
      fun (decision : Obj φ) (_ : Run σ φ) => isGated env.features decision = false :=
    ungatedRule env.features
  simp only [runDecision]
  refine .ite (hrule.moves (moves_noViableAction quiet_ask task decision)) ?_
  cases hm : isText (lit "multi_step_process") (fetch (lit "action_type") decision) with
  | true =>
      refine hrule.runMultiStep (ungated_executeMultiStep ?_)
      intro steps hs
      simpa [attentionSafe, hm, hs] using hd
  | false =>
      obtain ⟨a, hat, hn, ha, hu⟩ := ht
      refine moves_builtin_bind fun attention hattention => ?_
      obtain rfl : a = attention := Except.ok.inj (hat.symm.trans hattention)
      exact hrule.gate (wp_gateDecision_inattentive hn ha hu decision)
        (moves_refuseDecision quiet_ask decision) (hrule.runAction task decision)

/-- Without attention, a decision that is safe for it dispatches nothing that is
consent-gated, whatever the rest of the world does. -/
theorem noGatedDispatch_of_safe {task decision : Obj φ} (ht : Inattentive task)
    (hdec : Decides env decision) (hd : attentionSafe env.features decision = true)
    (w : World σ) : NoGatedDispatch env.features (history env task w) := by
  have hrule : DispatchRule (Stays (Ungated env.features))
      fun (decision : Obj φ) (_ : Run σ φ) => isGated env.features decision = false :=
    ungatedRule env.features
  have hdecide : Moves (Stays (Ungated env.features))
      (env.ask (.makeDecision task) >>= runDecision env task) := by
    intro s
    have hask : wp (env.ask (.makeDecision task)) (fun d _ => d = decision) (fun _ _ => True) s :=
      wp_ask (fun w d t hw _ => Except.ok.inj (hw.symm.trans (hdec task w)))
        (fun _ _ _ _ _ => True.intro)
    rw [wp_bind]
    refine wp_mono (wp_and (hrule.ask rfl s) hask) ?_ (fun _ _ h => h.1)
    rintro d t ⟨hst, rfl⟩
    exact wp_moves_trans hst (ungated_runDecision ht hd t)
  have hstart : Ungated env.features (⟨w, []⟩ : Run σ φ) := fun e he => absurd he List.not_mem_nil
  exact ((hrule.executeTask hdecide).reaches hstart).final

end Engine

end ShugoCore
