import ShugoCore.Engine.Pipeline

/-!
# Dispatches of a task

The only call of the pipeline that matters for what is executed is the entry of
`_dispatch`.  `Quiet` programs add to the history and dispatch nothing, and all of
the pipeline is quiet but `_execute_gated`.

A `DispatchRule` says what a relation between two points of a task has to satisfy
at a dispatch.  From it follows what the whole task does.
-/

namespace ShugoCore

namespace Engine

open Py Prog

variable {σ φ : Type}

/-! ## Dispatches in a history -/

/-- `decision.get("action_type") in _CONSENT_GATED_ACTION_TYPES`. -/
def isGated (f : Features) (decision : Obj φ) : Bool :=
  match fetch (lit "action_type") decision with
  | .str a => decide (a ∈ consentGatedActionTypes f)
  | _ => false

/-- No dispatch is among the events. -/
def Silent (events : List (Event σ φ)) : Prop := ∀ e ∈ events, e.call.dispatched? = none

/-- The history grows by events without a dispatch. -/
def Grows (s t : Run σ φ) : Prop := ∃ events, t.events = s.events ++ events ∧ Silent events

/-- A program that dispatches nothing. -/
def Quiet {α : Type} (m : EngineM σ φ α) : Prop := Moves Grows m

instance : IsPreorder (Run σ φ) Grows where
  refl s := ⟨[], by simp, by simp [Silent]⟩
  trans s t u := by
    rintro ⟨es, h, hs⟩ ⟨fs, h', hs'⟩
    refine ⟨es ++ fs, by rw [h', h, List.append_assoc], ?_⟩
    intro e he
    exact (List.mem_append.1 he).elim (hs e) (hs' e)

variable [Builtins φ] {env : Env σ φ}

/-- A call returns or raises what the environment answers, and is the last event. -/
theorem wp_ask {c : Call φ} {Q : Answer c → Run σ φ → Prop} {E : Raised → Run σ φ → Prop}
    {s : Run σ φ}
    (hok : ∀ w a t, (env.answer w c).1 = .ok a → t.events = s.events ++ [⟨w, c, .ok a⟩] → Q a t)
    (herr : ∀ w e t, (env.answer w c).1 = .error e → t.events = s.events ++ [⟨w, c, .error e⟩] →
      E e t) : wp (env.ask c) Q E s := by
  show Ends Q E ((env.answer (env.interfere s.world) c).1, _)
  cases h : (env.answer (env.interfere s.world) c).1 with
  | ok a => exact hok _ a _ h rfl
  | error e => exact herr _ e _ h rfl

theorem grows_ask {c : Call φ} (h : c.dispatched? = none) (s : Run σ φ) :
    Grows s (env.ask c s).2 := by
  refine ⟨_, rfl, ?_⟩
  intro e he
  rw [List.mem_singleton.1 he]
  exact h

theorem quiet_ask {c : Call φ} (h : c.dispatched? = none) : Quiet (env.ask c) :=
  moves_ask (grows_ask h)

omit [Builtins φ] in
theorem quiet_builtin {α : Type} (r : Except Exn α) : Quiet (builtin r : EngineM σ φ α) :=
  Moves.ofExcept _

/-! ## The decision that is dispatched -/

omit [Builtins φ] in
theorem actionType_traced (seq : Nat) (decision : Obj φ) :
    fetch (lit "action_type") (traced seq decision) = fetch (lit "action_type") decision := by
  rw [fetch, traced, getKey_setKey_of_ne (by decide), fetch]

omit [Builtins φ] in
theorem actionType_clean (decision : Obj φ) :
    fetch (lit "action_type") (clean decision) = fetch (lit "action_type") decision := by
  rw [fetch, clean, getKey_filter rfl, fetch]

omit [Builtins φ] in
theorem isGated_congr {f : Features} {d d' : Obj φ}
    (h : fetch (lit "action_type") d = fetch (lit "action_type") d') : isGated f d = isGated f d' := by
  rw [isGated, isGated, h]

omit [Builtins φ] in
/-- The verdict token is no part of the content. -/
theorem clean_setKey_policy (v : PyVal φ) (d : Obj φ) :
    clean (setKey (lit "_policy") v d) = clean d := by
  induction d with
  | nil => rfl
  | cons i d ih =>
      obtain ⟨key, x⟩ := i
      simp only [clean] at ih ⊢
      cases key with
      | str k =>
          by_cases hk : k = lit "_policy"
          · subst hk
            simp [setKey, keyNotIn]
          · simp only [setKey, if_neg hk, List.filter_cons, ih]
      | none | bool _ | int _ | float _ => simp only [setKey, List.filter_cons, ih]

/-! ## Tasks -/

/-- What a task does, given what a dispatch does: `P` is what a decision needs to be
executed, and `R` relates the points of a task. -/
structure DispatchRule (R : Run σ φ → Run σ φ → Prop) (P : Obj φ → Run σ φ → Prop) : Prop where
  quiet : ∀ s t, Grows s t → R s t
  stable : ∀ d s t, Grows s t → P d s → P d t
  dispatch : ∀ d seq s t w r, P d s →
    t.events = s.events ++ [⟨w, .dispatch (clean (traced seq d)), r⟩] → R s t

/-- A program that executes a decision. -/
def Executes {α : Type} (R : Run σ φ → Run σ φ → Prop) (P : Obj φ → Run σ φ → Prop) (d : Obj φ)
    (m : EngineM σ φ α) : Prop := ∀ s, P d s → wp m (fun _ => R s) (fun _ => R s) s

namespace DispatchRule

variable {R : Run σ φ → Run σ φ → Prop} {P : Obj φ → Run σ φ → Prop} {α β : Type}

omit [Builtins φ] in
theorem moves (h : DispatchRule R P) {m : EngineM σ φ α} (hm : Quiet m) : Moves R m :=
  Moves.mono h.quiet hm

theorem ask (h : DispatchRule R P) {c : Call φ} (hc : c.dispatched? = none) :
    Moves R (env.ask c) := h.moves (quiet_ask hc)

omit [Builtins φ] in
theorem executes (h : DispatchRule R P) {d : Obj φ} {m : EngineM σ φ α} (hm : Quiet m) :
    Executes R P d m := fun s _ => h.moves hm s

variable [IsPreorder (Run σ φ) R]

omit [Builtins φ] in
/-- Quiet steps may come before the execution. -/
theorem before (h : DispatchRule R P) {d : Obj φ} {m : EngineM σ φ β}
    {k : β → EngineM σ φ α} (hm : Quiet m) (hk : ∀ b, Executes R P d (k b)) :
    Executes R P d (m >>= k) := by
  intro s hs
  rw [wp_bind]
  refine wp_mono (hm s) ?_ (fun _ t => h.quiet s t)
  intro b t hg
  exact wp_moves_trans (h.quiet s t hg) (hk b t (h.stable d s t hg hs))

omit [Builtins φ] in
/-- Quiet steps may follow it. -/
theorem after (h : DispatchRule R P) {d : Obj φ} {m : EngineM σ φ β}
    {k : β → EngineM σ φ α} (hm : Executes R P d m) (hk : ∀ b, Quiet (k b)) :
    Executes R P d (m >>= k) := by
  intro s hs
  rw [wp_bind]
  refine wp_mono (hm s hs) ?_ (fun _ _ h => h)
  intro b t hst
  exact wp_moves_trans hst (h.moves (hk b) t)

theorem runDispatch (h : DispatchRule R P) (seq : Nat) (d : Obj φ) :
    Executes R P d (Engine.dispatch env (clean (traced seq d))) := by
  intro s hs
  have hrest : Quiet (attempt (dispatchBody env (clean (traced seq d)))
      fun e => pure (.dict (report "error" "message" e.name))) :=
    .attempt (moves_dispatchBody quiet_ask _) fun _ => .pure _
  simp only [Engine.dispatch]
  rw [wp_bind]
  refine wp_ask ?_ (fun w e t hw _ => by cases hw)
  intro w u t _ he
  exact wp_moves_trans (h.dispatch d seq s t w _ hs he) (h.moves hrest t)

theorem execute (h : DispatchRule R P) {payload d : Obj φ} {seq : Nat}
    (hclean : clean payload = clean (traced seq d)) :
    Executes R P d (Engine.execute env payload) := by
  refine h.after ?_ (moves_reportExecution quiet_ask payload)
  simp only [executeVerdict]
  rw [hclean]
  split
  · intro s hs
    split
    · exact h.moves (.pure _) s
    · refine h.before (moves_digest _) (fun hash t ht => ?_) s hs
      split
      · exact h.moves (.pure _) t
      · exact h.runDispatch seq d t ht
  · exact h.executes (.pure _)

theorem executeGated (h : DispatchRule R P) (d : Obj φ) :
    Executes R P d (Engine.executeGated env d) :=
  h.before (quiet_ask rfl) fun _ => h.before (moves_digest _) fun _ =>
    h.after (h.execute (clean_setKey_policy _ _)) fun _ => .pure _

/-- The gate, and then a program for the decision that it let pass. -/
theorem gate (h : DispatchRule R P) {d : Obj φ} {attention : PyVal φ}
    {refuse : Option Str → EngineM σ φ α} {proceed : EngineM σ φ α}
    (hgate : ∀ s, wp (gateDecision env d attention) (fun r t => r.1 = true → P d t)
      (fun _ _ => True) s)
    (hr : ∀ reason, Quiet (refuse reason)) (hp : Executes R P d proceed) :
    Moves R (do
      let (allowed, reason) ← gateDecision env d attention
      if !allowed then refuse reason else proceed) := by
  intro s
  rw [wp_bind]
  refine wp_mono (wp_and (moves_gateDecision quiet_ask d attention s) (hgate s)) ?_
    (fun _ t hg => h.quiet s t hg.1)
  rintro ⟨allowed, reason⟩ t ⟨hg, hpass⟩
  dsimp only
  split
  · exact wp_moves_trans (h.quiet s t hg) (h.moves (hr reason) t)
  · rename_i ha
    exact wp_moves_trans (h.quiet s t hg) (hp t (hpass (by simpa using ha)))

theorem executeStep (h : DispatchRule R P) {d step : Obj φ} {index : Nat}
    (hgate : ∀ s, wp (gateDecision env (subDecision d index step) .none)
      (fun r t => r.1 = true → P (subDecision d index step) t) (fun _ _ => True) s) :
    Moves R (Engine.executeStep env d index (.dict step)) := by
  have hproceed : Executes R P (subDecision d index step)
      (env.ask (.consumeStep 1) >>= fun _ =>
        Engine.executeGated env (subDecision d index step)) :=
    h.before (quiet_ask rfl) fun _ => h.executeGated _
  exact h.gate hgate (moves_refuseStep quiet_ask _) hproceed

theorem runMultiStep (h : DispatchRule R P) {task d : Obj φ}
    (hsteps : Moves R (Engine.executeMultiStep env d)) : Moves R (Engine.runMultiStep env task d) :=
  .bind (h.ask rfl) fun _ => .bind (h.ask rfl) fun _ => .bind hsteps fun _ =>
    .bind (h.ask rfl) fun _ => .bind (h.ask rfl) fun _ => .bind (h.ask rfl) fun _ =>
      .bind (h.ask rfl) fun _ => .bind (h.moves (moves_stages quiet_ask)) fun _ => .pure _

theorem runAction (h : DispatchRule R P) (task d : Obj φ) :
    Executes R P d (Engine.runAction env task d) := by
  refine h.before (quiet_ask rfl) fun _ => h.before (quiet_ask rfl) fun _ =>
    h.before (quiet_ask rfl) fun _ => h.after (h.executeGated d) fun result => ?_
  exact .bind (quiet_ask rfl) fun _ => .bind (quiet_ask rfl) fun _ =>
    .bind (quiet_ask rfl) fun _ => .bind (quiet_ask rfl) fun _ => .bind (quiet_ask rfl) fun _ =>
      .bind (quiet_ask rfl) fun _ => .bind (moves_stages quiet_ask) fun _ => .pure _

/-- The pipeline around the decision is quiet. -/
theorem runGatedTask (h : DispatchRule R P) {task : Obj φ}
    (hdecide : Moves R (env.ask (.makeDecision task) >>= runDecision env task)) :
    Moves R (Engine.runGatedTask env task) := by
  refine .bind (h.ask rfl) fun _ => .bind (h.ask rfl) fun _ =>
    .bind (h.moves (moves_evaluatePolicy quiet_ask task)) ?_
  rintro ⟨allowed, reason⟩
  refine .ite (h.moves (moves_refuseTask quiet_ask task reason)) ?_
  exact .bind (h.ask rfl) fun _ => .bind (h.ask rfl) fun _ => hdecide

theorem executeTask (h : DispatchRule R P) {task : Obj φ}
    (hdecide : Moves R (env.ask (.makeDecision task) >>= runDecision env task)) :
    Moves R (Engine.executeTask env task) := by
  refine .attempt (.bind (h.ask rfl) fun _ => .bind (h.moves (moves_begin? quiet_ask task)) ?_) fun e =>
    h.moves (moves_taskHandler quiet_ask task e)
  intro refused
  cases refused with
  | some r => exact .pure _
  | none => exact .bind (h.ask rfl) fun _ => .ensure (h.runGatedTask hdecide) (h.ask rfl)

/-! Where every gate gives what an execution needs, the rule holds of every task. -/

section

variable (h : DispatchRule R P)
  (hgate : ∀ d attention s, wp (gateDecision env d attention) (fun r t => r.1 = true → P d t)
    (fun _ _ => True) s)

include h hgate

theorem executeSteps (d : Obj φ) (index : Nat) (steps : List (PyVal φ)) :
    Moves R (Engine.executeSteps env d index steps) := by
  induction steps generalizing index with
  | nil => exact .pure _
  | cons step steps ih =>
      refine .bind ?_ fun _ => .bind (ih (index + 1)) fun _ => .pure _
      cases step with
      | dict step => exact h.executeStep (hgate _ _)
      | none | bool _ | int _ | float _ | str _ | list _ => exact .pure _

theorem executeMultiStep (d : Obj φ) : Moves R (Engine.executeMultiStep env d) := by
  refine .bind (h.moves (quiet_builtin _)) fun steps => .ite ?_ ?_
  · exact .bind (h.moves (moves_recordBlock quiet_ask _ _ _)) fun _ => .pure _
  · exact .bind (h.moves (quiet_builtin _)) fun steps =>
      .bind (h.executeSteps hgate d 0 steps) fun _ => .pure _

theorem runDecision (task d : Obj φ) : Moves R (Engine.runDecision env task d) := by
  refine .ite (h.moves (moves_noViableAction quiet_ask task d))
    (.ite (h.runMultiStep (h.executeMultiStep hgate d)) ?_)
  exact .bind (h.moves (quiet_builtin _)) fun attention =>
    h.gate (hgate d attention) (moves_refuseDecision quiet_ask d) (h.runAction task d)

theorem everyTask (task : Obj φ) : Moves R (Engine.executeTask env task) :=
  h.executeTask (.bind (h.ask rfl) fun d => h.runDecision hgate task d)

end

end DispatchRule

end Engine

end ShugoCore
