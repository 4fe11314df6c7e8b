import ShugoCore.Engine.Dispatch

/-!
# No consent-gated side effect without the full gate

A task reaches `_dispatch` on two routes, directly and from a step of a multi-step
decision.  On both, a consent-gated action is dispatched only after its own gate:
Tier 3 allowed it, the governor was not in `SAFE_STATE`, the registry held an
unexpired grant, and the broker approved it, in this order and with no other
dispatch since.
-/

namespace ShugoCore

namespace Engine

open Py Prog

variable {σ φ : Type} [Builtins φ] {env : Env σ φ}

/-! ## The gate of a decision -/

/-- One run of the gate over a consent-gated decision that it allowed: the worlds
its four calls were answered in, and what was true there. -/
structure Gating (env : Env σ φ) (decision : Obj φ) where
  tier3 : World σ
  reason : Option Str
  /-- The Tier 3 check returned allowed. -/
  allowed : CoreIdentity.check tier3.checker decision = .ok (true, reason)
  modeRead : World σ
  notSafeState : modeRead.governor.mode ≠ .safeState
  consent : World σ
  /-- An unexpired grant for the action type existed. -/
  granted : ∃ g ∈ consent.consents.entries (strOf (fetch (lit "action_type") decision)),
    g.Unexpired consent.clock
  broker : World σ
  verdict : Verdict
  approved : verdict.approved = true

/-- The four calls in the history. -/
def Gating.events {decision : Obj φ} (g : Gating env decision) : List (Event σ φ) :=
  [⟨g.tier3, .checkPolicy decision, .ok (true, g.reason)⟩,
    ⟨g.modeRead, .mode, .ok g.modeRead.governor.mode⟩,
    ⟨g.consent, .hasGrant (strOf (fetch (lit "action_type") decision)), .ok true⟩,
    ⟨g.broker, .requestApproval (approvalRequest env decision), .ok g.verdict⟩]

/-- The gate let a decision pass, and nothing was dispatched since. -/
def Passed (env : Env σ φ) (decision : Obj φ) (events : List (Event σ φ)) : Prop :=
  ∃ (g : Gating env decision) (before since : List (Event σ φ)),
    events = before ++ g.events ++ since ∧ Silent since

theorem Passed.grows {decision : Obj φ} {s t : Run σ φ} (h : Passed env decision s.events)
    (hg : Grows s t) : Passed env decision t.events := by
  obtain ⟨g, before, since, he, hs⟩ := h
  obtain ⟨more, he', hs'⟩ := hg
  refine ⟨g, before, since ++ more, by rw [he', he, List.append_assoc], ?_⟩
  intro e hmem
  exact (List.mem_append.1 hmem).elim (hs e) (hs' e)

omit [Builtins φ] in
theorem valueIn_of_isGated {f : Features} {d : Obj φ} (h : isGated f d = true) :
    valueIn (consentGatedActionTypes f) (fetch (lit "action_type") d) = .ok true := by
  unfold isGated at h
  cases hv : fetch (lit "action_type") d <;> rw [hv] at h <;> simp_all [valueIn]

/-- `has_grant` was asked and found an unexpired grant. -/
def GrantRead (a : Str) (s t : Run σ φ) : Prop :=
  ∃ w : World σ, w.consents.hasGrant w.clock a = true ∧
    t.events = s.events ++ [⟨w, .hasGrant a, .ok true⟩]

/-- What holds after `has_grant` returned true. -/
theorem wp_ask_hasGrant {a : Str} {Q : Bool → Run σ φ → Prop} {s : Run σ φ}
    (hno : ∀ t, Q false t) (hyes : ∀ t, GrantRead a s t → Q true t) :
    wp (env.ask (.hasGrant a)) Q (fun _ _ => True) s := by
  refine wp_ask ?_ (fun _ _ _ _ _ => True.intro)
  rintro w granted t hw he
  obtain rfl : w.consents.hasGrant w.clock a = granted := Except.ok.inj hw
  cases hg : w.consents.hasGrant w.clock a with
  | false => exact hno t
  | true => exact hyes t ⟨w, hg, by rw [he, hg]⟩

/-- A consent check that passes has read an unexpired grant. -/
theorem wp_consentCheck (actionType attention : PyVal φ) (s : Run σ φ) :
    wp (consentCheck env actionType attention)
      (fun r t => r.1 = true → GrantRead (strOf actionType) s t) (fun _ _ => True) s := by
  simp only [consentCheck]
  split
  · rw [wp_bind]
    refine wp_ask_hasGrant (fun t h => by cases h) (fun t ht _ => ht)
  · unfold hasGrantForAttendedAction
    split
    · rw [wp_bind]
      exact wp_ask_hasGrant (fun t h => by cases h) (fun t ht _ => ht)
    · split
      · exact fun h => by cases h
      · rw [wp_bind]
        exact wp_ask_hasGrant (fun t h => by cases h) (fun t ht _ => ht)

/-- An approval check that passes has the approval of the broker. -/
theorem wp_approvalCheck (decision : Obj φ) (s : Run σ φ) :
    wp (approvalCheck env decision)
      (fun r t => r.1 = true → ∃ (w : World σ) (verdict : Verdict) (since : List (Event σ φ)),
        verdict.approved = true ∧ Silent since ∧
          t.events = s.events ++
            ⟨w, .requestApproval (approvalRequest env decision), .ok verdict⟩ :: since)
      (fun _ _ => True) s := by
  simp only [approvalCheck]
  rw [wp_bind]
  refine wp_ask ?_ (fun _ _ _ _ _ => True.intro)
  intro w verdict t _ he
  split
  · rw [wp_bind]
    exact wp_ask (fun _ _ _ _ _ h => by cases h) (fun _ _ _ _ _ => True.intro)
  · rename_i hv
    rw [wp_bind]
    refine wp_ask ?_ (fun _ _ _ _ _ => True.intro)
    intro w' u t' _ he' _
    refine ⟨w, verdict, [_], by simpa using hv, ?_, by rw [he', he, List.append_assoc]; rfl⟩
    intro e hmem
    rw [List.mem_singleton.1 hmem]
    rfl

/-- The consent gate lets a decision pass after its last three checks. -/
theorem wp_consentGate (decision : Obj φ) (attention : PyVal φ) (s : Run σ φ) :
    wp (consentGate env decision attention)
      (fun r t => r.1 = true →
        ∃ (wm wg wa : World σ) (verdict : Verdict) (since : List (Event σ φ)),
          wm.governor.mode ≠ .safeState ∧
            wg.consents.hasGrant wg.clock (strOf (fetch (lit "action_type") decision)) = true ∧
            verdict.approved = true ∧ Silent since ∧
            t.events = s.events ++ ⟨wm, .mode, .ok wm.governor.mode⟩ ::
              ⟨wg, .hasGrant (strOf (fetch (lit "action_type") decision)), .ok true⟩ ::
              ⟨wa, .requestApproval (approvalRequest env decision), .ok verdict⟩ :: since)
      (fun _ _ => True) s := by
  simp only [consentGate]
  rw [wp_bind]
  refine wp_ask ?_ (fun _ _ _ _ _ => True.intro)
  intro wm mode t hm he
  obtain rfl : wm.governor.mode = mode := Except.ok.inj hm
  split
  · exact fun h => by cases h
  rename_i hmode
  rw [wp_bind]
  refine wp_mono (wp_consentCheck _ attention t) ?_ (fun _ _ h => h)
  rintro ⟨ok, reason⟩ t₁ hread
  dsimp only
  split
  · exact fun h => by cases h
  rename_i hok
  obtain ⟨wg, hg, he₁⟩ := hread (by simpa using hok)
  refine wp_mono (wp_approvalCheck decision t₁) ?_ (fun _ _ h => h)
  intro r t₂ happroved hr
  obtain ⟨wa, verdict, since, hv, hsilent, he₂⟩ := happroved hr
  exact ⟨wm, wg, wa, verdict, since, hmode, hg, hv, hsilent, by rw [he₂, he₁, he]; simp⟩

/-- The ways through the gate of a decision. -/
theorem wp_gateDecision_of {decision : Obj φ} {attention : PyVal φ} {s : Run σ φ}
    {Q : Bool × Option Str → Run σ φ → Prop} (hrefused : ∀ reason t, Q (false, reason) t)
    (hungated : ∀ t, isGated env.features decision = false → Q (true, none) t)
    (hgated : ∀ w reason t, CoreIdentity.check w.checker decision = .ok (true, reason) →
      t.events = s.events ++ [⟨w, .checkPolicy decision, .ok (true, reason)⟩] →
      wp (consentGate env decision attention) Q (fun _ _ => True) t) :
    wp (gateDecision env decision attention) Q (fun _ _ => True) s := by
  simp only [gateDecision]
  rw [wp_bind]
  refine wp_ask ?_ (fun _ _ _ _ _ => True.intro)
  rintro w ⟨allowed, reason⟩ t hc he
  have hcheck : CoreIdentity.check w.checker decision = .ok (allowed, reason) := by
    cases h : CoreIdentity.check w.checker decision with
    | ok r => simpa [Env.answer, h, Except.mapError] using hc
    | error e => simp [Env.answer, h, Except.mapError] at hc
  cases allowed with
  | false => exact hrefused reason t
  | true =>
      show wp (builtin _ >>= _) _ _ t
      rw [wp_bind]
      cases hin : valueIn (consentGatedActionTypes env.features)
          (fetch (lit "action_type") decision) with
      | error e => exact True.intro
      | ok gated =>
          cases gated with
          | true => exact hgated w reason t hcheck he
          | false =>
              refine hungated t ?_
              rw [Bool.eq_false_iff]
              intro hg
              rw [valueIn_of_isGated hg] at hin
              cases hin

/-- A consent-gated decision passes only with the full gate. -/
theorem wp_gateDecision (decision : Obj φ) (attention : PyVal φ) (s : Run σ φ) :
    wp (gateDecision env decision attention)
      (fun r t => r.1 = true → isGated env.features decision = true → Passed env decision t.events)
      (fun _ _ => True) s := by
  refine wp_gateDecision_of (fun _ _ h => by cases h) ?_ ?_
  · intro t hno _ hyes
    rw [hno] at hyes
    cases hyes
  · intro wc reason t hcheck he
    refine wp_mono (wp_consentGate decision attention t) ?_ (fun _ _ h => h)
    intro r t₁ hpass hr _
    obtain ⟨wm, wg, wa, verdict, since, hmode, hg, hv, hsilent, he₁⟩ := hpass hr
    exact ⟨⟨wc, reason, hcheck, wm, hmode, wg, ConsentRegistry.hasGrant_iff.1 hg, wa, verdict, hv⟩,
      s.events, since, by rw [he₁, he]; simp [Gating.events], hsilent⟩

/-! ## Histories -/

/-- The decision of the payload passed its gate, and nothing was dispatched since. -/
def Cleared (env : Env σ φ) (payload : Obj φ) (events : List (Event σ φ)) : Prop :=
  ∃ (decision : Obj φ) (seq : Nat),
    payload = clean (traced seq decision) ∧ Passed env decision events

/-- Every dispatch of a consent-gated action follows the full gate of that action. -/
def FullyGated (env : Env σ φ) (events : List (Event σ φ)) : Prop :=
  ∀ before e after, events = before ++ e :: after → ∀ payload ∈ e.call.dispatched?,
    isGated env.features payload = true → Cleared env payload before

theorem FullyGated.snoc {events : List (Event σ φ)} {e : Event σ φ} (h : FullyGated env events)
    (he : ∀ payload ∈ e.call.dispatched?, isGated env.features payload = true →
      Cleared env payload events) : FullyGated env (events ++ [e]) := by
  intro before e' after heq
  rcases List.append_eq_append_iff.1 heq with ⟨more, hb, hmore⟩ | ⟨more, hb, hmore⟩
  · cases more with
    | nil =>
        obtain ⟨rfl, -⟩ : e = e' ∧ [] = after := by simpa using hmore
        rw [hb, List.append_nil]
        exact he
    | cons a more => simp at hmore
  · cases more with
    | nil =>
        obtain ⟨rfl, -⟩ : e' = e ∧ after = [] := by simpa using hmore
        rw [List.append_nil] at hb
        rw [← hb]
        exact he
    | cons a more =>
        obtain ⟨rfl, -⟩ : e' = a ∧ after = more ++ [e] := by simpa using hmore
        exact h before e' more hb

theorem FullyGated.append {events more : List (Event σ φ)} (h : FullyGated env events)
    (hs : Silent more) : FullyGated env (events ++ more) := by
  induction more generalizing events with
  | nil => rwa [List.append_nil]
  | cons e more ih =>
      rw [List.append_cons]
      refine ih (h.snoc ?_) fun e' he' => hs e' (List.mem_cons_of_mem _ he')
      rw [hs e List.mem_cons_self]
      exact fun payload hp => absurd hp (Option.not_mem_none _)

/-! ## Every task -/

/-- A dispatch keeps a history fully gated, if the decision has passed its gate. -/
theorem gateRule : DispatchRule (Stays fun s => FullyGated env s.events)
    fun decision s => isGated env.features decision = true → Passed env decision s.events where
  quiet := by
    rintro s t ⟨more, he, hs⟩ hg
    rw [he]
    exact hg.append hs
  stable := fun decision s t hg hp h => (hp h).grows hg
  dispatch := by
    intro decision seq s t w r hp he hg
    have hgated : isGated env.features (clean (traced seq decision)) =
        isGated env.features decision :=
      isGated_congr ((actionType_clean _).trans (actionType_traced seq decision))
    rw [he]
    refine hg.snoc ?_
    intro payload hpayload hpg
    obtain rfl : clean (traced seq decision) = payload := Option.some.inj hpayload
    exact ⟨decision, seq, rfl, hp (hgated ▸ hpg)⟩

/-- For every task, whatever the models and the operator answer and whatever other
threads do in between: each dispatch of a consent-gated action comes after the full
gate of that very action. -/
theorem executeTask_fullyGated (env : Env σ φ) (task : Obj φ) (w : World σ) :
    FullyGated env (history env task w) := by
  have hstart : FullyGated env ([] : List (Event σ φ)) := by
    intro before e after h
    simp at h
  have hmoves : Moves (Stays fun s => FullyGated env s.events) (executeTask env task) :=
    gateRule.everyTask wp_gateDecision task
  exact (hmoves.reaches hstart).final

end Engine

end ShugoCore
