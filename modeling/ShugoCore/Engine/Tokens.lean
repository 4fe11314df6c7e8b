import ShugoCore.Engine.Gate
import ShugoCore.Lib.Calls

/-!
# Authority at the time of the token

`_gate_decision` reads the mode of the governor, then the consent registry, and then
waits for the approval of the operator.  The policy token is attached later, by
`_execute_gated`, and neither the mode nor the registry is read again.  What another
thread takes away in between is not noticed.

Here any number of decisions go through the gate at the same time, one step at a time,
cut where a shared object is read or written.  Between their steps the operator grants and
revokes consent, time passes, and calls on the fallback controller change the mode.  A
decision goes one of two ways: a direct task makes two calls on the governor between the
gate and the token, a step of a multi-step decision makes one.
-/

namespace ShugoCore

namespace Engine

open Py Machine

/-- Where a decision is on its way from `_gate_decision` to its token. -/
inductive GatePhase where
  /-- The check of Tier 3 is next. -/
  | checking
  | readingMode
  | consenting
  /-- The broker was asked. -/
  | approving
  /-- The gate let it pass.  `governor.step(EXECUTING)` is next. -/
  | executing
  /-- `governor.consume_step(1)` is next. -/
  | consuming
  /-- `_execute_gated` is next. -/
  | issuing
  | issued
  | refused (reason : Option Str)
  | raised
deriving DecidableEq

/-- A decision on its way. -/
structure GatePass (φ : Type) where
  decision : Obj φ
  /-- The attention state of the task, or `None`. -/
  attention : PyVal φ
  /-- The decision of a task, and not of a step. -/
  direct : Bool
  phase : GatePhase

/-- A token that was attached, with the world of that moment. -/
structure Token (σ φ : Type) where
  decision : Obj φ
  world : World σ

/-- The shared objects, the decisions on their way, and the tokens. -/
structure Gateway (σ φ : Type) where
  world : World σ
  passes : List (GatePass φ)
  tokens : List (Token σ φ)

variable {σ φ : Type}

/-- `str(action_type)`. -/
def typeText [Builtins φ] (decision : Obj φ) : Str := strOf (fetch (lit "action_type") decision)

section Steps

variable [Builtins φ]

/-- What the consent check makes of what `has_grant` returns. -/
def consentVerdict (granted : Bool) (actionType attention : PyVal φ) : Bool × Option Str :=
  match attention with
  | .none => if granted then (true, none) else (false, some (noGrantText actionType))
  | attention =>
      if !(isText (lit "attending") attention || isText (lit "unknown") attention) then
        (false, some (lit "human attention is '" ++ strOf attention ++
          lit "' (need 'attending' or 'unknown')"))
      else if !granted then
        (false, some (lit "no external consent grant for '" ++ strOf actionType ++ lit "'"))
      else (true, none)

/-- The first phase after the gate. -/
def GatePass.passed (p : GatePass φ) : GatePhase := if p.direct then .executing else .consuming

/-- The phase after the check of Tier 3. -/
def GatePass.checked (f : Features) (p : GatePass φ) :
    Except Exn (Bool × Option Str) → GatePhase
  | .error _ => .raised
  | .ok (false, reason) => .refused reason
  | .ok (true, _) =>
      match valueIn (consentGatedActionTypes f) (fetch (lit "action_type") p.decision) with
      | .error _ => .raised
      | .ok true => .readingMode
      | .ok false => p.passed

/-- The phase after the consent check. -/
def consented : Bool × Option Str → GatePhase
  | (true, _) => .approving
  | (false, reason) => .refused reason

/-- The phase after a call on the governor. -/
def afterCall (next : GatePhase) : Except GovernorError Unit → GatePhase
  | .ok _ => next
  | .error _ => .raised

/-- The governor after a call. -/
def World.setGovernor (w : World σ) (g : ExecutionGovernor) : World σ :=
  { w with fallbacks := { w.fallbacks with governor := g } }

/-- The next step of a decision: its phase and the world after it.  `now` is the reading
of the monotonic clock, and `verdict` what the broker returns. -/
def GatePass.next (f : Features) (w : World σ) (p : GatePass φ) (now : Seconds) (verdict : Verdict) :
    GatePhase × World σ :=
  match p.phase with
  | .checking => (p.checked f (CoreIdentity.check w.checker p.decision), w)
  | .readingMode =>
      (if w.governor.mode = .safeState then .refused (some safeStateText) else .consenting, w)
  | .consenting =>
      (consented (consentVerdict (w.consents.hasGrant w.clock (typeText p.decision))
        (fetch (lit "action_type") p.decision) p.attention), w)
  | .approving =>
      (if verdict.approved then p.passed
        else .refused (some (lit "approval denied: " ++ verdict.reason)), w)
  | .executing =>
      let r := w.governor.step now .executing
      (afterCall .consuming r.1, w.setGovernor r.2)
  | .consuming =>
      let r := w.governor.consumeStep now 1
      (afterCall .issuing r.1, w.setGovernor r.2)
  | .issuing => (.issued, { w with decisionSeq := w.decisionSeq + 1 })
  | phase => (phase, w)

namespace Gateway

/-- What can happen next. -/
inductive Action (φ : Type) where
  /-- A decision comes to the gate. -/
  | enter (decision : Obj φ) (attention : PyVal φ) (direct : Bool)
  /-- A decision takes its next step. -/
  | advance (pass : Nat) (now : Seconds) (verdict : Verdict)
  /-- `ConsentRegistry.grant`. -/
  | grant (actionType grantedBy scope note : Str) (ttlSeconds : Option Seconds)
  /-- `ConsentRegistry.revoke`. -/
  | revoke (actionType : Str)
  /-- The wall clock shows another time. -/
  | tick (clock : Seconds)
  /-- A call on the fallback controller, or one that another task makes on the governor. -/
  | controller (op : FallbackController.Op)

/-- No decision is on its way. -/
def start (w : World σ) : Gateway σ φ := ⟨w, [], []⟩

/-- The next step of a decision, and the token if it attaches one. -/
def advance (f : Features) (s : Gateway σ φ) (i : Nat) (p : GatePass φ) (now : Seconds)
    (verdict : Verdict) : Gateway σ φ where
  world := (p.next f s.world now verdict).2
  passes := s.passes.set i { p with phase := (p.next f s.world now verdict).1 }
  tokens := if p.phase = .issuing then s.tokens ++ [⟨p.decision, s.world⟩] else s.tokens

/-- One action. -/
def step (f : Features) (s : Gateway σ φ) : Action φ → Gateway σ φ
  | .enter decision attention direct =>
      { s with passes := s.passes ++ [⟨decision, attention, direct, .checking⟩] }
  | .advance i now verdict =>
      match s.passes[i]? with
      | some p => s.advance f i p now verdict
      | none => s
  | .grant actionType grantedBy scope note ttlSeconds =>
      let consents :=
        s.world.consents.grant s.world.clock actionType grantedBy scope note ttlSeconds
      { s with world := { s.world with consents := consents } }
  | .revoke actionType =>
      { s with world := { s.world with consents := (s.world.consents.revoke actionType).2 } }
  | .tick clock => { s with world := { s.world with clock := clock } }
  | .controller op =>
      { s with world := { s.world with fallbacks := s.world.fallbacks.exec op } }

end Gateway

/-! ## Authority -/

/-- An action type has an unexpired grant. -/
def World.Granted (w : World σ) (actionType : Str) : Prop :=
  w.consents.hasGrant w.clock actionType = true

/-- When the token of a consent-gated decision was attached, its action type had an
unexpired grant and the mode was not `SAFE_STATE`. -/
def Token.Authorised (f : Features) (t : Token σ φ) : Prop :=
  isGated f t.decision = true →
    t.world.Granted (typeText t.decision) ∧ t.world.governor.mode ≠ .safeState

/-- The mode was read, and the token is not attached. -/
def GatePhase.afterMode : GatePhase → Bool
  | .consenting | .approving | .executing | .consuming | .issuing => true
  | .checking | .readingMode | .issued | .refused _ | .raised => false

/-- Consent was read, and the token is not attached. -/
def GatePhase.afterConsent : GatePhase → Bool
  | .approving | .executing | .consuming | .issuing => true
  | .checking | .readingMode | .consenting | .issued | .refused _ | .raised => false

namespace Gateway

/-- Every token was attached with authority. -/
def TokensAuthorised (f : Features) (s : Gateway σ φ) : Prop := ∀ t ∈ s.tokens, t.Authorised f

/-- Nobody takes authority away from a consent-gated decision that has read it and has no
token yet: no consent for its action type is revoked, its last unexpired grant does not
expire, and no call leads into `SAFE_STATE`. -/
def Spares (f : Features) (s : Gateway σ φ) : Action φ → Prop
  | .revoke actionType => ∀ p ∈ s.passes, isGated f p.decision = true →
      p.phase.afterConsent = true → typeText p.decision ≠ actionType
  | .tick clock => ∀ p ∈ s.passes, isGated f p.decision = true → p.phase.afterConsent = true →
      ∃ g ∈ s.world.consents.entries (typeText p.decision), g.Unexpired clock
  | .controller op => ∀ p ∈ s.passes, isGated f p.decision = true → p.phase.afterMode = true →
      (s.world.fallbacks.exec op).governor.mode ≠ .safeState
  | .enter _ _ _ | .advance _ _ _ | .grant _ _ _ _ _ => True

instance (f : Features) (s : Gateway σ φ) (a : Action φ) : Decidable (s.Spares f a) :=
  match a with
  | .revoke actionType => inferInstanceAs (Decidable (∀ p ∈ s.passes, isGated f p.decision = true →
      p.phase.afterConsent = true → typeText p.decision ≠ actionType))
  | .tick clock => inferInstanceAs (Decidable (∀ p ∈ s.passes, isGated f p.decision = true →
      p.phase.afterConsent = true →
        ∃ g ∈ s.world.consents.entries (typeText p.decision), g.Unexpired clock))
  | .controller op => inferInstanceAs (Decidable (∀ p ∈ s.passes, isGated f p.decision = true →
      p.phase.afterMode = true → (s.world.fallbacks.exec op).governor.mode ≠ .safeState))
  | .enter _ _ _ | .advance _ _ _ | .grant _ _ _ _ _ => inferInstanceAs (Decidable True)

end Gateway

end Steps

/-! ## What the steps keep -/

section Keeping

theorem hasGrant_grant {r : ConsentRegistry} {now : Seconds} {actionType : Str}
    (h : r.hasGrant now actionType = true) (t : Seconds) (type grantedBy scope note : Str)
    (ttl : Option Seconds) :
    (r.grant t type grantedBy scope note ttl).hasGrant now actionType = true := by
  rw [ConsentRegistry.hasGrant_iff] at h ⊢
  obtain ⟨g, hg, hun⟩ := h
  refine ⟨g, ?_, hun⟩
  by_cases hkey : sanitizeText type 64 = actionType
  · subst hkey
    rw [ConsentRegistry.entries, ConsentRegistry.grant, Dict.get?_set_self]
    exact List.mem_append_left _ hg
  · rw [ConsentRegistry.entries, ConsentRegistry.grant, Dict.get?_set_of_ne _ hkey]
    exact hg

theorem hasGrant_revoke {r : ConsentRegistry} {now : Seconds} {actionType type : Str}
    (h : r.hasGrant now actionType = true) (hne : actionType ≠ type) :
    (r.revoke type).2.hasGrant now actionType = true := by
  rw [ConsentRegistry.hasGrant, ConsentRegistry.entries, ConsentRegistry.revoke,
    Dict.get?_remove_of_ne _ (Ne.symm hne)]
  exact h

/-- Entering `EXECUTING` does not lead into `SAFE_STATE`. -/
theorem mode_step_executing {g : ExecutionGovernor} (h : g.mode ≠ .safeState) (now : Seconds) :
    (g.step now .executing).2.mode ≠ .safeState := by
  rcases g.step_cases now .executing with ⟨-, heq⟩ | ⟨-, -, heq⟩
  · rw [heq]
    exact h
  · rw [heq, ExecutionGovernor.mode]
    rw [ExecutionGovernor.mode] at h
    cases hl : g.latched with
    | none => simp
    | some m =>
        rw [hl] at h
        exact h

theorem mode_consumeStep (g : ExecutionGovernor) (now : Seconds) (count : Int) :
    (g.consumeStep now count).2.mode = g.mode := by
  obtain ⟨used, heq⟩ := g.consumeStep_eq now count
  rw [heq]
  rfl

variable [Builtins φ]

/-- A step of a decision changes no consent, and leads into `SAFE_STATE` from no other
mode. -/
theorem GatePass.next_keeps (f : Features) (w : World σ) (p : GatePass φ) (now : Seconds)
    (verdict : Verdict) :
    (p.next f w now verdict).2.consents = w.consents ∧ (p.next f w now verdict).2.clock = w.clock ∧
      (w.governor.mode ≠ .safeState → (p.next f w now verdict).2.governor.mode ≠ .safeState) := by
  rw [GatePass.next]
  cases hphase : p.phase with
  | executing => exact ⟨rfl, rfl, fun h => mode_step_executing h now⟩
  | consuming =>
      refine ⟨rfl, rfl, fun h => ?_⟩
      exact (mode_consumeStep w.governor now 1).symm ▸ h
  | _ => exact ⟨rfl, rfl, id⟩

theorem GatePass.next_granted {f : Features} {w : World σ} (p : GatePass φ) {now : Seconds}
    {verdict : Verdict} {actionType : Str} (h : w.Granted actionType) :
    (p.next f w now verdict).2.Granted actionType := by
  obtain ⟨hconsents, hclock, -⟩ := p.next_keeps f w now verdict
  rw [World.Granted, hconsents, hclock]
  exact h

theorem granted_of_consentVerdict {granted : Bool} {actionType attention : PyVal φ}
    (h : (consentVerdict granted actionType attention).1 = true) : granted = true := by
  cases granted with
  | true => rfl
  | false =>
      cases attention with
      | none => cases h
      | _ =>
          simp only [consentVerdict] at h
          split at h <;> cases h

/-- How a consent-gated decision gets past the mode: it has just read another mode, it
has just found a grant, or it was past both before. -/
theorem GatePass.next_afterMode {f : Features} {w : World σ} {p : GatePass φ} {now : Seconds}
    {verdict : Verdict} (hgated : isGated f p.decision = true)
    (h : (p.next f w now verdict).1.afterMode = true) :
    (p.phase = .readingMode ∧ w.governor.mode ≠ .safeState ∧
      (p.next f w now verdict).1.afterConsent = false) ∨
    (p.phase = .consenting ∧ w.Granted (typeText p.decision)) ∨ p.phase.afterConsent = true := by
  rw [GatePass.next] at h ⊢
  cases hphase : p.phase with
  | checking =>
      rw [hphase] at h
      dsimp only at h
      cases hcheck : CoreIdentity.check w.checker p.decision with
      | error exn => rw [hcheck] at h; cases h
      | ok r =>
          obtain ⟨allowed, reason⟩ := r
          cases allowed with
          | false => rw [hcheck] at h; cases h
          | true =>
              rw [hcheck, GatePass.checked, valueIn_of_isGated hgated] at h
              cases h
  | readingMode =>
      rw [hphase] at h
      dsimp only at h ⊢
      split at h
      · cases h
      · rename_i hmode
        rw [if_neg hmode]
        exact .inl ⟨rfl, hmode, rfl⟩
  | consenting =>
      rw [hphase] at h
      dsimp only at h
      refine .inr (.inl ⟨rfl, ?_⟩)
      cases hv : consentVerdict (w.consents.hasGrant w.clock (typeText p.decision))
          (fetch (lit "action_type") p.decision) p.attention with
      | mk ok reason =>
          rw [hv] at h
          cases ok with
          | false => cases h
          | true => exact granted_of_consentVerdict (congrArg Prod.fst hv)
  | approving => exact .inr (.inr rfl)
  | executing => exact .inr (.inr rfl)
  | consuming => exact .inr (.inr rfl)
  | issuing => exact .inr (.inr rfl)
  | issued => rw [hphase] at h; cases h
  | refused reason => rw [hphase] at h; cases h
  | raised => rw [hphase] at h; cases h

theorem GatePhase.afterMode_of_afterConsent {phase : GatePhase} (h : phase.afterConsent = true) :
    phase.afterMode = true := by
  cases phase <;> first | rfl | cases h

namespace Gateway

/-- What a decision has read still holds. -/
structure Authority (f : Features) (s : Gateway σ φ) : Prop where
  mode : ∀ p ∈ s.passes, isGated f p.decision = true → p.phase.afterMode = true →
    s.world.governor.mode ≠ .safeState
  granted : ∀ p ∈ s.passes, isGated f p.decision = true → p.phase.afterConsent = true →
    s.world.Granted (typeText p.decision)
  tokens : s.TokensAuthorised f

theorem authority_start (f : Features) (w : World σ) : (start w : Gateway σ φ).Authority f where
  mode _ hp := absurd hp List.not_mem_nil
  granted _ hp := absurd hp List.not_mem_nil
  tokens _ ht := absurd ht List.not_mem_nil

/-- A decision takes a step. -/
theorem Authority.advance {f : Features} {s : Gateway σ φ} (h : s.Authority f) {i : Nat}
    {p : GatePass φ} (hp : s.passes[i]? = some p) (now : Seconds) (verdict : Verdict) :
    (s.advance f i p now verdict).Authority f := by
  obtain ⟨-, -, hmode⟩ := p.next_keeps f s.world now verdict
  have hmem : p ∈ s.passes := List.mem_of_getElem? hp
  refine ⟨fun q hq hgated hafter => ?_, fun q hq hgated hafter => ?_, fun t ht => ?_⟩
  · rcases List.mem_or_eq_of_mem_set hq with hq | rfl
    · exact hmode (h.mode q hq hgated hafter)
    · rcases GatePass.next_afterMode (p := p) hgated hafter with ⟨-, hread, -⟩ | ⟨hphase, -⟩ | hphase
      · exact hmode hread
      · exact hmode (h.mode p hmem hgated (by rw [hphase]; rfl))
      · exact hmode (h.mode p hmem hgated (GatePhase.afterMode_of_afterConsent hphase))
  · rcases List.mem_or_eq_of_mem_set hq with hq | rfl
    · exact p.next_granted (h.granted q hq hgated hafter)
    · have hpast := GatePhase.afterMode_of_afterConsent hafter
      rcases GatePass.next_afterMode (p := p) hgated hpast with ⟨-, -, hnot⟩ | ⟨-, hread⟩ | hphase
      · exact absurd (hnot.symm.trans hafter) Bool.false_ne_true
      · exact p.next_granted hread
      · exact p.next_granted (h.granted p hmem hgated hphase)
  · rw [Gateway.advance] at ht
    dsimp only at ht
    split at ht
    · rename_i hphase
      rcases List.mem_append.1 ht with ht | ht
      · exact h.tokens t ht
      · rw [List.mem_singleton.1 ht]
        intro hgated
        exact ⟨h.granted p hmem hgated (by rw [hphase]; rfl),
          h.mode p hmem hgated (by rw [hphase]; rfl)⟩
    · exact h.tokens t ht

/-- An action that takes nothing away. -/
theorem Authority.step {f : Features} {s : Gateway σ φ} (h : s.Authority f) {a : Action φ}
    (ha : s.Spares f a) : (s.step f a).Authority f := by
  cases a with
  | enter decision attention direct =>
      have hnew {q : GatePass φ}
          (hq : q ∈ s.passes ++ [⟨decision, attention, direct, .checking⟩]) :
          q ∈ s.passes ∨ q.phase = .checking :=
        (List.mem_append.1 hq).imp_right fun hq => by rw [List.mem_singleton.1 hq]
      refine ⟨fun q hq hgated hafter => ?_, fun q hq hgated hafter => ?_, h.tokens⟩
      · rcases hnew hq with hq | hq
        · exact h.mode q hq hgated hafter
        · rw [hq] at hafter
          cases hafter
      · rcases hnew hq with hq | hq
        · exact h.granted q hq hgated hafter
        · rw [hq] at hafter
          cases hafter
  | advance i now verdict =>
      rw [Gateway.step]
      split
      · rename_i p hp
        exact h.advance hp now verdict
      · exact h
  | grant actionType grantedBy scope note ttlSeconds =>
      exact ⟨h.mode, fun p hp hg ha => hasGrant_grant (h.granted p hp hg ha) .., h.tokens⟩
  | revoke actionType =>
      exact ⟨h.mode, fun p hp hg hafter =>
        hasGrant_revoke (h.granted p hp hg hafter) (ha p hp hg hafter), h.tokens⟩
  | tick clock =>
      exact ⟨h.mode, fun p hp hg hafter => ConsentRegistry.hasGrant_iff.2 (ha p hp hg hafter),
        h.tokens⟩
  | controller op => exact ⟨ha, h.granted, h.tokens⟩

end Gateway

/-- In every interleaving of any number of decisions with grants, revocations, the passing
of time and calls on the controller in which nobody takes authority away from a decision
between the time it reads it and the time its token is attached: every token of a
consent-gated action is attached while its action type has an unexpired grant and the mode
is not `SAFE_STATE`. -/
theorem tokens_authorised (f : Features) (w : World σ) (as : List (Gateway.Action φ))
    (h : Meets (Gateway.step f) (Gateway.Spares f) (Gateway.start w) as) :
    Always (Gateway.step f) (Gateway.TokensAuthorised f) (Gateway.start w) as :=
  (Always.of_inv (fun _ _ hs ha => hs.step ha) (Gateway.authority_start f w) h).mono
    fun _ hs => hs.tokens

end Keeping

/-! ## A task and an operator -/

/-- The objects of an agent that has just started, without optional modules. -/
def freshWorld : World Unit where
  fallbacks := .new 50 0 {} []
  consents := {}
  checkerWired := true
  decisionSeq := 0
  taskTrail := []
  clock := 0
  monotonic := 0
  breakers := 0
  backlog := none
  rest := ()

def noFeatures : Features := ⟨false, false, false, false⟩

/-- Consent is granted, a task reaches its decision, and the gate asks the broker. -/
def untilApproval : List (Gateway.Action WholeFloat) :=
  [.grant (lit "api_call") (lit "operator") (lit "*") [] none,
    .controller (.task (.beginTask 0 none)), .controller (.task (.step 0 .gating)),
    .controller (.task (.step 0 .deciding)),
    .enter (obj [("action_type", .str (lit "api_call"))]) .none true,
    .advance 0 0 ⟨false, []⟩, .advance 0 0 ⟨false, []⟩, .advance 0 0 ⟨false, []⟩]

/-- The operator approves, and the decision goes on to its token. -/
def fromApproval : List (Gateway.Action WholeFloat) :=
  [.advance 0 0 ⟨true, lit "operator approved"⟩, .advance 0 0 ⟨false, []⟩,
    .advance 0 0 ⟨false, []⟩, .advance 0 0 ⟨false, []⟩]

/-- While the broker waits, consent for another action type is revoked.  The token is
attached with authority. -/
theorem token_after_other_revoke :
    (run (Gateway.step noFeatures) (Gateway.start freshWorld)
        (untilApproval ++ .revoke (lit "database_update") :: fromApproval)).tokens.length = 1 ∧
      Always (Gateway.step noFeatures) (Gateway.TokensAuthorised noFeatures)
        (Gateway.start freshWorld)
        (untilApproval ++ .revoke (lit "database_update") :: fromApproval) :=
  ⟨by decide +kernel, tokens_authorised noFeatures freshWorld _ (by decide +kernel)⟩

/-- While the broker waits, the operator revokes the consent.  The token is attached all
the same. -/
theorem token_after_revoke :
    ((run (Gateway.step noFeatures) (Gateway.start freshWorld)
        (untilApproval ++ .revoke (lit "api_call") :: fromApproval)).tokens.map fun t =>
          (isGated noFeatures t.decision, typeText t.decision,
            t.world.consents.hasGrant t.world.clock (typeText t.decision))) =
        [(true, lit "api_call", false)] ∧
      ¬ Always (Gateway.step noFeatures) (Gateway.TokensAuthorised noFeatures)
        (Gateway.start freshWorld)
        (untilApproval ++ .revoke (lit "api_call") :: fromApproval) := by
  have htokens : ((run (Gateway.step noFeatures) (Gateway.start freshWorld)
      (untilApproval ++ .revoke (lit "api_call") :: fromApproval)).tokens.map fun t =>
        (isGated noFeatures t.decision, typeText t.decision,
          t.world.consents.hasGrant t.world.clock (typeText t.decision))) =
      [(true, lit "api_call", false)] := by decide +kernel
  refine ⟨htokens, fun halways => ?_⟩
  have hlast : Gateway.TokensAuthorised noFeatures (run (Gateway.step noFeatures)
      (Gateway.start freshWorld) (untilApproval ++ .revoke (lit "api_call") :: fromApproval)) :=
    halways.last
  obtain ⟨t, ht, heq⟩ := List.mem_map.1 (htokens ▸ List.mem_singleton_self _)
  have hauth := (hlast t ht (congrArg Prod.fst heq)).1
  have hrevoked : t.world.consents.hasGrant t.world.clock (typeText t.decision) = false :=
    congrArg (fun r => r.2.2) heq
  exact absurd (hrevoked.symm.trans hauth) Bool.false_ne_true

end Engine

end ShugoCore
