import ShugoCore.Lib.Run
import ShugoCore.ModelHost.Headroom
import ShugoCore.ModelHost.Reconcile

/-!
# What the watchdog does over many checks

A run is a list of checks, each with what the world answers during it.  `Reconciled` lists
what one check can do, and everything else is read off it.

The failures are counted by the relaunches whose `/health` fails, and the split loses one
device for each of them.  While no launch answers and no check finds the model serving, the
relaunches are bounded by the restart budget and the splits shrink (`watchdog_converges`).
A relaunch that answers `/health` and fails its probe resets the count, and one that raises is
not counted; neither is covered.

The budget and the number of devices are independent.  The model is tried on its own before
the watchdog gives up if and only if the split it started with is over fewer devices than
there are restarts, or `start` itself has tried it on its own (`local_fallback_iff`).
-/

namespace ShugoCore

open Py Machine

variable {φ : Type} [Builtins φ]

namespace ModelHost

/-! ## The weakest device -/

theorem weakest_mem (headroom : Dict Str Int) (d : Str) (ds : List Str) :
    weakest headroom d ds ∈ d :: ds := by
  induction ds generalizing d with
  | nil => exact List.mem_cons_self
  | cons e ds ih =>
      change weakest headroom (if weaker headroom e d then e else d) ds ∈ _
      rcases List.mem_cons.1 (ih (if weaker headroom e d then e else d)) with heq | hmem
      · rw [heq]
        split <;> simp
      · exact List.mem_cons_of_mem _ (List.mem_cons_of_mem _ hmem)

/-! ## One check -/

/-- Nothing was launched and nothing was given up. -/
def Outcome.Quiet : Outcome → Prop
  | .hold | .deferred | .raised false _ => True
  | _ => False

/-- What a check can do. -/
inductive Reconciled (c : HostConfig φ) (h : ModelHost) (i : Check φ) : Outcome → ModelHost → Prop
  | idle : ¬ h.status.mode.Running → Reconciled c h i .hold h
  | conflict : h.status.mode.Running → Reconciled c h i .conflict h
  | gaveUp : h.status.mode.Running → h.serving i = false → c.maxRestarts ≤ h.failures →
      Reconciled c h i .gaveUp h.giveUp
  | again {l : Launch} {h' : ModelHost} : h.status.mode.Running → h.serving i = false →
      h.failures = 0 → h.failures < c.maxRestarts →
      Relaunched h h.status.assignments i.start l h' → Reconciled c h i (.restart l) h'
  | degraded {l : Launch} {h' : ModelHost} : h.status.mode.Running → h.serving i = false →
      h.failures ≠ 0 → h.failures < c.maxRestarts →
      Relaunched h (degradeSplit h.status.headroom h.status.assignments) i.start l h' →
      Reconciled c h i (.restart l) h'
  | rebalanced {desired : Dict Str Int} {h₁ h' : ModelHost} {l : Launch} :
      h.status.mode.Running → h.serving i = true →
      { h with failures := 0 }.rebalance c i = (.relaunch desired, h₁) →
      Relaunched { h with failures := 0 } desired i.start l h' → Reconciled c h i (.restart l) h'
  | kept {o : Outcome} {h' : ModelHost} : h.status.mode.Running → h.serving i = true →
      o.Quiet → { h with failures := 0 }.Agrees h' → Reconciled c h i o h'
  | broken {e : Exn} {h' : ModelHost} : Reconciled c h i (.raised true e) h'

omit [Builtins φ] in
theorem Relaunched.of_agrees {h₀ h h' : ModelHost} {wanted : Dict Str Int} {i : StartInput φ}
    {l : Launch} (ha : h₀.Agrees h) (hr : Relaunched h wanted i l h') :
    Relaunched h₀ wanted i l h' :=
  ⟨hr.toLaunched, hr.split, ha.failures ▸ hr.failures⟩

theorem reconcile_spec {c : HostConfig φ} (hpath : c.modelPath ≠ []) (h : ModelHost) (i : Check φ) :
    Reconciled c h i (h.reconcile c i).1 (h.reconcile c i).2 := by
  simp only [reconcile]
  by_cases hrun : h.status.mode.Running
  case neg =>
    rw [if_neg hrun]
    exact .idle hrun
  rw [if_pos hrun]
  simp only [watchdogPlan]
  by_cases hconflict : (!h.alive i && i.portServing) = true
  · rw [if_pos hconflict]
    exact .conflict hrun
  rw [if_neg hconflict]
  by_cases hserving : h.serving i = true
  · rw [if_pos hserving]
    dsimp only
    have hagrees := agrees_rebalance c { h with failures := 0 } i
    cases hr : { h with failures := 0 }.rebalance c i with
    | mk r h₁ =>
        rw [hr] at hagrees
        cases r with
        | hold => exact .kept hrun hserving trivial hagrees
        | deferred => exact .kept hrun hserving trivial hagrees
        | raised e => exact .kept hrun hserving trivial hagrees
        | relaunch desired =>
            obtain ⟨e, he⟩ | ⟨l, hl, hspec⟩ := relaunch_spec hpath h₁ desired i
            · simp only [carryOut, he]
              exact .broken
            · simp only [carryOut, hl]
              exact .rebalanced hrun hserving hr (.of_agrees hagrees hspec)
  rw [if_neg hserving]
  rw [Bool.not_eq_true] at hserving
  by_cases hbudget : c.maxRestarts ≤ h.failures
  · rw [if_pos hbudget]
    exact .gaveUp hrun hserving hbudget
  rw [if_neg hbudget]
  by_cases hfirst : h.failures = 0
  · rw [if_pos hfirst]
    dsimp only
    obtain ⟨e, he⟩ | ⟨l, hl, hspec⟩ := relaunch_spec hpath h h.status.assignments i
    · rw [he]
      exact .broken
    · rw [hl]
      exact .again hrun hserving hfirst (Nat.not_le.1 hbudget) hspec
  rw [if_neg hfirst]
  dsimp only
  obtain ⟨e, he⟩ | ⟨l, hl, hspec⟩ :=
    relaunch_spec hpath h (degradeSplit h.status.headroom h.status.assignments) i
  · rw [he]
    exact .broken
  · rw [hl]
    exact .degraded hrun hserving hfirst (Nat.not_le.1 hbudget) hspec

/-! ## Runs of checks -/

/-- The host that a check leaves. -/
abbrev step (c : HostConfig φ) (h : ModelHost) (i : Check φ) : ModelHost := (h.reconcile c i).2

/-- What the checks of a run return. -/
def outcomes (c : HostConfig φ) : ModelHost → List (Check φ) → List Outcome
  | _, [] => []
  | h, i :: is => (h.reconcile c i).1 :: outcomes c (step c h i) is

/-- The split of a relaunch. -/
def Outcome.split? : Outcome → Option (Dict Str Int)
  | .restart l => some l.assignments
  | _ => none

/-- The splits of the relaunches of a run. -/
def splits (os : List Outcome) : List (Dict Str Int) := os.filterMap Outcome.split?

/-- A relaunch of this check does not raise, and does not answer `/health`. -/
def Outcome.Unhealthy : Outcome → Prop
  | .restart l => l.health = false
  | .raised true _ => False
  | _ => True

/-- A check that does not find the model serving. -/
def Down (h : ModelHost) (i : Check φ) : Prop := h.serving i = false

instance (h : ModelHost) (i : Check φ) : Decidable (h.Down i) := inferInstanceAs (Decidable (_ = _))

/-- A host that was started, and has not failed since. -/
structure Started (c : HostConfig φ) (h : ModelHost) : Prop where
  path : c.modelPath ≠ []
  planned : ∃ perToken, c.cacheBytesPerLayer = .ok perToken
  running : h.status.mode.Running
  nodup : (h.status.assignments.map Prod.fst).Nodup
  fresh : h.failures = 0

/-- A plan gives each device its layers once. -/
theorem planned_nodup {c : HostConfig φ} {h h' : ModelHost} {p : PlanInput φ}
    {extraExclude : Dict Str Str} {plan : FleetPlan φ}
    (hplan : h.planned c p extraExclude = .ok (plan, h')) :
    (plan.assignments.map Prod.fst).Nodup ∧ ∃ perToken, c.cacheBytesPerLayer = .ok perToken := by
  unfold planned at hplan
  cases hr : c.plan h.refused p.peers extraExclude p.fileSize p.now with
  | error e => rw [hr] at hplan; cases hplan
  | ok r =>
      rw [hr] at hplan
      cases hplan
      obtain ⟨perToken, hcache, hassigned⟩ := HostModel.plan_assignments hr
      refine ⟨?_, perToken, hcache⟩
      rw [hassigned]
      exact (Dict.nodup_ofPairs _).sublist (List.filter_sublist.map Prod.fst)

theorem started_bringUp {c : HostConfig φ} {h : ModelHost} (headroom : Dict Str Int)
    {wanted : Dict Str Int} (hpath : c.modelPath ≠ []) (hcache : ∃ perToken, c.cacheBytesPerLayer = .ok perToken)
    (hnodup : (wanted.map Prod.fst).Nodup) (hfresh : h.failures = 0) (i : StartInput φ) :
    Started c (h.bringUp c headroom wanted i).2 := by
  have hl := h.bringUp_launched c headroom wanted i
  refine ⟨hpath, hcache, hl.running, ?_, (h.bringUp_failures c headroom wanted i).trans hfresh⟩
  rw [hl.assignments, h.bringUp_split c headroom wanted i]
  exact hnodup.sublist (List.filter_sublist.map Prod.fst)

/-- A call of `start`, with its own plan or with a split of the caller's. -/
inductive StartCall (c : HostConfig φ) (h₀ : ModelHost) (i₀ : StartInput φ) (l₀ : Launch)
    (h : ModelHost) : Prop
  | plan : h₀.start c i₀ = .ok (l₀, h) → StartCall c h₀ i₀ l₀ h
  | given {wanted : Dict Str Int} : (wanted.map Prod.fst).Nodup →
      h₀.startSplit c wanted i₀ = .ok (l₀, h) → StartCall c h₀ i₀ l₀ h

section StartCall

variable {c : HostConfig φ} {h₀ h : ModelHost} {i₀ : StartInput φ} {l₀ : Launch}

/-- A call of `start` brings a split up, unless a plan raises. -/
theorem StartCall.bringUp (hcall : StartCall c h₀ i₀ l₀ h) (hpath : c.modelPath ≠ []) :
    ∃ (h₁ : ModelHost) (headroom wanted : Dict Str Int),
      h₁.failures = h₀.failures ∧ (wanted.map Prod.fst).Nodup ∧
      (∃ perToken, c.cacheBytesPerLayer = .ok perToken) ∧
      h₁.bringUp c headroom wanted i₀ = (l₀, h) := by
  cases hcall with
  | plan hstart =>
      unfold start at hstart
      rw [if_neg hpath] at hstart
      cases hplan : h₀.planned c i₀.plan [] with
      | error e => rw [hplan] at hstart; cases hstart
      | ok r =>
          obtain ⟨plan, h₁⟩ := r
          rw [hplan] at hstart
          simp only [bind, Except.bind] at hstart
          have hfailures := (agrees_planned hplan).failures
          split at hstart
          · obtain ⟨hnodup, hcache⟩ := planned_nodup hplan
            exact ⟨_, _, _, hfailures, hnodup, hcache, Except.ok.inj hstart⟩
          · rename_i p _
            cases hplan' : h₁.planned c p [] with
            | error e => rw [hplan'] at hstart; cases hstart
            | ok r =>
                obtain ⟨plan', h₂⟩ := r
                rw [hplan'] at hstart
                obtain ⟨hnodup, hcache⟩ := planned_nodup hplan'
                exact ⟨_, _, _, (agrees_planned hplan').failures.trans hfailures, hnodup, hcache,
                  Except.ok.inj hstart⟩
  | given hnodup hstart =>
      unfold startSplit at hstart
      rw [if_neg hpath] at hstart
      cases hplan : h₀.planned c i₀.plan [] with
      | error e => rw [hplan] at hstart; cases hstart
      | ok r =>
          obtain ⟨plan, h₁⟩ := r
          rw [hplan] at hstart
          exact ⟨_, _, _, (agrees_planned hplan).failures, hnodup, (planned_nodup hplan).2,
            Except.ok.inj hstart⟩

/-- `start` gives a started host, whatever the world answers. -/
theorem StartCall.started (hcall : StartCall c h₀ i₀ l₀ h) (hpath : c.modelPath ≠ [])
    (hfresh : h₀.failures = 0) : Started c h := by
  obtain ⟨h₁, headroom, wanted, hfailures, hnodup, hcache, heq⟩ := hcall.bringUp hpath
  have hend := started_bringUp headroom hpath hcache hnodup (hfailures.trans hfresh) i₀
  rwa [heq] at hend

/-- The host runs with the split of the launch. -/
theorem StartCall.assignments (hcall : StartCall c h₀ i₀ l₀ h) (hpath : c.modelPath ≠ []) :
    h.status.assignments = l₀.assignments := by
  obtain ⟨h₁, headroom, wanted, -, -, -, heq⟩ := hcall.bringUp hpath
  have hl := h₁.bringUp_launched c headroom wanted i₀
  rw [heq] at hl
  exact hl.assignments

end StartCall

/-- A host that is not running stays as it is. -/
theorem outcomes_of_idle {c : HostConfig φ} {h : ModelHost} (hidle : ¬ h.status.mode.Running)
    (is : List (Check φ)) : ∀ o ∈ outcomes c h is, o = .hold := by
  have hstays : ∀ i : Check φ, h.reconcile c i = (.hold, h) := fun i => if_neg hidle
  induction is with
  | nil => exact fun o ho => nomatch ho
  | cons i is ih =>
      intro o ho
      rw [outcomes, step, hstays i] at ho
      rcases List.mem_cons.1 ho with ho | ho
      · exact ho
      · exact ih o ho

theorem splits_of_idle {c : HostConfig φ} {h : ModelHost} (hidle : ¬ h.status.mode.Running)
    (is : List (Check φ)) : splits (outcomes c h is) = [] := by
  refine List.filterMap_eq_nil_iff.2 fun o ho => ?_
  rw [outcomes_of_idle hidle is o ho]
  rfl

theorem giveUp_idle (h : ModelHost) : ¬ h.giveUp.status.mode.Running := fun hrun => hrun.2 rfl

/-! ## The bench -/

/-- Every device answers, and the model is launched and does not answer. -/
def deadStart : StartInput φ where
  plan := ⟨[], 0, 0⟩
  settled := none
  reach := fun _ => .answered
  pinnedAt := fun _ => 0
  portServing := false
  launch := .started
  health := false
  probe := false

/-- The model is found dead. -/
def deadCheck : Check φ where
  force := false
  running := false
  portServing := false
  health := false
  probe := false
  plan := ⟨[], 0, 0⟩
  now := 0
  reach := fun _ => .answered
  pinnedAt := fun _ => 0
  replan := ⟨[], 0, 0⟩
  relaunchedAt := 0
  start := deadStart

/-- The bench model, with the restarts of the default. -/
def benchConfig : HostConfig WholeFloat where
  toHostModel := HostModel.benchHost 2048
  modelPath := lit "model.gguf"
  thermalPin := 300
  unreachablePin := 300
  cooldown := 300
  stableRuns := 2
  maxRestarts := 3

/-- A phone with room for five layers. -/
def roomForFive (name : String) : PyVal WholeFloat :=
  .dict (obj [("node_id", .str (lit name)), ("mem_available_bytes", .int 5003560)])

/-- The model answers `/health` and fails its probe. -/
def loadingStart (phones : List String) : StartInput WholeFloat :=
  { deadStart with plan := ⟨phones.map roomForFive, 24000000, 0⟩, health := true }

/-- The host, started with these phones. -/
def startedWith (phones : List String) : ModelHost :=
  ((new.start benchConfig (loadingStart phones)).toOption.map Prod.snd).getD new

/-- The process runs and answers `/health`, and its probe fails, before and after a relaunch. -/
def loadingCheck : Check WholeFloat :=
  { deadCheck with running := true, health := true, start := loadingStart [] }

/-- The process is dead, and planning its relaunch raises: the size of a phone's memory is infinite
in its heartbeat. -/
def raisingCheck : Check WholeFloat :=
  let phone : PyVal WholeFloat := .dict
    (obj [("node_id", .str (lit "a16")), ("mem_available_bytes", .float .posInf)])
  { deadCheck with start := { deadStart with plan := ⟨[phone], 24000000, 0⟩ } }

theorem startCall_startedWith {phones : List String}
    (h : (new.start benchConfig (loadingStart phones)).toOption.isSome) :
    ∃ l₀, StartCall benchConfig new (loadingStart phones) l₀ (startedWith phones) := by
  simp only [startedWith]
  cases hstart : new.start benchConfig (loadingStart phones) with
  | error e => rw [hstart] at h; cases h
  | ok r => exact ⟨r.1, .plan hstart⟩

theorem started_startedWith {phones : List String}
    (h : (new.start benchConfig (loadingStart phones)).toOption.isSome) :
    Started benchConfig (startedWith phones) := by
  obtain ⟨l₀, hcall⟩ := startCall_startedWith h
  exact hcall.started (by decide) rfl

/-- One phone, and a model that never answers. -/
theorem outcomes_one_phone :
    outcomes benchConfig (startedWith ["a16"]) (List.replicate 4 deadCheck) =
      [.restart ⟨[(lit "a16", 5)], true, false⟩, .restart ⟨[], true, false⟩,
        .restart ⟨[], true, false⟩, .gaveUp] := by
  decide +kernel

/-! ## The restart budget -/

/-- A split over fewer devices, or still over none. -/
def Fewer (a b : Dict Str Int) : Prop := b.length < a.length ∨ (a = [] ∧ b = [])

theorem degradeSplit_length_lt (headroom : Dict Str Int) {split : Dict Str Int} (h : split ≠ []) :
    (degradeSplit headroom split).length < split.length := by
  cases split with
  | nil => exact absurd rfl h
  | cons i split =>
      have hmem := weakest_mem headroom i.1 (split.map Prod.fst)
      rw [← List.map_cons] at hmem
      obtain ⟨j, hj, hkey⟩ := List.mem_map.1 hmem
      refine List.length_filter_lt_length_iff_exists.2 ⟨j, hj, ?_⟩
      simp [hkey]

/-- Whoever answers of a degraded split is fewer than the split. -/
theorem fewer_degradeSplit (headroom split : Dict Str Int) (p : Str × Int → Bool) :
    Fewer split ((degradeSplit headroom split).filter p) := by
  by_cases h : split = []
  · subst h
    exact .inr ⟨rfl, rfl⟩
  · exact .inl ((List.length_filter_le ..).trans_lt (degradeSplit_length_lt headroom h))

/-- A check of a run in which the model does not serve and no launch answers. -/
inductive Failing (c : HostConfig φ) (h : ModelHost) : Outcome → ModelHost → Prop
  | idle : ¬ h.status.mode.Running → Failing c h .hold h
  | conflict : h.status.mode.Running → Failing c h .conflict h
  | gaveUp {h' : ModelHost} : c.maxRestarts ≤ h.failures → ¬ h'.status.mode.Running →
      Failing c h .gaveUp h'
  | restart {l : Launch} {h' : ModelHost} : h.failures < c.maxRestarts →
      h'.failures = h.failures + 1 → h'.status.mode.Running →
      h'.status.assignments = l.assignments →
      (h.failures ≠ 0 → Fewer h.status.assignments l.assignments) → Failing c h (.restart l) h'

section Down

variable {c : HostConfig φ}

theorem failing_step (hpath : c.modelPath ≠ []) {h : ModelHost} {i : Check φ} (hdown : h.Down i)
    (hfail : (h.reconcile c i).1.Unhealthy) : Failing c h (h.reconcile c i).1 (step c h i) := by
  have hspec := reconcile_spec hpath h i
  simp only [step]
  generalize h.reconcile c i = r at *
  obtain ⟨o, h'⟩ := r
  cases hspec with
  | idle hidle => exact .idle hidle
  | conflict hrun => exact .conflict hrun
  | gaveUp hrun hs hbudget => exact .gaveUp hbudget h.giveUp_idle
  | again hrun hs hzero hbudget hr =>
      have hl : _ = false := hfail
      refine .restart hbudget ?_ hr.running hr.assignments (fun hne => absurd hzero hne)
      rw [hr.failures, hl]
      rfl
  | degraded hrun hs hzero hbudget hr =>
      have hl : _ = false := hfail
      refine .restart hbudget ?_ hr.running hr.assignments (fun _ => ?_)
      · rw [hr.failures, hl]
        rfl
      · rw [hr.split]
        exact fewer_degradeSplit ..
  | rebalanced hrun hs => exact absurd hdown (by simp [Down, hs])
  | kept hrun hs => exact absurd hdown (by simp [Down, hs])
  | broken => exact hfail.elim

/-- The relaunches of a run are paid from the restart budget. -/
theorem splits_length_le (hpath : c.modelPath ≠ []) {is : List (Check φ)} {h : ModelHost}
    (hdown : Meets (step c) Down h is) (hfail : ∀ o ∈ outcomes c h is, o.Unhealthy)
    (hbudget : h.failures ≤ c.maxRestarts) :
    (splits (outcomes c h is)).length + h.failures ≤ c.maxRestarts := by
  induction is generalizing h with
  | nil => simpa [outcomes, splits] using hbudget
  | cons i is ih =>
      rw [outcomes, List.forall_mem_cons] at hfail
      have hstep := failing_step hpath hdown.1 hfail.1
      have hrest := ih hdown.2 hfail.2
      rw [outcomes, splits, List.filterMap_cons]
      generalize h.reconcile c i = r, step c h i = h' at hstep hrest
      obtain ⟨o, h''⟩ := r
      cases hstep with
      | idle hidle => exact hrest hbudget
      | conflict hrun => exact hrest hbudget
      | gaveUp _ hidle =>
          have hnone : List.filterMap Outcome.split? (outcomes c h' is) = [] := splits_of_idle hidle is
          simpa only [Outcome.split?, hnone, List.length_nil, Nat.zero_add] using hbudget
      | restart hlt hcount _ _ _ =>
          have hrest := hrest (by omega)
          simp only [splits] at hrest
          simp only [Outcome.split?, List.length_cons]
          omega

/-- More checks than the budget has restarts, conflicts apart, and one of them gives up. -/
theorem gaveUp_mem_outcomes (hpath : c.modelPath ≠ []) {is : List (Check φ)} {h : ModelHost}
    (hdown : Meets (step c) Down h is) (hfail : ∀ o ∈ outcomes c h is, o.Unhealthy)
    (hrun : h.status.mode.Running) (hbudget : h.failures ≤ c.maxRestarts)
    (hmany : c.maxRestarts < ((outcomes c h is).filter (· ≠ .conflict)).length + h.failures) :
    .gaveUp ∈ outcomes c h is := by
  induction is generalizing h with
  | nil =>
      simp only [outcomes, List.filter_nil, List.length_nil] at hmany
      omega
  | cons i is ih =>
      rw [outcomes, List.forall_mem_cons] at hfail
      have hstep := failing_step hpath hdown.1 hfail.1
      have hrest := ih hdown.2 hfail.2
      rw [outcomes] at hmany ⊢
      generalize h.reconcile c i = r, step c h i = h' at hstep hrest hmany
      obtain ⟨o, h''⟩ := r
      cases hstep with
      | idle hidle => exact absurd hrun hidle
      | conflict _ => exact List.mem_cons_of_mem _ (hrest hrun hbudget (by simpa using hmany))
      | gaveUp _ _ => exact List.mem_cons_self
      | restart hlt hcount hrun' _ _ =>
          refine List.mem_cons_of_mem _ (hrest hrun' (by omega) ?_)
          rw [List.filter_cons_of_pos (by simp), List.length_cons] at hmany
          omega

/-- Once a relaunch has failed, each split is over fewer devices than the one before. -/
theorem isChain_fewer_cons (hpath : c.modelPath ≠ []) {is : List (Check φ)} {h : ModelHost}
    (hdown : Meets (step c) Down h is) (hfail : ∀ o ∈ outcomes c h is, o.Unhealthy)
    (hfailed : h.failures ≠ 0) :
    List.IsChain Fewer (h.status.assignments :: splits (outcomes c h is)) := by
  induction is generalizing h with
  | nil => exact List.isChain_singleton _
  | cons i is ih =>
      rw [outcomes, List.forall_mem_cons] at hfail
      have hstep := failing_step hpath hdown.1 hfail.1
      have hrest := ih hdown.2 hfail.2
      rw [outcomes, splits, List.filterMap_cons]
      generalize h.reconcile c i = r, step c h i = h' at hstep hrest
      obtain ⟨o, h''⟩ := r
      cases hstep with
      | idle _ => exact hrest hfailed
      | conflict _ => exact hrest hfailed
      | gaveUp _ hidle =>
          have hnone : List.filterMap Outcome.split? (outcomes c h' is) = [] := splits_of_idle hidle is
          simp only [Outcome.split?, hnone]
          exact List.isChain_singleton _
      | restart _ hcount _ hassigned hfewer =>
          have hrest := hrest (by omega)
          rw [hassigned] at hrest
          exact List.isChain_cons_cons.2 ⟨hfewer hfailed, hrest⟩

/-- The splits of a run shrink. -/
theorem isChain_fewer (hpath : c.modelPath ≠ []) {is : List (Check φ)} {h : ModelHost}
    (hdown : Meets (step c) Down h is) (hfail : ∀ o ∈ outcomes c h is, o.Unhealthy) :
    List.IsChain Fewer (splits (outcomes c h is)) := by
  induction is generalizing h with
  | nil => exact List.isChain_nil
  | cons i is ih =>
      rw [outcomes, List.forall_mem_cons] at hfail
      have hstep := failing_step hpath hdown.1 hfail.1
      have hrest := ih hdown.2 hfail.2
      have hfrom := isChain_fewer_cons hpath hdown.2 hfail.2
      rw [outcomes, splits, List.filterMap_cons]
      generalize h.reconcile c i = r, step c h i = h' at hstep hrest hfrom
      obtain ⟨o, h''⟩ := r
      cases hstep with
      | idle _ => exact hrest
      | conflict _ => exact hrest
      | gaveUp _ _ => exact hrest
      | restart _ hcount _ hassigned _ =>
          have hfrom := hfrom (by omega)
          rw [hassigned] at hfrom
          exact hfrom

end Down

/-- In every run in which the model never serves and no relaunch raises or answers `/health`, the
relaunches are no more than the restarts there are, the watchdog gives up once it has
made more checks than that (a port in use apart), and each relaunch after the first is
over fewer devices than the one before, or is over none like it. -/
theorem watchdog_converges {c : HostConfig φ} {h : ModelHost} (hstart : Started c h)
    {is : List (Check φ)} (hdown : Meets (step c) Down h is)
    (hfail : ∀ o ∈ outcomes c h is, o.Unhealthy) :
    (splits (outcomes c h is)).length ≤ c.maxRestarts ∧
      (c.maxRestarts < ((outcomes c h is).filter (· ≠ .conflict)).length →
        .gaveUp ∈ outcomes c h is) ∧
      List.IsChain Fewer (splits (outcomes c h is)) := by
  have hfresh := hstart.fresh
  refine ⟨?_, fun hmany => ?_, isChain_fewer hstart.path hdown hfail⟩
  · have hle := splits_length_le hstart.path hdown hfail (by omega)
    omega
  · exact gaveUp_mem_outcomes hstart.path hdown hfail hstart.running (by omega) (by omega)

/-- With one phone, three relaunches and the watchdog gives up. -/
theorem one_phone_converges :
    Started benchConfig (startedWith ["a16"]) ∧
      .gaveUp ∈ outcomes benchConfig (startedWith ["a16"]) (List.replicate 4 deadCheck) ∧
      (splits (outcomes benchConfig (startedWith ["a16"]) (List.replicate 4 deadCheck))).length ≤ 3 := by
  have hstart : Started benchConfig (startedWith ["a16"]) := started_startedWith (by decide +kernel)
  have hfail : ∀ o ∈ outcomes benchConfig (startedWith ["a16"]) (List.replicate 4 deadCheck),
      o.Unhealthy := by
    rw [outcomes_one_phone]
    simp [Outcome.Unhealthy]
  have hdown : Meets (step benchConfig) Down (startedWith ["a16"]) (List.replicate 4 deadCheck) := by
    decide +kernel
  obtain ⟨hlength, hgave, -⟩ := watchdog_converges hstart hdown hfail
  exact ⟨hstart, hgave (by rw [outcomes_one_phone]; decide), hlength⟩

/-- A model that answers `/health` and fails every probe is launched again and again with the
same phone.  One that does not answer `/health` is launched without a phone twice.  A relaunch
that raises is not counted, and is tried again and again. -/
theorem relaunched_with_same_split :
    Meets (step benchConfig) Down (startedWith ["a16"]) (List.replicate 5 loadingCheck) ∧
      outcomes benchConfig (startedWith ["a16"]) (List.replicate 5 loadingCheck) =
        List.replicate 5 (.restart ⟨[(lit "a16", 5)], true, true⟩) ∧
      Meets (step benchConfig) Down (startedWith ["a16"]) (List.replicate 4 deadCheck) ∧
      splits (outcomes benchConfig (startedWith ["a16"]) (List.replicate 4 deadCheck)) =
        [[(lit "a16", 5)], [], []] ∧
      Meets (step benchConfig) Down (startedWith ["a16"]) (List.replicate 5 raisingCheck) ∧
      outcomes benchConfig (startedWith ["a16"]) (List.replicate 5 raisingCheck) =
        List.replicate 5 (.raised true .overflowError) := by
  refine ⟨by decide +kernel, by decide +kernel, by decide +kernel, ?_, by decide +kernel,
    by decide +kernel⟩
  rw [outcomes_one_phone]
  rfl

/-! ## The local launch -/

/-- The model is run alone, or with fewer devices than there are restarts. -/
def Modest (c : HostConfig φ) (split : Dict Str Int) : Prop :=
  split = [] ∨ split.length < c.maxRestarts

/-- A rebalance of this check begins with a modest split. -/
def ModestRebalance (c : HostConfig φ) (h : ModelHost) (i : Check φ) : Prop :=
  h.serving i = true → ∀ desired h₁,
    { h with failures := 0 }.rebalance c i = (.relaunch desired, h₁) → Modest c desired

/-- Every relaunch is launched, and fails its health check. -/
def Outcome.FailsHealth : Outcome → Prop
  | .restart l => l.launched = true ∧ l.health = false
  | .raised true _ => False
  | _ => True

/-- There are restarts left for every device of the split. -/
def InBudget (c : HostConfig φ) (h : ModelHost) : Prop :=
  h.status.assignments = [] ∨ h.status.assignments.length + max 1 h.failures ≤ c.maxRestarts

/-- The model runs alone, and there is no restart left. -/
structure Exhausted (c : HostConfig φ) (h : ModelHost) : Prop where
  alone : h.status.assignments = []
  spent : c.maxRestarts ≤ h.failures

section Local

variable {c : HostConfig φ}

omit [Builtins φ] in
theorem InBudget.of_relaunched {h h' : ModelHost} {wanted : Dict Str Int} {i : StartInput φ}
    {l : Launch} (hr : Relaunched h wanted i l h') (hl : l.health = false)
    (hbudget : wanted = [] ∨ wanted.length + (h.failures + 1) ≤ c.maxRestarts) : InBudget c h' := by
  have hfailures : h'.failures = h.failures + 1 := by
    rw [hr.failures, hl]
    rfl
  simp only [InBudget]
  rw [hr.assignments, hr.split, hfailures]
  rcases hbudget with rfl | hbudget
  · exact .inl rfl
  · right
    have hle := List.length_filter_le (fun item => (i.reach item.1).refusal.isNone) wanted
    omega

/-- A check keeps a restart for every device.  It gives up on a local split only, and a
split becomes local by a relaunch. -/
theorem inBudget_step (hpath : c.modelPath ≠ []) {h : ModelHost} {i : Check φ}
    (hbudget : InBudget c h) (hfail : (h.reconcile c i).1.FailsHealth)
    (hmodest : ModestRebalance c h i) :
    InBudget c (step c h i) ∧ ((h.reconcile c i).1 = .gaveUp → h.Exhausted c) ∧
      ((step c h i).Exhausted c →
        (h.reconcile c i).1.split? = none ∧ h.Exhausted c ∨
          ∃ l, (h.reconcile c i).1 = .restart l ∧ l.assignments = []) := by
  have hspec := reconcile_spec hpath h i
  simp only [step]
  generalize h.reconcile c i = r at *
  obtain ⟨o, h'⟩ := r
  cases hspec with
  | idle _ => exact ⟨hbudget, fun ho => (nomatch ho), fun hused => .inl ⟨rfl, hused⟩⟩
  | conflict _ => exact ⟨hbudget, fun ho => (nomatch ho), fun hused => .inl ⟨rfl, hused⟩⟩
  | gaveUp _ _ hused =>
      refine ⟨hbudget, fun _ => ⟨?_, hused⟩, fun hused => .inl ⟨rfl, hused.alone, hused.spent⟩⟩
      rcases hbudget with hnil | hbudget
      · exact hnil
      · refine List.eq_nil_of_length_eq_zero ?_
        omega
  | again _ _ hzero _ hr =>
      refine ⟨.of_relaunched hr hfail.2 ?_, fun ho => (nomatch ho), fun hused => .inr ⟨_, rfl, ?_⟩⟩
      · exact hbudget.imp_right fun hb => by omega
      · rw [← hr.assignments, hused.alone]
  | degraded _ _ hne _ hr =>
      refine ⟨.of_relaunched hr hfail.2 ?_, fun ho => (nomatch ho), fun hused => .inr ⟨_, rfl, ?_⟩⟩
      · by_cases hempty : h.status.assignments = []
        · left
          rw [hempty]
          rfl
        · right
          have hlt := degradeSplit_length_lt h.status.headroom hempty
          have hb := hbudget.resolve_left hempty
          omega
      · rw [← hr.assignments, hused.alone]
  | rebalanced _ hserving hto hr =>
      refine ⟨.of_relaunched hr hfail.2 ?_, fun ho => (nomatch ho), fun hused => .inr ⟨_, rfl, ?_⟩⟩
      · exact hmodest hserving _ _ hto
      · rw [← hr.assignments, hused.alone]
  | kept _ _ hquiet hagrees =>
      have hstatus := hagrees.status
      have hfailures := hagrees.failures
      dsimp only at hstatus hfailures
      refine ⟨?_, fun ho => ?_, fun hused => .inl ⟨?_, ?_, ?_⟩⟩
      · simp only [InBudget]
        rw [hstatus, hfailures]
        exact hbudget.imp_right fun hb => by omega
      · have ho : o = .gaveUp := ho
        subst ho
        exact hquiet.elim
      · cases o with
        | restart l => exact hquiet.elim
        | _ => rfl
      · have halone := hused.alone
        rwa [hstatus] at halone
      · have hspent := hused.spent
        rw [hfailures] at hspent
        exact hspent.trans (Nat.zero_le _)
  | broken => exact hfail.elim

/-- With a restart for every device, giving up comes after a local relaunch, or the host was local
and without a restart from the beginning and there was no relaunch. -/
theorem gaveUp_after_local (hpath : c.modelPath ≠ []) {is : List (Check φ)} {h : ModelHost}
    (hbudget : InBudget c h) (hfail : ∀ o ∈ outcomes c h is, o.FailsHealth)
    (hmodest : Meets (step c) (ModestRebalance c) h is) {before after : List Outcome}
    (hsplit : outcomes c h is = before ++ .gaveUp :: after) :
    (h.Exhausted c ∧ splits before = []) ∨ ∃ l, .restart l ∈ before ∧ l.assignments = [] := by
  induction is generalizing h before with
  | nil => simp [outcomes] at hsplit
  | cons i is ih =>
      rw [outcomes] at hsplit hfail
      rw [List.forall_mem_cons] at hfail
      obtain ⟨hnext, hgave, hlocal⟩ := inBudget_step hpath hbudget hfail.1 hmodest.1
      cases before with
      | nil => exact .inl ⟨hgave (List.cons.inj hsplit).1, rfl⟩
      | cons o before =>
          obtain ⟨ho, hsplit⟩ := List.cons.inj hsplit
          rw [ho] at hlocal
          rcases ih hnext hfail.2 hmodest.2 hsplit with ⟨hused, hnone⟩ | ⟨l, hl, hempty⟩
          · rcases hlocal hused with ⟨ho, hused⟩ | ⟨l, rfl, hempty⟩
            · exact .inl ⟨hused, by rw [splits, List.filterMap_cons_none ho]; exact hnone⟩
            · exact .inr ⟨l, List.mem_cons_self, hempty⟩
          · exact .inr ⟨l, List.mem_cons_of_mem _ hl, hempty⟩

/-! ## A model that stays dead -/

omit [Builtins φ] in
theorem serving_deadCheck (h : ModelHost) : h.serving (deadCheck : Check φ) = false := by
  simp [serving, alive, deadCheck]

/-- With nobody live a plan does not raise. -/
theorem planned_nobody (hcache : ∃ perToken, c.cacheBytesPerLayer = .ok perToken) (h : ModelHost)
    (fileSize : Nat) (now : Seconds) :
    ∃ r, h.planned c ⟨[], fileSize, now⟩ [] = .ok r := by
  obtain ⟨perToken, hcache⟩ := hcache
  simp only [planned, HostModel.plan]
  rw [hcache]
  exact ⟨_, rfl⟩

/-- The dead model is launched with all of the split. -/
theorem relaunch_deadCheck (hpath : c.modelPath ≠ [])
    (hcache : ∃ perToken, c.cacheBytesPerLayer = .ok perToken) (h : ModelHost)
    (wanted : Dict Str Int) :
    (h.relaunch c wanted deadCheck).1 = .restart ⟨wanted, true, false⟩ ∧
      Relaunched h wanted (deadStart : StartInput φ) ⟨wanted, true, false⟩
        (h.relaunch c wanted deadCheck).2 := by
  obtain ⟨⟨plan, h₁⟩, hplan⟩ := planned_nobody hcache (h.stopped 0) 0 0
  have hspec := relaunch_of_planned (i := deadCheck) hpath wanted hplan
  have hlaunch : (h₁.bringUp c plan.headroom wanted (deadCheck : Check φ).start).1 =
      ⟨wanted, true, false⟩ := by
    simp [bringUp, deadCheck, deadStart, Reach.refusal]
  rwa [hlaunch] at hspec

/-- A dead model is restarted with the same split, then with one device less each time,
and then given up. -/
theorem reconcile_deadCheck (hpath : c.modelPath ≠ [])
    (hcache : ∃ perToken, c.cacheBytesPerLayer = .ok perToken) {h : ModelHost}
    (hrun : h.status.mode.Running) :
    (c.maxRestarts ≤ h.failures ∧ (h.reconcile c deadCheck).1 = .gaveUp) ∨
      (h.failures < c.maxRestarts ∧ ∃ wanted,
        (h.failures = 0 → wanted = h.status.assignments) ∧
        (h.failures ≠ 0 → wanted = degradeSplit h.status.headroom h.status.assignments) ∧
        (h.reconcile c deadCheck).1 = .restart ⟨wanted, true, false⟩ ∧
        Relaunched h wanted (deadStart : StartInput φ) ⟨wanted, true, false⟩
          (h.reconcile c deadCheck).2) := by
  have hfree : ¬ (!h.alive (deadCheck : Check φ) && (deadCheck : Check φ).portServing) = true := by
    simp [deadCheck]
  simp only [reconcile, watchdogPlan]
  rw [if_pos hrun, if_neg hfree, serving_deadCheck, if_neg Bool.false_ne_true]
  by_cases hused : c.maxRestarts ≤ h.failures
  · rw [if_pos hused]
    exact .inl ⟨hused, rfl⟩
  rw [if_neg hused]
  right
  refine ⟨Nat.not_le.1 hused, ?_⟩
  by_cases hzero : h.failures = 0
  · rw [if_pos hzero]
    exact ⟨_, fun _ => rfl, fun hne => absurd hzero hne, relaunch_deadCheck hpath hcache h _⟩
  · rw [if_neg hzero]
    exact ⟨_, fun he => absurd he hzero, fun _ => rfl, relaunch_deadCheck hpath hcache h _⟩

theorem degradeSplit_length (headroom : Dict Str Int) {split : Dict Str Int}
    (hnodup : (split.map Prod.fst).Nodup) (h : split ≠ []) : (degradeSplit headroom split).length + 1 = split.length := by
  cases split with
  | nil => exact absurd rfl h
  | cons i split => exact Dict.length_remove hnodup (weakest_mem headroom i.1 (split.map Prod.fst))

theorem degradeSplit_nodup {headroom split : Dict Str Int} (hnodup : (split.map Prod.fst).Nodup) :
    ((degradeSplit headroom split).map Prod.fst).Nodup := by
  cases split with
  | nil => exact hnodup
  | cons i split => exact Dict.nodup_remove hnodup _

/-- With more devices than restarts, a model that stays dead is given up without having
been tried alone. -/
theorem gaveUp_without_local (hpath : c.modelPath ≠ [])
    (hcache : ∃ perToken, c.cacheBytesPerLayer = .ok perToken) {k : Nat} {h : ModelHost}
    (hrun : h.status.mode.Running) (hnodup : (h.status.assignments.map Prod.fst).Nodup)
    (hleft : h.failures + k = c.maxRestarts)
    (hfirst : h.failures = 0 → k ≤ h.status.assignments.length)
    (hlater : h.failures ≠ 0 → k < h.status.assignments.length) :
    ∃ before, outcomes c h (List.replicate (k + 1) deadCheck) = before ++ [.gaveUp] ∧
      ∀ o ∈ before, ∃ split, split ≠ [] ∧ o = .restart ⟨split, true, false⟩ := by
  induction k generalizing h with
  | zero =>
      obtain ⟨-, hgave⟩ | ⟨hlt, -⟩ := reconcile_deadCheck hpath hcache hrun
      · refine ⟨[], ?_, fun o ho => nomatch ho⟩
        simp only [List.replicate, outcomes, hgave, List.nil_append]
      · omega
  | succ k ih =>
      obtain ⟨hused, -⟩ | ⟨hlt, wanted, hsame, hless, hout, hr⟩ := reconcile_deadCheck hpath hcache hrun
      · omega
      have hfacts : (wanted.map Prod.fst).Nodup ∧ k < wanted.length := by
        by_cases hzero : h.failures = 0
        · rw [hsame hzero]
          exact ⟨hnodup, by have := hfirst hzero; omega⟩
        · have hlong := hlater hzero
          have hne : h.status.assignments ≠ [] := by
            intro he
            rw [he] at hlong
            exact absurd hlong (Nat.not_lt_zero _)
          rw [hless hzero]
          have hlength := degradeSplit_length h.status.headroom hnodup hne
          exact ⟨degradeSplit_nodup hnodup, by omega⟩
      have hcount := hr.failures
      rw [if_neg Bool.false_ne_true] at hcount
      obtain ⟨before, hbefore, hall⟩ := ih hr.running (hr.assignments ▸ hfacts.1) (by omega)
        (fun he => by omega) (fun _ => hr.assignments ▸ hfacts.2)
      refine ⟨.restart ⟨wanted, true, false⟩ :: before, ?_, ?_⟩
      · rw [List.replicate_succ, outcomes, hout, step, hbefore]
        rfl
      · intro o ho
        rcases List.mem_cons.1 ho with rfl | ho
        · refine ⟨wanted, ?_, rfl⟩
          intro he
          rw [he] at hfacts
          exact absurd hfacts.2 (Nat.not_lt_zero _)
        · exact hall o ho

end Local

theorem meets_deadCheck {c : HostConfig φ} (h : ModelHost) (k : Nat) :
    Meets (step c) (ModestRebalance c) h (List.replicate k deadCheck) := by
  induction k generalizing h with
  | zero => exact trivial
  | succ k ih => exact ⟨fun hserving => absurd hserving (by simp [serving_deadCheck]), ih _⟩

/-- A local launch came before these outcomes ended and was the last one, or is one of them and
failed: that of `start` is made unless something else serves the port. -/
def TriedLocal (i₀ : StartInput φ) (l₀ : Launch) (before : List Outcome) : Prop :=
  (l₀.assignments = [] ∧ i₀.portServing = false ∧ splits before = []) ∨
    ∃ l, .restart l ∈ before ∧ l.assignments = [] ∧ l.launched = true ∧ l.health = false

/-- In every run in which all relaunches fail their health check, and the rebalances begin
with modest splits, the watchdog gives up only after a local launch, if and only if `start` has
launched the model alone or with fewer devices than there are restarts. -/
theorem local_fallback_iff {c : HostConfig φ} (hpath : c.modelPath ≠ []) {h₀ h : ModelHost}
    (hfresh : h₀.failures = 0) {i₀ : StartInput φ} {l₀ : Launch} (hcall : StartCall c h₀ i₀ l₀ h) :
    (∀ is : List (Check φ), (∀ o ∈ outcomes c h is, o.FailsHealth) →
      Meets (step c) (ModestRebalance c) h is →
      ∀ before after, outcomes c h is = before ++ .gaveUp :: after → TriedLocal i₀ l₀ before) ↔
      (l₀.assignments = [] ∧ i₀.portServing = false) ∨ l₀.assignments.length < c.maxRestarts := by
  have hstart := hcall.started hpath hfresh
  have hnew := hstart.fresh
  rw [← hcall.assignments hpath]
  constructor
  · intro hall
    by_contra hmany
    obtain ⟨halone, hmany⟩ := not_or.1 hmany
    obtain ⟨before, hrun, hsplits⟩ := gaveUp_without_local hpath hstart.planned
      (k := c.maxRestarts) hstart.running hstart.nodup (by omega) (fun _ => by omega)
      (fun hfailed => absurd hnew hfailed)
    have hfails : ∀ o ∈ outcomes c h (List.replicate (c.maxRestarts + 1) deadCheck),
        o.FailsHealth := by
      intro o ho
      rw [hrun] at ho
      rcases List.mem_append.1 ho with ho | ho
      · obtain ⟨split, -, rfl⟩ := hsplits o ho
        exact ⟨rfl, rfl⟩
      · rw [List.mem_singleton.1 ho]
        exact trivial
    rcases hall _ hfails (meets_deadCheck h _) before [] hrun with ⟨hnil, hfree, -⟩ | ⟨l, hl, hempty, -⟩
    · exact halone ⟨(hcall.assignments hpath).trans hnil, hfree⟩
    · obtain ⟨split, hsplit, he⟩ := hsplits _ hl
      cases he
      exact hsplit hempty
  · intro hmodest is hfail hrebalances before after hsplit
    have hbudget : InBudget c h := hmodest.imp (fun halone => halone.1) fun hlt => by omega
    rcases gaveUp_after_local hpath hbudget hfail hrebalances hsplit with
      ⟨hused, hnone⟩ | ⟨l, hl, hempty⟩
    · left
      have hspent := hused.spent
      rcases hmodest with halone | hlt
      · exact ⟨(hcall.assignments hpath).symm.trans halone.1, halone.2, hnone⟩
      · omega
    · have hmem : .restart l ∈ outcomes c h is := by
        rw [hsplit]
        exact List.mem_append_left _ hl
      exact .inr ⟨l, hl, hempty, hfail _ hmem⟩

/-- One phone and three restarts: the model is tried alone. -/
theorem one_phone_tried_local :
    ∃ l₀, StartCall benchConfig new (loadingStart ["a16"]) l₀ (startedWith ["a16"]) ∧
      ∃ before, outcomes benchConfig (startedWith ["a16"]) (List.replicate 4 deadCheck) =
        before ++ [.gaveUp] ∧ TriedLocal (loadingStart ["a16"]) l₀ before := by
  have hstart : (new.start benchConfig (loadingStart ["a16"])).toOption.isSome := by decide +kernel
  obtain ⟨l₀, hcall⟩ := startCall_startedWith hstart
  have hpath : benchConfig.modelPath ≠ [] := by decide
  have hlength : l₀.assignments.length < benchConfig.maxRestarts := by
    rw [← hcall.assignments hpath]
    decide +kernel
  have hfail : ∀ o ∈ outcomes benchConfig (startedWith ["a16"]) (List.replicate 4 deadCheck),
      o.FailsHealth := by
    rw [outcomes_one_phone]
    simp [Outcome.FailsHealth]
  have hsplit : outcomes benchConfig (startedWith ["a16"]) (List.replicate 4 deadCheck) =
      [.restart ⟨[(lit "a16", 5)], true, false⟩, .restart ⟨[], true, false⟩,
        .restart ⟨[], true, false⟩] ++ [.gaveUp] := outcomes_one_phone
  exact ⟨l₀, hcall, _, hsplit, (local_fallback_iff hpath rfl hcall).2 (.inr hlength) _ hfail
    (meets_deadCheck _ 4) _ [] hsplit⟩

/-- Three phones and three restarts: the watchdog gives up with the third phone still in
the split. -/
theorem three_phones_never_local :
    outcomes benchConfig (startedWith ["a16", "s9", "tab"]) (List.replicate 4 deadCheck) =
        [.restart ⟨[(lit "a16", 5), (lit "s9", 5), (lit "tab", 5)], true, false⟩,
          .restart ⟨[(lit "s9", 5), (lit "tab", 5)], true, false⟩,
          .restart ⟨[(lit "tab", 5)], true, false⟩, .gaveUp] ∧
      (startedWith ["a16", "s9", "tab"]).status.assignments ≠ [] ∧
      [] ∉ splits (outcomes benchConfig (startedWith ["a16", "s9", "tab"])
        (List.replicate 4 deadCheck)) := by
  decide +kernel

end ModelHost

end ShugoCore
