import ShugoCore.ModelHost.Plan

/-!
# The host model and its watchdog

`MeshModelHost` of `mesh_model_host.py` from `start` to `reconcile`.  A host runs the model
with some layers on other devices.  Each call of `reconcile` first asks whether the model
still serves, and restarts it if it does not: with the same split, then with one device less
for each failure, until it gives up.  A model that serves is launched again only if the plan
for the live peers has changed, has stayed changed, and the devices it adds answer.

What the world answers during a call is an input: whether the process runs, `/health` and
the probe, who is live, which peripheral answers, and the readings of the clock.  A plan may
raise, and what was written before it did stays.

The reasons of a state are not modelled, nor is what only the status line reports.
-/

namespace ShugoCore

open Py

variable {φ : Type} [Builtins φ]

/-! ## The host -/

/-- The modes of a host. -/
inductive HostMode
  | off
  | localOnly
  | split
  | splitUnhealthy
  | failed
deriving DecidableEq, Repr

/-- The model has been launched, and the watchdog has not given up on it. -/
def HostMode.Running (m : HostMode) : Prop := m ≠ .off ∧ m ≠ .failed

instance (m : HostMode) : Decidable m.Running := inferInstanceAs (Decidable (_ ∧ _))

/-- The part of `_state` that is read again. -/
structure HostStatus where
  mode : HostMode
  assignments : Dict Str Int
  headroom : Dict Str Int
  health : Bool
  probe : Bool
deriving DecidableEq, Repr

/-- The state of a `MeshModelHost`.  Of the launcher it is kept whether there is one. -/
structure ModelHost where
  status : HostStatus
  launcher : Bool
  refused : Dict Str Pin
  pendingSig : Option (List (Str × Int))
  pendingRuns : Nat
  lastRestart : Seconds
  relaunches : Nat
  failures : Nat
deriving DecidableEq, Repr

/-- What a host is made with. -/
structure HostConfig (φ : Type) extends HostModel φ where
  modelPath : Str
  thermalPin : Seconds
  unreachablePin : Seconds
  cooldown : Seconds
  stableRuns : Nat
  maxRestarts : Nat

/-! ## What the world answers -/

/-- What a plan is made from. -/
structure PlanInput (φ : Type) where
  peers : List (PyVal φ)
  fileSize : Nat
  now : Seconds

/-- A peripheral that was asked to start. -/
inductive Reach
  | noEndpoint
  | answered
  | silent (reason : Str)
deriving DecidableEq, Repr

/-- A launcher that was asked to start the model. -/
inductive LaunchTry
  | noLauncher
  | notStarted
  | started
deriving DecidableEq, Repr

/-- The answers that one `start` gets. -/
structure StartInput (φ : Type) where
  plan : PlanInput φ
  /-- A second plan, if the hive was waited for. -/
  settled : Option (PlanInput φ)
  reach : Str → Reach
  pinnedAt : Str → Seconds
  portServing : Bool
  launch : LaunchTry
  health : Bool
  probe : Bool

/-- The answers that one `reconcile` gets. -/
structure Check (φ : Type) where
  force : Bool
  running : Bool
  portServing : Bool
  health : Bool
  probe : Bool
  plan : PlanInput φ
  now : Seconds
  reach : Str → Reach
  pinnedAt : Str → Seconds
  replan : PlanInput φ
  relaunchedAt : Seconds
  start : StartInput φ

/-- The split that a launch was made with, and how it went. -/
structure Launch where
  assignments : Dict Str Int
  launched : Bool
  health : Bool
deriving DecidableEq, Repr

/-! ## Splits -/

/-- The reason of a peripheral that does not answer. -/
def Reach.refusal : Reach → Option Str
  | .noEndpoint => some (lit "no endpoint")
  | .answered => none
  | .silent reason => some reason

/-- `split_difference`, as far as it is read. -/
structure SplitDifference where
  detach : List Str
  attach : List Str
  resize : List Str
deriving DecidableEq, Repr

/-- `difference["changed"]`. -/
def SplitDifference.changed (d : SplitDifference) : Bool :=
  !(d.detach.isEmpty && d.attach.isEmpty && d.resize.isEmpty)

/-- `split_difference`. -/
def splitDifference (current desired : Dict Str Int) : SplitDifference :=
  let keys := current.map Prod.fst
  { detach := (keys.filter fun d => (Dict.get? desired d).isNone).insertionSort (· ≤ ·)
    attach := ((desired.map Prod.fst).filter fun d => (Dict.get? current d).isNone).insertionSort
      (· ≤ ·)
    resize := (keys.filter fun d => (Dict.get? desired d).isSome &&
      (Dict.get? desired d != Dict.get? current d)).insertionSort (· ≤ ·) }

/-- `a` has less headroom than `b`, or as much and the smaller id. -/
def weaker (headroom : Dict Str Int) (a b : Str) : Bool :=
  let room (d : Str) : Int := (Dict.get? headroom d).getD 0
  room a < room b || (room a = room b && a < b)

/-- The weakest device. -/
def weakest (headroom : Dict Str Int) (d : Str) (ds : List Str) : Str :=
  ds.foldl (fun best e => if weaker headroom e best then e else best) d

/-- `degrade_split`, with no device named to drop. -/
def degradeSplit (headroom : Dict Str Int) : Dict Str Int → Dict Str Int
  | [] => []
  | i :: split => Dict.remove (i :: split) (weakest headroom i.1 (split.map Prod.fst))

namespace ModelHost

/-! ## Starting -/

/-- `MeshModelHost.__init__`. -/
def new : ModelHost where
  status := ⟨.off, [], [], false, false⟩
  launcher := false
  refused := []
  pendingSig := none
  pendingRuns := 0
  lastRestart := 0
  relaunches := 0
  failures := 0

/-- `self.plan`, which forgets the pins that are over. -/
def planned (c : HostConfig φ) (h : ModelHost) (p : PlanInput φ) (extraExclude : Dict Str Str) :
    Except Exn (FleetPlan φ × ModelHost) :=
  (c.plan h.refused p.peers extraExclude p.fileSize p.now).map fun r =>
    (r.1, { h with refused := r.2 })

/-- `_pin`. -/
def pin (h : ModelHost) (device reason : Str) (hold now : Seconds) : ModelHost :=
  if device = [] then h
  else { h with refused := Dict.set h.refused device ⟨reason, now + max 0 hold⟩ }

/-- Pin each device with its reason. -/
def pinAll (h : ModelHost) (hold : Seconds) (now : Str → Seconds) (pins : List (Str × Str)) :
    ModelHost :=
  pins.foldl (fun h i => h.pin i.1 i.2 hold (now i.1)) h

/-- The devices that are not held to have answered, with their reasons, in order. -/
def silentOnes (reach : Str → Reach) (devices : List Str) : List (Str × Str) :=
  (devices.insertionSort (· ≤ ·)).filterMap fun d => (reach d).refusal.map fun reason => (d, reason)

/-- The devices that `start` pins.  One without an endpoint is left out and not pinned. -/
def startPins (reach : Str → Reach) (devices : List Str) : List (Str × Str) :=
  (silentOnes reach devices).filter fun i => reach i.1 ≠ .noEndpoint

/-- The part of `start` after the plan. -/
def bringUp (h : ModelHost) (c : HostConfig φ) (headroom : Dict Str Int) (wanted : Dict Str Int)
    (i : StartInput φ) : Launch × ModelHost :=
  let split := wanted.filter fun item => (i.reach item.1).refusal.isNone
  let h := h.pinAll c.unreachablePin i.pinnedAt (startPins i.reach (wanted.map Prod.fst))
  let remote := (split.map Prod.snd).sum ≠ 0
  let status : HostStatus :=
    ⟨if remote then .split else .localOnly, split, headroom, false, false⟩
  if i.portServing then (⟨split, false, false⟩, { h with status := status })
  else match i.launch with
  | .noLauncher => (⟨split, false, false⟩, { h with status := status })
  | .notStarted => (⟨split, false, false⟩, { h with status := status, launcher := true })
  | .started =>
      let mode := if remote ∧ !i.health then .splitUnhealthy else status.mode
      let status := { status with mode := mode, health := i.health, probe := i.health && i.probe }
      (⟨split, true, i.health⟩, { h with status := status, launcher := true })

/-- A host without a model. -/
def noModel (h : ModelHost) : Launch × ModelHost :=
  (⟨[], false, false⟩, { h with status := ⟨.off, [], [], false, false⟩ })

/-- `start` with a split the caller has decided on. -/
def startSplit (c : HostConfig φ) (h : ModelHost) (wanted : Dict Str Int) (i : StartInput φ) :
    Except Exn (Launch × ModelHost) :=
  if c.modelPath = [] then .ok h.noModel
  else (h.planned c i.plan []).map fun (plan, h) => h.bringUp c plan.headroom wanted i

/-- `start` with the split of its own plan.  A hive that is waited for is planned again. -/
def start (c : HostConfig φ) (h : ModelHost) (i : StartInput φ) :
    Except Exn (Launch × ModelHost) :=
  if c.modelPath = [] then .ok h.noModel
  else do
    let (plan, h) ← h.planned c i.plan []
    match if plan.assignments = [] then i.settled else none with
    | none => return h.bringUp c plan.headroom plan.assignments i
    | some p =>
        let (plan, h) ← h.planned c p []
        return h.bringUp c plan.headroom plan.assignments i

/-! ## The watchdog -/

/-- What the watchdog decides. -/
inductive Verdict
  | serving
  | conflict
  | gaveUp
  | restart (split : Dict Str Int)
deriving DecidableEq, Repr

/-- The process is there. -/
def alive (h : ModelHost) (i : Check φ) : Bool := h.launcher && i.running

/-- The model serves: a launch that failed its probe is asked again. -/
def serving (h : ModelHost) (i : Check φ) : Bool :=
  h.alive i && i.health && (h.status.probe || i.probe)

/-- `_watchdog_plan`, without the reset of the failures of a model that serves. -/
def watchdogPlan (c : HostConfig φ) (h : ModelHost) (i : Check φ) : Verdict :=
  if !h.alive i && i.portServing then .conflict
  else if h.serving i then .serving
  else if c.maxRestarts ≤ h.failures then .gaveUp
  else if h.failures = 0 then .restart h.status.assignments
  else .restart (degradeSplit h.status.headroom h.status.assignments)

/-! ## The rebalance -/

/-- What the rebalance decides. -/
inductive Rebalance
  | hold
  | deferred
  | relaunch (desired : Dict Str Int)
  | raised (e : Exn)
deriving DecidableEq, Repr

/-- The devices that the plan dropped for heat, with its reason. -/
def thermalPins (plan : FleetPlan φ) (detach : List Str) : List (Str × Str) :=
  let reasons := Dict.ofPairs plan.skipped
  detach.filterMap fun d => ((Dict.get? reasons d).filter fun why =>
    (lit "thermal_status=").isPrefixOf why).map fun why => (d, why)

/-- A change has been seen once more, or is new. -/
def noteChange (h : ModelHost) (signature : List (Str × Int)) : ModelHost :=
  { h with pendingRuns := if h.pendingSig = some signature then h.pendingRuns + 1 else 1
           pendingSig := some signature }

/-- No change is pending. -/
def settle (h : ModelHost) : ModelHost := { h with pendingSig := none, pendingRuns := 0 }

/-- The items of a split by device. -/
def signature (desired : Dict Str Int) : List (Str × Int) :=
  desired.insertionSort fun a b => a.1 ≤ b.1

/-- The preflight and what follows it. -/
def proveAttach (c : HostConfig φ) (h : ModelHost) (i : Check φ) (desired : Dict Str Int) :
    Rebalance × ModelHost :=
  let silent := silentOnes i.reach (splitDifference h.status.assignments desired).attach
  let h := h.pinAll c.unreachablePin i.pinnedAt silent
  if silent = [] then (.relaunch desired, h)
  else match h.planned c i.replan (Dict.ofPairs silent) with
  | .error e => (.raised e, h)
  | .ok (plan, h) =>
      if (splitDifference h.status.assignments plan.assignments).changed then
        (.relaunch plan.assignments, h)
      else (.hold, h.settle)

/-- The second half of `reconcile`: the plan of the live peers against what is running. -/
def rebalance (c : HostConfig φ) (h : ModelHost) (i : Check φ) : Rebalance × ModelHost :=
  match h.planned c i.plan [] with
  | .error e => (.raised e, h)
  | .ok (plan, h) =>
      let difference := splitDifference h.status.assignments plan.assignments
      if !difference.changed then (.hold, h.settle)
      else
        let h := h.pinAll c.thermalPin i.pinnedAt (thermalPins plan difference.detach)
        let h := h.noteChange (signature plan.assignments)
        if !i.force && h.pendingRuns < c.stableRuns then (.deferred, h)
        else if !i.force && i.now - h.lastRestart < c.cooldown then (.deferred, h)
        else h.proveAttach c i plan.assignments

/-! ## A check -/

/-- What `reconcile` returns. -/
inductive Outcome
  | hold
  | conflict
  | deferred
  | restart (launch : Launch)
  | gaveUp
  | raised (relaunching : Bool) (e : Exn)
deriving DecidableEq, Repr

/-- `_relaunch`.  Only a launch that answers `/health` forgets the failures. -/
def relaunch (c : HostConfig φ) (h : ModelHost) (split : Dict Str Int) (i : Check φ) :
    Outcome × ModelHost :=
  let h := { h with launcher := false, relaunches := h.relaunches + 1, lastRestart := i.relaunchedAt }
  match h.startSplit c split i.start with
  | .error e => (.raised true e, h)
  | .ok (launch, h) =>
      (.restart launch, { h with failures := if launch.health then 0 else h.failures + 1 })

/-- `_give_up`. -/
def giveUp (h : ModelHost) : ModelHost := { h with status := { h.status with mode := .failed } }

/-- What is done about a rebalance. -/
def carryOut (c : HostConfig φ) (i : Check φ) : Rebalance × ModelHost → Outcome × ModelHost
  | (.hold, h) => (.hold, h)
  | (.deferred, h) => (.deferred, h)
  | (.raised e, h) => (.raised false e, h)
  | (.relaunch desired, h) => h.relaunch c desired i

/-- `reconcile`. -/
def reconcile (c : HostConfig φ) (h : ModelHost) (i : Check φ) : Outcome × ModelHost :=
  if h.status.mode.Running then
    match h.watchdogPlan c i with
    | .gaveUp => (.gaveUp, h.giveUp)
    | .conflict => (.conflict, h)
    | .restart split => h.relaunch c split i
    | .serving => carryOut c i ({ h with failures := 0 }.rebalance c i)
  else (.hold, h)

/-! ## What a call leaves alone -/

/-- Two hosts with the same status and the same number of failures. -/
structure Agrees (h h' : ModelHost) : Prop where
  status : h'.status = h.status
  failures : h'.failures = h.failures

theorem Agrees.rfl {h : ModelHost} : h.Agrees h := ⟨Eq.refl _, Eq.refl _⟩

theorem Agrees.trans {h h' h'' : ModelHost} (h₁ : h.Agrees h') (h₂ : h'.Agrees h'') : h.Agrees h'' :=
  ⟨h₂.status.trans h₁.status, h₂.failures.trans h₁.failures⟩

theorem agrees_pin (h : ModelHost) (device reason : Str) (hold now : Seconds) :
    h.Agrees (h.pin device reason hold now) := by
  simp only [pin]
  split
  · exact .rfl
  · exact ⟨rfl, rfl⟩

theorem agrees_pinAll (h : ModelHost) (hold : Seconds) (now : Str → Seconds)
    (pins : List (Str × Str)) : h.Agrees (h.pinAll hold now pins) := by
  induction pins generalizing h with
  | nil => exact .rfl
  | cons i pins ih => exact (h.agrees_pin i.1 i.2 hold (now i.1)).trans (ih _)

theorem agrees_planned {c : HostConfig φ} {h h' : ModelHost} {p : PlanInput φ}
    {extraExclude : Dict Str Str} {plan : FleetPlan φ}
    (hplan : h.planned c p extraExclude = .ok (plan, h')) : h.Agrees h' := by
  unfold planned at hplan
  cases hr : c.plan h.refused p.peers extraExclude p.fileSize p.now with
  | error e => rw [hr] at hplan; cases hplan
  | ok r =>
      rw [hr] at hplan
      cases hplan
      exact ⟨rfl, rfl⟩

theorem agrees_proveAttach (c : HostConfig φ) (h : ModelHost) (i : Check φ)
    (desired : Dict Str Int) : h.Agrees (h.proveAttach c i desired).2 := by
  unfold proveAttach
  have hpin := h.agrees_pinAll c.unreachablePin i.pinnedAt
    (silentOnes i.reach (splitDifference h.status.assignments desired).attach)
  dsimp only
  split
  · exact hpin
  · split
    · exact hpin
    · rename_i plan h' hplan
      split
      · exact hpin.trans (agrees_planned hplan)
      · exact (hpin.trans (agrees_planned hplan)).trans ⟨rfl, rfl⟩

/-- A rebalance decides, and leaves what is running alone. -/
theorem agrees_rebalance (c : HostConfig φ) (h : ModelHost) (i : Check φ) :
    h.Agrees (h.rebalance c i).2 := by
  unfold rebalance
  split
  · exact .rfl
  · rename_i plan h' hplan
    have hplanned := agrees_planned hplan
    dsimp only
    split
    · exact hplanned.trans ⟨rfl, rfl⟩
    · have hpin := hplanned.trans (h'.agrees_pinAll c.thermalPin i.pinnedAt (thermalPins plan
        (splitDifference h'.status.assignments plan.assignments).detach))
      have hnoted : h.Agrees ((h'.pinAll c.thermalPin i.pinnedAt (thermalPins plan
          (splitDifference h'.status.assignments plan.assignments).detach)).noteChange
            (signature plan.assignments)) := hpin.trans ⟨rfl, rfl⟩
      split
      · exact hnoted
      · split
        · exact hnoted
        · exact hnoted.trans (agrees_proveAttach ..)

/-! ## What a launch does -/

/-- A host after a launch. -/
structure Launched (l : Launch) (h : ModelHost) : Prop where
  assignments : h.status.assignments = l.assignments
  running : h.status.mode.Running

omit [Builtins φ] in
/-- A launch is made with those of the wanted devices that answer. -/
theorem bringUp_split (h : ModelHost) (c : HostConfig φ) (headroom wanted : Dict Str Int)
    (i : StartInput φ) :
    (h.bringUp c headroom wanted i).1.assignments =
      wanted.filter fun item => (i.reach item.1).refusal.isNone := by
  unfold bringUp
  dsimp only
  split
  · rfl
  · split <;> rfl

omit [Builtins φ] in
theorem bringUp_launched (h : ModelHost) (c : HostConfig φ) (headroom wanted : Dict Str Int)
    (i : StartInput φ) :
    Launched (h.bringUp c headroom wanted i).1 (h.bringUp c headroom wanted i).2 := by
  have hmode : ∀ {p : Prop} [Decidable p],
      (if p then HostMode.split else .localOnly).Running := by
    intro p _
    split <;> decide
  unfold bringUp
  dsimp only
  split
  · exact ⟨rfl, hmode⟩
  · split
    · exact ⟨rfl, hmode⟩
    · exact ⟨rfl, hmode⟩
    · refine ⟨rfl, ?_⟩
      dsimp only
      split
      · decide
      · exact hmode

omit [Builtins φ] in
theorem bringUp_failures (h : ModelHost) (c : HostConfig φ) (headroom wanted : Dict Str Int)
    (i : StartInput φ) : (h.bringUp c headroom wanted i).2.failures = h.failures := by
  have hpin := (h.agrees_pinAll c.unreachablePin i.pinnedAt
    (startPins i.reach (wanted.map Prod.fst))).failures
  unfold bringUp
  dsimp only
  split
  · exact hpin
  · split <;> exact hpin

/-- A host after a relaunch with a split that was decided on. -/
structure Relaunched (h : ModelHost) (wanted : Dict Str Int) (i : StartInput φ) (l : Launch)
    (h' : ModelHost) : Prop extends Launched l h' where
  split : l.assignments = wanted.filter fun item => (i.reach item.1).refusal.isNone
  failures : h'.failures = if l.health then 0 else h.failures + 1

/-- The host of which a relaunch plans. -/
def stopped (h : ModelHost) (now : Seconds) : ModelHost :=
  { h with launcher := false, relaunches := h.relaunches + 1, lastRestart := now }

/-- A relaunch whose plan does not raise launches the split. -/
theorem relaunch_of_planned {c : HostConfig φ} (hpath : c.modelPath ≠ []) {h h₁ : ModelHost}
    (wanted : Dict Str Int) {i : Check φ} {plan : FleetPlan φ}
    (hplan : (h.stopped i.relaunchedAt).planned c i.start.plan [] = .ok (plan, h₁)) :
    (h.relaunch c wanted i).1 = .restart (h₁.bringUp c plan.headroom wanted i.start).1 ∧
      Relaunched h wanted i.start (h₁.bringUp c plan.headroom wanted i.start).1
        (h.relaunch c wanted i).2 := by
  have hl := h₁.bringUp_launched c plan.headroom wanted i.start
  have hs := h₁.bringUp_split c plan.headroom wanted i.start
  have hf := (h₁.bringUp_failures c plan.headroom wanted i.start).trans
    (agrees_planned hplan).failures
  unfold stopped at hplan
  simp only [relaunch, startSplit]
  simp only [if_neg hpath, hplan, Except.map]
  generalize h₁.bringUp c plan.headroom wanted i.start = r at hl hs hf ⊢
  refine ⟨trivial, ⟨hl.assignments, hl.running⟩, hs, ?_⟩
  change (if r.1.health then 0 else r.2.failures + 1) = _
  rw [hf]
  rfl

/-- A relaunch raises, or launches the split. -/
theorem relaunch_spec {c : HostConfig φ} (hpath : c.modelPath ≠ []) (h : ModelHost)
    (wanted : Dict Str Int) (i : Check φ) :
    (∃ e, (h.relaunch c wanted i).1 = .raised true e) ∨
      ∃ l, (h.relaunch c wanted i).1 = .restart l ∧
        Relaunched h wanted i.start l (h.relaunch c wanted i).2 := by
  cases hplan : (h.stopped i.relaunchedAt).planned c i.start.plan [] with
  | error e =>
      left
      unfold stopped at hplan
      simp only [relaunch, startSplit]
      simp only [if_neg hpath, hplan]
      exact ⟨e, rfl⟩
  | ok r =>
      obtain ⟨plan, h₁⟩ := r
      exact .inr ⟨_, relaunch_of_planned hpath wanted hplan⟩

end ModelHost

end ShugoCore
