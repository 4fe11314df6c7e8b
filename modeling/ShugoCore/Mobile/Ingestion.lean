import ShugoCore.Mobile.Registry

/-!
# What is heard of the fleet

`MobileNodeManager` of `mobile_nodes.py`, with the topic rules of `policy.py`
(`validate_mobile_topic`) and the two halves of `handle_fleet_pair` of the server: a device is paired in
the registry and then put on the allowlist, and it is unpaired and then taken off.

`ingest` runs in the thread that a message comes in on, and many run at once.  It asks the topic rules,
asks the registry, records a heartbeat if the message is one, and stores what sanitising leaves of the
payload; between any two of these the operator may unpair the device, another message may come in, or a
pairing may run out.

What is stored of a device came in while the device was on the allowlist, on a topic of the contract,
and was let through later while a pairing of the device stood and was not over
(`heard_with_consent`).  A message that is alone on its way is stored exactly then (`lone_message`).
-/

namespace ShugoCore

open Py Machine

variable {φ : Type} [Builtins φ]

/-! ## Topics -/

/-- `s.strip("/")`. -/
def stripSlashes (s : Str) : Str := (s.dropWhile (· = 47)).rdropWhile (· = 47)

/-- `validate_mobile_topic`: the reason of a refusal, if it refuses. -/
def mobileTopicRefusal (φ : Type) [Builtins φ] (allowlist topics : List Str)
    (deviceId topicTail : Str) : Option Str :=
  let device := strip deviceId
  let tail := stripSlashes topicTail
  if device = [] ∨ tail = [] then some (lit "empty mobile topic component")
  else if device ∉ allowlist then
    some (lit "device '" ++ device ++ lit "' is not in the operator pairing allowlist")
  else if tail ∉ topics then
    some (lit "topic '" ++ tail ++ lit "' is outside the mobile contract (allowed: " ++
      strOf (.list (topics.map .str) : PyVal φ) ++ lit ")")
  else none

/-! ## Payloads -/

namespace MobileNodeManager

mutual

/-- `_sanitize`.  A payload that is too long gives `None`. -/
def sanitize : PyVal φ → Except Exn (PyVal φ)
  | .bool b => .ok (.bool b)
  | .int i => boundedNumber (.int i)
  | .float x => boundedNumber (.float x)
  | .list xs =>
      if 16 * 1024 < (strOf (.list xs)).length then .ok .none
      else (sanitizeElems 32 xs).map .list
  | .dict d =>
      if 16 * 1024 < (strOf (.dict d)).length then .ok .none
      else (sanitizeMembers 32 d).map fun items =>
        .dict (items.foldl (fun out item => setKey item.1 item.2 out) [])
  | .str s =>
      if 16 * 1024 < s.length then .ok .none else .ok (.str (sanitizeText s 400))
  | .none => .ok (.str (sanitizeText (strOf (.none : PyVal φ)) 400))

/-- The first `n` elements of a list. -/
def sanitizeElems : Nat → List (PyVal φ) → Except Exn (List (PyVal φ))
  | 0, _ => .ok []
  | _, [] => .ok []
  | n + 1, x :: xs => do
      let y ← sanitize x
      let ys ← sanitizeElems n xs
      return y :: ys

/-- The first `n` items of a dictionary. -/
def sanitizeMembers : Nat → List (Key φ × PyVal φ) → Except Exn (List (Str × PyVal φ))
  | 0, _ => .ok []
  | _, [] => .ok []
  | n + 1, (key, x) :: items => do
      let y ← sanitize x
      let rest ← sanitizeMembers n items
      return (keyName key, y) :: rest

end

end MobileNodeManager

/-! ## The manager -/

/-- A record of a snapshot. -/
structure SensorRecord (φ : Type) where
  deviceId : Str
  tail : Str
  data : PyVal φ
  ts : Seconds

/-- How far a call of `ingest` is: refused by the topic rules and not yet reported; past them; past the
registry; past the heartbeat. -/
inductive IngestStage where
  | refused | checked | paired | heard
deriving DecidableEq

/-- A call of `ingest` on its way. -/
structure Ingest (φ : Type) where
  deviceId : Str
  tail : Str
  message : PyVal φ
  stage : IngestStage

/-- `MobileNodeManager`: with it stand its registry, the lists of the topic rules, the calls on their way,
and what it has told the memory and the fallbacks. -/
structure MobileNodeManager (φ : Type) where
  registry : MobileNodeRegistry φ
  allowlist : List Str
  topics : List Str
  snapshots : Dict Str (Dict Str (SensorRecord φ))
  refused : Dict Str Nat
  ingests : List (Ingest φ)
  episodes : List (Str × Str × Str)
  violations : List Str

/-- One thing that happens: a call on the registry; a device is put on the allowlist or taken off; a
message comes in; a call on its way takes its next step. -/
inductive FleetAction (φ : Type) where
  | registry (call : RegistryCall φ)
  | allow (deviceId : Str)
  | disallow (deviceId : Str)
  | ingest (deviceId tail : Str) (message : PyVal φ)
  | proceed (i : Nat) (now monotonic : Seconds)

namespace MobileNodeManager

/-- `__init__`, with a registry and the lists that the topic rules are made with. -/
def new (pairingTtlHours heartbeatTimeout : Seconds) (allowlist topics : List Str) :
    MobileNodeManager φ :=
  ⟨.new pairingTtlHours heartbeatTimeout, allowlist, topics, [], [], [], [], []⟩

/-- `f"{device_id}/{tail}"`. -/
def refusalKey (deviceId tail : Str) : Str := deviceId ++ lit "/" ++ tail

/-- `ingest`, up to the answer of the topic rules. -/
def ingest (s : MobileNodeManager φ) (deviceId tail : Str) (message : PyVal φ) : MobileNodeManager φ :=
  match mobileTopicRefusal φ s.allowlist s.topics deviceId tail with
  | some _ =>
      let key := refusalKey deviceId tail
      { s with
        refused := Dict.set s.refused key ((Dict.get? s.refused key).getD 0 + 1)
        ingests := s.ingests ++ [⟨deviceId, tail, message, .refused⟩] }
  | none => { s with ingests := s.ingests ++ [⟨deviceId, tail, message, .checked⟩] }

/-- The records of a device. -/
def records (s : MobileNodeManager φ) (deviceId : Str) : Dict Str (SensorRecord φ) :=
  (Dict.get? s.snapshots deviceId).getD []

/-- The end of `ingest`: the record is stored, and the memory is told unless it is a heartbeat. -/
def store (s : MobileNodeManager φ) (deviceId tail : Str) (data : PyVal φ) (now : Seconds) :
    MobileNodeManager φ :=
  { s with
    snapshots := Dict.set s.snapshots deviceId
      (Dict.set (s.records deviceId) tail ⟨deviceId, tail, data, now⟩)
    episodes :=
      if tail = lit "heartbeat" then s.episodes
      else s.episodes ++ [(deviceId, tail, sanitizeText (strOf data) 200)] }

/-- The `i`-th call is over. -/
def done (s : MobileNodeManager φ) (i : Nat) : MobileNodeManager φ :=
  { s with ingests := s.ingests.eraseIdx i }

/-- The `i`-th call is a stage further. -/
def reach (s : MobileNodeManager φ) (i : Nat) (g : Ingest φ) (stage : IngestStage) :
    MobileNodeManager φ :=
  { s with ingests := s.ingests.set i { g with stage := stage } }

/-- The next step of a call of `ingest`.  An exception ends the call as a refusal does. -/
def proceed (s : MobileNodeManager φ) (i : Nat) (now monotonic : Seconds) : MobileNodeManager φ :=
  match s.ingests[i]? with
  | none => s
  | some g =>
      match g.stage with
      | .refused =>
          let key := refusalKey g.deviceId g.tail
          if 3 ≤ (Dict.get? s.refused key).getD 0 then
            { s.done i with
              violations := s.violations ++ [lit "repeated ACL refusals from " ++ key] }
          else s.done i
      | .checked =>
          if s.registry.isPaired now g.deviceId then s.reach i g .paired else s.done i
      | .paired =>
          if g.tail = lit "heartbeat" then
            { s.reach i g .heard with registry := (s.registry.heartbeat monotonic g.deviceId).2 }
          else s.reach i g .heard
      | .heard =>
          match sanitize g.message with
          | .error _ | .ok .none => s.done i
          | .ok data => (s.done i).store g.deviceId g.tail data now

/-- One step. -/
def step (s : MobileNodeManager φ) : FleetAction φ → MobileNodeManager φ
  | .registry call => { s with registry := s.registry.step call }
  | .allow deviceId =>
      { s with allowlist := if deviceId ∈ s.allowlist then s.allowlist else s.allowlist ++ [deviceId] }
  | .disallow deviceId => { s with allowlist := s.allowlist.filter fun d => d ≠ deviceId }
  | .ingest deviceId tail message => s.ingest deviceId tail message
  | .proceed i now monotonic => s.proceed i now monotonic

/-- `get_sensor_snapshot`. -/
def getSensorSnapshot (s : MobileNodeManager φ) (deviceId : Str) : Dict Str (SensorRecord φ) :=
  (s.records deviceId).insertionSort fun a b => a.1 ≤ b.1

/-! ## What a step does to the registry and to the lists -/

variable {s : MobileNodeManager φ}

/-- The call that a step makes on the registry, if it makes one that changes it. -/
def callsOf (s : MobileNodeManager φ) : FleetAction φ → List (RegistryCall φ)
  | .registry call => [call]
  | .proceed i _ monotonic =>
      match s.ingests[i]? with
      | some g =>
          if g.stage = .paired ∧ g.tail = lit "heartbeat" then [.heartbeat monotonic g.deviceId] else []
      | none => []
  | _ => []

/-- The calls that a run makes on the registry. -/
def registryCalls (s : MobileNodeManager φ) : List (FleetAction φ) → List (RegistryCall φ)
  | [] => []
  | a :: as => s.callsOf a ++ registryCalls (s.step a) as

/-- What the next step of a call on its way leaves behind. -/
inductive Proceeds (s : MobileNodeManager φ) (i : Nat) (now monotonic : Seconds) :
    MobileNodeManager φ → Prop
  | idle (none : s.ingests[i]? = none) : Proceeds s i now monotonic s
  | ended (g : Ingest φ) (told : List Str) (call : s.ingests[i]? = some g) (stage : g.stage ≠ .paired) :
      Proceeds s i now monotonic { s.done i with violations := told }
  | letThrough (g : Ingest φ) (call : s.ingests[i]? = some g) (stage : g.stage = .checked)
      (paired : s.registry.isPaired now g.deviceId = true) :
      Proceeds s i now monotonic (s.reach i g .paired)
  | heard (g : Ingest φ) (call : s.ingests[i]? = some g) (stage : g.stage = .paired) :
      Proceeds s i now monotonic { s.reach i g .heard with
        registry := run .step s.registry (s.callsOf (.proceed i now monotonic)) }
  | stored (g : Ingest φ) (call : s.ingests[i]? = some g) (stage : g.stage = .heard) (data : PyVal φ)
      (sanitized : sanitize g.message = .ok data) (kept : data ≠ .none) :
      Proceeds s i now monotonic ((s.done i).store g.deviceId g.tail data now)

theorem proceeds (s : MobileNodeManager φ) (i : Nat) (now monotonic : Seconds) :
    Proceeds s i now monotonic (s.proceed i now monotonic) := by
  cases hg : s.ingests[i]? with
  | none =>
      rw [proceed, hg]
      exact .idle hg
  | some g =>
      rw [proceed, hg]
      cases hstage : g.stage with
      | refused =>
          simp only [hstage]
          split
          · exact .ended g _ hg (by simp [hstage])
          · exact .ended g s.violations hg (by simp [hstage])
      | checked =>
          simp only [hstage]
          split
          · rename_i hpaired
            exact .letThrough g hg hstage hpaired
          · exact .ended g s.violations hg (by simp [hstage])
      | paired =>
          simp only [hstage]
          have hheard : Proceeds s i now monotonic _ := .heard g hg hstage
          simp only [callsOf, hg, hstage, true_and] at hheard
          by_cases htail : g.tail = lit "heartbeat"
          · rw [if_pos htail] at hheard ⊢
            exact hheard
          · rw [if_neg htail] at hheard ⊢
            exact hheard
      | heard =>
          simp only [hstage]
          split
          · exact .ended g s.violations hg (by simp [hstage])
          · exact .ended g s.violations hg (by simp [hstage])
          · rename_i data hkept hdata
            exact .stored g hg hstage data hdata hkept

theorem registry_step (s : MobileNodeManager φ) (a : FleetAction φ) :
    (s.step a).registry = run .step s.registry (s.callsOf a) := by
  cases a with
  | registry call => rfl
  | allow deviceId => rfl
  | disallow deviceId => rfl
  | ingest deviceId tail message =>
      simp only [step, ingest]
      split
      · rfl
      · rfl
  | proceed i now monotonic =>
      rw [step]
      have hproceeds := proceeds s i now monotonic
      generalize s.proceed i now monotonic = s' at hproceeds
      cases hproceeds with
      | idle hnone => simp [callsOf, hnone]
      | ended g told hg hstage => simp [callsOf, hg, hstage, done]
      | letThrough g hg hstage hpaired => simp [callsOf, hg, hstage, reach]
      | heard g hg hstage => rfl
      | stored g hg hstage data hdata hkept => simp [callsOf, hg, hstage, done, store]

theorem registry_run (s : MobileNodeManager φ) (as : List (FleetAction φ)) :
    (run step s as).registry = run .step s.registry (s.registryCalls as) := by
  induction as generalizing s with
  | nil => rfl
  | cons a as ih => rw [run_cons, ih, registry_step, registryCalls, run_append]

theorem proceed_lists (s : MobileNodeManager φ) (i : Nat) (now monotonic : Seconds) :
    (s.proceed i now monotonic).allowlist = s.allowlist ∧ (s.proceed i now monotonic).topics = s.topics := by
  have hproceeds := proceeds s i now monotonic
  generalize s.proceed i now monotonic = s' at hproceeds
  cases hproceeds <;> exact ⟨rfl, rfl⟩

theorem ingest_lists (s : MobileNodeManager φ) (deviceId tail : Str) (message : PyVal φ) :
    (s.ingest deviceId tail message).allowlist = s.allowlist ∧
      (s.ingest deviceId tail message).topics = s.topics := by
  rw [ingest]
  split <;> exact ⟨rfl, rfl⟩

/-- What the operator last said of a device, of what is on the allowlist at first: it is to be on it. -/
def Allowed (allowlist : List Str) (as : List (FleetAction φ)) (device : Str) : Prop :=
  (∃ before a after, as = before ++ a :: after ∧ a = .allow device ∧
    ∀ a ∈ after, a ≠ .disallow device) ∨
  (device ∈ allowlist ∧ ∀ a ∈ as, a ≠ .disallow device)

omit [Builtins φ] in
theorem allowed_concat {allowlist : List Str} {as : List (FleetAction φ)} {a : FleetAction φ}
    {device : Str} :
    Allowed allowlist (as ++ [a]) device ↔
      a = .allow device ∨ (a ≠ .disallow device ∧ Allowed allowlist as device) := by
  rw [Allowed, exists_split_concat]
  simp only [List.mem_append, List.mem_singleton, or_imp, forall_and, forall_eq, Allowed]
  constructor
  · rintro ((⟨h, -⟩ | ⟨before, c, after, h, hc, hafter, ha⟩) | ⟨hinitial, has, ha⟩)
    · exact .inl h
    · exact .inr ⟨ha, .inl ⟨before, c, after, h, hc, hafter⟩⟩
    · exact .inr ⟨ha, .inr ⟨hinitial, has⟩⟩
  · rintro (h | ⟨ha, ⟨before, c, after, h, hc, hafter⟩ | ⟨hinitial, has⟩⟩)
    · exact .inl (.inl ⟨h, by simp⟩)
    · exact .inl (.inr ⟨before, c, after, h, hc, hafter, ha⟩)
    · exact .inr ⟨hinitial, has, ha⟩

/-- The allowlist has the devices that the operator last put on it. -/
theorem mem_allowlist_run {hours timeout : Seconds} {allowlist topics : List Str} {device : Str}
    (as : List (FleetAction φ)) :
    device ∈ (run step (new hours timeout allowlist topics : MobileNodeManager φ) as).allowlist ↔
      Allowed allowlist as device := by
  induction as using List.reverseRecOn with
  | nil => simp [Allowed, new]
  | append_singleton as a ih =>
      rw [run_append, run_cons, run_nil, allowed_concat, ← ih]
      generalize run step (new hours timeout allowlist topics : MobileNodeManager φ) as = s
      cases a with
      | registry call => simp [step]
      | allow deviceId =>
          have hallow : FleetAction.allow deviceId = (.allow device : FleetAction φ) ↔
              device = deviceId :=
            ⟨fun h => (FleetAction.allow.inj h).symm, fun h => h ▸ rfl⟩
          rw [hallow]
          simp only [step, ne_eq, reduceCtorEq, not_false_eq_true, true_and]
          split
          · rename_i hin
            exact ⟨.inr, fun h => h.elim (fun he => he ▸ hin) id⟩
          · rw [List.mem_append, List.mem_singleton, or_comm]
      | disallow deviceId =>
          have hdisallow : FleetAction.disallow deviceId = (.disallow device : FleetAction φ) ↔
              device = deviceId :=
            ⟨fun h => (FleetAction.disallow.inj h).symm, fun h => h ▸ rfl⟩
          simp only [step, List.mem_filter, decide_eq_true_eq, reduceCtorEq, false_or, ne_eq, hdisallow]
          exact and_comm
      | ingest deviceId tail message => simp [step, (ingest_lists s deviceId tail message).1]
      | proceed i now monotonic => simp [step, (proceed_lists s i now monotonic).1]

/-! ## Where a message comes from -/

/-- The topic rules let a device through, by what the operator last said of it. -/
def Admits (allowlist topics : List Str) (as : List (FleetAction φ)) (deviceId tail : Str) : Prop :=
  strip deviceId ≠ [] ∧ stripSlashes tail ≠ [] ∧ Allowed allowlist as (strip deviceId) ∧
    stripSlashes tail ∈ topics

theorem topics_run {hours timeout : Seconds} {allowlist topics : List Str} (as : List (FleetAction φ)) :
    (run step (new hours timeout allowlist topics : MobileNodeManager φ) as).topics = topics := by
  induction as using List.reverseRecOn with
  | nil => rfl
  | append_singleton as a ih =>
      rw [run_append, run_cons, run_nil]
      cases a with
      | registry call => exact ih
      | allow deviceId => exact ih
      | disallow deviceId => exact ih
      | ingest deviceId tail message => exact (ingest_lists _ deviceId tail message).2.trans ih
      | proceed i now monotonic => exact (proceed_lists _ i now monotonic).2.trans ih

theorem mobileTopicRefusal_eq_none {allowlist topics : List Str} {deviceId tail : Str} :
    mobileTopicRefusal φ allowlist topics deviceId tail = none ↔
      strip deviceId ≠ [] ∧ stripSlashes tail ≠ [] ∧ strip deviceId ∈ allowlist ∧
        stripSlashes tail ∈ topics := by
  rw [mobileTopicRefusal]
  by_cases hempty : strip deviceId = [] ∨ stripSlashes tail = []
  · rw [if_pos hempty]
    refine iff_of_false (by simp) fun h => ?_
    exact hempty.elim h.1 h.2.1
  · rw [if_neg hempty]
    rw [not_or] at hempty
    by_cases hdevice : strip deviceId ∈ allowlist
    · by_cases htail : stripSlashes tail ∈ topics <;> simp [hempty, hdevice, htail]
    · simp [hdevice]

/-- A message came in while the device was on the allowlist. -/
def CameIn (allowlist topics : List Str) (as : List (FleetAction φ)) (deviceId tail : Str)
    (message : PyVal φ) : Prop :=
  ∃ before after, as = before ++ .ingest deviceId tail message :: after ∧
    Admits allowlist topics before deviceId tail

/-- A message came in, and a later step found a pairing of its device that stands and is not over. -/
def LetThrough (hours timeout : Seconds) (allowlist topics : List Str) (as : List (FleetAction φ))
    (deviceId tail : Str) (message : PyVal φ) : Prop :=
  ∃ before i now monotonic after, as = before ++ .proceed i now monotonic :: after ∧
    CameIn allowlist topics before deviceId tail message ∧
    InConsent (max (1 / 100) hours)
      ((new hours timeout allowlist topics : MobileNodeManager φ).registryCalls before) now deviceId

section

variable {hours timeout : Seconds} {allowlist topics : List Str} {as : List (FleetAction φ)}
  {deviceId tail : Str} {message : PyVal φ}

omit [Builtins φ] in
theorem CameIn.concat (h : CameIn allowlist topics as deviceId tail message) (a : FleetAction φ) :
    CameIn allowlist topics (as ++ [a]) deviceId tail message := by
  obtain ⟨before, after, rfl, hadmits⟩ := h
  exact ⟨before, after ++ [a], by simp, hadmits⟩

theorem LetThrough.concat (h : LetThrough hours timeout allowlist topics as deviceId tail message)
    (a : FleetAction φ) :
    LetThrough hours timeout allowlist topics (as ++ [a]) deviceId tail message := by
  obtain ⟨before, i, now, monotonic, after, rfl, hcame, hconsent⟩ := h
  exact ⟨before, i, now, monotonic, after ++ [a], by simp, hcame, hconsent⟩

end

/-- The topic rules say what the operator last said. -/
theorem mobileTopicRefusal_run (hours timeout : Seconds) (allowlist topics : List Str)
    (as : List (FleetAction φ)) (deviceId tail : Str) :
    mobileTopicRefusal φ (run step (new hours timeout allowlist topics : MobileNodeManager φ) as).allowlist
        (run step (new hours timeout allowlist topics : MobileNodeManager φ) as).topics deviceId tail =
      none ↔ Admits allowlist topics as deviceId tail := by
  rw [mobileTopicRefusal_eq_none, mem_allowlist_run, topics_run, Admits]

/-- The registry says whose pairing stands. -/
theorem isPaired_run (hours timeout : Seconds) (allowlist topics : List Str)
    (as : List (FleetAction φ)) (now : Seconds) (deviceId : Str) :
    (run step (new hours timeout allowlist topics : MobileNodeManager φ) as).registry.isPaired now
        deviceId = true ↔
      InConsent (max (1 / 100) hours)
        ((new hours timeout allowlist topics : MobileNodeManager φ).registryCalls as) now deviceId := by
  rw [registry_run]
  exact (MobileNodeRegistry.knows_run hours timeout _).isPaired_iff

/-- A call on its way is at the stage that its message has reached. -/
structure Placed (hours timeout : Seconds) (allowlist topics : List Str) (as : List (FleetAction φ))
    (g : Ingest φ) : Prop where
  checked : g.stage = .checked → CameIn allowlist topics as g.deviceId g.tail g.message
  through : g.stage = .paired ∨ g.stage = .heard →
    LetThrough hours timeout allowlist topics as g.deviceId g.tail g.message

/-- Where everything comes from that is on its way, stored, or told to the memory. -/
structure Traced (hours timeout : Seconds) (allowlist topics : List Str) (as : List (FleetAction φ))
    (s : MobileNodeManager φ) : Prop where
  placed : ∀ g ∈ s.ingests, Placed hours timeout allowlist topics as g
  stored : ∀ deviceId, ∀ item ∈ s.records deviceId,
    item.2.deviceId = deviceId ∧ item.2.tail = item.1 ∧ ∃ message,
      LetThrough hours timeout allowlist topics as deviceId item.1 message ∧
        sanitize message = .ok item.2.data
  told : ∀ e ∈ s.episodes, e.2.1 ≠ lit "heartbeat" ∧ ∃ message data,
    LetThrough hours timeout allowlist topics as e.1 e.2.1 message ∧
      sanitize message = .ok data ∧ e.2.2 = sanitizeText (strOf data) 200

section

variable {hours timeout : Seconds} {allowlist topics : List Str} {as : List (FleetAction φ)}

theorem Placed.concat {g : Ingest φ} (h : Placed hours timeout allowlist topics as g)
    (a : FleetAction φ) : Placed hours timeout allowlist topics (as ++ [a]) g where
  checked hstage := (h.checked hstage).concat a
  through hstage := (h.through hstage).concat a

theorem Placed.of_refused {g : Ingest φ} (h : g.stage = .refused) :
    Placed hours timeout allowlist topics as g where
  checked hchecked := absurd (h.symm.trans hchecked) (by decide)
  through hthrough := by
    rw [h] at hthrough
    simp at hthrough

theorem Placed.of_cameIn {g : Ingest φ} (h : g.stage = .checked)
    (hcame : CameIn allowlist topics as g.deviceId g.tail g.message) :
    Placed hours timeout allowlist topics as g where
  checked _ := hcame
  through hthrough := by
    rw [h] at hthrough
    simp at hthrough

/-- A call that moves to a stage behind the registry has got through it. -/
theorem Placed.of_through {g : Ingest φ} {stage : IngestStage} (hstage : stage ≠ .checked)
    (h : LetThrough hours timeout allowlist topics as g.deviceId g.tail g.message) :
    Placed hours timeout allowlist topics as { g with stage := stage } where
  checked hchecked := absurd hchecked hstage
  through _ := h

theorem traced_new : Traced hours timeout allowlist topics [] (new hours timeout allowlist topics :
    MobileNodeManager φ) where
  placed _ hg := absurd hg List.not_mem_nil
  stored _ _ hitem := absurd hitem List.not_mem_nil
  told _ he := absurd he List.not_mem_nil

/-- A step that stores nothing keeps where everything comes from. -/
theorem Traced.concat (h : Traced hours timeout allowlist topics as s) (a : FleetAction φ)
    {s' : MobileNodeManager φ}
    (hingests : ∀ g ∈ s'.ingests, g ∈ s.ingests ∨ Placed hours timeout allowlist topics (as ++ [a]) g)
    (hsnapshots : s'.snapshots = s.snapshots) (hepisodes : s'.episodes = s.episodes) :
    Traced hours timeout allowlist topics (as ++ [a]) s' where
  placed g hg := (hingests g hg).elim (fun hold => (h.placed g hold).concat a) id
  stored deviceId item hitem := by
    rw [records, hsnapshots] at hitem
    obtain ⟨hid, htail, message, hthrough, hdata⟩ := h.stored deviceId item hitem
    exact ⟨hid, htail, message, hthrough.concat a, hdata⟩
  told e he := by
    rw [hepisodes] at he
    obtain ⟨hbeat, message, data, hthrough, hdata, htext⟩ := h.told e he
    exact ⟨hbeat, message, data, hthrough.concat a, hdata, htext⟩

/-- Storing a message that was let through keeps where everything comes from. -/
theorem Traced.store (h : Traced hours timeout allowlist topics as s) {deviceId tail : Str}
    {message data : PyVal φ} (now : Seconds)
    (hthrough : LetThrough hours timeout allowlist topics as deviceId tail message)
    (hdata : sanitize message = .ok data) :
    Traced hours timeout allowlist topics as (s.store deviceId tail data now) where
  placed := h.placed
  stored d item hitem := by
    rw [records, MobileNodeManager.store] at hitem
    by_cases hd : deviceId = d
    · subst hd
      rw [Dict.get?_set_self, Option.getD_some] at hitem
      rcases Dict.mem_set hitem with hold | rfl
      · exact h.stored deviceId item hold
      · exact ⟨rfl, rfl, message, hthrough, hdata⟩
    · rw [Dict.get?_set_of_ne _ hd] at hitem
      exact h.stored d item hitem
  told e he := by
    simp only [MobileNodeManager.store] at he
    split at he
    · exact h.told e he
    · rename_i hbeat
      rcases List.mem_append.1 he with he | he
      · exact h.told e he
      · rw [List.mem_singleton.1 he]
        exact ⟨hbeat, message, data, hthrough, hdata, rfl⟩

end

theorem traced_run (hours timeout : Seconds) (allowlist topics : List Str)
    (as : List (FleetAction φ)) :
    Traced hours timeout allowlist topics as
      (run step (new hours timeout allowlist topics : MobileNodeManager φ) as) := by
  induction as using List.reverseRecOn with
  | nil => exact traced_new
  | append_singleton as a ih =>
      have hrefusal := fun d t => mobileTopicRefusal_run hours timeout allowlist topics as d t
      have hpaired := fun now d => isPaired_run hours timeout allowlist topics as now d
      rw [run_append, run_cons, run_nil]
      generalize run step (new hours timeout allowlist topics : MobileNodeManager φ) as = s at *
      cases a with
      | registry call => exact ih.concat _ (fun g hg => .inl hg) rfl rfl
      | allow deviceId => exact ih.concat _ (fun g hg => .inl hg) rfl rfl
      | disallow deviceId => exact ih.concat _ (fun g hg => .inl hg) rfl rfl
      | ingest deviceId tail message =>
          rw [step, ingest]
          split
          · refine ih.concat _ (fun g hg => ?_) rfl rfl
            refine (List.mem_append.1 hg).imp_right fun hg => ?_
            rw [List.mem_singleton.1 hg]
            exact Placed.of_refused rfl
          · rename_i hnone
            refine ih.concat _ (fun g hg => ?_) rfl rfl
            refine (List.mem_append.1 hg).imp_right fun hg => ?_
            rw [List.mem_singleton.1 hg]
            exact Placed.of_cameIn rfl ⟨as, [], rfl, (hrefusal deviceId tail).1 hnone⟩
      | proceed i now monotonic =>
          rw [step]
          have hproceeds := proceeds s i now monotonic
          generalize s.proceed i now monotonic = s' at hproceeds
          cases hproceeds with
          | idle hnone => exact ih.concat _ (fun g hg => .inl hg) rfl rfl
          | ended g told hg hstage =>
              exact ih.concat _ (fun g hg => .inl (List.mem_of_mem_eraseIdx hg)) rfl rfl
          | letThrough g hg hstage hconsent =>
              have hplaced := ih.placed g (List.mem_of_getElem? hg)
              refine ih.concat _ (fun g' hg' => ?_) rfl rfl
              refine (List.mem_or_eq_of_mem_set hg').imp_right ?_
              rintro rfl
              refine Placed.of_through (by simp) ?_
              exact ⟨as, i, now, monotonic, [], rfl, hplaced.checked hstage,
                (hpaired now g.deviceId).1 hconsent⟩
          | heard g hg hstage =>
              have hplaced := ih.placed g (List.mem_of_getElem? hg)
              refine ih.concat _ (fun g' hg' => ?_) rfl rfl
              refine (List.mem_or_eq_of_mem_set hg').imp_right ?_
              rintro rfl
              exact Placed.of_through (by simp) ((hplaced.through (.inl hstage)).concat _)
          | stored g hg hstage data hdata hkept =>
              have hplaced := ih.placed g (List.mem_of_getElem? hg)
              have hdone : Traced hours timeout allowlist topics
                  (as ++ [.proceed i now monotonic]) (s.done i) :=
                ih.concat _ (fun g hg => .inl (List.mem_of_mem_eraseIdx hg)) rfl rfl
              exact hdone.store now ((hplaced.through (.inr hstage)).concat _) hdata

/-- After every run, and for every order of its steps: what a snapshot of a device has came in on a topic of
the contract while the device was on the allowlist, and was let through later while a pairing of the
device stood and was not over.  So did what the memory was told. -/
theorem heard_with_consent (hours timeout : Seconds) (allowlist topics : List Str)
    (as : List (FleetAction φ)) :
    let s := run step (new hours timeout allowlist topics) as
    (∀ deviceId, ∀ item ∈ s.getSensorSnapshot deviceId, ∃ message,
      LetThrough hours timeout allowlist topics as deviceId item.1 message ∧
        item.2.deviceId = deviceId ∧ item.2.tail = item.1 ∧ sanitize message = .ok item.2.data) ∧
    (∀ e ∈ s.episodes, e.2.1 ≠ lit "heartbeat" ∧ ∃ message data,
      LetThrough hours timeout allowlist topics as e.1 e.2.1 message ∧
        sanitize message = .ok data ∧ e.2.2 = sanitizeText (strOf data) 200) := by
  intro s
  have h := traced_run hours timeout allowlist topics as
  refine ⟨fun deviceId item hitem => ?_, h.told⟩
  have hrecord := (List.mem_insertionSort _).1 hitem
  obtain ⟨hid, htail, message, hthrough, hdata⟩ := h.stored deviceId item hrecord
  exact ⟨message, hthrough, hid, htail, hdata⟩

/-! ## A message that is alone on its way -/

/-- One more call on its way. -/
def entered (s : MobileNodeManager φ) (g : Ingest φ) : MobileNodeManager φ :=
  { s with ingests := s.ingests ++ [g] }

omit [Builtins φ] in
theorem getElem?_entered (s : MobileNodeManager φ) (g : Ingest φ) :
    (s.entered g).ingests[s.ingests.length]? = some g := by
  simp [entered]

omit [Builtins φ] in
theorem done_entered (s : MobileNodeManager φ) (g : Ingest φ) :
    (s.entered g).done s.ingests.length = s := by
  have hrest : (s.ingests ++ [g]).eraseIdx s.ingests.length = s.ingests := by
    rw [List.eraseIdx_append_of_length_le le_rfl, Nat.sub_self, List.eraseIdx_cons_zero, List.append_nil]
  rw [done, entered]
  simp only [hrest]

omit [Builtins φ] in
theorem reach_entered (s : MobileNodeManager φ) (g : Ingest φ) (stage : IngestStage) :
    (s.entered g).reach s.ingests.length g stage = s.entered { g with stage := stage } := by
  have hset : (s.ingests ++ [g]).set s.ingests.length { g with stage := stage } =
      s.ingests ++ [{ g with stage := stage }] := by
    rw [List.set_append_right _ _ le_rfl, Nat.sub_self, List.set_cons_zero]
  rw [reach, entered]
  simp only [hset]
  rfl

theorem proceed_idle (s : MobileNodeManager φ) (now monotonic : Seconds) :
    s.proceed s.ingests.length now monotonic = s := by
  rw [proceed, List.getElem?_eq_none le_rfl]

section

variable (s : MobileNodeManager φ) (deviceId tail : Str) (message : PyVal φ) (now monotonic : Seconds)

theorem proceed_refused :
    ∃ told, (s.entered ⟨deviceId, tail, message, .refused⟩).proceed s.ingests.length now monotonic =
      { s with violations := told } := by
  rw [proceed, getElem?_entered]
  simp only [done_entered]
  split
  · exact ⟨_, rfl⟩
  · exact ⟨s.violations, rfl⟩

theorem proceed_checked :
    (s.entered ⟨deviceId, tail, message, .checked⟩).proceed s.ingests.length now monotonic =
      if s.registry.isPaired now deviceId then s.entered ⟨deviceId, tail, message, .paired⟩ else s := by
  rw [proceed, getElem?_entered]
  simp only [done_entered, reach_entered]
  rfl

theorem proceed_paired :
    ∃ r, (s.entered ⟨deviceId, tail, message, .paired⟩).proceed s.ingests.length now monotonic =
      entered { s with registry := r } ⟨deviceId, tail, message, .heard⟩ := by
  rw [proceed, getElem?_entered]
  simp only [reach_entered]
  split
  · exact ⟨_, rfl⟩
  · exact ⟨s.registry, rfl⟩

theorem proceed_heard :
    (s.entered ⟨deviceId, tail, message, .heard⟩).proceed s.ingests.length now monotonic =
      match sanitize message with
      | .error _ | .ok .none => s
      | .ok data => s.store deviceId tail data now := by
  rw [proceed, getElem?_entered]
  simp only [done_entered]

end

/-- After every run: a message that then goes its way alone is stored, and told to the memory unless it is
a heartbeat, if the topic rules admit its device by what the operator last said, a pairing of the device
stands and is not over, and its payload is sanitised to something.  Otherwise it leaves no trace in the
snapshots and in the memory. -/
theorem lone_message (hours timeout : Seconds) (allowlist topics : List Str)
    (as : List (FleetAction φ)) (deviceId tail : Str) (message : PyVal φ)
    (now now' now'' monotonic monotonic' monotonic'' : Seconds) :
    let start : MobileNodeManager φ := new hours timeout allowlist topics
    let s := run step start as
    let i := s.ingests.length
    let s' := run step s [.ingest deviceId tail message, .proceed i now monotonic,
      .proceed i now' monotonic', .proceed i now'' monotonic'']
    let consent := Admits allowlist topics as deviceId tail ∧
      InConsent (max (1 / 100) hours) (start.registryCalls as) now deviceId
    (consent ∧ ∃ data, sanitize message = .ok data ∧ data ≠ .none ∧
      s'.snapshots = (s.store deviceId tail data now'').snapshots ∧
      s'.episodes = (s.store deviceId tail data now'').episodes) ∨
    (¬ (consent ∧ ∃ data, sanitize message = .ok data ∧ data ≠ .none) ∧
      s'.snapshots = s.snapshots ∧ s'.episodes = s.episodes) := by
  intro start s i s' consent
  have hadmits := mobileTopicRefusal_run hours timeout allowlist topics as deviceId tail
  have hpaired := isPaired_run hours timeout allowlist topics as now deviceId
  have hrun : s' = (((s.ingest deviceId tail message).proceed i now monotonic).proceed i now'
    monotonic').proceed i now'' monotonic'' := rfl
  cases hrefusal : mobileTopicRefusal φ s.allowlist s.topics deviceId tail with
  | some reason =>
      refine .inr ⟨fun h => ?_, ?_⟩
      · have hnone := hadmits.2 h.1.1
        rw [hrefusal] at hnone
        cases hnone
      · obtain ⟨counted, hingest⟩ : ∃ counted, s.ingest deviceId tail message =
            entered { s with refused := counted } ⟨deviceId, tail, message, .refused⟩ := by
          rw [ingest, hrefusal]
          exact ⟨Dict.set s.refused (refusalKey deviceId tail)
            ((Dict.get? s.refused (refusalKey deviceId tail)).getD 0 + 1), rfl⟩
        obtain ⟨told, htold⟩ :=
          proceed_refused { s with refused := counted } deviceId tail message now monotonic
        have hrest := fun t m => proceed_idle { s with refused := counted, violations := told } t m
        rw [hingest, htold, hrest, hrest] at hrun
        rw [hrun]
        exact ⟨rfl, rfl⟩
  | none =>
      have hingest : s.ingest deviceId tail message = s.entered ⟨deviceId, tail, message, .checked⟩ := by
        rw [ingest, hrefusal]
        rfl
      rw [hingest, proceed_checked] at hrun
      by_cases hconsent : s.registry.isPaired now deviceId = true
      · obtain ⟨r, hr⟩ := proceed_paired s deviceId tail message now' monotonic'
        have hheard := proceed_heard { s with registry := r } deviceId tail message now'' monotonic''
        rw [if_pos hconsent, hr, hheard] at hrun
        cases hsanitized : sanitize message with
        | error e =>
            rw [hsanitized] at hrun
            refine .inr ⟨?_, by rw [hrun], by rw [hrun]⟩
            rintro ⟨-, data, hdata, -⟩
            cases hdata
        | ok data =>
            rw [hsanitized] at hrun
            by_cases hkept : data = .none
            · subst hkept
              refine .inr ⟨?_, by rw [hrun], by rw [hrun]⟩
              rintro ⟨-, data, hdata, hne⟩
              exact hne (Except.ok.inj hdata).symm
            · refine .inl ⟨⟨hadmits.1 hrefusal, hpaired.1 hconsent⟩, data, rfl, hkept, ?_⟩
              rw [hrun]
              split
              · rename_i he
                cases he
              · rename_i he
                exact absurd (Except.ok.inj he) hkept
              · rename_i he
                cases he
                exact ⟨rfl, rfl⟩
      · rw [if_neg hconsent, proceed_idle, proceed_idle] at hrun
        refine .inr ⟨fun h => hconsent (hpaired.2 h.1.2), ?_⟩
        rw [hrun]
        exact ⟨rfl, rfl⟩

end MobileNodeManager

end ShugoCore
