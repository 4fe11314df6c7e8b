import ShugoCore.Clock
import ShugoCore.Lib.Dict
import ShugoCore.Lib.PyBuiltins
import ShugoCore.Lib.Run

/-!
# Backends for a task

`DelegationManager` of `delegation.py`.  Backends are registered with the network scope they
are in and the tiers of tasks they serve, and `select_backend` picks one for a task.  A first
loop goes through the backends in the order of the tier, and takes the first one that the
network policy allows, that serves the tier and that is healthy.  If there is none, a second
loop takes the first localhost backend that is healthy, and looks at nothing else.

A backend is healthy or not at the time it is asked.  So `CheckTimes` gives the clock reading of
each backend in each of the two loops.
-/

namespace ShugoCore

open Py

variable {φ : Type} [FloatFormat φ]

/-- `BackendScope`. -/
inductive BackendScope where
  | localhost
  | lan
  | internet
deriving DecidableEq, Repr

/-- `TaskTier`. -/
inductive TaskTier where
  | light
  | standard
  | heavy
  | shared
deriving DecidableEq, Repr

/-- `_DEFAULT_TIER_MAP`. -/
def defaultTierMap : Dict Str TaskTier :=
  [(lit "record_observation", .light), (lit "probe_model", .light), (lit "consolidate", .light),
    (lit "speak", .standard), (lit "ask_user", .standard), (lit "speak_test", .standard),
    (lit "multi_step_process", .heavy), (lit "search_api", .heavy), (lit "news_api", .heavy),
    (lit "hardware_interaction", .heavy)]

/-- `_tier_for_action_type`. -/
def tierForActionType : Option Str → TaskTier
  | none => .shared
  | some actionType =>
      if actionType = [] then .shared else (Dict.get? defaultTierMap actionType).getD .shared

/-- `BackendEntry`. -/
structure BackendEntry where
  scope : BackendScope
  baseUrl : Str
  backendType : Str
  taskTiers : List TaskTier
  latencyMs : ℚ
  consecutiveErrors : Nat
  lastErrorTs : Seconds
deriving DecidableEq

namespace BackendEntry

/-- `BackendEntry.__init__`. -/
def new (scope : BackendScope) (baseUrl backendType : Str) (taskTiers : Option (List TaskTier)) :
    BackendEntry where
  scope := scope
  baseUrl := baseUrl.rdropWhile (· = 47)
  backendType := backendType
  taskTiers := taskTiers.getD []
  latencyMs := 0
  consecutiveErrors := 0
  lastErrorTs := 0

/-- `record_success`. -/
def recordSuccess (e : BackendEntry) (latencyMs : ℚ) : BackendEntry :=
  { e with latencyMs := latencyMs, consecutiveErrors := 0 }

/-- `record_error`. -/
def recordError (e : BackendEntry) (now : Seconds) : BackendEntry :=
  { e with consecutiveErrors := e.consecutiveErrors + 1, lastErrorTs := now }

/-- `healthy`: `_MAX_CONSECUTIVE_ERRORS` are 3, and `_UNHEALTHY_COOLDOWN_S` is 30. -/
def healthy (e : BackendEntry) (now : Seconds) : Bool :=
  e.consecutiveErrors < 3 || 30 ≤ now - e.lastErrorTs

/-- What `healthy` leaves of a backend that is: one that has cooled down starts anew. -/
def afterHealthy (e : BackendEntry) : BackendEntry :=
  if 3 ≤ e.consecutiveErrors then { e with consecutiveErrors := 0 } else e

/-- `serves_tier`. -/
def servesTier (e : BackendEntry) (tier : TaskTier) : Bool :=
  e.taskTiers.isEmpty || tier ∈ e.taskTiers

/-- What a backend is found by. -/
def key (e : BackendEntry) : BackendScope × Str := (e.scope, e.baseUrl)

@[simp] theorem key_recordSuccess (e : BackendEntry) (latencyMs : ℚ) :
    (e.recordSuccess latencyMs).key = e.key := rfl

@[simp] theorem key_recordError (e : BackendEntry) (now : Seconds) :
    (e.recordError now).key = e.key := rfl

@[simp] theorem key_afterHealthy (e : BackendEntry) : e.afterHealthy.key = e.key := by
  simp only [afterHealthy]
  split <;> rfl

end BackendEntry

/-- `_policy_allows`. -/
def policyAllows (networkPolicy : Obj φ) (consent : Bool) : BackendScope → Bool
  | .localhost => truthy (getOr "localhost" (.bool true) networkPolicy)
  | .lan => truthy (getOr "lan" (.bool true) networkPolicy)
  | .internet => truthy (getOr "internet" (.bool false) networkPolicy) && consent

/-- The scopes that a tier prefers, in their order. -/
def TaskTier.order : TaskTier → List BackendScope
  | .light => [.localhost]
  | .standard => [.localhost, .lan]
  | .heavy => [.lan, .internet]
  | .shared => [.localhost, .lan, .internet]

/-- A backend with its position in the registry, which stands for its identity. -/
abbrev IndexedBackend := BackendEntry × Nat

/-- The backends that meet `p` are added, but for those that are there. -/
def addUnseen (p : BackendEntry → Bool) (entries ordered : List IndexedBackend) :
    List IndexedBackend :=
  entries.foldl (fun ordered c => if p c.1 && c ∉ ordered then ordered ++ [c] else ordered) ordered

/-- The two loops of `select_backend`. -/
inductive SelectionLoop where
  | preferred
  | fallback
deriving DecidableEq

/-- The clock reading at the check of each backend, in each loop. -/
abbrev CheckTimes := SelectionLoop → Nat → Seconds

/-- `DelegationManager`. -/
structure DelegationManager where
  backends : List BackendEntry
  active : Option (BackendScope × Str)

namespace DelegationManager

/-- `DelegationManager.__init__`. -/
def new : DelegationManager := ⟨[], none⟩

/-- The position of the backend with this key. -/
def find (m : DelegationManager) (scope : BackendScope) (baseUrl : Str) : Option Nat :=
  m.backends.findIdx? fun e => e.key = (scope, baseUrl)

/-- `register`. -/
def register (m : DelegationManager) (scope : BackendScope) (baseUrl backendType : Str)
    (taskTiers : Option (List TaskTier)) : DelegationManager :=
  let entry := BackendEntry.new scope baseUrl backendType taskTiers
  match m.find scope entry.baseUrl with
  | some i =>
      { m with
        backends := m.backends.modify i fun existing => { entry with
          consecutiveErrors := existing.consecutiveErrors
          lastErrorTs := existing.lastErrorTs
          latencyMs := existing.latencyMs } }
  | none => { m with backends := m.backends ++ [entry] }

/-- `unregister`, and what it returns. -/
def unregister (m : DelegationManager) (scope : BackendScope) (baseUrl : Str) :
    Bool × DelegationManager :=
  match m.find scope baseUrl with
  | some i =>
      (true, {
        backends := m.backends.eraseIdx i
        active := if m.active = some (scope, baseUrl) then none else m.active })
  | none => (false, m)

/-- Change the backend with this key. -/
def update (m : DelegationManager) (scope : BackendScope) (baseUrl : Str)
    (f : BackendEntry → BackendEntry) : DelegationManager :=
  match m.find scope baseUrl with
  | some i => { m with backends := m.backends.modify i f }
  | none => m

/-- `record_success`. -/
def recordSuccess (m : DelegationManager) (scope : BackendScope) (baseUrl : Str) (latencyMs : ℚ) :
    DelegationManager := m.update scope baseUrl fun e => e.recordSuccess latencyMs

/-- `record_error`. -/
def recordError (m : DelegationManager) (scope : BackendScope) (baseUrl : Str) (now : Seconds) :
    DelegationManager := m.update scope baseUrl fun e => e.recordError now

/-- `_candidates_for_tier`. -/
def candidatesForTier (m : DelegationManager) (tier : TaskTier) : List IndexedBackend :=
  addUnseen (fun _ => true) m.backends.zipIdx
    (tier.order.foldl (fun ordered scope =>
      addUnseen (fun e => e.scope = scope) m.backends.zipIdx ordered) [])

/-- A task, and what it may use. -/
structure Request (φ : Type) where
  actionType : Option Str
  networkPolicy : Obj φ
  consent : Bool

/-- The tier of a request. -/
def Request.tier (r : Request φ) : TaskTier := tierForActionType r.actionType

/-- The policy allows the backend, and it serves the tier. -/
def Request.permits (r : Request φ) (e : BackendEntry) : Bool :=
  policyAllows r.networkPolicy r.consent e.scope && e.servesTier r.tier

/-- What the first loop looks for. -/
def eligible (r : Request φ) (clock : CheckTimes) (c : IndexedBackend) : Bool :=
  r.permits c.1 && c.1.healthy (clock .preferred c.2)

/-- What the second loop looks for. -/
def lastResort (clock : CheckTimes) (c : IndexedBackend) : Bool :=
  c.1.scope = .localhost && c.1.healthy (clock .fallback c.2)

/-- The backend that `select_backend` takes.  A check that fails changes nothing, and one that
does not ends the loop. -/
def select (m : DelegationManager) (r : Request φ) (clock : CheckTimes) : Option IndexedBackend :=
  ((m.candidatesForTier r.tier).find? (eligible r clock)).or
    (m.backends.zipIdx.find? (lastResort clock))

/-- `select_backend`, and what it returns: the URL, and the scope by its value. -/
def selectBackend (m : DelegationManager) (r : Request φ) (clock : CheckTimes) :
    Option (Str × BackendScope) × DelegationManager :=
  match m.select r clock with
  | some (e, i) =>
      (some (e.baseUrl, e.scope),
        { backends := m.backends.modify i BackendEntry.afterHealthy
          active := some (e.scope, e.baseUrl) })
  | none => (none, m)

/-- A call of a method. -/
inductive Call (φ : Type) where
  | register (scope : BackendScope) (baseUrl backendType : Str) (taskTiers : Option (List TaskTier))
  | unregister (scope : BackendScope) (baseUrl : Str)
  | recordSuccess (scope : BackendScope) (baseUrl : Str) (latencyMs : ℚ)
  | recordError (scope : BackendScope) (baseUrl : Str) (now : Seconds)
  | selectBackend (r : Request φ) (clock : CheckTimes)

/-- One call. -/
def step (m : DelegationManager) : Call φ → DelegationManager
  | .register scope baseUrl backendType taskTiers => m.register scope baseUrl backendType taskTiers
  | .unregister scope baseUrl => (m.unregister scope baseUrl).2
  | .recordSuccess scope baseUrl latencyMs => m.recordSuccess scope baseUrl latencyMs
  | .recordError scope baseUrl now => m.recordError scope baseUrl now
  | .selectBackend r clock => (m.selectBackend r clock).2

/-! ## The keys of the registry -/

/-- No two backends have the same scope and URL. -/
def Unique (m : DelegationManager) : Prop := (m.backends.map BackendEntry.key).Nodup

/-- The key of the backend that is found. -/
theorem key_of_find {m : DelegationManager} {scope : BackendScope} {baseUrl : Str} {i : Nat}
    {e : BackendEntry} (h : m.find scope baseUrl = some i) (hi : m.backends[i]? = some e) :
    e.key = (scope, baseUrl) := by
  obtain ⟨hlt, hkey, -⟩ := List.findIdx?_eq_some_iff_getElem.1 h
  rw [List.getElem?_eq_getElem hlt] at hi
  obtain rfl := Option.some.inj hi
  simpa using hkey

theorem map_key_modify {es : List BackendEntry} {i : Nat} {f : BackendEntry → BackendEntry}
    (h : ∀ e, es[i]? = some e → (f e).key = e.key) :
    (es.modify i f).map BackendEntry.key = es.map BackendEntry.key := by
  refine List.ext_getElem? fun k => ?_
  rw [List.getElem?_map, List.getElem?_map, List.getElem?_modify]
  by_cases hk : i = k
  · subst hk
    cases hi : es[i]? with
    | none => rfl
    | some e => simp [h e hi]
  · simp [hk]

theorem Unique.register {m : DelegationManager} (h : m.Unique) (scope : BackendScope)
    (baseUrl backendType : Str) (taskTiers : Option (List TaskTier)) :
    (m.register scope baseUrl backendType taskTiers).Unique := by
  unfold DelegationManager.register
  dsimp only
  split
  · rename_i i hi
    simp only [Unique]
    rw [map_key_modify fun e he => (key_of_find hi he).symm ▸ rfl]
    exact h
  · rename_i hnone
    have hnew : ∀ e ∈ m.backends,
        e.key ≠ (BackendEntry.new scope baseUrl backendType taskTiers).key := by
      intro e he
      exact of_decide_eq_false (List.findIdx?_eq_none_iff.1 hnone e he)
    simp only [Unique]
    rw [List.map_append, List.nodup_append]
    refine ⟨h, List.nodup_singleton _, ?_⟩
    intro k hk k' hk'
    obtain ⟨e, he, rfl⟩ := List.mem_map.1 hk
    obtain rfl := List.mem_singleton.1 hk'
    exact hnew e he

theorem Unique.update {m : DelegationManager} (h : m.Unique) (scope : BackendScope) (baseUrl : Str)
    {f : BackendEntry → BackendEntry} (hf : ∀ e, (f e).key = e.key) :
    (m.update scope baseUrl f).Unique := by
  simp only [DelegationManager.update]
  split
  · simp only [Unique]
    rw [map_key_modify fun e _ => hf e]
    exact h
  · exact h

theorem Unique.step {m : DelegationManager} (h : m.Unique) (call : Call φ) :
    (m.step call).Unique := by
  cases call with
  | register scope baseUrl backendType taskTiers => exact h.register scope baseUrl backendType taskTiers
  | unregister scope baseUrl =>
      unfold DelegationManager.step DelegationManager.unregister
      dsimp only
      split
      · exact h.sublist ((List.eraseIdx_sublist _ _).map _)
      · exact h
  | recordSuccess scope baseUrl latencyMs => exact h.update scope baseUrl fun _ => rfl
  | recordError scope baseUrl now => exact h.update scope baseUrl fun _ => rfl
  | selectBackend r clock =>
      unfold DelegationManager.step DelegationManager.selectBackend
      dsimp only
      split
      · simp only [Unique]
        rw [map_key_modify fun e _ => e.key_afterHealthy]
        exact h
      · exact h

theorem unique_new : new.Unique := List.nodup_nil

/-! ## The two loops -/

/-- What is added comes after what is there, and is not there. -/
theorem addUnseen_eq (p : BackendEntry → Bool) (entries ordered : List IndexedBackend) :
    ∃ more, addUnseen p entries ordered = ordered ++ more ∧
      ∀ c, (c ∈ ordered ∨ c ∈ more) ↔ (c ∈ ordered ∨ c ∈ entries ∧ p c.1 = true) := by
  induction entries generalizing ordered with
  | nil => exact ⟨[], (List.append_nil _).symm, by simp⟩
  | cons d entries ih =>
      by_cases hd : p d.1 = true ∧ d ∉ ordered
      · obtain ⟨more, hmore, hmem⟩ := ih (ordered ++ [d])
        refine ⟨d :: more, ?_, fun c => ?_⟩
        · rw [addUnseen, List.foldl_cons, if_pos (by simpa using hd)]
          rw [addUnseen] at hmore
          rw [hmore, List.append_assoc]
          rfl
        · have := hmem c
          grind
      · obtain ⟨more, hmore, hmem⟩ := ih ordered
        refine ⟨more, ?_, fun c => ?_⟩
        · rw [addUnseen, List.foldl_cons, if_neg (by simpa using hd)]
          exact hmore
        · have := hmem c
          grind

theorem mem_addUnseen {p : BackendEntry → Bool} {entries ordered : List IndexedBackend}
    {c : IndexedBackend} :
    c ∈ addUnseen p entries ordered ↔ c ∈ ordered ∨ c ∈ entries ∧ p c.1 = true := by
  obtain ⟨more, hmore, hmem⟩ := addUnseen_eq p entries ordered
  rw [hmore, List.mem_append]
  exact hmem c

/-- The backends in these scopes. -/
theorem mem_foldl_addUnseen {entries : List IndexedBackend} {c : IndexedBackend}
    (scopes : List BackendScope) (ordered : List IndexedBackend) :
    c ∈ scopes.foldl (fun ordered scope =>
        addUnseen (fun e => e.scope = scope) entries ordered) ordered ↔
      c ∈ ordered ∨ c ∈ entries ∧ c.1.scope ∈ scopes := by
  induction scopes generalizing ordered with
  | nil => simp
  | cons scope scopes ih =>
      rw [List.foldl_cons, ih, mem_addUnseen, decide_eq_true_iff, List.mem_cons]
      tauto

/-- The backends in the scopes of the tier come first, and then come all others. -/
theorem candidates_split (m : DelegationManager) (tier : TaskTier) :
    ∃ pre rest, m.candidatesForTier tier = pre ++ rest ∧
      (∀ c, c ∈ pre ↔ c ∈ m.backends.zipIdx ∧ c.1.scope ∈ tier.order) ∧
      ∀ c, c ∈ pre ++ rest ↔ c ∈ m.backends.zipIdx := by
  have hpre (c : IndexedBackend) : c ∈ tier.order.foldl (fun ordered scope =>
      addUnseen (fun e => e.scope = scope) m.backends.zipIdx ordered) [] ↔
        c ∈ [] ∨ c ∈ m.backends.zipIdx ∧ c.1.scope ∈ tier.order := mem_foldl_addUnseen tier.order []
  obtain ⟨rest, hrest, hmem⟩ := addUnseen_eq (fun _ => true) m.backends.zipIdx
    (tier.order.foldl (fun ordered scope =>
      addUnseen (fun e => e.scope = scope) m.backends.zipIdx ordered) [])
  refine ⟨_, rest, hrest, fun c => ?_, fun c => ?_⟩
  · rw [hpre c]
    simp
  · rw [List.mem_append, hmem c, hpre c]
    simp only [List.not_mem_nil, false_or, and_true]
    tauto

theorem mem_candidates {m : DelegationManager} {tier : TaskTier} {c : IndexedBackend} :
    c ∈ m.candidatesForTier tier ↔ c ∈ m.backends.zipIdx := by
  obtain ⟨pre, rest, hsplit, -, hall⟩ := m.candidates_split tier
  rw [hsplit]
  exact hall c

/-- The backend that is taken: one that the first loop looks for, or, if there is none, what
the second loop finds. -/
theorem select_cases (m : DelegationManager) (r : Request φ) (clock : CheckTimes) :
    (∃ c ∈ m.backends.zipIdx, eligible r clock c = true ∧ m.select r clock = some c) ∨
      (∀ c ∈ m.backends.zipIdx, eligible r clock c = false) ∧
        m.select r clock = m.backends.zipIdx.find? (lastResort clock) := by
  simp only [select]
  cases hfind : (m.candidatesForTier r.tier).find? (eligible r clock) with
  | some c =>
      left
      exact ⟨c, mem_candidates.1 (List.mem_of_find?_eq_some hfind), List.find?_some hfind, rfl⟩
  | none =>
      right
      refine ⟨fun c hc => ?_, rfl⟩
      simpa using List.find?_eq_none.1 hfind c (mem_candidates.2 hc)

end DelegationManager

end ShugoCore
