import ShugoCore.Lib.Run
import ShugoCore.Mesh.Election

/-!
# Heartbeats between the mesh, the cache and the election

`_mesh_heartbeat_received` hands an advertisement to the election, merges a copy of
it into `telemetry['mesh_peers']`, and evaluates the election.
`_mesh_heartbeat_tick` hands the local heartbeat and every copy in the cache to the
election and lets it vote twice.  The mesh runs the first on its own threads, the
agent loop runs the second, and each call here takes one step at a time: it reads a
clock, takes the lock of the election, reads the cache or writes it.  So a list of
actions is an interleaving, and nothing but the mesh writes the cache.

Beside the state stands its history: when advertisements were received, the last one
of each peer that the election was given, and for each peer whose record was last
written from the cache, the time that wrote.
-/

namespace ShugoCore

open Py Machine

/-- Where a call of `_mesh_heartbeat_received` or `_mesh_heartbeat_tick` is. -/
inductive BeatPhase (φ : Type) where
  /-- The entry of an advertisement is ready.  The lock is next. -/
  | observing (payload : Obj φ) (entry : NodeRecord φ)
  /-- The election was given the advertisement.  The cache is read next. -/
  | observed (payload : Obj φ)
  /-- The cache was read.  It is written next. -/
  | merging (payload : Obj φ) (peers : List (Obj φ))
  /-- `_mesh_heartbeat_tick` begins. -/
  | beating
  /-- The local heartbeat is in.  The cache is read next. -/
  | beaten
  /-- The copies that are left to feed. -/
  | feeding (peers : List (Obj φ))
  /-- The entry of a copy is ready.  The lock is next. -/
  | recording (entry : NodeRecord φ) (peers : List (Obj φ))
  /-- Some calls of `tick` are left.  The clock is read next. -/
  | ticking (left : Nat)
  | electing (now : Seconds) (left : Nat)
  | installing (v : MeshElection.Verdict) (left : Nat)
  | done

/-- The advertisement whose entry is ready. -/
def BeatPhase.advert? {φ : Type} : BeatPhase φ → Option (Obj φ × NodeRecord φ)
  | .observing payload entry => some (payload, entry)
  | _ => none

/-- What a step may read: the two clocks, the thermal state in the telemetry, and the
headroom that `_mesh_mem_headroom` returns or raises. -/
structure Readings (φ : Type) where
  now : Seconds
  wallTime : PyVal φ
  thermal : PyVal φ
  headroom : Except Exn Int

/-- A node with its calls in progress. -/
structure MeshNode (φ : Type) where
  /-- The `node_id` of the agent, empty if it has none. -/
  nodeId : Str
  election : MeshElection φ
  /-- `telemetry['mesh_peers']`. -/
  meshPeers : List (Obj φ)
  calls : List (BeatPhase φ)
  /-- When an advertisement of which node was received. -/
  received : List (Str × Seconds)
  /-- The last advertisement of a node that the election was given. -/
  lastAdvert : Dict Str (Obj φ)
  /-- The reading of the clock with which a copy from the cache last renewed or rewrote
  the record of a node, unless an advertisement did so later. -/
  fedAt : Dict Str Seconds

namespace MeshNode

variable {φ : Type} [Builtins φ]

/-- What can happen next. -/
inductive Action (φ : Type) where
  /-- `_mesh_heartbeat_received` is called. -/
  | receive (payload : Obj φ) (now : Seconds)
  /-- `_mesh_heartbeat_tick` is called. -/
  | tick
  /-- A call in progress takes its next step. -/
  | advance (call : Nat) (r : Readings φ)

/-- A node before its first heartbeat. -/
def start (nodeId : Str) (election : MeshElection φ) : MeshNode φ where
  nodeId := nodeId
  election := election
  meshPeers := []
  calls := []
  received := []
  lastAdvert := []
  fedAt := []

/-- The node id that `_mesh_heartbeat_received` reads off an advertisement. -/
def payloadId (payload : Obj φ) : Str :=
  strip (strOf (orElse (fetch (lit "node_id") payload) (.str [])))

/-- `_mesh_heartbeat_received` goes on with an advertisement that has an id, and not
the one of this node. -/
def accepts (s : MeshNode φ) (payload : Obj φ) : Bool :=
  payloadId payload ≠ [] && payloadId payload ≠ s.nodeId && payloadId payload ≠ s.election.nodeId

/-- The copy that goes into the cache. -/
def cacheEntry (nodeId : Str) (payload : Obj φ) (wallTime : PyVal φ) : Obj φ :=
  let entry := obj [("device_id", .str nodeId), ("node_id", .str nodeId),
    ("priority", getOr "priority" (.int 500) payload),
    ("thermal_status", getOr "thermal_status" (.int 0) payload),
    ("mem_available_bytes", getOr "mem_available_bytes" (.int 0) payload),
    ("paired", getOr "paired" (.bool true) payload), ("seq", getOr "seq" (.int 0) payload),
    ("source", .str (lit "mesh")), ("received_at", wallTime)]
  let entry := match fetch (lit "can_speak") payload with
    | .none => entry
    | v => setKey (lit "can_speak") (.bool (truthy v)) entry
  entry ++ payload.filter fun item => (lit "remote_").isPrefixOf (strOf item.1.toVal)

/-- The id that `_mesh_heartbeat_received` compares a copy by. -/
def cachedId (peer : Obj φ) : Str :=
  strOf (orElse (orElse (fetch (lit "device_id") peer) (fetch (lit "node_id") peer)) (.str []))

/-- The cache after an advertisement: at most sixteen copies, the new one last. -/
def mergePeers (nodeId : Str) (entry : Obj φ) (peers : List (Obj φ)) : List (Obj φ) :=
  let merged := (peers.filter fun peer => cachedId peer ≠ nodeId) ++ [entry]
  merged.drop (merged.length - 16)

/-- What `_mesh_heartbeat_tick` makes of a copy in the cache. -/
def feedPayload (peer : Obj φ) : Option (Obj φ) :=
  let peerId := strip (strOf (orElse (orElse (orElse (fetch (lit "device_id") peer)
    (fetch (lit "node_id") peer)) (fetch (lit "id") peer)) (.str [])))
  if peerId = [] then none
  else some (obj [("node_id", .str peerId), ("priority", getOr "priority" (.int 500) peer),
    ("thermal_status", getOr "thermal_status" (getOr "thermal_state" (.int 0) peer) peer),
    ("mem_available_bytes", getOr "mem_available_bytes" (.int 0) peer),
    ("paired", getOr "paired" (.bool true) peer), ("seq", getOr "seq" (.int 0) peer)])

/-- A call moves on. -/
def goto (s : MeshNode φ) (i : Nat) (phase : BeatPhase φ) : MeshNode φ :=
  { s with calls := s.calls.set i phase }

/-- The first part of `_mesh_heartbeat_received`.  An advertisement that cannot be
converted is not observed, and the exception is dropped. -/
def receive (s : MeshNode φ) (payload : Obj φ) (now : Seconds) : MeshNode φ :=
  if s.accepts payload then
    match advertisement payload now with
    | .ok (some entry) =>
        { s with
          received := s.received ++ [(payloadId payload, now)]
          calls := s.calls ++ [.observing payload entry] }
    | _ =>
        { s with
          received := s.received ++ [(payloadId payload, now)]
          lastAdvert := Dict.set s.lastAdvert (payloadId payload) payload
          calls := s.calls ++ [.observed payload] }
  else s

/-- The election is given an advertisement.  An exception is dropped. -/
def observe (s : MeshNode φ) (payload : Obj φ) (entry : NodeRecord φ) : MeshNode φ :=
  match s.election.record entry with
  | .ok election =>
      { s with
        election := election
        lastAdvert := Dict.set s.lastAdvert entry.nodeId payload
        fedAt := Dict.remove s.fedAt entry.nodeId }
  | .error _ => { s with lastAdvert := Dict.set s.lastAdvert entry.nodeId payload }

/-- The local heartbeat of `_mesh_heartbeat_tick`. -/
def localBeat (s : MeshNode φ) (r : Readings φ) : Except Exn (MeshElection φ) := do
  let thermal ← intOr 0 (orElse r.thermal (.int 0))
  let headroom ← r.headroom
  let beat ← s.election.localHeartbeat thermal headroom [] true [] r.now
  return beat.2

/-- The next step of a call.  `_mesh_heartbeat_tick` ends at the first exception. -/
def advance (s : MeshNode φ) (i : Nat) (r : Readings φ) : BeatPhase φ → MeshNode φ
  | .observing payload entry => (s.observe payload entry).goto i (.observed payload)
  | .observed payload => s.goto i (.merging payload s.meshPeers)
  | .merging payload peers =>
      let entry := cacheEntry (payloadId payload) payload r.wallTime
      { s with meshPeers := mergePeers (payloadId payload) entry peers }.goto i .beating
  | .beating =>
      match s.localBeat r with
      | .ok election => { s with election := election }.goto i .beaten
      | .error _ => s.goto i .done
  | .beaten => s.goto i (.feeding (s.meshPeers.take 16))
  | .feeding [] => s.goto i (.ticking 2)
  | .feeding (peer :: peers) =>
      match feedPayload peer with
      | none => s.goto i (.feeding peers)
      | some payload =>
          match advertisement payload r.now with
          | .error _ => s.goto i .done
          | .ok none => s.goto i (.feeding peers)
          | .ok (some entry) => s.goto i (.recording entry peers)
  | .recording entry peers =>
      match s.election.record entry with
      | .error _ => s.goto i .done
      | .ok election =>
          { s with
            election := election
            fedAt := Dict.set s.fedAt entry.nodeId entry.lastSeen }.goto i (.feeding peers)
  | .ticking 0 => s.goto i .done
  | .ticking (left + 1) => s.goto i (.electing r.now left)
  | .electing now left =>
      { s with election := s.election.noteDisagreement now }.goto i
        (.installing (s.election.verdict now) left)
  | .installing v left => { s with election := s.election.install v }.goto i (.ticking left)
  | .done => s

/-- One step of a run. -/
def step (s : MeshNode φ) : Action φ → MeshNode φ
  | .receive payload now => s.receive payload now
  | .tick => { s with calls := s.calls ++ [.beating] }
  | .advance i r =>
      match s.calls[i]? with
      | some phase => s.advance i r phase
      | none => s

/-! ## What a step can do -/

section Frame

omit [Builtins φ]

@[simp] theorem goto_nodeId (s : MeshNode φ) (i : Nat) (phase : BeatPhase φ) :
    (s.goto i phase).nodeId = s.nodeId := rfl

@[simp] theorem goto_election (s : MeshNode φ) (i : Nat) (phase : BeatPhase φ) :
    (s.goto i phase).election = s.election := rfl

@[simp] theorem goto_received (s : MeshNode φ) (i : Nat) (phase : BeatPhase φ) :
    (s.goto i phase).received = s.received := rfl

@[simp] theorem goto_lastAdvert (s : MeshNode φ) (i : Nat) (phase : BeatPhase φ) :
    (s.goto i phase).lastAdvert = s.lastAdvert := rfl

@[simp] theorem goto_fedAt (s : MeshNode φ) (i : Nat) (phase : BeatPhase φ) :
    (s.goto i phase).fedAt = s.fedAt := rfl

@[simp] theorem goto_calls (s : MeshNode φ) (i : Nat) (phase : BeatPhase φ) :
    (s.goto i phase).calls = s.calls.set i phase := rfl

/-- What a step keeps that neither gives the election an entry nor receives one. -/
structure Quiet (s s' : MeshNode φ) : Prop where
  nodes : s'.election.nodes = s.election.nodes
  received : s'.received = s.received
  lastAdvert : s'.lastAdvert = s.lastAdvert
  fedAt : s'.fedAt = s.fedAt
  observing : ∀ payload entry, .observing payload entry ∈ s'.calls → .observing payload entry ∈ s.calls

theorem Quiet.rfl {s : MeshNode φ} : Quiet s s := ⟨.refl _, .refl _, .refl _, .refl _, fun _ _ h => h⟩

/-- A call moves on to a phase that holds no advertisement. -/
theorem quiet_goto (s : MeshNode φ) (i : Nat) {phase : BeatPhase φ}
    (h : phase.advert? = none) : Quiet s (s.goto i phase) where
  nodes := .refl _
  received := .refl _
  lastAdvert := .refl _
  fedAt := .refl _
  observing payload entry hmem := by
    rcases List.mem_or_eq_of_mem_set hmem with hmem | heq
    · exact hmem
    · rw [← heq] at h
      cases h

/-- The cache and the verdicts of the election are no part of it. -/
theorem Quiet.of_eq {s t s' : MeshNode φ} (h : Quiet t s')
    (hnodes : t.election.nodes = s.election.nodes) (hreceived : t.received = s.received)
    (hadvert : t.lastAdvert = s.lastAdvert) (hfed : t.fedAt = s.fedAt) (hcalls : t.calls = s.calls) :
    Quiet s s' where
  nodes := h.nodes.trans hnodes
  received := h.received.trans hreceived
  lastAdvert := h.lastAdvert.trans hadvert
  fedAt := h.fedAt.trans hfed
  observing payload entry hmem := hcalls ▸ h.observing payload entry hmem

end Frame

@[simp] theorem observe_lastAdvert (s : MeshNode φ) (payload : Obj φ) (entry : NodeRecord φ) :
    (s.observe payload entry).lastAdvert = Dict.set s.lastAdvert entry.nodeId payload := by
  rw [observe]
  split <;> rfl

@[simp] theorem observe_calls (s : MeshNode φ) (payload : Obj φ) (entry : NodeRecord φ) :
    (s.observe payload entry).calls = s.calls := by
  rw [observe]
  split <;> rfl

/-- A step that is not quiet. -/
inductive Loud (s : MeshNode φ) : Action φ → MeshNode φ → Prop
  /-- An advertisement is received, and its entry is ready. -/
  | heard {payload : Obj φ} {now : Seconds} {entry : NodeRecord φ} (h : s.accepts payload = true)
      (hentry : advertisement payload now = .ok (some entry)) :
      Loud s (.receive payload now)
        { s with
          received := s.received ++ [(payloadId payload, now)]
          calls := s.calls ++ [.observing payload entry] }
  /-- An advertisement is received that cannot be converted. -/
  | unread {payload : Obj φ} {now : Seconds} (h : s.accepts payload = true)
      (hentry : ∀ entry, advertisement payload now ≠ .ok (some entry)) :
      Loud s (.receive payload now)
        { s with
          received := s.received ++ [(payloadId payload, now)]
          lastAdvert := Dict.set s.lastAdvert (payloadId payload) payload
          calls := s.calls ++ [.observed payload] }
  /-- The election is given an advertisement. -/
  | given {i : Nat} {r : Readings φ} {payload : Obj φ} {entry : NodeRecord φ}
      (h : s.calls[i]? = some (.observing payload entry)) :
      Loud s (.advance i r) ((s.observe payload entry).goto i (.observed payload))
  /-- The election is given the local heartbeat. -/
  | beat {i : Nat} {r : Readings φ} {election : MeshElection φ} (h : s.calls[i]? = some .beating)
      (hbeat : s.localBeat r = .ok election) :
      Loud s (.advance i r) ({ s with election := election }.goto i .beaten)
  /-- The election is given a copy from the cache. -/
  | fed {i : Nat} {r : Readings φ} {entry : NodeRecord φ} {peers : List (Obj φ)}
      {election : MeshElection φ} (h : s.calls[i]? = some (.recording entry peers))
      (hrecord : s.election.record entry = .ok election) :
      Loud s (.advance i r)
        ({ s with
          election := election
          fedAt := Dict.set s.fedAt entry.nodeId entry.lastSeen }.goto i (.feeding peers))

theorem receive_cases (s : MeshNode φ) (payload : Obj φ) (now : Seconds) :
    Quiet s (s.receive payload now) ∨ Loud s (.receive payload now) (s.receive payload now) := by
  rw [receive]
  split
  · rename_i h
    split
    · rename_i entry hentry
      exact .inr (.heard h hentry)
    · rename_i hno
      exact .inr (.unread h hno)
  · exact .inl .rfl

theorem advance_cases (s : MeshNode φ) {i : Nat} (r : Readings φ) {phase : BeatPhase φ}
    (hi : s.calls[i]? = some phase) :
    Quiet s (s.advance i r phase) ∨ Loud s (.advance i r) (s.advance i r phase) := by
  match phase with
  | .observing payload entry => exact .inr (.given hi)
  | .observed payload => exact .inl (quiet_goto s i rfl)
  | .merging payload peers => exact .inl ((quiet_goto _ i (by rfl)).of_eq rfl rfl rfl rfl rfl)
  | .beating =>
      rw [advance]
      split
      · rename_i election hbeat
        exact .inr (.beat hi hbeat)
      · exact .inl (quiet_goto s i rfl)
  | .beaten => exact .inl (quiet_goto s i rfl)
  | .feeding [] => exact .inl (quiet_goto s i rfl)
  | .feeding (peer :: peers) =>
      rw [advance]
      split
      · exact .inl (quiet_goto s i rfl)
      · split <;> exact .inl (quiet_goto s i rfl)
  | .recording entry peers =>
      rw [advance]
      split
      · exact .inl (quiet_goto s i rfl)
      · rename_i election hrecord
        exact .inr (.fed hi hrecord)
  | .ticking 0 => exact .inl (quiet_goto s i rfl)
  | .ticking (left + 1) => exact .inl (quiet_goto s i rfl)
  | .electing now left =>
      exact .inl ((quiet_goto _ i (by rfl)).of_eq (MeshElection.noteDisagreement_nodes _ _) rfl rfl rfl rfl)
  | .installing v left =>
      exact .inl ((quiet_goto _ i (by rfl)).of_eq (MeshElection.install_nodes _ _) rfl rfl rfl rfl)
  | .done => exact .inl .rfl

/-- A step is quiet, or it is one of five. -/
theorem step_cases (s : MeshNode φ) (a : Action φ) : Quiet s (s.step a) ∨ Loud s a (s.step a) := by
  cases a with
  | receive payload now => exact s.receive_cases payload now
  | tick =>
      refine .inl ⟨rfl, rfl, rfl, rfl, fun payload entry h => ?_⟩
      rcases List.mem_append.1 h with h | h
      · exact h
      · cases List.mem_singleton.1 h
  | advance i r =>
      rw [step]
      split
      · rename_i phase hi
        exact s.advance_cases r hi
      · exact .inl .rfl

/-- `observe_heartbeat` reads the id that `_mesh_heartbeat_received` has read. -/
theorem strip_nodeId {payload : Obj φ} (h : payloadId payload ≠ []) :
    strip (strOf (getOr "node_id" (.str []) payload)) = payloadId payload := by
  rw [payloadId, orElse] at *
  split at h
  · rename_i ht
    rw [if_pos ht]
    rw [fetch] at ht ⊢
    rw [getOr]
    cases hk : getKey (lit "node_id") payload with
    | none => rw [hk] at ht; cases ht
    | some v => rfl
  · exact absurd rfl h

theorem accepts_iff {s : MeshNode φ} {payload : Obj φ} :
    s.accepts payload = true ↔
      payloadId payload ≠ [] ∧ payloadId payload ≠ s.nodeId ∧
        payloadId payload ≠ s.election.nodeId := by
  simp [accepts, and_assoc]

/-- The entry of an advertisement that is accepted has the id and the time it was
received with. -/
theorem entry_of_accepted {s : MeshNode φ} {payload : Obj φ} {now : Seconds} {entry : NodeRecord φ}
    (h : s.accepts payload = true) (hentry : advertisement payload now = .ok (some entry)) :
    entry.nodeId = payloadId payload ∧ entry.lastSeen = now := by
  obtain ⟨hid, hts, -⟩ := MeshElection.advertisement_ok hentry
  rw [strip_nodeId (accepts_iff.1 h).1] at hid
  exact ⟨hid, hts⟩

/-- The local heartbeat records an entry of the node itself, or only counts. -/
theorem localBeat_ok {s : MeshNode φ} {r : Readings φ} {election : MeshElection φ}
    (h : s.localBeat r = .ok election) :
    election = { s.election with seq := s.election.seq + 1 } ∨
      ∃ entry, entry.nodeId = strip s.election.nodeId ∧
        MeshElection.record { s.election with seq := s.election.seq + 1 } entry = .ok election := by
  rw [localBeat] at h
  cases ht : intOr 0 (orElse r.thermal (.int 0)) with
  | error exn => rw [ht] at h; cases h
  | ok thermal =>
      cases hr : r.headroom with
      | error exn => rw [ht, hr] at h; cases h
      | ok headroom =>
          rw [ht, hr] at h
          change (s.election.localHeartbeat thermal headroom [] true [] r.now >>=
            fun beat => .ok beat.2) = .ok election at h
          cases hb : s.election.localHeartbeat thermal headroom [] true [] r.now with
          | error exn => rw [hb] at h; cases h
          | ok beat =>
              rw [hb] at h
              cases h
              exact MeshElection.localHeartbeat_ok hb

/-- No step changes who the node is. -/
theorem sameNode_step (s : MeshNode φ) (a : Action φ) :
    s.election.SameNode (s.step a).election ∧ (s.step a).nodeId = s.nodeId := by
  have hrefl : s.election.SameNode s.election := ⟨rfl, rfl⟩
  cases a with
  | receive payload now =>
      rw [step, receive]
      split
      · split <;> exact ⟨hrefl, rfl⟩
      · exact ⟨hrefl, rfl⟩
  | tick => exact ⟨hrefl, rfl⟩
  | advance i r =>
      rw [step]
      split
      · rename_i phase hi
        match phase with
        | .observing payload entry =>
            rw [advance, goto_election, goto_nodeId, observe]
            split
            · rename_i hr
              exact ⟨MeshElection.sameNode_record hr, rfl⟩
            · exact ⟨hrefl, rfl⟩
        | .beating =>
            rw [advance]
            split
            · rename_i hb
              rcases localBeat_ok hb with rfl | ⟨entry, -, hr⟩
              · exact ⟨hrefl, rfl⟩
              · obtain ⟨hid, htimeout⟩ := MeshElection.sameNode_record hr
                exact ⟨⟨hid, htimeout⟩, rfl⟩
            · exact ⟨hrefl, rfl⟩
        | .feeding (peer :: peers) =>
            rw [advance]
            split
            · exact ⟨hrefl, rfl⟩
            · split <;> exact ⟨hrefl, rfl⟩
        | .recording entry peers =>
            rw [advance]
            split
            · exact ⟨hrefl, rfl⟩
            · rename_i hr
              exact ⟨MeshElection.sameNode_record hr, rfl⟩
        | .electing now left => exact ⟨MeshElection.sameNode_noteDisagreement _ _, rfl⟩
        | .installing v left => exact ⟨MeshElection.sameNode_install _ _, rfl⟩
        | .observed _ | .merging _ _ | .beaten | .feeding [] | .ticking 0 | .ticking (_ + 1)
        | .done => exact ⟨hrefl, rfl⟩
      · exact ⟨hrefl, rfl⟩

end MeshNode

end ShugoCore
