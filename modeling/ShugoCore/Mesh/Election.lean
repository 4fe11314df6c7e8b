import Mathlib.Data.List.Sort
import ShugoCore.Clock
import ShugoCore.Lib.PyBuiltins

/-!
# The election of the primary

`MeshElection` of `mesh_election.py`.  A node keeps one record per node it has
heard of, with the time it was last seen.  `tick` drops the records that are too old
or not eligible, ranks the rest, and the best of them is the primary.

A method that takes the lock is cut where the lock is taken.  `advertisement` and
the clock reading of `observe_heartbeat` come before the lock, `record` is what
happens under it.  `verdict` is what `tick` works out, and `install` is its write.
A conversion that raises something else than `TypeError` or `ValueError` leaves
`observe_heartbeat` with that exception.
-/

namespace ShugoCore

open Py

/-- What a node is configured to be. -/
inductive NodeRole where
  | primaryCapable | follower
deriving DecidableEq, Repr

/-- A record of `_nodes`. -/
structure NodeRecord (φ : Type) where
  nodeId : Str
  priority : Int
  thermalStatus : Int
  /-- `none` when the advertisement did not report it. -/
  memAvailableBytes : Option Int
  rpcEndpoint : Str
  paired : Bool
  primary : Str
  role : NodeRole
  caps : Obj φ
  seq : PyVal φ
  lastSeen : Seconds

/-- The election of one node.  The audit chain is left out. -/
structure MeshElection (φ : Type) where
  nodeId : Str
  priority : Int
  nodeRole : NodeRole
  leaseS : Seconds
  heartbeatTimeoutS : Seconds
  nodes : Dict Str (NodeRecord φ)
  primaryId : Option Str
  leaseSince : Seconds
  seq : Int
  disagreementSeen : List (Str × Str × Str)

section Reading

variable {φ : Type} [Builtins φ]

/-- `int(v)`, with a default for `TypeError` and `ValueError`. -/
def intOr (default : Int) (v : PyVal φ) : Except Exn Int :=
  match intOf v with
  | .ok i => .ok i
  | .error .typeError | .error .valueError => .ok default
  | .error exn => .error exn

/-- The role that a text stands for. -/
def roleOf (v : PyVal φ) : NodeRole :=
  if lowerLetters (strip (strOf (orElse v (.str [])))) = lit "follower" then .follower
  else .primaryCapable

/-- `mem_available_bytes` of an advertisement.  What is reported but unusable is 0. -/
def memOf (payload : Obj φ) : Except Exn (Option Int) :=
  match getKey (lit "mem_available_bytes") payload with
  | some v => some <$> intOr 0 v
  | none => .ok none

/-- The first part of `observe_heartbeat`: the entry of an advertisement, with the
clock reading `ts`.  There is none without a node id. -/
def advertisement (payload : Obj φ) (ts : Seconds) : Except Exn (Option (NodeRecord φ)) :=
  let nodeId := strip (strOf (getOr "node_id" (.str []) payload))
  if nodeId = [] then .ok none
  else do
    let priority ← intOr 100 (getOr "priority" (.int 100) payload)
    let thermal ← intOr 0 (getOr "thermal_status" (.int 0) payload)
    let mem ← memOf payload
    return some {
      nodeId := nodeId
      priority := priority
      thermalStatus := thermal
      memAvailableBytes := mem
      rpcEndpoint := (strOf (orElse (getOr "rpc_endpoint" (.str []) payload) (.str []))).take 256
      paired := truthy (getOr "paired" (.bool true) payload)
      primary := (strOf (orElse (getOr "primary" (.str []) payload) (.str []))).take 64
      role := roleOf (getOr "role" (.str []) payload)
      caps := dictOrEmpty (getOr "caps" .none payload)
      seq := getOr "seq" (.int 0) payload
      lastSeen := ts }

/-- The sequence numbers that `observe_heartbeat` compares, if both are numbers. -/
def seqs (seq prevSeq : PyVal φ) : Except Exn (Option (Int × Int)) :=
  match intOf seq with
  | .error .typeError | .error .valueError => .ok none
  | .error exn => .error exn
  | .ok i =>
      match intOf prevSeq with
      | .error .typeError | .error .valueError => .ok none
      | .error exn => .error exn
      | .ok j => .ok (some (i, j))

/-- `THERMAL_REFUSE_STATUS`. -/
def thermalRefuseStatus : Int := 3

/-- `_eligible` on a record, whose numbers have been converted before: why it is not
eligible. -/
def ineligible (entry : NodeRecord φ) : Option String :=
  if !entry.paired then some "unpaired"
  else if thermalRefuseStatus ≤ entry.thermalStatus then some "thermal-critical"
  else
    match entry.memAvailableBytes with
    | none => none
    | some mem => if mem ≤ 0 then some "no-headroom" else none

/-- `_rank(a) <= _rank(b)`: followers last, then the priority, then the node id. -/
def rankLe (a b : NodeRecord φ) : Bool :=
  let role (r : NodeRecord φ) : Nat := if r.role = .follower then 1 else 0
  role a < role b || (role a = role b &&
    (a.priority < b.priority || (a.priority = b.priority && a.nodeId ≤ b.nodeId)))

end Reading

namespace MeshElection

variable {φ : Type} [Builtins φ]

/-- `MeshElection.__init__`, with the role as it is compared. -/
def new (nodeId : Str) (priority : Int) (leaseS heartbeatTimeoutS : Seconds) (role : NodeRole) :
    MeshElection φ where
  nodeId := if strip nodeId = [] then lit "node-unknown" else strip nodeId
  priority := priority
  nodeRole := role
  leaseS := max 1 leaseS
  heartbeatTimeoutS := max 1 heartbeatTimeoutS
  nodes := []
  primaryId := none
  leaseSince := 0
  seq := 0
  disagreementSeen := []

/-- `self._nodes[node_id] = entry`. -/
def store (e : MeshElection φ) (nodeId : Str) (entry : NodeRecord φ) : MeshElection φ :=
  { e with nodes := Dict.set e.nodes nodeId entry }

/-- What `observe_heartbeat` leaves in the record of a node.  The same sequence number
again renews the lease and nothing else.  Every other one rewrites the record, a
smaller one included. -/
def stored (entry : NodeRecord φ) : Option (NodeRecord φ) → Except Exn (NodeRecord φ)
  | none => .ok entry
  | some prev =>
      match seqs entry.seq prev.seq with
      | .error exn => .error exn
      | .ok (some (seq, prevSeq)) =>
          if seq = prevSeq then .ok { prev with lastSeen := entry.lastSeen } else .ok entry
      | .ok none => .ok entry

/-- The part of `observe_heartbeat` under the lock. -/
def record (e : MeshElection φ) (entry : NodeRecord φ) : Except Exn (MeshElection φ) :=
  (stored entry (Dict.get? e.nodes entry.nodeId)).map (e.store entry.nodeId)

/-- `observe_heartbeat`, with the clock reading `ts`. -/
def observeHeartbeat (e : MeshElection φ) (payload : Obj φ) (ts : Seconds) :
    Except Exn (MeshElection φ) := do
  match ← advertisement payload ts with
  | none => return e
  | some entry => e.record entry

/-- The payload of `local_heartbeat`. -/
def localPayload (e : MeshElection φ) (thermal mem : Int) (rpcEndpoint : Str) (paired : Bool)
    (caps : Obj φ) : Obj φ :=
  obj [("node_id", .str e.nodeId), ("priority", .int e.priority),
    ("thermal_status", .int thermal), ("mem_available_bytes", .int mem),
    ("rpc_endpoint", .str rpcEndpoint), ("paired", .bool paired),
    ("primary", .str (e.primaryId.getD [])),
    ("role", .str (match e.nodeRole with
      | .follower => lit "follower"
      | .primaryCapable => lit "primary-capable")),
    ("caps", .dict caps), ("seq", .int (e.seq + 1))]

/-- `local_heartbeat`. -/
def localHeartbeat (e : MeshElection φ) (thermal mem : Int) (rpcEndpoint : Str) (paired : Bool)
    (caps : Obj φ) (ts : Seconds) : Except Exn (Obj φ × MeshElection φ) := do
  let payload := e.localPayload thermal mem rpcEndpoint paired caps
  let e' ← { e with seq := e.seq + 1 }.observeHeartbeat payload ts
  return (payload, e')

/-- A record is fresh at `now`. -/
def fresh (e : MeshElection φ) (now : Seconds) (entry : NodeRecord φ) : Bool :=
  !(e.heartbeatTimeoutS < now - entry.lastSeen)

/-- `_live_candidates`. -/
def liveCandidates (e : MeshElection φ) (now : Seconds) : List (NodeRecord φ) :=
  ((e.nodes.map Prod.snd).filter fun entry =>
    e.fresh now entry && (ineligible entry).isNone).insertionSort fun a b => rankLe a b

/-- The winner that `tick` works out.  A holder that ranks no worse than the best
candidate keeps the lease. -/
def winner (e : MeshElection φ) (candidates : List (NodeRecord φ)) : Option Str :=
  match candidates with
  | [] => none
  | best :: _ =>
      match e.primaryId with
      | none => some best.nodeId
      | some holder =>
          match candidates.find? fun entry => entry.nodeId = holder with
          | some incumbent => if rankLe incumbent best then some holder else some best.nodeId
          | none => some best.nodeId

/-- What a `tick` works out before it writes. -/
structure Verdict where
  since : Seconds
  primary : Option Str
  candidates : List Str

/-- The part of `tick` before its write, with the clock reading `now`. -/
def verdict (e : MeshElection φ) (now : Seconds) : Verdict :=
  let candidates := e.liveCandidates now
  ⟨now, e.winner candidates, candidates.map NodeRecord.nodeId⟩

/-- `_note_disagreement`: the claims of the candidates that differ from the winner. -/
def noteDisagreement (e : MeshElection φ) (now : Seconds) : MeshElection φ :=
  let candidates := e.liveCandidates now
  match e.winner candidates with
  | none => e
  | some winner =>
      let keys := candidates.filterMap fun entry =>
        if entry.primary = [] ∨ entry.nodeId = e.nodeId ∨ entry.primary = winner then none
        else some (entry.nodeId, entry.primary, winner)
      { e with disagreementSeen :=
          keys.foldl (fun seen key => if key ∈ seen then seen else seen ++ [key]) e.disagreementSeen }

/-- The write of `tick`. -/
def install (e : MeshElection φ) (v : Verdict) : MeshElection φ :=
  if v.primary = e.primaryId then e
  else { e with primaryId := v.primary, leaseSince := v.since }

section Records

omit [Builtins φ]

/-! ## What the operations keep -/

@[simp] theorem install_nodes (e : MeshElection φ) (v : Verdict) :
    (e.install v).nodes = e.nodes := by
  rw [install]
  split <;> rfl

@[simp] theorem noteDisagreement_nodes (e : MeshElection φ) (now : Seconds) :
    (e.noteDisagreement now).nodes = e.nodes := by
  rw [noteDisagreement]
  split <;> rfl

/-- The settings that no operation changes. -/
def SameNode (e e' : MeshElection φ) : Prop :=
  e'.nodeId = e.nodeId ∧ e'.heartbeatTimeoutS = e.heartbeatTimeoutS

theorem sameNode_install (e : MeshElection φ) (v : Verdict) : SameNode e (e.install v) := by
  rw [install]
  split <;> exact ⟨rfl, rfl⟩

theorem sameNode_noteDisagreement (e : MeshElection φ) (now : Seconds) :
    SameNode e (e.noteDisagreement now) := by
  rw [noteDisagreement]
  split <;> exact ⟨rfl, rfl⟩

@[simp] theorem strip_nodeId_new (nodeId : Str) (priority : Int)
    (leaseS heartbeatTimeoutS : Seconds) (role : NodeRole) :
    strip (new nodeId priority leaseS heartbeatTimeoutS role : MeshElection φ).nodeId =
      (new nodeId priority leaseS heartbeatTimeoutS role : MeshElection φ).nodeId := by
  rw [new]
  dsimp only
  split
  · decide
  · exact strip_strip nodeId

/-! ## Who is a candidate -/

/-- Every record is under its own id, once. -/
structure Keyed (e : MeshElection φ) : Prop where
  nodup : (e.nodes.map Prod.fst).Nodup
  keyed : ∀ i ∈ e.nodes, i.2.nodeId = i.1

theorem Keyed.nodeId {e : MeshElection φ} (h : e.Keyed) {p : Str} {r : NodeRecord φ}
    (hp : Dict.get? e.nodes p = some r) : r.nodeId = p := h.keyed _ (Dict.mem_of_get? hp)

theorem Keyed.store {e : MeshElection φ} (h : e.Keyed) {nodeId : Str} {r : NodeRecord φ}
    (hr : r.nodeId = nodeId) : (e.store nodeId r).Keyed where
  nodup := Dict.nodup_set h.nodup
  keyed i hi := by
    rcases Dict.mem_set hi with hi | rfl
    · exact h.keyed i hi
    · exact hr

theorem fresh_iff {e : MeshElection φ} {now : Seconds} {r : NodeRecord φ} :
    e.fresh now r = true ↔ now - r.lastSeen ≤ e.heartbeatTimeoutS := by
  simp [fresh]

/-- A candidate is a node whose record is fresh and eligible. -/
theorem Keyed.mem_candidates {e : MeshElection φ} (h : e.Keyed) {now : Seconds} {p : Str} :
    p ∈ (e.verdict now).candidates ↔
      ∃ r, Dict.get? e.nodes p = some r ∧ now - r.lastSeen ≤ e.heartbeatTimeoutS ∧
        ineligible r = none := by
  simp only [verdict, liveCandidates, List.mem_map, List.mem_insertionSort, List.mem_filter,
    Bool.and_eq_true, fresh_iff, Option.isNone_iff_eq_none]
  constructor
  · rintro ⟨r, ⟨⟨i, hi, rfl⟩, hfresh, hel⟩, rfl⟩
    have hget : Dict.get? e.nodes i.2.nodeId = some i.2 := by
      rw [h.keyed i hi]
      exact (Dict.get?_eq_some_iff h.nodup).2 hi
    exact ⟨i.2, hget, hfresh, hel⟩
  · rintro ⟨r, hget, hfresh, hel⟩
    exact ⟨r, ⟨⟨_, Dict.mem_of_get? hget, rfl⟩, hfresh, hel⟩, h.nodeId hget⟩

/-- The winner is a candidate. -/
theorem primary_mem_candidates {e : MeshElection φ} {now : Seconds} {p : Str}
    (h : (e.verdict now).primary = some p) : p ∈ (e.verdict now).candidates := by
  rw [verdict] at h ⊢
  dsimp only at h ⊢
  cases hc : e.liveCandidates now with
  | nil => rw [hc, winner] at h; cases h
  | cons best rest =>
      have hbest : best.nodeId ∈ (best :: rest).map NodeRecord.nodeId := List.mem_cons_self
      rw [hc, winner] at h
      split at h
      · cases h; exact hbest
      · rename_i holder _
        split at h
        · rename_i incumbent hfind
          split at h
          · cases h
            have hmem := List.mem_of_find?_eq_some hfind
            have hid := List.find?_some hfind
            rw [decide_eq_true_eq] at hid
            rw [← hid]
            exact List.mem_map_of_mem hmem
          · cases h; exact hbest
        · cases h; exact hbest

end Records

/-! ## What is stored -/

/-- What is stored: the entry, or the record that was held, with the new time. -/
theorem stored_cases {entry r : NodeRecord φ} {held : Option (NodeRecord φ)}
    (h : stored entry held = .ok r) :
    r = entry ∨ ∃ prev k, held = some prev ∧ seqs entry.seq prev.seq = .ok (some (k, k)) ∧
      r = { prev with lastSeen := entry.lastSeen } := by
  cases held with
  | none => cases h; exact .inl rfl
  | some prev =>
      rw [stored] at h
      split at h
      · cases h
      · rename_i hs
        split at h
        · rename_i he
          cases h
          exact .inr ⟨prev, _, rfl, he ▸ hs, rfl⟩
        · cases h; exact .inl rfl
      · cases h; exact .inl rfl

theorem stored_lastSeen {entry r : NodeRecord φ} {held : Option (NodeRecord φ)}
    (h : stored entry held = .ok r) : r.lastSeen = entry.lastSeen := by
  rcases stored_cases h with rfl | ⟨prev, k, -, -, rfl⟩ <;> rfl

/-- What `record` does if it does not fail. -/
theorem record_ok {e e' : MeshElection φ} {entry : NodeRecord φ} (h : e.record entry = .ok e') :
    ∃ r, stored entry (Dict.get? e.nodes entry.nodeId) = .ok r ∧ e' = e.store entry.nodeId r := by
  rw [record] at h
  cases hs : stored entry (Dict.get? e.nodes entry.nodeId) with
  | error exn => rw [hs] at h; cases h
  | ok r =>
      rw [hs] at h
      cases h
      exact ⟨r, rfl, rfl⟩

/-- The entry of an advertisement has the id of the payload and the reading of the
clock, and is the same at every other reading but for the time. -/
theorem advertisement_ok {payload : Obj φ} {ts : Seconds} {entry : NodeRecord φ}
    (h : advertisement payload ts = .ok (some entry)) :
    entry.nodeId = strip (strOf (getOr "node_id" (.str []) payload)) ∧ entry.lastSeen = ts ∧
      ∀ ts', advertisement payload ts' = .ok (some { entry with lastSeen := ts' }) := by
  rw [advertisement] at h
  split at h
  · cases h
  · rename_i hid
    cases hp : intOr 100 (getOr "priority" (.int 100) payload) with
    | error exn => rw [hp] at h; cases h
    | ok priority =>
        cases ht : intOr 0 (getOr "thermal_status" (.int 0) payload) with
        | error exn => rw [hp, ht] at h; cases h
        | ok thermal =>
            cases hm : memOf payload with
            | error exn => rw [hp, ht, hm] at h; cases h
            | ok mem =>
                rw [hp, ht, hm] at h
                cases h
                refine ⟨rfl, rfl, fun ts' => ?_⟩
                rw [advertisement, if_neg hid, hp, ht, hm]
                rfl

/-- A local heartbeat records an entry of the node itself. -/
theorem localHeartbeat_ok {e : MeshElection φ} {thermal mem : Int} {rpcEndpoint : Str}
    {paired : Bool} {caps : Obj φ} {ts : Seconds} {beat : Obj φ × MeshElection φ}
    (h : e.localHeartbeat thermal mem rpcEndpoint paired caps ts = .ok beat) :
    beat.2 = { e with seq := e.seq + 1 } ∨
      ∃ entry, entry.nodeId = strip e.nodeId ∧
        record { e with seq := e.seq + 1 } entry = .ok beat.2 := by
  rw [localHeartbeat, observeHeartbeat] at h
  cases ha : advertisement (e.localPayload thermal mem rpcEndpoint paired caps) ts with
  | error exn => rw [ha] at h; cases h
  | ok made =>
      rw [ha] at h
      cases made with
      | none => cases h; exact .inl rfl
      | some entry =>
          have hget : getOr "node_id" (.str [])
              (e.localPayload thermal mem rpcEndpoint paired caps) = .str e.nodeId := by
            simp [getOr, localPayload]
          have hentry := (advertisement_ok ha).1
          rw [hget, strOf] at hentry
          change (record { e with seq := e.seq + 1 } entry >>= fun e' => .ok (_, e')) = .ok beat at h
          cases hr : record { e with seq := e.seq + 1 } entry with
          | error exn => rw [hr] at h; cases h
          | ok e' =>
              rw [hr] at h
              cases h
              exact .inr ⟨entry, hentry, hr⟩

theorem sameNode_record {e e' : MeshElection φ} {entry : NodeRecord φ}
    (h : e.record entry = .ok e') : SameNode e e' := by
  obtain ⟨r, -, rfl⟩ := record_ok h
  exact ⟨rfl, rfl⟩

/-- What is stored for an entry has its id. -/
theorem Keyed.stored_nodeId {e : MeshElection φ} (h : e.Keyed) {entry r : NodeRecord φ}
    (hs : stored entry (Dict.get? e.nodes entry.nodeId) = .ok r) : r.nodeId = entry.nodeId := by
  rcases stored_cases hs with rfl | ⟨prev, k, hprev, -, rfl⟩
  · rfl
  · exact (show prev.nodeId = entry.nodeId from h.nodeId hprev)

theorem Keyed.record {e e' : MeshElection φ} (h : e.Keyed) {entry : NodeRecord φ}
    (hr : e.record entry = .ok e') : e'.Keyed := by
  obtain ⟨r, hs, rfl⟩ := record_ok hr
  exact h.store (h.stored_nodeId hs)

end MeshElection

end ShugoCore
