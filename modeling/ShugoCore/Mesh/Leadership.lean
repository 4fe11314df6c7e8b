import Mathlib.Data.Prod.Lex
import ShugoCore.Lib.Run
import ShugoCore.Mesh.Election

/-!
# Agreement on the primary

`_rank` is a total order on role, priority and node id, so the best of the live and
eligible records is one record whatever was heard first, and a holder keeps the
lease only if it is that record.  Two nodes that hold the same live records elect the
same primary, whatever they did before.

The records themselves are another matter.  A heartbeat with the sequence number
of the record that is held renews that record and is otherwise dropped, so the
election acts on the latest advertisement of a node only while equal numbers mean
equal advertisements.

`ElectionLog` keeps the latest heartbeat that `observe_heartbeat` accepted from each
node beside the election.
-/

namespace ShugoCore

open Py Machine

/-! ## The rank -/

section Rank

variable {φ : Type}

/-- `_rank`: the role, the priority, the node id. -/
def NodeRecord.rank (r : NodeRecord φ) : ℕ ×ₗ ℤ ×ₗ Str :=
  toLex (if r.role = .follower then 1 else 0, toLex (r.priority, r.nodeId))

theorem rankLe_iff {a b : NodeRecord φ} : rankLe a b = true ↔ a.rank ≤ b.rank := by
  simp [rankLe, NodeRecord.rank, Prod.Lex.toLex_le_toLex]

/-- Records of one rank have one node id. -/
theorem NodeRecord.nodeId_eq_of_rank {a b : NodeRecord φ} (h : a.rank = b.rank) :
    a.nodeId = b.nodeId :=
  congrArg (fun k => (ofLex (ofLex k).2).2) h

end Rank

namespace MeshElection

variable {φ : Type}

/-- The ranks of the records that are fresh and eligible at `now`. -/
def liveRanks (e : MeshElection φ) (now : Seconds) : Set (ℕ ×ₗ ℤ ×ₗ Str) :=
  {k | ∃ i ∈ e.nodes, e.fresh now i.2 = true ∧ ineligible i.2 = none ∧ i.2.rank = k}

/-- `primary` is the node id of the least rank, and there is none only if there is no
rank. -/
def LeastOf (ranks : Set (ℕ ×ₗ ℤ ×ₗ Str)) : Option Str → Prop
  | none => ranks = ∅
  | some primary => ∃ k, IsLeast ranks k ∧ (ofLex (ofLex k).2).2 = primary

/-- A set of ranks has one primary. -/
theorem LeastOf.unique {ranks : Set (ℕ ×ₗ ℤ ×ₗ Str)} {p q : Option Str}
    (hp : LeastOf ranks p) (hq : LeastOf ranks q) : p = q := by
  cases p with
  | none =>
      cases q with
      | none => rfl
      | some q =>
          obtain ⟨k, hk, -⟩ := hq
          rw [show ranks = ∅ from hp] at hk
          cases hk.1
  | some p =>
      obtain ⟨k, hk, rfl⟩ := hp
      cases q with
      | none =>
          rw [show ranks = ∅ from hq] at hk
          cases hk.1
      | some q =>
          obtain ⟨l, hl, rfl⟩ := hq
          rw [hk.unique hl]

/-- The candidates are the live records, best rank first. -/
theorem mem_liveRanks {e : MeshElection φ} {now : Seconds} {k : ℕ ×ₗ ℤ ×ₗ Str} :
    k ∈ e.liveRanks now ↔ ∃ r ∈ e.liveCandidates now, r.rank = k := by
  simp only [liveRanks, liveCandidates, Set.mem_ofPred_eq, List.mem_insertionSort, List.mem_filter,
    List.mem_map, Bool.and_eq_true, Option.isNone_iff_eq_none]
  constructor
  · rintro ⟨i, hi, hfresh, hel, rfl⟩
    exact ⟨i.2, ⟨⟨i, hi, rfl⟩, hfresh, hel⟩, rfl⟩
  · rintro ⟨r, ⟨⟨i, hi, rfl⟩, hfresh, hel⟩, rfl⟩
    exact ⟨i, hi, hfresh, hel, rfl⟩

theorem liveRanks_congr {e e' : MeshElection φ} {now now' : Seconds}
    (h : (e.liveCandidates now).map NodeRecord.rank = (e'.liveCandidates now').map NodeRecord.rank) :
    e.liveRanks now = e'.liveRanks now' := by
  ext k
  rw [mem_liveRanks, mem_liveRanks, ← List.mem_map, ← List.mem_map, h]

theorem liveCandidates_sorted (e : MeshElection φ) (now : Seconds) :
    (e.liveCandidates now).Pairwise fun a b => a.rank ≤ b.rank := by
  have htotal : Std.Total fun a b : NodeRecord φ => rankLe a b = true :=
    ⟨fun a b => by simpa only [rankLe_iff] using le_total a.rank b.rank⟩
  have htrans : IsTrans (NodeRecord φ) fun a b => rankLe a b = true :=
    ⟨fun a b c => by simpa only [rankLe_iff] using le_trans⟩
  have hsorted := List.pairwise_insertionSort (fun a b : NodeRecord φ => rankLe a b = true)
    ((e.nodes.map Prod.snd).filter fun entry => e.fresh now entry && (ineligible entry).isNone)
  exact hsorted.imp fun h => rankLe_iff.1 h

/-- Whoever holds the lease, the winner is the best candidate: a holder that ranks no
worse has the rank of the best, so it is the best. -/
theorem winner_cons (e : MeshElection φ) {best : NodeRecord φ} {rest : List (NodeRecord φ)}
    (hbest : ∀ r ∈ best :: rest, best.rank ≤ r.rank) :
    e.winner (best :: rest) = some best.nodeId := by
  rw [winner]
  split
  · rfl
  · split
    · rename_i holder _ incumbent hfind
      split
      · rename_i hle
        have hmem := List.mem_of_find?_eq_some hfind
        have hid := List.find?_some hfind
        rw [decide_eq_true_eq] at hid
        have hrank := le_antisymm (rankLe_iff.1 hle) (hbest incumbent hmem)
        rw [← hid, NodeRecord.nodeId_eq_of_rank hrank]
      · rfl
    · rfl

/-- The winner of a vote is the least of the live ranks, whoever holds the lease when
the holder is read. -/
theorem leastOf_winner (held e : MeshElection φ) (now : Seconds) :
    LeastOf (e.liveRanks now) (held.winner (e.liveCandidates now)) := by
  have hmem : ∀ k, k ∈ e.liveRanks now ↔ ∃ r ∈ e.liveCandidates now, r.rank = k :=
    fun k => mem_liveRanks
  have hsorted := e.liveCandidates_sorted now
  cases hc : e.liveCandidates now with
  | nil =>
      rw [hc] at hmem
      rw [winner, LeastOf, Set.eq_empty_iff_forall_notMem]
      intro k hk
      obtain ⟨r, hr, -⟩ := (hmem k).1 hk
      cases hr
  | cons best rest =>
      rw [hc] at hmem hsorted
      have hbest : ∀ r ∈ best :: rest, best.rank ≤ r.rank := by
        intro r hr
        rcases List.mem_cons.1 hr with rfl | hr
        · exact le_refl _
        · exact List.rel_of_pairwise_cons hsorted hr
      rw [held.winner_cons hbest]
      refine ⟨best.rank, ⟨(hmem _).2 ⟨best, List.mem_cons_self, rfl⟩, ?_⟩, rfl⟩
      intro k hk
      obtain ⟨r, hr, rfl⟩ := (hmem k).1 hk
      exact hbest r hr

/-! ## Records that are kept and dropped -/

/-- `drop_node`. -/
def dropNode (e : MeshElection φ) (nodeId : Str) : MeshElection φ :=
  { e with nodes := Dict.remove e.nodes nodeId }

theorem Keyed.dropNode {e : MeshElection φ} (h : e.Keyed) (nodeId : Str) :
    (e.dropNode nodeId).Keyed where
  nodup := h.nodup.sublist (List.filter_sublist.map Prod.fst)
  keyed i hi := h.keyed i (List.mem_filter.1 hi).1

theorem keyed_new (nodeId : Str) (priority : Int) (leaseS heartbeatTimeoutS : Seconds)
    (role : NodeRole) :
    (new nodeId priority leaseS heartbeatTimeoutS role : MeshElection φ).Keyed where
  nodup := List.nodup_nil
  keyed _ hi := absurd hi List.not_mem_nil

end MeshElection

/-! ## The election and what it accepted -/

/-- An election, and the latest heartbeat it accepted from each node. -/
structure ElectionLog (φ : Type) where
  election : MeshElection φ
  latest : Dict Str (NodeRecord φ)

/-- The arguments of `MeshElection.__init__`. -/
structure ElectionConfig where
  nodeId : Str
  priority : Int
  leaseS : Seconds
  heartbeatTimeoutS : Seconds
  role : NodeRole

namespace ElectionLog

variable {φ : Type} [Builtins φ]

/-- The operations of an election.  The write of a `tick` is an operation of its own,
with any verdict, since other threads may have worked it out at any time before. -/
inductive Op (φ : Type) where
  /-- `observe_heartbeat`, with anything as the payload. -/
  | observe (payload : PyVal φ) (now : Seconds)
  /-- `local_heartbeat`. -/
  | beat (thermal mem : Int) (rpcEndpoint : Str) (paired : Bool) (caps : Obj φ) (now : Seconds)
  /-- `drop_node`. -/
  | drop (nodeId : Str)
  /-- `tick`. -/
  | tick (now : Seconds)
  /-- The write of a `tick` of another thread. -/
  | install (v : MeshElection.Verdict)

/-- A new election, that has heard of no node. -/
def boot (c : ElectionConfig) : ElectionLog φ :=
  ⟨.new c.nodeId c.priority c.leaseS c.heartbeatTimeoutS c.role, []⟩

/-- `observe_heartbeat` returns `True` for the heartbeat of `entry`, or it raises. -/
def accept (s : ElectionLog φ) (entry : NodeRecord φ) : ElectionLog φ :=
  match s.election.record entry with
  | .ok e => ⟨e, Dict.set s.latest entry.nodeId entry⟩
  | .error _ => s

/-- `observe_heartbeat` with a dictionary. -/
def observe (s : ElectionLog φ) (payload : Obj φ) (now : Seconds) : ElectionLog φ :=
  match advertisement payload now with
  | .ok (some entry) => s.accept entry
  | .ok none | .error _ => s

/-- One operation. -/
def step (s : ElectionLog φ) : Op φ → ElectionLog φ
  | .observe (.dict payload) now => s.observe payload now
  | .observe _ _ => s
  | .beat thermal mem rpcEndpoint paired caps now =>
      observe { s with election := { s.election with seq := s.election.seq + 1 } }
        (s.election.localPayload thermal mem rpcEndpoint paired caps) now
  | .drop nodeId => ⟨s.election.dropNode nodeId, Dict.remove s.latest nodeId⟩
  | .tick now =>
      { s with election :=
          (s.election.noteDisagreement now).install (s.election.verdict now) }
  | .install v => { s with election := s.election.install v }

/-- What `observe_heartbeat` does to the election is what `observeHeartbeat` does. -/
theorem observe_election (s : ElectionLog φ) (payload : Obj φ) (now : Seconds) :
    (s.observe payload now).election =
      (s.election.observeHeartbeat payload now).toOption.getD s.election := by
  rw [observe, MeshElection.observeHeartbeat]
  cases advertisement payload now with
  | error exn => rfl
  | ok made =>
      cases made with
      | none => rfl
      | some entry =>
          change (s.accept entry).election = (s.election.record entry).toOption.getD s.election
          rw [accept]
          cases s.election.record entry <;> rfl

end ElectionLog

open ElectionLog in
/-- Two nodes, whatever heartbeats, drops and ticks they went through before and in
whatever order: if the live and eligible records they hold at their ticks have the same
roles, priorities and node ids, they elect the same primary, and it is the node of the
least of these.  `mid` and `mid'` are what other threads do between the reading of the
records and the reading of the holder. -/
theorem same_live_same_primary {φ : Type} [Builtins φ] (c c' : ElectionConfig)
    (ops ops' mid mid' : List (Op φ)) (now now' : Seconds)
    (h : (run step (boot c) ops).election.liveRanks now =
      (run step (boot c') ops').election.liveRanks now') :
    (run step (boot c) (ops ++ mid)).election.winner
          ((run step (boot c) ops).election.liveCandidates now) =
        (run step (boot c') (ops' ++ mid')).election.winner
          ((run step (boot c') ops').election.liveCandidates now') ∧
      MeshElection.LeastOf ((run step (boot c) ops).election.liveRanks now)
        ((run step (boot c) (ops ++ mid)).election.winner
          ((run step (boot c) ops).election.liveCandidates now)) := by
  have hleast := MeshElection.leastOf_winner (run step (boot c) (ops ++ mid)).election
    (run step (boot c) ops).election now
  have hleast' := MeshElection.leastOf_winner (run step (boot c') (ops' ++ mid')).election
    (run step (boot c') ops').election now'
  rw [← h] at hleast'
  exact ⟨hleast.unique hleast', hleast⟩

/-- A heartbeat with a node id, a priority, a thermal status and a sequence number. -/
def beatOf (nodeId : String) (priority thermal seq : Int) : PyVal Py.WholeFloat :=
  .dict (obj [("node_id", .str (lit nodeId)), ("priority", .int priority),
    ("thermal_status", .int thermal), ("mem_available_bytes", .int 1024), ("seq", .int seq)])

/-- A node with the usual timeouts. -/
def nodeCalled (nodeId : String) : ElectionConfig := ⟨lit nodeId, 100, 10, 30, .primaryCapable⟩

/-- The phone hears the mac, elects it, and then hears the desktop. -/
def phoneHistory : List (ElectionLog.Op Py.WholeFloat) :=
  [.observe (beatOf "mac" 10 0 7) 0, .tick 1, .observe (beatOf "desktop" 10 0 1) 2]

/-- The desktop hears and drops the tablet, elects itself, and then hears the mac. -/
def desktopHistory : List (ElectionLog.Op Py.WholeFloat) :=
  [.observe (beatOf "tablet" 1 0 1) 0, .observe (beatOf "desktop" 10 0 1) 0,
    .drop (lit "tablet"), .tick 1, .observe (beatOf "mac" 10 0 8) 5]

open ElectionLog in
/-- The phone held to the mac and the desktop to itself, and both elect the desktop. -/
theorem camps_merge :
    (run step (boot (nodeCalled "phone")) phoneHistory).election.primaryId = some (lit "mac") ∧
      (run step (boot (nodeCalled "desktop")) desktopHistory).election.primaryId =
        some (lit "desktop") ∧
      (run step (boot (nodeCalled "phone")) (phoneHistory ++ [])).election.winner
          ((run step (boot (nodeCalled "phone")) phoneHistory).election.liveCandidates 6) =
        (run step (boot (nodeCalled "desktop")) (desktopHistory ++ [])).election.winner
          ((run step (boot (nodeCalled "desktop")) desktopHistory).election.liveCandidates 8) := by
  refine ⟨by decide +kernel, by decide +kernel, ?_⟩
  refine (same_live_same_primary _ _ phoneHistory desktopHistory [] [] 6 8 ?_).1
  exact MeshElection.liveRanks_congr (by decide +kernel)

/-! ## The latest advertisement -/

section Latest

variable {φ : Type}

/-- A record puts its node where `entry` puts it: both are eligible and of one rank, or
neither is eligible. -/
def NodeRecord.StandsAs (r entry : NodeRecord φ) : Prop :=
  (ineligible r = none ↔ ineligible entry = none) ∧ (ineligible entry = none → r.rank = entry.rank)

/-- At any time, `tick` uses the eligibility and the rank of `entry` for a node. -/
def MeshElection.ActsOn (e : MeshElection φ) (nodeId : Str) (entry : NodeRecord φ) : Prop :=
  ∀ now, (nodeId ∈ (e.verdict now).candidates ↔ e.fresh now entry = true ∧ ineligible entry = none) ∧
    ∀ r ∈ e.liveCandidates now, r.nodeId = nodeId → r.rank = entry.rank

namespace ElectionLog

/-- The election acts on the latest heartbeat it accepted from each node. -/
def ActsOnLatest (s : ElectionLog φ) : Prop :=
  ∀ p entry, Dict.get? s.latest p = some entry → s.election.ActsOn p entry

/-- What every run keeps: the records are in order, and an accepted heartbeat has left a
record of its node and its time. -/
structure Held (s : ElectionLog φ) : Prop where
  keyed : s.election.Keyed
  timeout : 0 ≤ s.election.heartbeatTimeoutS
  held : ∀ p entry, Dict.get? s.latest p = some entry →
    ∃ r, Dict.get? s.election.nodes p = some r ∧ r.lastSeen = entry.lastSeen

theorem held_boot (c : ElectionConfig) : (boot c : ElectionLog φ).Held where
  keyed := MeshElection.keyed_new ..
  timeout := le_trans zero_le_one (le_max_left _ _)
  held _ _ h := nomatch h

/-- What `tick` uses for a node is read off the record it holds.  The record counts
whenever it is fresh, and it is fresh at the time of the heartbeat. -/
theorem Held.actsOn_iff {s : ElectionLog φ} (h : s.Held) {p : Str} {r entry : NodeRecord φ}
    (hr : Dict.get? s.election.nodes p = some r) (hseen : r.lastSeen = entry.lastSeen) :
    s.election.ActsOn p entry ↔ r.StandsAs entry := by
  have hcand (now : Seconds) : p ∈ (s.election.verdict now).candidates ↔
      s.election.fresh now entry = true ∧ ineligible r = none := by
    rw [h.keyed.mem_candidates, hr, MeshElection.fresh_iff, ← hseen]
    simp
  have hlive (now : Seconds) (r' : NodeRecord φ) (hmem : r' ∈ s.election.liveCandidates now)
      (hid : r'.nodeId = p) : r' = r := by
    simp only [MeshElection.liveCandidates, List.mem_insertionSort, List.mem_filter,
      List.mem_map] at hmem
    obtain ⟨⟨i, hi, rfl⟩, -⟩ := hmem
    have hget := (Dict.get?_eq_some_iff h.keyed.nodup).2 hi
    rw [← h.keyed.keyed i hi, hid, hr] at hget
    exact (Option.some.inj hget).symm
  have hfresh : s.election.fresh entry.lastSeen entry = true := by
    rw [MeshElection.fresh_iff, sub_self]
    exact h.timeout
  constructor
  · intro hacts
    have hsame : ineligible r = none ↔ ineligible entry = none := by
      have := (hcand entry.lastSeen).symm.trans (hacts entry.lastSeen).1
      simpa only [hfresh, true_and] using this
    refine ⟨hsame, fun hel => ?_⟩
    have hmem : p ∈ (s.election.verdict entry.lastSeen).candidates :=
      (hcand _).2 ⟨hfresh, hsame.2 hel⟩
    obtain ⟨r', hr', hid⟩ := List.mem_map.1 hmem
    have hrank := (hacts entry.lastSeen).2 r' hr' hid
    rw [hlive _ r' hr' hid] at hrank
    exact hrank
  · rintro ⟨hsame, hrank⟩ now
    refine ⟨by rw [hcand now, hsame], fun r' hr' hid => ?_⟩
    have hmem : p ∈ (s.election.verdict now).candidates := List.mem_map.2 ⟨r', hr', hid⟩
    rw [hlive now r' hr' hid]
    exact hrank (hsame.1 ((hcand now).1 hmem).2)

theorem Held.actsOnLatest_iff {s : ElectionLog φ} (h : s.Held) :
    s.ActsOnLatest ↔ ∀ p entry r, Dict.get? s.latest p = some entry →
      Dict.get? s.election.nodes p = some r → r.StandsAs entry := by
  constructor
  · intro hacts p entry r hentry hr
    obtain ⟨r', hr', hseen⟩ := h.held p entry hentry
    cases hr.symm.trans hr'
    exact (h.actsOn_iff hr hseen).1 (hacts p entry hentry)
  · intro hstands p entry hentry
    obtain ⟨r, hr, hseen⟩ := h.held p entry hentry
    exact (h.actsOn_iff hr hseen).2 (hstands p entry r hentry hr)

/-! ### Operations that leave the records alone -/

/-- An operation that changes neither the records nor the timeout. -/
theorem Held.of_nodes {s : ElectionLog φ} (h : s.Held) {e : MeshElection φ}
    (hnodes : e.nodes = s.election.nodes)
    (htimeout : e.heartbeatTimeoutS = s.election.heartbeatTimeoutS) :
    Held { s with election := e } where
  keyed := ⟨by rw [hnodes]; exact h.keyed.nodup, by rw [hnodes]; exact h.keyed.keyed⟩
  timeout := by rw [htimeout]; exact h.timeout
  held := by rw [hnodes]; exact h.held

theorem Held.actsOnLatest_of_nodes {s : ElectionLog φ} (h : s.Held) {e : MeshElection φ}
    (hnodes : e.nodes = s.election.nodes)
    (htimeout : e.heartbeatTimeoutS = s.election.heartbeatTimeoutS) :
    ActsOnLatest { s with election := e } ↔ s.ActsOnLatest := by
  rw [h.actsOnLatest_iff, (h.of_nodes hnodes htimeout).actsOnLatest_iff, hnodes]

theorem Held.drop {s : ElectionLog φ} (h : s.Held) (nodeId : Str) :
    Held ⟨s.election.dropNode nodeId, Dict.remove s.latest nodeId⟩ where
  keyed := h.keyed.dropNode nodeId
  timeout := h.timeout
  held p entry hentry := by
    by_cases hp : nodeId = p
    · subst hp
      rw [Dict.get?_remove_self] at hentry
      cases hentry
    · rw [Dict.get?_remove_of_ne _ hp] at hentry
      rw [MeshElection.dropNode, Dict.get?_remove_of_ne _ hp]
      exact h.held p entry hentry

theorem Held.actsOnLatest_drop {s : ElectionLog φ} (h : s.Held) (hacts : s.ActsOnLatest)
    (nodeId : Str) : ActsOnLatest ⟨s.election.dropNode nodeId, Dict.remove s.latest nodeId⟩ := by
  rw [(h.drop nodeId).actsOnLatest_iff]
  rw [h.actsOnLatest_iff] at hacts
  intro p entry r hentry hr
  by_cases hp : nodeId = p
  · subst hp
    rw [Dict.get?_remove_self] at hentry
    cases hentry
  · rw [Dict.get?_remove_of_ne _ hp] at hentry
    rw [MeshElection.dropNode, Dict.get?_remove_of_ne _ hp] at hr
    exact hacts p entry r hentry hr

/-! ### Heartbeats -/

variable [Builtins φ]

/-- The payload that an operation hands to `observe_heartbeat`. -/
def given (s : ElectionLog φ) : Op φ → Option (Obj φ × Seconds)
  | .observe (.dict payload) now => some (payload, now)
  | .beat thermal mem rpcEndpoint paired caps now =>
      some (s.election.localPayload thermal mem rpcEndpoint paired caps, now)
  | _ => none

/-- A heartbeat with the sequence number of the record that is held puts its node where
that record puts it. -/
def RepeatsRecord (s : ElectionLog φ) (entry : NodeRecord φ) : Prop :=
  ∀ prev k, Dict.get? s.election.nodes entry.nodeId = some prev →
    seqs entry.seq prev.seq = .ok (some (k, k)) → prev.StandsAs entry

/-- The heartbeat that an operation hands to the election repeats what is held if it
repeats its number. -/
def Repeats (s : ElectionLog φ) (op : Op φ) : Prop :=
  ∀ payload now entry, s.given op = some (payload, now) →
    advertisement payload now = .ok (some entry) → s.RepeatsRecord entry

theorem Held.accept {s : ElectionLog φ} (h : s.Held) (entry : NodeRecord φ) :
    (s.accept entry).Held := by
  rw [ElectionLog.accept]
  cases hr : s.election.record entry with
  | error exn => exact h
  | ok e =>
      have hkeyed := h.keyed.record hr
      obtain ⟨r, hs, rfl⟩ := MeshElection.record_ok hr
      refine ⟨hkeyed, h.timeout, fun p latest hlatest => ?_⟩
      dsimp only at hlatest ⊢
      by_cases hp : entry.nodeId = p
      · subst hp
        rw [Dict.get?_set_self] at hlatest
        cases hlatest
        exact ⟨r, Dict.get?_set_self _ _ _, MeshElection.stored_lastSeen hs⟩
      · rw [Dict.get?_set_of_ne _ hp] at hlatest
        rw [MeshElection.store, Dict.get?_set_of_ne _ hp]
        exact h.held p latest hlatest

omit [Builtins φ] in
theorem standsAs_refl (r : NodeRecord φ) : r.StandsAs r := ⟨Iff.rfl, fun _ => rfl⟩

/-- What is stored puts its node where the heartbeat does, exactly if the heartbeat
repeats the record whose number it repeats. -/
theorem standsAs_stored_iff {s : ElectionLog φ} {entry r : NodeRecord φ}
    (hs : MeshElection.stored entry (Dict.get? s.election.nodes entry.nodeId) = .ok r) :
    r.StandsAs entry ↔ s.RepeatsRecord entry := by
  constructor
  · intro hstands prev k hprev hseqs
    rw [hprev, MeshElection.stored, hseqs] at hs
    dsimp only at hs
    rw [if_pos rfl] at hs
    cases hs
    exact hstands
  · intro hrepeats
    rcases MeshElection.stored_cases hs with rfl | ⟨prev, k, hprev, hseqs, rfl⟩
    · exact standsAs_refl r
    · exact hrepeats prev k hprev hseqs

theorem Held.actsOnLatest_accept {s : ElectionLog φ} (h : s.Held) (hacts : s.ActsOnLatest)
    (entry : NodeRecord φ) : (s.accept entry).ActsOnLatest ↔ s.RepeatsRecord entry := by
  have hheld := h.accept entry
  rw [ElectionLog.accept] at hheld ⊢
  cases hr : s.election.record entry with
  | error exn =>
      -- a number that cannot be converted is equal to none
      refine ⟨fun _ prev k hprev hseqs => ?_, fun _ => hacts⟩
      rw [MeshElection.record, hprev, MeshElection.stored, hseqs] at hr
      dsimp only at hr
      rw [if_pos rfl] at hr
      cases hr
  | ok e =>
      rw [hr] at hheld
      obtain ⟨r, hs, rfl⟩ := MeshElection.record_ok hr
      rw [← standsAs_stored_iff hs, hheld.actsOnLatest_iff]
      rw [h.actsOnLatest_iff] at hacts
      dsimp only
      constructor
      · intro hstands
        exact hstands entry.nodeId entry r (Dict.get?_set_self _ _ _) (Dict.get?_set_self _ _ _)
      · intro hstands p latest r' hlatest hr'
        by_cases hp : entry.nodeId = p
        · subst hp
          rw [Dict.get?_set_self] at hlatest
          rw [MeshElection.store, Dict.get?_set_self] at hr'
          cases hlatest
          cases hr'
          exact hstands
        · rw [Dict.get?_set_of_ne _ hp] at hlatest
          rw [MeshElection.store, Dict.get?_set_of_ne _ hp] at hr'
          exact hacts p latest r' hlatest hr'

theorem Held.observe {s : ElectionLog φ} (h : s.Held) (payload : Obj φ) (now : Seconds) :
    (s.observe payload now).Held := by
  rw [ElectionLog.observe]
  split
  · exact h.accept _
  · exact h
  · exact h

theorem Held.actsOnLatest_observe {s : ElectionLog φ} (h : s.Held) (hacts : s.ActsOnLatest)
    (payload : Obj φ) (now : Seconds) :
    (s.observe payload now).ActsOnLatest ↔
      ∀ entry, advertisement payload now = .ok (some entry) → s.RepeatsRecord entry := by
  rw [ElectionLog.observe]
  split
  · rename_i entry hentry
    rw [h.actsOnLatest_accept hacts, hentry]
    simp
  · rename_i hnone
    simp [hnone, hacts]
  · rename_i herror
    simp [herror, hacts]

/-- One operation keeps the records in order. -/
theorem Held.step {s : ElectionLog φ} (h : s.Held) (op : Op φ) : (s.step op).Held := by
  cases op with
  | observe payload now =>
      cases payload with
      | dict payload => exact h.observe payload now
      | _ => exact h
  | beat thermal mem rpcEndpoint paired caps now =>
      exact (h.of_nodes (e := { s.election with seq := s.election.seq + 1 }) rfl rfl).observe _ now
  | drop nodeId => exact h.drop nodeId
  | tick now =>
      refine h.of_nodes (by simp) ?_
      rw [(MeshElection.sameNode_install ..).2, (MeshElection.sameNode_noteDisagreement ..).2]
  | install v => exact h.of_nodes (by simp) (MeshElection.sameNode_install ..).2

/-- One operation keeps the election on the latest heartbeats exactly if the heartbeat
it hands over repeats the record whose number it repeats. -/
theorem Held.actsOnLatest_step {s : ElectionLog φ} (h : s.Held) (hacts : s.ActsOnLatest)
    (op : Op φ) : (s.step op).ActsOnLatest ↔ s.Repeats op := by
  have hnothing (hop : s.given op = none) : s.Repeats op := by
    intro payload now entry hgiven
    rw [hop] at hgiven
    cases hgiven
  cases op with
  | observe payload now =>
      cases payload with
      | dict payload =>
          refine (h.actsOnLatest_observe hacts payload now).trans ⟨?_, ?_⟩
          · rintro hall _ _ entry ⟨⟩ hentry
            exact hall entry hentry
          · exact fun hall entry hentry => hall payload now entry rfl hentry
      | _ => exact ⟨fun _ => hnothing rfl, fun _ => hacts⟩
  | beat thermal mem rpcEndpoint paired caps now =>
      have hbumped := h.of_nodes (e := { s.election with seq := s.election.seq + 1 }) rfl rfl
      refine (hbumped.actsOnLatest_observe hacts _ now).trans ⟨?_, ?_⟩
      · rintro hall _ _ entry ⟨⟩ hentry
        exact hall entry hentry
      · exact fun hall entry hentry => hall _ now entry rfl hentry
  | drop nodeId => exact ⟨fun _ => hnothing rfl, fun _ => h.actsOnLatest_drop hacts nodeId⟩
  | tick now =>
      refine ⟨fun _ => hnothing rfl, fun _ => (h.actsOnLatest_of_nodes (by simp) ?_).2 hacts⟩
      rw [(MeshElection.sameNode_install ..).2, (MeshElection.sameNode_noteDisagreement ..).2]
  | install v =>
      exact ⟨fun _ => hnothing rfl, fun _ =>
        (h.actsOnLatest_of_nodes (by simp) (MeshElection.sameNode_install ..).2).2 hacts⟩

end ElectionLog

end Latest

open ElectionLog in
/-- In every run of an election, whatever its heartbeats say, the election acts on the
latest heartbeat it accepted from each node exactly if every heartbeat that repeats the
sequence number of the record that is held also repeats its eligibility and its rank. -/
theorem acts_on_latest_iff {φ : Type} [Builtins φ] (c : ElectionConfig) (ops : List (Op φ)) :
    Always step ActsOnLatest (boot c) ops ↔ Meets step Repeats (boot c) ops :=
  always_iff_meets (I := Held) (fun _ op h => h.step op)
    (fun _ op h hacts => h.actsOnLatest_step hacts op) (held_boot c)
    (fun _ _ h => nomatch h)

/-- The desktop sends its first heartbeat, restarts, and sends its first heartbeat
again, this time with a critical thermal status. -/
def restartHistory : List (ElectionLog.Op Py.WholeFloat) :=
  [.observe (beatOf "desktop" 10 0 1) 0, .observe (beatOf "desktop" 10 4 1) 20]

open ElectionLog in
/-- The latest heartbeat of the desktop says that it is too hot, and it is elected. -/
theorem hot_desktop_elected :
    ((run step (boot (nodeCalled "phone")) restartHistory).latest.map
        fun i => (i.1, i.2.thermalStatus)) = [(lit "desktop", 4)] ∧
      ((run step (boot (nodeCalled "phone")) restartHistory).election.verdict 21).primary =
        some (lit "desktop") ∧
      ¬ Always step ActsOnLatest (boot (nodeCalled "phone")) restartHistory := by
  have hlatest : ((run step (boot (nodeCalled "phone")) restartHistory).latest.map
      fun i => (i.1, i.2.thermalStatus)) = [(lit "desktop", 4)] := by decide +kernel
  refine ⟨hlatest, by decide +kernel, fun halways => ?_⟩
  have hcandidate : lit "desktop" ∈ ((run step (boot (nodeCalled "phone"))
      restartHistory).election.verdict 21).candidates := by decide +kernel
  have hlast : ActsOnLatest (run step (boot (nodeCalled "phone")) restartHistory) := halways.last
  have hhot : ((Dict.get? (run step (boot (nodeCalled "phone")) restartHistory).latest
      (lit "desktop")).map fun entry => (ineligible entry).isNone) = some false := by decide +kernel
  obtain ⟨entry, hentry, hel⟩ := Option.map_eq_some_iff.1 hhot
  have hnone := (((hlast _ entry hentry) 21).1.1 hcandidate).2
  rw [hnone] at hel
  cases hel

end ShugoCore
