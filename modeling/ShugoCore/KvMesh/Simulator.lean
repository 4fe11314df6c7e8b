import ShugoCore.KvMesh.Allocator
import ShugoCore.Mesh.Chunks

/-!
# The simulated mesh

`SimNode` and `MeshSimulator` of `kv_mesh/simulator.py`.  A node stores the text of a shard and
counts what it stores.  A shard that is put again is first taken off the count, and then the new
copy is refused if there is no room for it.  The old copy stays, but it is not counted any more:
the count is right as long as that does not happen (`counts_right_iff`), and from then on the node
takes more than it has room for.

What a node stores under an id is what was last accepted under it, refused copies
notwithstanding (`get_after_put`).
-/

namespace ShugoCore

open Py Machine

/-- An entry of the store of a node. -/
structure StoredShard where
  dataB64 : Str
  checksum : Str
deriving DecidableEq, Repr

/-- The `len` of what is stored. -/
def StoredShard.size (e : StoredShard) : Int := e.dataB64.length

/-- `SimNode`. -/
structure SimNode where
  usableRamBytes : Int
  totalRamBytes : Int
  store : Dict Str StoredShard
  allocatedBytes : Int
  alive : Bool
deriving DecidableEq, Repr

namespace SimNode

/-- `__init__`. -/
def new (usableRamBytes totalRamBytes : Int) : SimNode := ⟨usableRamBytes, totalRamBytes, [], 0, true⟩

/-- What the node holds under an id. -/
def held (n : SimNode) (shardId : Str) : Int := ((Dict.get? n.store shardId).map StoredShard.size).getD 0

/-- `put`: the existing copy is taken off the count, and the new copy is refused or stored. -/
def put (n : SimNode) (shardId dataB64 checksum : Str) : Bool × SimNode :=
  let entry : StoredShard := ⟨dataB64, checksum⟩
  let allocated := match Dict.get? n.store shardId with
    | some old => n.allocatedBytes - old.size
    | none => n.allocatedBytes
  if n.usableRamBytes < allocated + entry.size then (false, { n with allocatedBytes := allocated })
  else
    (true, { n with
      store := Dict.set n.store shardId entry
      allocatedBytes := allocated + entry.size })

/-- `evict`. -/
def evict (n : SimNode) (shardId : Str) : Bool × SimNode :=
  match Dict.get? n.store shardId with
  | some old =>
      (true, { n with
        allocatedBytes := n.allocatedBytes - old.size
        store := Dict.remove n.store shardId })
  | none => (false, n)

/-- What the node stores. -/
def stored (n : SimNode) : Int := (n.store.map fun i => i.2.size).sum

end SimNode

/-- `MeshSimulator`. -/
structure MeshSimulator where
  allocator : KVAllocator
  nodes : Dict Str SimNode
deriving DecidableEq, Repr

namespace MeshSimulator

/-- `__init__`. -/
def new : MeshSimulator := ⟨.new, []⟩

/-- `join_node`. -/
def joinNode (s : MeshSimulator) (deviceId : Str) (usableRamBytes totalRamBytes : Int) :
    MeshSimulator where
  nodes := Dict.set s.nodes deviceId (.new usableRamBytes totalRamBytes)
  allocator := s.allocator.registerNode deviceId usableRamBytes totalRamBytes

/-- `leave_node`. -/
def leaveNode (s : MeshSimulator) (deviceId : Str) : MeshSimulator :=
  match Dict.get? s.nodes deviceId with
  | none => s
  | some _ =>
      { nodes := Dict.remove s.nodes deviceId
        allocator := (s.allocator.unregisterNode deviceId).2 }

/-- `place_shards`, with the ids that are placed and those that are not. -/
def placeShards (s : MeshSimulator) (shards : List KVShard) : (List Str × List Str) × MeshSimulator :=
  let out := s.allocator.placeAll shards
  (out.1, { s with allocator := out.2 })

/-- `put_shard`. -/
def putShard (s : MeshSimulator) (deviceId shardId : Str) (data : Bytes) (checksum : Str) :
    Bool × MeshSimulator :=
  match Dict.get? s.nodes deviceId with
  | none => (false, s)
  | some node =>
      if node.alive then
        let out := node.put shardId (b64encode data) checksum
        (out.1, { s with nodes := Dict.set s.nodes deviceId out.2 })
      else (false, s)

/-- `get_shard`: the text and the checksum of the response. -/
def getShard (s : MeshSimulator) (deviceId shardId : Str) : Option StoredShard :=
  match Dict.get? s.nodes deviceId with
  | none => none
  | some node => if node.alive then Dict.get? node.store shardId else none

/-- `evict_shard`. -/
def evictShard (s : MeshSimulator) (deviceId shardId : Str) : Bool × MeshSimulator :=
  match Dict.get? s.nodes deviceId with
  | none => (false, s)
  | some node =>
      let out := node.evict shardId
      (out.1,
        { nodes := Dict.set s.nodes deviceId out.2
          allocator := if out.1 then (s.allocator.evict shardId).2 else s.allocator })

/-- `rebalance`. -/
def rebalance (s : MeshSimulator) : (List Str × List Str) × MeshSimulator :=
  let out := s.allocator.rebalance
  (out.1, { s with allocator := out.2 })

/-- A call on the simulator. -/
inductive Op where
  | join (deviceId : Str) (usableRamBytes totalRamBytes : Int)
  | leave (deviceId : Str)
  | place (shards : List KVShard)
  | put (deviceId shardId : Str) (data : Bytes) (checksum : Str)
  | evict (deviceId shardId : Str)
  | rebalance

def step (s : MeshSimulator) : Op → MeshSimulator
  | .join deviceId usableRamBytes totalRamBytes => s.joinNode deviceId usableRamBytes totalRamBytes
  | .leave deviceId => s.leaveNode deviceId
  | .place shards => (s.placeShards shards).2
  | .put deviceId shardId data checksum => (s.putShard deviceId shardId data checksum).2
  | .evict deviceId shardId => (s.evictShard deviceId shardId).2
  | .rebalance => s.rebalance.2

end MeshSimulator

/-! ## The count of a node -/

namespace SimNode

variable {n : SimNode}

theorem held_eq (n : SimNode) (shardId : Str) :
    (match Dict.get? n.store shardId with
      | some old => n.allocatedBytes - old.size
      | none => n.allocatedBytes) = n.allocatedBytes - n.held shardId := by
  unfold held
  cases Dict.get? n.store shardId <;> simp

/-- A put is refused exactly if the new copy has no room where the old one was. -/
theorem put_eq (n : SimNode) (shardId dataB64 checksum : Str) :
    n.put shardId dataB64 checksum =
      let entry : StoredShard := ⟨dataB64, checksum⟩
      if n.usableRamBytes < n.allocatedBytes - n.held shardId + entry.size then
        (false, { n with allocatedBytes := n.allocatedBytes - n.held shardId })
      else
        (true, { n with
          store := Dict.set n.store shardId entry
          allocatedBytes := n.allocatedBytes - n.held shardId + entry.size }) := by
  simp only [put, held_eq]

theorem stored_set (n : SimNode) (shardId : Str) (e : StoredShard) (allocated : Int) :
    stored { n with store := Dict.set n.store shardId e, allocatedBytes := allocated } =
      n.stored - n.held shardId + e.size :=
  Dict.sum_map_set StoredShard.size n.store shardId e

theorem stored_remove (h : (n.store.map Prod.fst).Nodup) {shardId : Str} {old : StoredShard}
    (hold : Dict.get? n.store shardId = some old) (allocated : Int) :
    stored { n with store := Dict.remove n.store shardId, allocatedBytes := allocated } =
      n.stored - old.size := by
  have hperm := (Dict.perm_cons_remove h hold).map fun i => i.2.size
  have hsum := hperm.sum_eq
  simp only [List.map_cons, List.sum_cons] at hsum
  simp only [stored, hsum]
  omega

/-- What a node keeps in every run: one entry for each id, and a count within its room. -/
structure InOrder (n : SimNode) : Prop where
  nodup : (n.store.map Prod.fst).Nodup
  room : n.allocatedBytes ≤ max 0 n.usableRamBytes

theorem size_nonneg (e : StoredShard) : 0 ≤ e.size := Int.natCast_nonneg _

theorem held_nonneg (n : SimNode) (shardId : Str) : 0 ≤ n.held shardId := by
  unfold held
  cases Dict.get? n.store shardId with
  | none => exact Int.le_refl 0
  | some e => exact size_nonneg e

theorem InOrder.put (h : n.InOrder) (shardId dataB64 checksum : Str) :
    (n.put shardId dataB64 checksum).2.InOrder := by
  have hheld := n.held_nonneg shardId
  have hroom := h.room
  rw [put_eq]
  dsimp only
  split
  · exact ⟨h.nodup, by dsimp only; omega⟩
  · exact ⟨Dict.nodup_set h.nodup, by dsimp only; omega⟩

theorem InOrder.evict (h : n.InOrder) (shardId : Str) : (n.evict shardId).2.InOrder := by
  have hroom := h.room
  unfold SimNode.evict
  split
  · rename_i old hold
    have hsize := size_nonneg old
    exact ⟨Dict.nodup_remove h.nodup shardId, by dsimp only; omega⟩
  · exact h

theorem put_counts_iff (hc : n.allocatedBytes = n.stored) (shardId dataB64 checksum : Str) :
    (n.put shardId dataB64 checksum).2.allocatedBytes = (n.put shardId dataB64 checksum).2.stored ↔
      (n.usableRamBytes < n.allocatedBytes - n.held shardId + dataB64.length →
        n.held shardId = 0) := by
  have hsize : (dataB64.length : Int) = StoredShard.size ⟨dataB64, checksum⟩ := rfl
  rw [put_eq, hsize]
  dsimp only
  by_cases hlt : n.usableRamBytes < n.allocatedBytes - n.held shardId +
      StoredShard.size ⟨dataB64, checksum⟩
  · have hsame : stored { n with allocatedBytes := n.allocatedBytes - n.held shardId } = n.stored := rfl
    rw [if_pos hlt, hsame]
    dsimp only
    exact ⟨fun he _ => by omega, fun he => by have := he hlt; omega⟩
  · rw [if_neg hlt, stored_set]
    dsimp only
    exact ⟨fun _ hlt' => absurd hlt' hlt, fun _ => by omega⟩

theorem evict_counts (h : n.InOrder) (hc : n.allocatedBytes = n.stored) (shardId : Str) :
    (n.evict shardId).2.allocatedBytes = (n.evict shardId).2.stored := by
  unfold evict
  split
  · rename_i old hold
    rw [stored_remove h.nodup hold, hc]
  · exact hc

end SimNode

namespace MeshSimulator

variable {s : MeshSimulator}

/-- Every node counts what it stores. -/
def Counts (s : MeshSimulator) : Prop :=
  ∀ d n, Dict.get? s.nodes d = some n → n.allocatedBytes = n.stored

/-- No node stores more than it has room for. -/
def WithinRoom (s : MeshSimulator) : Prop :=
  ∀ d n, Dict.get? s.nodes d = some n → n.stored ≤ max 0 n.usableRamBytes

/-- No copy is refused of a shard of which the node stores more than no bytes. -/
def RefusesNoCopy (s : MeshSimulator) : Op → Prop
  | .put d shardId data _ => ∀ n, Dict.get? s.nodes d = some n → n.alive = true →
      n.usableRamBytes < n.allocatedBytes - n.held shardId + (b64encode data).length →
        n.held shardId = 0
  | _ => True

/-- What every run keeps. -/
def InOrder (s : MeshSimulator) : Prop := ∀ d n, Dict.get? s.nodes d = some n → n.InOrder

theorem get?_nodes_set {nodes : Dict Str SimNode} {P : SimNode → Prop}
    (h : ∀ d n, Dict.get? nodes d = some n → P n) {d : Str} {n : SimNode} (hn : P n) :
    ∀ d' n', Dict.get? (Dict.set nodes d n) d' = some n' → P n' := by
  intro d' n' hget
  by_cases hd : d' = d
  · rw [hd, Dict.get?_set_self] at hget
    cases hget
    exact hn
  · rw [Dict.get?_set_of_ne _ (Ne.symm hd)] at hget
    exact h d' n' hget

theorem get?_nodes_remove {nodes : Dict Str SimNode} {P : SimNode → Prop}
    (h : ∀ d n, Dict.get? nodes d = some n → P n) {d : Str} :
    ∀ d' n', Dict.get? (Dict.remove nodes d) d' = some n' → P n' := by
  intro d' n' hget
  by_cases hd : d' = d
  · rw [hd, Dict.get?_remove_self] at hget
    cases hget
  · rw [Dict.get?_remove_of_ne _ (Ne.symm hd)] at hget
    exact h d' n' hget

/-- A step changes the nodes by a node that starts again, one that leaves, or a put or an eviction
at one of them. -/
theorem step_nodes (s : MeshSimulator) (op : Op) :
    (s.step op).nodes =
      match op with
      | .join d usable total => Dict.set s.nodes d (.new usable total)
      | .leave d => if (Dict.get? s.nodes d).isSome then Dict.remove s.nodes d else s.nodes
      | .put d shardId data checksum =>
          match Dict.get? s.nodes d with
          | none => s.nodes
          | some n =>
              if n.alive then Dict.set s.nodes d (n.put shardId (b64encode data) checksum).2
              else s.nodes
      | .evict d shardId =>
          match Dict.get? s.nodes d with
          | none => s.nodes
          | some n => Dict.set s.nodes d (n.evict shardId).2
      | .place _ | .rebalance => s.nodes := by
  cases op with
  | join d usable total => rfl
  | leave d =>
      simp only [step, leaveNode]
      cases Dict.get? s.nodes d <;> simp
  | place shards => rfl
  | put d shardId data checksum =>
      simp only [step, putShard]
      cases Dict.get? s.nodes d with
      | none => rfl
      | some n => by_cases ha : n.alive <;> simp [ha]
  | evict d shardId =>
      simp only [step, evictShard]
      cases Dict.get? s.nodes d <;> rfl
  | rebalance => rfl

theorem InOrder.step (h : s.InOrder) (op : Op) : (s.step op).InOrder := by
  unfold InOrder
  rw [step_nodes]
  cases op with
  | join d usable total =>
      exact get?_nodes_set h ⟨List.nodup_nil, Int.le_max_left 0 usable⟩
  | leave d =>
      dsimp only
      split
      · exact get?_nodes_remove h
      · exact h
  | place _ | rebalance => exact h
  | put d shardId data checksum =>
      dsimp only
      split
      · exact h
      · rename_i n hn
        split
        · exact get?_nodes_set h ((h d n hn).put shardId _ checksum)
        · exact h
  | evict d shardId =>
      dsimp only
      split
      · exact h
      · rename_i n hn
        exact get?_nodes_set h ((h d n hn).evict shardId)

theorem counts_step_iff (h : s.InOrder) (hc : s.Counts) (op : Op) :
    (s.step op).Counts ↔ s.RefusesNoCopy op := by
  unfold Counts
  rw [step_nodes]
  cases op with
  | join d usable total => exact iff_of_true (get?_nodes_set hc rfl) trivial
  | leave d =>
      refine iff_of_true ?_ trivial
      dsimp only
      split
      · exact get?_nodes_remove hc
      · exact hc
  | place _ | rebalance => exact iff_of_true hc trivial
  | put d shardId data checksum =>
      dsimp only [RefusesNoCopy]
      cases hn : Dict.get? s.nodes d with
      | none => exact iff_of_true hc fun n hn' => by cases hn'
      | some n =>
          have hput := SimNode.put_counts_iff (hc d n hn) shardId (b64encode data) checksum
          by_cases ha : n.alive = true
          · simp only [if_pos ha, Option.some.injEq]
            constructor
            · intro hall n' hn' _
              subst hn'
              exact hput.1 (hall d _ (Dict.get?_set_self ..))
            · intro hok
              exact get?_nodes_set hc (hput.2 (hok n rfl ha))
          · simp only [if_neg ha, Option.some.injEq]
            refine iff_of_true hc fun n' hn' ha' => ?_
            subst hn'
            exact absurd ha' ha
  | evict d shardId =>
      refine iff_of_true ?_ trivial
      dsimp only
      split
      · exact hc
      · rename_i n hn
        exact get?_nodes_set hc (SimNode.evict_counts (h d n hn) (hc d n hn) shardId)

end MeshSimulator

open MeshSimulator in
/-- Along a run of the simulator every node counts what it stores, if and only if no node ever
refuses a copy of a shard that it stores, an empty one apart.  Then no node stores more than it has
room for. -/
theorem counts_right_iff (ops : List Op) :
    (Always step Counts new ops ↔ Meets step RefusesNoCopy new ops) ∧
      (Meets step RefusesNoCopy new ops → Always step WithinRoom new ops) := by
  have hstart : MeshSimulator.InOrder new := fun d n hn => by cases hn
  have hcounts : Always step Counts new ops ↔ Meets step RefusesNoCopy new ops :=
    always_iff_meets (I := MeshSimulator.InOrder) (fun _ op h => h.step op)
      (fun _ op h hc => counts_step_iff h hc op) hstart (fun d n hn => by cases hn)
  refine ⟨hcounts, fun hok => ?_⟩
  have hboth : Always step (fun s => MeshSimulator.InOrder s ∧ Counts s) new ops :=
    Always.of_inv (fun s op h hop => ⟨h.1.step op, (counts_step_iff h.1 h.2 op).2 hop⟩)
      ⟨hstart, fun d n hn => by cases hn⟩ hok
  refine hboth.mono fun s h d n hn => ?_
  have hroom := (h.1 d n hn).room
  rwa [h.2 d n hn] at hroom

/-- A shard of four characters is put again with twelve, and refused.  Then another shard of eight
is accepted, and the node stores twelve characters with room for eight. -/
example :
    let ops : List MeshSimulator.Op :=
      [.join (lit "phone") 8 64, .put (lit "phone") (lit "a") [1, 2, 3] [],
        .put (lit "phone") (lit "a") [1, 2, 3, 4, 5, 6, 7] [],
        .put (lit "phone") (lit "b") [1, 2, 3, 4, 5, 6] []]
    (run MeshSimulator.step .new ops).nodes.map (fun i => (i.2.stored, i.2.usableRamBytes)) =
      [(12, 8)] := by decide +kernel

/-! ## What a node gives back -/

namespace SimNode

variable {n : SimNode} {shardId : Str} {e : StoredShard}

/-- A put changes what is stored under its own id only, and only if it is accepted. -/
theorem get?_put (h : Dict.get? n.store shardId = some e) {shardId' dataB64 checksum : Str}
    (hput : shardId' = shardId → (n.put shardId' dataB64 checksum).1 = false) :
    (n.put shardId' dataB64 checksum).2.alive = n.alive ∧
      Dict.get? (n.put shardId' dataB64 checksum).2.store shardId = some e := by
  rw [put_eq] at hput ⊢
  dsimp only at hput ⊢
  split
  · exact ⟨rfl, h⟩
  · rename_i hle
    rw [if_neg hle] at hput
    have hne : shardId' ≠ shardId := fun he => by cases hput he
    exact ⟨rfl, (Dict.get?_set_of_ne _ hne _).trans h⟩

theorem get?_evict (h : Dict.get? n.store shardId = some e) {shardId' : Str}
    (hne : shardId' ≠ shardId) :
    (n.evict shardId').2.alive = n.alive ∧
      Dict.get? (n.evict shardId').2.store shardId = some e := by
  unfold evict
  split
  · exact ⟨rfl, (Dict.get?_remove_of_ne _ hne).trans h⟩
  · exact ⟨rfl, h⟩

end SimNode

namespace MeshSimulator

variable {s : MeshSimulator} {d shardId : Str} {e : StoredShard}

/-- A call that does not replace or drop a shard of a node: the node stays, and what is put under
the id of the shard is refused. -/
def Spares (d shardId : Str) (s : MeshSimulator) : Op → Prop
  | .join d' _ _ | .leave d' => d' ≠ d
  | .evict d' shardId' => d' = d → shardId' ≠ shardId
  | .put d' shardId' data checksum =>
      d' = d → shardId' = shardId → (s.putShard d' shardId' data checksum).1 = false
  | .place _ | .rebalance => True

/-- A node that is there stores this under an id. -/
def Stores (s : MeshSimulator) (d shardId : Str) (e : StoredShard) : Prop :=
  ∃ n, Dict.get? s.nodes d = some n ∧ n.alive = true ∧ Dict.get? n.store shardId = some e

theorem getShard_eq_some_iff : s.getShard d shardId = some e ↔ s.Stores d shardId e := by
  unfold getShard Stores
  cases Dict.get? s.nodes d with
  | none => simp
  | some n => by_cases ha : n.alive = true <;> simp [ha]

theorem Stores.step (h : s.Stores d shardId e) {op : Op} (hop : Spares d shardId s op) :
    (s.step op).Stores d shardId e := by
  obtain ⟨n, hn, halive, he⟩ := h
  unfold Stores
  rw [step_nodes]
  cases op with
  | join d' usable total => exact ⟨n, (Dict.get?_set_of_ne _ hop _).trans hn, halive, he⟩
  | leave d' =>
      dsimp only
      split
      · exact ⟨n, (Dict.get?_remove_of_ne _ hop).trans hn, halive, he⟩
      · exact ⟨n, hn, halive, he⟩
  | place _ | rebalance => exact ⟨n, hn, halive, he⟩
  | put d' shardId' data checksum =>
      dsimp only
      by_cases hd : d' = d
      · subst hd
        have hput : shardId' = shardId → (n.put shardId' (b64encode data) checksum).1 = false := by
          intro hid
          have hrefused := hop rfl hid
          simpa only [putShard, hn, if_pos halive] using hrefused
        have hkept := SimNode.get?_put he hput
        rw [hn]
        simp only [if_pos halive]
        exact ⟨_, Dict.get?_set_self .., hkept.1.trans halive, hkept.2⟩
      · split
        · exact ⟨n, hn, halive, he⟩
        · split
          · exact ⟨n, (Dict.get?_set_of_ne _ hd _).trans hn, halive, he⟩
          · exact ⟨n, hn, halive, he⟩
  | evict d' shardId' =>
      dsimp only
      by_cases hd : d' = d
      · subst hd
        have hkept := SimNode.get?_evict he (hop rfl)
        rw [hn]
        exact ⟨_, Dict.get?_set_self .., hkept.1.trans halive, hkept.2⟩
      · split
        · exact ⟨n, hn, halive, he⟩
        · exact ⟨n, (Dict.get?_set_of_ne _ hd _).trans hn, halive, he⟩

/-- A put that is accepted stores what it carries. -/
theorem stores_putShard {data : Bytes} {checksum : Str}
    (h : (s.putShard d shardId data checksum).1 = true) :
    (s.putShard d shardId data checksum).2.Stores d shardId ⟨b64encode data, checksum⟩ := by
  unfold putShard at h ⊢
  cases hn : Dict.get? s.nodes d with
  | none => simp [hn] at h
  | some n =>
      by_cases halive : n.alive = true
      · simp only [hn, if_pos halive] at h ⊢
        rw [SimNode.put_eq] at h ⊢
        dsimp only at h ⊢
        split at h
        · cases h
        · rename_i hle
          rw [if_neg hle]
          exact ⟨_, Dict.get?_set_self .., halive, Dict.get?_set_self ..⟩
      · simp [hn, halive] at h

end MeshSimulator

open MeshSimulator in
/-- What a node has accepted it gives back, byte for byte, however many shards are put, evicted and
placed in between, and whatever copies it refuses, until it accepts another copy, evicts the shard,
leaves or joins again. -/
theorem get_after_put (s : MeshSimulator) {d shardId checksum : Str} {data : Bytes}
    (hdata : ∀ b ∈ data, b < 256) (hput : (s.putShard d shardId data checksum).1 = true)
    {ops : List Op} (hops : Meets step (Spares d shardId) (s.putShard d shardId data checksum).2 ops) :
    ∃ e, (run step (s.putShard d shardId data checksum).2 ops).getShard d shardId = some e ∧
      e.checksum = checksum ∧ b64decode e.dataB64 = some data := by
  have hrun := Always.of_inv (I := fun s => Stores s d shardId ⟨b64encode data, checksum⟩)
    (fun s op h hop => h.step hop) (stores_putShard hput) hops
  exact ⟨_, getShard_eq_some_iff.2 hrun.last, rfl, b64decode_b64encode hdata⟩

open MeshSimulator in
theorem get_after_put_refused :
    let s := (new.joinNode (lit "phone") 8 64).putShard (lit "phone") (lit "a") [1, 2, 3] (lit "x")
    ∃ e, (run step s.2 [.put (lit "phone") (lit "a") [1, 2, 3, 4, 5, 6, 7] (lit "y")]).getShard
        (lit "phone") (lit "a") = some e ∧
      e.checksum = lit "x" ∧ b64decode e.dataB64 = some [1, 2, 3] := by
  intro s
  exact get_after_put (new.joinNode (lit "phone") 8 64) (by decide) (by decide +kernel)
    ⟨fun _ _ => by decide +kernel, trivial⟩

end ShugoCore
