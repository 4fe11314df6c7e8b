import Mathlib.Data.List.Sort
import ShugoCore.Lib.Dict
import ShugoCore.Lib.PyText
import ShugoCore.Lib.Run

/-!
# The accounts of the KV allocator

`KVAllocator` of `kv_mesh/allocator.py`.  A node has a capacity and the number of bytes
allocated on it.  A shard has a size and the node it is on.  Both views are written by
every operation that places or drops a shard, and they agree as long as each operation
restores both.

Three operations may not.  `register_node` starts a known node again at zero and
leaves its shards on it.  `assign` adds a shard whose id is known and forgets what the
old shard of that id took.  `evict` cuts the account off at zero, which a shard of
negative size can bring below.  For each of them the condition under which it keeps the
accounts is exact, so the runs along which the accounts are right are the runs that
meet it (`accounts_right_iff`).

A shard object has one id, so the objects of `_shards` are values here.
-/

namespace ShugoCore

open Py Machine

/-- A record of `_nodes`. -/
structure KVNode where
  usableRamBytes : Int
  totalRamBytes : Int
  allocatedBytes : Int
deriving DecidableEq, Repr

/-- The part of a `KVShard` that the allocator reads and writes. -/
structure KVShard where
  shardId : Str
  bytesSize : Int
  deviceId : Option Str
deriving DecidableEq, Repr

/-- What a shard takes on a node. -/
def KVShard.on (d : Str) (s : KVShard) : Int := if s.deviceId = some d then s.bytesSize else 0

/-- `KVAllocator`. -/
structure KVAllocator where
  nodes : Dict Str KVNode
  shards : Dict Str KVShard
deriving DecidableEq, Repr

namespace KVAllocator

/-- `KVAllocator.__init__`. -/
def new : KVAllocator := ⟨[], []⟩

/-- `register_node`. -/
def registerNode (a : KVAllocator) (deviceId : Str) (usableRamBytes totalRamBytes : Int) :
    KVAllocator :=
  { a with nodes := Dict.set a.nodes deviceId ⟨max 0 usableRamBytes, max 0 totalRamBytes, 0⟩ }

/-- A shard that leaves a node that is gone. -/
def orphan (deviceId : Str) (s : KVShard) : KVShard :=
  if s.deviceId = some deviceId then { s with deviceId := none } else s

/-- `unregister_node`, with the shards that were on the node. -/
def unregisterNode (a : KVAllocator) (deviceId : Str) : List KVShard × KVAllocator :=
  (((a.shards.map Prod.snd).filter fun s => s.deviceId = some deviceId).map (orphan deviceId),
    { nodes := Dict.remove a.nodes deviceId
      shards := a.shards.map fun i => (i.1, orphan deviceId i.2) })

/-- `node_capacity`. -/
def nodeCapacity (a : KVAllocator) (deviceId : Str) : Int × Int :=
  match Dict.get? a.nodes deviceId with
  | none => (0, 0)
  | some n => (n.usableRamBytes, n.allocatedBytes)

/-- `remaining`. -/
def remaining (a : KVAllocator) (deviceId : Str) : Int :=
  max 0 ((a.nodeCapacity deviceId).1 - (a.nodeCapacity deviceId).2)

/-- The nodes in the order in which `assign` tries them: most room first, the preferred
node before all others. -/
def candidates (a : KVAllocator) (prefer : Option Str) : List Str :=
  let sorted := (a.nodes.map Prod.fst).insertionSort fun d d' => a.remaining d' ≤ a.remaining d
  match prefer with
  | none => sorted
  | some d => if d ∈ sorted then d :: sorted.erase d else sorted

/-- `self._nodes[device_id]["allocated_bytes"] += bytes_size`. -/
def charge (a : KVAllocator) (deviceId : Str) (bytesSize : Int) : Dict Str KVNode :=
  match Dict.get? a.nodes deviceId with
  | none => a.nodes
  | some n => Dict.set a.nodes deviceId { n with allocatedBytes := n.allocatedBytes + bytesSize }

/-- `assign`, with the node it returns. -/
def assign (a : KVAllocator) (shard : KVShard) (prefer : Option Str) : Option Str × KVAllocator :=
  match (a.candidates prefer).find? fun d => shard.bytesSize ≤ a.remaining d with
  | some d =>
      (some d, { nodes := a.charge d shard.bytesSize
                 shards := Dict.set a.shards shard.shardId { shard with deviceId := some d } })
  | none =>
      (none, { a with shards := Dict.set a.shards shard.shardId { shard with deviceId := none } })

/-- `evict`, with what it returns. -/
def evict (a : KVAllocator) (shardId : Str) : Bool × KVAllocator :=
  match Dict.get? a.shards shardId with
  | none => (false, a)
  | some shard =>
      match shard.deviceId with
      | none => (false, a)
      | some d =>
          let nodes := match Dict.get? a.nodes d with
            | none => a.nodes
            | some n => Dict.set a.nodes d
                { n with allocatedBytes := max 0 (n.allocatedBytes - shard.bytesSize) }
          (true, { nodes := nodes, shards := Dict.set a.shards shardId { shard with deviceId := none } })

/-- The loop of `rebalance`: the ids that were placed, and those that were not. -/
def placeAll (a : KVAllocator) : List KVShard → (List Str × List Str) × KVAllocator
  | [] => (([], []), a)
  | shard :: shards =>
      let out := a.assign shard none
      let rest := placeAll out.2 shards
      match out.1 with
      | some _ => ((shard.shardId :: rest.1.1, rest.1.2), rest.2)
      | none => ((rest.1.1, shard.shardId :: rest.1.2), rest.2)

/-- `rebalance`. -/
def rebalance (a : KVAllocator) : (List Str × List Str) × KVAllocator :=
  a.placeAll ((a.shards.map Prod.snd).filter fun s => s.deviceId = none)

/-- The operations. -/
inductive Op where
  | register (deviceId : Str) (usableRamBytes totalRamBytes : Int)
  | unregister (deviceId : Str)
  | assign (shard : KVShard) (prefer : Option Str)
  | evict (shardId : Str)
  | rebalance

/-- One operation. -/
def step (a : KVAllocator) : Op → KVAllocator
  | .register deviceId usableRamBytes totalRamBytes =>
      a.registerNode deviceId usableRamBytes totalRamBytes
  | .unregister deviceId => (a.unregisterNode deviceId).2
  | .assign shard prefer => (a.assign shard prefer).2
  | .evict shardId => (a.evict shardId).2
  | .rebalance => a.rebalance.2

/-! ## The accounts -/

/-- The sizes of the shards on a node. -/
def load (a : KVAllocator) (d : Str) : Int := (a.shards.map fun i => KVShard.on d i.2).sum

/-- The account of every node is the sizes of the shards on it, within its capacity. -/
def Accounted (a : KVAllocator) : Prop :=
  ∀ d n, Dict.get? a.nodes d = some n → n.allocatedBytes = a.load d ∧ n.allocatedBytes ≤ n.usableRamBytes

/-- When an operation keeps the accounts. -/
def Balanced (a : KVAllocator) : Op → Prop
  | .register deviceId _ _ => a.load deviceId = 0
  | .assign shard _ => ∀ old d, Dict.get? a.shards shard.shardId = some old →
      old.deviceId = some d → old.bytesSize = 0
  | .evict shardId => ∀ shard d n, Dict.get? a.shards shardId = some shard →
      shard.deviceId = some d → Dict.get? a.nodes d = some n →
        0 ≤ a.load d - shard.bytesSize ∧ a.load d - shard.bytesSize ≤ n.usableRamBytes
  | .unregister _ | .rebalance => True

/-- What every run keeps: each shard is under its own id, once, and on a node that is
there. -/
structure InOrder (a : KVAllocator) : Prop where
  nodup : (a.shards.map Prod.fst).Nodup
  keyed : ∀ i ∈ a.shards, i.2.shardId = i.1
  placed : ∀ i ∈ a.shards, ∀ d, i.2.deviceId = some d → (Dict.get? a.nodes d).isSome

theorem inOrder_new : new.InOrder where
  nodup := List.nodup_nil
  keyed _ hi := absurd hi List.not_mem_nil
  placed _ hi := absurd hi List.not_mem_nil

/-- Storing a shard under its id. -/
theorem InOrder.store {a : KVAllocator} (h : a.InOrder) {nodes : Dict Str KVNode} {s : KVShard}
    (hkeep : ∀ d, (Dict.get? a.nodes d).isSome → (Dict.get? nodes d).isSome)
    (hs : ∀ d, s.deviceId = some d → (Dict.get? nodes d).isSome) :
    InOrder ⟨nodes, Dict.set a.shards s.shardId s⟩ where
  nodup := Dict.nodup_set h.nodup
  keyed i hi := by
    rcases Dict.mem_set hi with hi | rfl
    · exact h.keyed i hi
    · rfl
  placed i hi d hd := by
    rcases Dict.mem_set hi with hi | rfl
    · exact hkeep d (h.placed i hi d hd)
    · exact hs d hd

/-- What the accounts of a node see of a shard that is stored. -/
theorem load_store (a : KVAllocator) (nodes : Dict Str KVNode) (k : Str) (s : KVShard) (d : Str) :
    load ⟨nodes, Dict.set a.shards k s⟩ d =
      a.load d - ((Dict.get? a.shards k).map (KVShard.on d)).getD 0 + s.on d :=
  Dict.sum_map_set (KVShard.on d) a.shards k s

theorem isSome_set {nodes : Dict Str KVNode} {d : Str} {n : KVNode} {d' : Str}
    (h : (Dict.get? nodes d').isSome) : (Dict.get? (Dict.set nodes d n) d').isSome := by
  by_cases hd : d = d'
  · subst hd
    rw [Dict.get?_set_self]
    rfl
  · rwa [Dict.get?_set_of_ne _ hd]

/-! ## Placing a shard -/

theorem mem_nodes_of_mem_candidates {a : KVAllocator} {prefer : Option Str} {d : Str}
    (h : d ∈ a.candidates prefer) : ∃ n, Dict.get? a.nodes d = some n := by
  have hkeys : d ∈ a.nodes.map Prod.fst := by
    cases prefer with
    | none => exact (List.mem_insertionSort _).1 h
    | some p =>
        simp only [candidates] at h
        split at h
        · rename_i hp
          rcases List.mem_cons.1 h with rfl | h
          · exact (List.mem_insertionSort _).1 hp
          · exact (List.mem_insertionSort _).1 (List.mem_of_mem_erase h)
        · exact (List.mem_insertionSort _).1 h
  exact Dict.get?_of_mem_keys hkeys

/-- What `assign` does: it places the shard on a node with room, or on none. -/
theorem assign_cases (a : KVAllocator) (shard : KVShard) (prefer : Option Str) :
    (∃ d n, Dict.get? a.nodes d = some n ∧
      shard.bytesSize ≤ max 0 (n.usableRamBytes - n.allocatedBytes) ∧
      a.assign shard prefer = (some d,
        { nodes := Dict.set a.nodes d { n with allocatedBytes := n.allocatedBytes + shard.bytesSize }
          shards := Dict.set a.shards shard.shardId { shard with deviceId := some d } })) ∨
    a.assign shard prefer =
      (none, { a with shards := Dict.set a.shards shard.shardId { shard with deviceId := none } }) := by
  rw [assign]
  split
  · rename_i d hfind
    obtain ⟨n, hn⟩ := mem_nodes_of_mem_candidates (List.mem_of_find?_eq_some hfind)
    have hroom := List.find?_some hfind
    rw [decide_eq_true_eq, remaining, nodeCapacity, hn] at hroom
    refine .inl ⟨d, n, hn, hroom, ?_⟩
    rw [charge, hn]
  · exact .inr rfl

theorem InOrder.assign {a : KVAllocator} (h : a.InOrder) (shard : KVShard) (prefer : Option Str) :
    (a.assign shard prefer).2.InOrder := by
  rcases a.assign_cases shard prefer with ⟨d, n, -, -, heq⟩ | heq
  · rw [heq]
    refine h.store (s := { shard with deviceId := some d }) (fun d' => isSome_set) ?_
    rintro _ ⟨⟩
    rw [Dict.get?_set_self]
    rfl
  · rw [heq]
    exact h.store (s := { shard with deviceId := none }) (fun _ => id) (fun d hd => nomatch hd)

/-- What the shard of an id takes on a node. -/
def taken (a : KVAllocator) (shardId d : Str) : Int :=
  ((Dict.get? a.shards shardId).map (KVShard.on d)).getD 0

/-- `assign` may forget a shard of its id if that shard takes nothing on any node. -/
theorem InOrder.balanced_assign_iff {a : KVAllocator} (h : a.InOrder) (shard : KVShard)
    (prefer : Option Str) :
    a.Balanced (.assign shard prefer) ↔
      ∀ d n, Dict.get? a.nodes d = some n → a.taken shard.shardId d = 0 := by
  constructor
  · intro hbal d n _
    rw [taken]
    cases hold : Dict.get? a.shards shard.shardId with
    | none => rfl
    | some old =>
        rw [Option.map_some, Option.getD_some, KVShard.on]
        split
        · rename_i hd
          exact hbal old d hold hd
        · rfl
  · intro hzero old d hold hd
    obtain ⟨n, hn⟩ := Option.isSome_iff_exists.1 (h.placed _ (Dict.mem_of_get? hold) d hd)
    have htaken := hzero d n hn
    rw [taken, hold, Option.map_some, Option.getD_some, KVShard.on, if_pos hd] at htaken
    exact htaken

/-- `assign` keeps the accounts exactly if it forgets nothing. -/
theorem InOrder.accounted_assign_iff {a : KVAllocator} (h : a.InOrder) (hacc : a.Accounted)
    (shard : KVShard) (prefer : Option Str) :
    (a.assign shard prefer).2.Accounted ↔ a.Balanced (.assign shard prefer) := by
  rw [h.balanced_assign_iff]
  rcases a.assign_cases shard prefer with ⟨d, n, hn, hroom, heq⟩ | heq
  · rw [heq]
    obtain ⟨hload, hcap⟩ := hacc d n hn
    rw [max_eq_right (by omega)] at hroom
    constructor
    · intro hacc' d' n' hn'
      have hload' := (hacc d' n' hn').1
      by_cases hd : d = d'
      · subst hd
        have hnew := (hacc' d _ (Dict.get?_set_self _ _ _)).1
        rw [load_store, KVShard.on, if_pos rfl] at hnew
        rw [taken]
        dsimp only at hnew
        omega
      · have hnew := (hacc' d' n' (by rw [Dict.get?_set_of_ne _ hd, hn'])).1
        rw [load_store, KVShard.on, if_neg (by simpa using hd)] at hnew
        rw [taken]
        omega
    · intro hzero d' n' hn'
      dsimp only at hn'
      rw [load_store, ← taken]
      by_cases hd : d = d'
      · subst hd
        rw [Dict.get?_set_self] at hn'
        cases hn'
        rw [hzero d n hn, KVShard.on, if_pos rfl]
        dsimp only
        omega
      · rw [Dict.get?_set_of_ne _ hd] at hn'
        rw [hzero d' n' hn', KVShard.on, if_neg (by simpa using hd)]
        have := hacc d' n' hn'
        omega
  · rw [heq]
    constructor
    · intro hacc' d' n' hn'
      have hload' := (hacc d' n' hn').1
      have hnew := (hacc' d' n' hn').1
      rw [load_store, KVShard.on, if_neg (by simp)] at hnew
      rw [taken]
      omega
    · intro hzero d' n' hn'
      rw [load_store, ← taken, hzero d' n' hn', KVShard.on, if_neg (by simp)]
      have := hacc d' n' hn'
      omega

/-! ## Rebalancing -/

/-- The shards that `rebalance` goes through are the ones that are stored, unassigned. -/
structure Waiting (a : KVAllocator) (l : List KVShard) : Prop where
  nodup : (l.map KVShard.shardId).Nodup
  stored : ∀ s ∈ l, Dict.get? a.shards s.shardId = some s ∧ s.deviceId = none

theorem InOrder.waiting {a : KVAllocator} (h : a.InOrder) :
    a.Waiting ((a.shards.map Prod.snd).filter fun s => s.deviceId = none) where
  nodup := by
    have hids : (a.shards.map Prod.snd).map KVShard.shardId = a.shards.map Prod.fst := by
      rw [List.map_map]
      exact List.map_congr_left fun i hi => h.keyed i hi
    have hsub : (((a.shards.map Prod.snd).filter fun s => s.deviceId = none).map
        KVShard.shardId).Sublist ((a.shards.map Prod.snd).map KVShard.shardId) :=
      List.filter_sublist.map _
    rw [hids] at hsub
    exact h.nodup.sublist hsub
  stored s hs := by
    obtain ⟨hmem, hnone⟩ := List.mem_filter.1 hs
    obtain ⟨i, hi, rfl⟩ := List.mem_map.1 hmem
    rw [h.keyed i hi]
    exact ⟨(Dict.get?_eq_some_iff h.nodup).2 hi, of_decide_eq_true hnone⟩

/-- Placing the first of them leaves the others waiting. -/
theorem Waiting.assign {a : KVAllocator} {shard : KVShard} {l : List KVShard}
    (h : a.Waiting (shard :: l)) (prefer : Option Str) : (a.assign shard prefer).2.Waiting l where
  nodup := (List.nodup_cons.1 h.nodup).2
  stored s hs := by
    have hne : shard.shardId ≠ s.shardId := by
      intro heq
      exact (List.nodup_cons.1 h.nodup).1 (heq ▸ List.mem_map_of_mem hs)
    obtain ⟨hget, hnone⟩ := h.stored s (List.mem_cons_of_mem _ hs)
    rcases a.assign_cases shard prefer with ⟨d, n, -, -, heq⟩ | heq
    · rw [heq, Dict.get?_set_of_ne _ hne]
      exact ⟨hget, hnone⟩
    · rw [heq, Dict.get?_set_of_ne _ hne]
      exact ⟨hget, hnone⟩

/-- A shard that waits takes nothing, so placing it forgets nothing. -/
theorem Waiting.balanced {a : KVAllocator} {shard : KVShard} {l : List KVShard}
    (h : a.Waiting (shard :: l)) (prefer : Option Str) : a.Balanced (.assign shard prefer) := by
  intro old d hold hd
  obtain ⟨hget, hnone⟩ := h.stored shard List.mem_cons_self
  cases hold.symm.trans hget
  rw [hnone] at hd
  cases hd

theorem InOrder.placeAll {a : KVAllocator} {l : List KVShard} (h : a.InOrder) :
    (a.placeAll l).2.InOrder := by
  induction l generalizing a with
  | nil => exact h
  | cons shard l ih =>
      rw [KVAllocator.placeAll]
      split <;> exact ih (h.assign shard none)

theorem InOrder.accounted_placeAll {a : KVAllocator} {l : List KVShard} (h : a.InOrder)
    (hacc : a.Accounted) (hwait : a.Waiting l) : (a.placeAll l).2.Accounted := by
  induction l generalizing a with
  | nil => exact hacc
  | cons shard l ih =>
      have hnext := (h.accounted_assign_iff hacc shard none).2 (hwait.balanced none)
      rw [KVAllocator.placeAll]
      split <;> exact ih (h.assign shard none) hnext (hwait.assign none)

/-! ## Dropping shards and nodes -/

/-- What `evict` does. -/
theorem InOrder.evict_cases {a : KVAllocator} (h : a.InOrder) (shardId : Str) :
    (a.evict shardId = (false, a) ∧ a.Balanced (.evict shardId)) ∨
    ∃ shard d n, Dict.get? a.shards shardId = some shard ∧ shard.deviceId = some d ∧
      Dict.get? a.nodes d = some n ∧
      a.evict shardId = (true,
        { nodes := Dict.set a.nodes d
            { n with allocatedBytes := max 0 (n.allocatedBytes - shard.bytesSize) }
          shards := Dict.set a.shards shardId { shard with deviceId := none } }) := by
  rw [evict]
  cases hs : Dict.get? a.shards shardId with
  | none => exact .inl ⟨rfl, fun shard d n hs' => nomatch hs.symm.trans hs'⟩
  | some shard =>
      cases hd : shard.deviceId with
      | none =>
          refine .inl ⟨by dsimp only; rw [hd], fun shard' d n hs' hd' => ?_⟩
          cases hs.symm.trans hs'
          rw [hd] at hd'
          cases hd'
      | some d =>
          obtain ⟨n, hn⟩ := Option.isSome_iff_exists.1 (h.placed _ (Dict.mem_of_get? hs) d hd)
          refine .inr ⟨shard, d, n, rfl, hd, hn, ?_⟩
          dsimp only
          rw [hd]
          dsimp only
          rw [hn]

theorem InOrder.evict {a : KVAllocator} (h : a.InOrder) (shardId : Str) :
    (a.evict shardId).2.InOrder := by
  rcases h.evict_cases shardId with ⟨heq, -⟩ | ⟨shard, d, n, hs, -, -, heq⟩
  · rw [heq]
    exact h
  · rw [heq]
    have hid : shard.shardId = shardId := h.keyed _ (Dict.mem_of_get? hs)
    rw [← hid]
    exact h.store (s := { shard with deviceId := none }) (fun d' => isSome_set)
      (fun d hd => nomatch hd)

/-- `evict` keeps the accounts exactly if what is left on the node is neither negative
nor above the capacity. -/
theorem InOrder.accounted_evict_iff {a : KVAllocator} (h : a.InOrder) (hacc : a.Accounted)
    (shardId : Str) : (a.evict shardId).2.Accounted ↔ a.Balanced (.evict shardId) := by
  rcases h.evict_cases shardId with ⟨heq, hbal⟩ | ⟨shard, d, n, hs, hd, hn, heq⟩
  · rw [heq]
    exact ⟨fun _ => hbal, fun _ => hacc⟩
  · rw [heq]
    obtain ⟨hload, hcap⟩ := hacc d n hn
    have hleft (d' : Str) : load ⟨Dict.set a.nodes d
          { n with allocatedBytes := max 0 (n.allocatedBytes - shard.bytesSize) },
        Dict.set a.shards shardId { shard with deviceId := none }⟩ d' =
          a.load d' - shard.on d' := by
      rw [load_store, hs, Option.map_some, Option.getD_some]
      simp [KVShard.on]
    have hon : shard.on d = shard.bytesSize := if_pos hd
    constructor
    · intro hacc' shard' d' n' hs' hd' hn'
      cases hs.symm.trans hs'
      cases hd.symm.trans hd'
      cases hn.symm.trans hn'
      have hnew := hacc' d _ (Dict.get?_set_self _ _ _)
      rw [hleft, hon] at hnew
      dsimp only at hnew
      omega
    · intro hbal d' n' hn'
      dsimp only at hn'
      rw [hleft]
      by_cases hdd : d = d'
      · subst hdd
        rw [Dict.get?_set_self] at hn'
        cases hn'
        have := hbal shard d n hs hd hn
        rw [hon]
        dsimp only
        omega
      · rw [Dict.get?_set_of_ne _ hdd] at hn'
        have hother : shard.on d' = 0 := by
          rw [KVShard.on, if_neg]
          rw [hd]
          simpa using hdd
        rw [hother, Int.sub_zero]
        exact hacc d' n' hn'

theorem on_orphan {d d' : Str} (h : d ≠ d') (s : KVShard) : (orphan d s).on d' = s.on d' := by
  rw [orphan]
  split
  · rename_i hd
    simp [KVShard.on, hd, h]
  · rfl

theorem InOrder.unregister {a : KVAllocator} (h : a.InOrder) (d : Str) :
    (a.unregisterNode d).2.InOrder where
  nodup := by
    simp only [unregisterNode, List.map_map]
    exact h.nodup
  keyed i hi := by
    obtain ⟨j, hj, rfl⟩ := List.mem_map.1 hi
    rw [← h.keyed j hj]
    dsimp only [orphan]
    split <;> rfl
  placed i hi d' hd' := by
    obtain ⟨j, hj, rfl⟩ := List.mem_map.1 hi
    simp only [orphan] at hd'
    split at hd'
    · cases hd'
    · rename_i hother
      have hne : d ≠ d' := fun he => hother (he ▸ hd')
      simp only [unregisterNode, Dict.get?_remove_of_ne _ hne]
      exact h.placed j hj d' hd'

theorem accounted_unregister {a : KVAllocator} (hacc : a.Accounted) (d : Str) :
    (a.unregisterNode d).2.Accounted := by
  intro d' n hn
  by_cases hd : d = d'
  · subst hd
    simp only [unregisterNode, Dict.get?_remove_self] at hn
    cases hn
  · simp only [unregisterNode, Dict.get?_remove_of_ne _ hd] at hn
    have hload : load (a.unregisterNode d).2 d' = a.load d' := by
      simp only [load, unregisterNode, List.map_map]
      exact congrArg List.sum (List.map_congr_left fun i _ => on_orphan hd i.2)
    rw [hload]
    exact hacc d' n hn

/-! ## Advertising a node -/

theorem InOrder.register {a : KVAllocator} (h : a.InOrder) (d : Str) (usable total : Int) :
    (a.registerNode d usable total).InOrder :=
  { h with placed := fun i hi d' hd' => isSome_set (h.placed i hi d' hd') }

/-- `register_node` keeps the accounts exactly if the shards on the node take nothing. -/
theorem accounted_register_iff {a : KVAllocator} (hacc : a.Accounted) (d : Str)
    (usable total : Int) : (a.registerNode d usable total).Accounted ↔ a.load d = 0 := by
  constructor
  · intro hacc'
    exact ((hacc' d _ (Dict.get?_set_self _ _ _)).1).symm
  · intro hload d' n hn
    change Dict.get? (Dict.set a.nodes d _) d' = some n at hn
    change n.allocatedBytes = a.load d' ∧ _
    by_cases hd : d = d'
    · subst hd
      rw [Dict.get?_set_self] at hn
      cases hn
      exact ⟨hload.symm, le_max_left _ _⟩
    · rw [Dict.get?_set_of_ne _ hd] at hn
      exact hacc d' n hn

/-! ## Runs -/

theorem InOrder.step {a : KVAllocator} (h : a.InOrder) (op : Op) : (a.step op).InOrder := by
  cases op with
  | register d usable total => exact h.register d usable total
  | unregister d => exact h.unregister d
  | assign shard prefer => exact h.assign shard prefer
  | evict shardId => exact h.evict shardId
  | rebalance => exact h.placeAll

theorem InOrder.accounted_step_iff {a : KVAllocator} (h : a.InOrder) (hacc : a.Accounted)
    (op : Op) : (a.step op).Accounted ↔ a.Balanced op := by
  cases op with
  | register d usable total => exact accounted_register_iff hacc d usable total
  | unregister d => exact ⟨fun _ => trivial, fun _ => accounted_unregister hacc d⟩
  | assign shard prefer => exact h.accounted_assign_iff hacc shard prefer
  | evict shardId => exact h.accounted_evict_iff hacc shardId
  | rebalance => exact ⟨fun _ => trivial, fun _ => h.accounted_placeAll hacc h.waiting⟩

end KVAllocator

open KVAllocator in
/-- In every run of the allocator, the account of every node is the sizes of the shards
on it and within its capacity, exactly if no node is advertised while shards take room on
it, no shard is assigned again while it takes room, and no eviction leaves a node with a
negative load or one above its capacity. -/
theorem accounts_right_iff (ops : List Op) :
    Always step Accounted new ops ↔ Meets step Balanced new ops :=
  always_iff_meets (I := InOrder) (fun _ op h => h.step op)
    (fun _ op h hacc => h.accounted_step_iff hacc op) inOrder_new (fun _ _ h => nomatch h)

/-- A phone advertises 1000 bytes, is given a shard of 600, and advertises again.  There
is room for a second shard of 600. -/
def readvertised : List KVAllocator.Op :=
  [.register (lit "phone") 1000 4000, .assign ⟨lit "s1", 600, none⟩ none,
    .register (lit "phone") 1000 4000, .assign ⟨lit "s2", 600, none⟩ none]

open KVAllocator in
/-- The phone holds 1200 bytes of shards, its account says 600 and its capacity is 1000. -/
theorem readvertised_phone_overfull :
    (run step new readvertised).nodes = [(lit "phone", ⟨1000, 4000, 600⟩)] ∧
      (run step new readvertised).load (lit "phone") = 1200 ∧
      ¬ Always step Accounted new readvertised := by
  have hnodes : (run step new readvertised).nodes = [(lit "phone", ⟨1000, 4000, 600⟩)] := by
    decide +kernel
  have hload : (run step new readvertised).load (lit "phone") = 1200 := by decide +kernel
  refine ⟨hnodes, hload, fun halways => ?_⟩
  have hlast : Accounted (run step new readvertised) := halways.last
  have hphone := (hlast (lit "phone") ⟨1000, 4000, 600⟩ (by rw [hnodes]; rfl)).1
  rw [hload] at hphone
  revert hphone
  decide

end ShugoCore
