import ShugoCore.KvMesh.Allocator
import ShugoCore.Lib.PyBuiltins

/-!
# Messages of devices to the allocator

`KVTransportAdapter.handle_inbound` of `mobile_nodes.py`.  A message comes from a device that
is paired, and names shards by ids of its own choice.

Two of the messages reach what other devices hold.  `KVAssign` places its shard on the
roomiest node, whoever sent it, and takes the place of the shard that had the id.  `KVEvict`
drops the shard of any device.  `OwnShards` is when these two stay with the sender
(`isolated_iff`).
-/

namespace ShugoCore

open Py

variable {φ : Type}

namespace KVAllocator

/-- `shard_location`. -/
def shardLocation (a : KVAllocator) (shardId : Str) : Option Str :=
  (Dict.get? a.shards shardId).bind KVShard.deviceId

/-- The `allocated_bytes` of a node. -/
def allocated (a : KVAllocator) (d : Str) : Option Int :=
  (Dict.get? a.nodes d).map KVNode.allocatedBytes

/-- The roomiest node, if it has this much room. -/
def roomiest (a : KVAllocator) (bytesSize : Int) : Option Str :=
  (a.candidates none).find? fun d => bytesSize ≤ a.remaining d

end KVAllocator

namespace KVTransportAdapter

/-- What a malformed message raises. -/
inductive Malformed where
  | keyError (key : String)
  | conversion (e : Exn)

/-- `payload[key]`. -/
def item (key : String) (payload : Obj φ) : Except Malformed (PyVal φ) :=
  match getKey (lit key) payload with
  | some v => .ok v
  | none => .error (.keyError key)

/-- `msg_type`. -/
def msgType [Builtins φ] (payload : Obj φ) : Str := strOf (getOr "type" (.str []) payload)

/-- `int(v)`. -/
def toInt [Builtins φ] (v : PyVal φ) : Except Malformed Int :=
  match intOf v with
  | .ok i => .ok i
  | .error e => .error (.conversion e)

/-- `int(payload[key])` for each of the keys. -/
def ints [Builtins φ] (payload : Obj φ) : List String → Except Malformed (List Int)
  | [] => .ok []
  | key :: keys => do
      let v ← item key payload
      let i ← toInt v
      let rest ← ints payload keys
      .ok (i :: rest)

/-- The shard of a `KVAssign` message.  Its device is the shard id, which `assign` replaces. -/
def inboundShard [Builtins φ] (payload : Obj φ) : Except Malformed KVShard := do
  let shardId ← item "shard_id" payload
  let _ ← item "model_id" payload
  let _ ← ints payload
    ["layer_start", "layer_end", "head_start", "head_end", "seq_start", "seq_end"]
  let size ← item "bytes_size" payload
  let bytesSize ← toInt size
  .ok ⟨strOf shardId, bytesSize, some (strOf shardId)⟩

/-- An entry for the audit log. -/
structure Audited (φ : Type) where
  eventType : String
  payload : Obj φ

/-- `handle_inbound`: the entries for the audit log and the allocator after it, or what it
raises.  It raises before it has changed anything. -/
def handleInbound [Builtins φ] (paired : Str → Bool) (a : KVAllocator) (deviceId topicTail : Str)
    (payload : PyVal φ) : Except Malformed (List (Audited φ) × KVAllocator) :=
  let audit (eventType : String) (fields : List (String × PyVal φ)) : List (Audited φ) :=
    [⟨eventType, obj fields⟩]
  if paired deviceId then
    match payload with
    | .dict payload =>
        let t := msgType payload
        if t = lit "KVAdvertise" then do
          let usable ← toInt (getOr "usable_ram_bytes" (.int 0) payload)
          let total ← toInt (getOr "total_ram_bytes" (.int 0) payload)
          .ok (audit "kv_advertise_received"
              [("device_id", .str deviceId), ("usable_ram_bytes", .int usable)],
            a.registerNode deviceId usable total)
        else if t = lit "KVAssign" then do
          let s ← inboundShard payload
          .ok (audit "kv_assign_received"
              [("shard_id", .str s.shardId), ("device_id", .str deviceId)],
            (a.assign s none).2)
        else if t = lit "KVPut" then do
          let shardId ← item "shard_id" payload
          .ok (audit "kv_put_received" [("shard_id", shardId), ("device_id", .str deviceId)], a)
        else if t = lit "KVGet" then do
          -- The owner is looked up, and nothing comes of it.
          let _ ← item "shard_id" payload
          .ok ([], a)
        else if t = lit "KVEvict" then do
          let shardId ← item "shard_id" payload
          .ok (audit "kv_evict_received" [("shard_id", shardId), ("device_id", .str deviceId)],
            (a.evict (strOf shardId)).2)
        else if t = lit "KVHeartbeat" then .ok ([], a)
        else
          .ok (audit "kv_inbound_unknown_type"
            [("device_id", .str deviceId), ("type", .str t), ("topic", .str topicTail)], a)
    | _ => .error (.conversion .attributeError)
  else
    .ok (audit "kv_inbound_refused_unpaired"
      [("device_id", .str deviceId), ("topic", .str topicTail)], a)

/-- The allocator after a message. -/
def after [Builtins φ] (paired : Str → Bool) (a : KVAllocator) (deviceId topicTail : Str)
    (payload : PyVal φ) : KVAllocator :=
  match handleInbound paired a deviceId topicTail payload with
  | .ok out => out.2
  | .error _ => a

/-! ## What stays with the sender -/

/-- What other devices than `d` hold, and their accounts, are the same. -/
def Isolated (d : Str) (a a' : KVAllocator) : Prop :=
  (∀ shardId e, e ≠ d → a.shardLocation shardId = some e → a'.shardLocation shardId = some e) ∧
    ∀ e, e ≠ d → a'.allocated e = a.allocated e

theorem Isolated.refl (d : Str) (a : KVAllocator) : Isolated d a a := ⟨fun _ _ _ h => h, fun _ _ => rfl⟩

/-- The shard that `d` assigns goes on no other node, unless it takes nothing, and no other
device loses a shard of that id. -/
def OwnAssign (a : KVAllocator) (d : Str) (s : KVShard) : Prop :=
  (∀ e, a.roomiest s.bytesSize = some e → e = d ∨ s.bytesSize = 0) ∧
    ∀ e, a.shardLocation s.shardId = some e → e = d ∨ a.roomiest s.bytesSize = some e

/-- The shard that `d` evicts is on no other node. -/
def OwnEvict (a : KVAllocator) (d shardId : Str) : Prop :=
  ∀ e, a.shardLocation shardId = some e → e = d

/-- A message that stays with its sender `d`. -/
def OwnShards [Builtins φ] (a : KVAllocator) (d : Str) (payload : Obj φ) : Prop :=
  (msgType payload = lit "KVAssign" → ∀ s, inboundShard payload = .ok s → OwnAssign a d s) ∧
    (msgType payload = lit "KVEvict" →
      ∀ v, getKey (lit "shard_id") payload = some v → OwnEvict a d (strOf v))

/-! ## The operations -/

theorem isolated_register (d : Str) (a : KVAllocator) (usable total : Int) :
    Isolated d a (a.registerNode d usable total) := by
  refine ⟨fun _ _ _ h => h, fun e he => ?_⟩
  simp only [KVAllocator.allocated, KVAllocator.registerNode]
  rw [Dict.get?_set_of_ne _ he.symm]

/-- What is on the node of every shard but the one that is stored stays. -/
theorem shardLocation_store (nodes : Dict Str KVNode) (shards : Dict Str KVShard) (k : Str)
    (s : KVShard) (shardId : Str) :
    KVAllocator.shardLocation ⟨nodes, Dict.set shards k s⟩ shardId =
      if k = shardId then s.deviceId else (Dict.get? shards shardId).bind KVShard.deviceId := by
  rw [KVAllocator.shardLocation]
  split
  · rename_i hk
    subst hk
    rw [Dict.get?_set_self]
    rfl
  · rename_i hk
    rw [Dict.get?_set_of_ne _ hk]

/-- The accounts when one is written. -/
theorem allocated_store (nodes : Dict Str KVNode) (shards : Dict Str KVShard) (d : Str) (n : KVNode)
    (e : Str) :
    KVAllocator.allocated ⟨Dict.set nodes d n, shards⟩ e =
      if d = e then some n.allocatedBytes else (Dict.get? nodes e).map KVNode.allocatedBytes := by
  rw [KVAllocator.allocated]
  split
  · rename_i hd
    subst hd
    rw [Dict.get?_set_self]
    rfl
  · rename_i hd
    rw [Dict.get?_set_of_ne _ hd]

/-- `assign` places a shard on the roomiest node. -/
theorem assign_of_roomiest {a : KVAllocator} {s : KVShard} {d : Str}
    (h : a.roomiest s.bytesSize = some d) :
    ∃ n, Dict.get? a.nodes d = some n ∧ (a.assign s none).2 =
      { nodes := Dict.set a.nodes d { n with allocatedBytes := n.allocatedBytes + s.bytesSize }
        shards := Dict.set a.shards s.shardId { s with deviceId := some d } } := by
  obtain ⟨n, hn⟩ := KVAllocator.mem_nodes_of_mem_candidates (List.mem_of_find?_eq_some h)
  refine ⟨n, hn, ?_⟩
  rw [KVAllocator.roomiest] at h
  rw [KVAllocator.assign, h]
  dsimp only
  rw [KVAllocator.charge, hn]

theorem assign_of_full {a : KVAllocator} {s : KVShard} (h : a.roomiest s.bytesSize = none) :
    (a.assign s none).2 =
      { a with shards := Dict.set a.shards s.shardId { s with deviceId := none } } := by
  rw [KVAllocator.roomiest] at h
  rw [KVAllocator.assign, h]

/-- Storing a shard moves no shard of another device exactly if it moves none that had its id. -/
theorem locations_store_iff (a : KVAllocator) (nodes : Dict Str KVNode) (k : Str) (s : KVShard)
    (d : Str) :
    (∀ shardId e, e ≠ d → a.shardLocation shardId = some e →
        KVAllocator.shardLocation ⟨nodes, Dict.set a.shards k s⟩ shardId = some e) ↔
      ∀ e, a.shardLocation k = some e → e = d ∨ s.deviceId = some e := by
  constructor
  · intro h e hloc
    by_cases he : e = d
    · exact .inl he
    · have hkept := h k e he hloc
      rw [shardLocation_store, if_pos rfl] at hkept
      exact .inr hkept
  · intro h shardId e he hloc
    rw [shardLocation_store]
    split
    · rename_i hk
      subst hk
      exact (h e hloc).resolve_left he
    · exact hloc

theorem isolated_assign_iff (a : KVAllocator) (d : Str) (s : KVShard) :
    Isolated d a (a.assign s none).2 ↔ OwnAssign a d s := by
  simp only [OwnAssign]
  cases hroom : a.roomiest s.bytesSize with
  | none =>
      rw [assign_of_full hroom, Isolated, locations_store_iff]
      exact ⟨fun h => ⟨nofun, h.1⟩, fun h => ⟨h.2, fun _ _ => rfl⟩⟩
  | some p =>
      obtain ⟨n, hn, heq⟩ := assign_of_roomiest hroom
      rw [heq, Isolated, locations_store_iff]
      have haccounts : (∀ e, e ≠ d → KVAllocator.allocated
          { nodes := Dict.set a.nodes p { n with allocatedBytes := n.allocatedBytes + s.bytesSize }
            shards := Dict.set a.shards s.shardId { s with deviceId := some p } } e =
            a.allocated e) ↔ (p = d ∨ s.bytesSize = 0) := by
        constructor
        · intro h
          by_cases hp : p = d
          · exact .inl hp
          · have hkept := h p hp
            rw [allocated_store, if_pos rfl, KVAllocator.allocated, hn] at hkept
            have hsum : n.allocatedBytes + s.bytesSize = n.allocatedBytes := Option.some.inj hkept
            exact .inr (by omega)
        · intro h e he
          rw [allocated_store]
          split
          · rename_i hpe
            subst hpe
            rw [h.resolve_left he, KVAllocator.allocated, hn, Int.add_zero]
            rfl
          · rfl
      rw [haccounts, and_comm]
      constructor
      · rintro ⟨hnode, hshard⟩
        refine ⟨?_, hshard⟩
        rintro e ⟨⟩
        exact hnode
      · exact fun h => ⟨h.1 p rfl, h.2⟩

/-- `evict` leaves a shard that is on no node. -/
theorem evict_of_free {a : KVAllocator} {shardId : Str} (h : a.shardLocation shardId = none) :
    (a.evict shardId).2 = a := by
  rw [KVAllocator.shardLocation] at h
  rw [KVAllocator.evict]
  cases hs : Dict.get? a.shards shardId with
  | none => rfl
  | some s =>
      rw [hs, Option.bind_some] at h
      dsimp only
      rw [h]

/-- `evict` drops a shard from its node, and writes the account of no other. -/
theorem evict_of_placed {a : KVAllocator} {shardId p : Str} (h : a.shardLocation shardId = some p) :
    ∃ nodes s, (a.evict shardId).2 = ⟨nodes, Dict.set a.shards shardId s⟩ ∧ s.deviceId = none ∧
      ∀ e, e ≠ p → Dict.get? nodes e = Dict.get? a.nodes e := by
  obtain ⟨s, hs, hd⟩ := Option.bind_eq_some_iff.1 h
  rw [KVAllocator.evict, hs]
  dsimp only
  rw [hd]
  refine ⟨_, _, rfl, rfl, fun e he => ?_⟩
  split
  · rfl
  · exact Dict.get?_set_of_ne _ he.symm _

theorem isolated_evict_iff (a : KVAllocator) (d shardId : Str) :
    Isolated d a (a.evict shardId).2 ↔ OwnEvict a d shardId := by
  simp only [OwnEvict]
  cases hloc : a.shardLocation shardId with
  | none =>
      rw [evict_of_free hloc]
      exact ⟨fun _ => nofun, fun _ => Isolated.refl d a⟩
  | some p =>
      obtain ⟨nodes, s, heq, hfree, hnodes⟩ := evict_of_placed hloc
      rw [heq, Isolated, locations_store_iff, hfree]
      constructor
      · intro h e he
        cases he
        exact (h.1 p hloc).resolve_right nofun
      · intro h
        refine ⟨fun e he => .inl (h e (hloc.symm.trans he)), fun e he => ?_⟩
        rw [KVAllocator.allocated, hnodes e (h p rfl ▸ he)]
        rfl

/-! ## Messages -/

section

variable [Builtins φ] {paired : Str → Bool} {a : KVAllocator} {d topicTail : Str} {payload : Obj φ}

theorem isolated_after_advertise (hpaired : paired d = true)
    (ht : msgType payload = lit "KVAdvertise") :
    Isolated d a (after paired a d topicTail (.dict payload)) := by
  simp only [after, handleInbound, hpaired, ht, if_true, bind, Except.bind]
  cases toInt (getOr "usable_ram_bytes" (.int 0) payload) with
  | error e => exact Isolated.refl d a
  | ok usable =>
      cases toInt (getOr "total_ram_bytes" (.int 0) payload) with
      | error e => exact Isolated.refl d a
      | ok total => exact isolated_register d a usable total

theorem isolated_after_assign_iff (hpaired : paired d = true)
    (ht : msgType payload = lit "KVAssign") :
    Isolated d a (after paired a d topicTail (.dict payload)) ↔
      ∀ s, inboundShard payload = .ok s → OwnAssign a d s := by
  have hne : lit "KVAssign" ≠ lit "KVAdvertise" := by decide
  simp only [after, handleInbound, hpaired, ht, hne, if_true, if_false, bind, Except.bind]
  cases inboundShard payload with
  | error e => exact ⟨fun _ => nofun, fun _ => Isolated.refl d a⟩
  | ok s =>
      refine (isolated_assign_iff a d s).trans ⟨?_, fun h => h s rfl⟩
      rintro h _ ⟨⟩
      exact h

theorem isolated_after_evict_iff (hpaired : paired d = true)
    (ht : msgType payload = lit "KVEvict") :
    Isolated d a (after paired a d topicTail (.dict payload)) ↔
      ∀ v, getKey (lit "shard_id") payload = some v → OwnEvict a d (strOf v) := by
  have hne : lit "KVEvict" ≠ lit "KVAdvertise" ∧ lit "KVEvict" ≠ lit "KVAssign" ∧
      lit "KVEvict" ≠ lit "KVPut" ∧ lit "KVEvict" ≠ lit "KVGet" := by decide
  simp only [after, handleInbound, hpaired, ht, hne.1, hne.2.1, hne.2.2.1, hne.2.2.2, if_true,
    if_false, bind, Except.bind, item]
  cases getKey (lit "shard_id") payload with
  | none => exact ⟨fun _ => nofun, fun _ => Isolated.refl d a⟩
  | some v =>
      refine (isolated_evict_iff a d (strOf v)).trans ⟨?_, fun h => h v rfl⟩
      rintro h _ ⟨⟩
      exact h

/-- The other messages leave the allocator alone. -/
theorem after_other (hpaired : paired d = true) (hadvertise : msgType payload ≠ lit "KVAdvertise")
    (hassign : msgType payload ≠ lit "KVAssign") (hevict : msgType payload ≠ lit "KVEvict") :
    after paired a d topicTail (.dict payload) = a := by
  simp only [after, handleInbound, hpaired, hadvertise, hassign, hevict, if_true, if_false, bind,
    Except.bind, item]
  cases getKey (lit "shard_id") payload with
  | none =>
      split
      · rename_i out hout
        split at hout
        · cases hout
        · split at hout
          · cases hout
          · split at hout <;> cases hout <;> rfl
      · rfl
  | some v =>
      split
      · rename_i out hout
        split at hout
        · cases hout
          rfl
        · split at hout
          · cases hout
            rfl
          · split at hout <;> cases hout <;> rfl
      · rfl

end

/-- What other devices hold and their accounts are the same after a message exactly if it is
refused, is no message, or stays with its sender. -/
theorem isolated_iff [Builtins φ] (paired : Str → Bool) (a : KVAllocator) (d topicTail : Str)
    (payload : PyVal φ) :
    Isolated d a (after paired a d topicTail payload) ↔
      (paired d = true → ∀ fields, payload = .dict fields → OwnShards a d fields) := by
  by_cases hpaired : paired d = true
  · by_cases hdict : ∃ fields, payload = .dict fields
    · obtain ⟨fields, rfl⟩ := hdict
      have hwhole : (paired d = true → ∀ fields', PyVal.dict fields = .dict fields' →
          OwnShards a d fields') ↔ OwnShards a d fields := by
        refine ⟨fun h => h hpaired fields rfl, ?_⟩
        rintro h _ _ ⟨⟩
        exact h
      rw [hwhole, OwnShards]
      by_cases hassign : msgType fields = lit "KVAssign"
      · have hevict : msgType fields ≠ lit "KVEvict" := by
          rw [hassign]
          decide
        rw [isolated_after_assign_iff hpaired hassign]
        exact ⟨fun h => ⟨fun _ => h, fun h' => absurd h' hevict⟩, fun h => h.1 hassign⟩
      · by_cases hevict : msgType fields = lit "KVEvict"
        · rw [isolated_after_evict_iff hpaired hevict]
          exact ⟨fun h => ⟨fun h' => absurd h' hassign, fun _ => h⟩, fun h => h.2 hevict⟩
        · refine ⟨fun _ => ⟨fun h' => absurd h' hassign, fun h' => absurd h' hevict⟩, fun _ => ?_⟩
          by_cases hadvertise : msgType fields = lit "KVAdvertise"
          · exact isolated_after_advertise hpaired hadvertise
          · rw [after_other hpaired hadvertise hassign hevict]
            exact Isolated.refl d a
    · have hsame : after paired a d topicTail payload = a := by
        simp only [after, handleInbound, hpaired, if_true]
        cases payload with
        | dict fields => exact absurd ⟨fields, rfl⟩ hdict
        | _ => rfl
      rw [hsame]
      exact ⟨fun _ _ fields h => absurd ⟨fields, h⟩ hdict, fun _ => Isolated.refl d a⟩
  · have hsame : after paired a d topicTail payload = a := by
      simp only [after, handleInbound, hpaired]
      rfl
    rw [hsame]
    exact ⟨fun _ h => absurd h hpaired, fun _ => Isolated.refl d a⟩

/-- A phone holds the shard `s1`. -/
def phoneHolds : KVAllocator where
  nodes := [(lit "phone", ⟨1000, 4000, 600⟩), (lit "tablet", ⟨100, 4000, 0⟩)]
  shards := [(lit "s1", ⟨lit "s1", 600, some (lit "phone")⟩)]

/-- `{"type": "KVEvict", "shard_id": "s1"}`. -/
def evictS1 : PyVal WholeFloat :=
  .dict (obj [("type", .str (lit "KVEvict")), ("shard_id", .str (lit "s1"))])

/-- The tablet takes it off. -/
theorem tablet_evicts_shard_of_phone :
    let a' := after (fun _ => true) phoneHolds (lit "tablet") (lit "kv/evict") evictS1
    phoneHolds.shardLocation (lit "s1") = some (lit "phone") ∧
      a'.shardLocation (lit "s1") = none ∧ a'.allocated (lit "phone") = some 0 ∧
      ¬ Isolated (lit "tablet") phoneHolds a' := by
  have hbefore : phoneHolds.shardLocation (lit "s1") = some (lit "phone") := by decide
  have hafter : (after (fun _ => true) phoneHolds (lit "tablet") (lit "kv/evict")
      evictS1).shardLocation (lit "s1") = none := by decide +kernel
  refine ⟨hbefore, hafter, by decide +kernel, fun h => ?_⟩
  have hkept := h.1 (lit "s1") (lit "phone") (by decide) hbefore
  rw [hafter] at hkept
  cases hkept

end KVTransportAdapter

end ShugoCore
