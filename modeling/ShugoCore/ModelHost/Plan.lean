import ShugoCore.Mesh.Election

/-!
# The layer plan

How many layers of a model each device of the fleet is given.  `gguf_meta.py` reads the
geometry of the cache off the metadata of the model, `plan_layer_split` of `mesh_rpc.py`
hands out layers by measured headroom, and `MeshModelHost.plan` of `mesh_model_host.py`
calls it for the live peers and holds pinned devices out of the result.

The metadata and the advertisements are values of any kind.  A number that cannot be
converted is replaced where the code replaces it, and raises where it does not.
-/

namespace ShugoCore

open Py

variable {φ : Type} [Builtins φ]

/-- `try: …; except (TypeError, ValueError): default`. -/
def rescue {α : Type} (default : α) : Except Exn α → Except Exn α
  | .error .typeError | .error .valueError => .ok default
  | r => r

/-! ## The metadata of the model -/

namespace Gguf

/-- `int(meta.get(key) or 0)`. -/
def number (key : String) (metadata : Obj φ) : Except Exn Int :=
  intOf (orElse (fetch (lit key) metadata) (.int 0))

/-- `layer_count`. -/
def layerCount (metadata : Obj φ) : Except Exn Int :=
  rescue 0 ((intOf (getOr "block_count" (.int 0) metadata)).map (max 0))

/-- The head dimension: as stated, or from the embedding width. -/
def headDim (metadata : Obj φ) : Except Exn Int := do
  let keyLength ← number "attention.key_length" metadata
  if keyLength ≠ 0 then return keyLength
  else
    let embedding ← number "embedding_length" metadata
    let totalHeads ← number "attention.head_count" metadata
    return if totalHeads = 0 then 0 else embedding.fdiv totalHeads

/-- The key/value heads and the head dimension. -/
def geometry (metadata : Obj φ) : Except Exn (Int × Int) := do
  let heads ← intOf (orElse (orElse (fetch (lit "attention.head_count_kv") metadata)
    (fetch (lit "attention.head_count") metadata)) (.int 0))
  let dim ← headDim metadata
  return (heads, dim)

/-- `kv_bytes_per_token`: the cache of one token in one layer. -/
def kvBytesPerToken (metadata : Obj φ) (dtypeBytes : Int) : Except Exn Int :=
  (rescue (0, 0) (geometry metadata)).map fun (heads, dim) =>
    if heads ≤ 0 ∨ dim ≤ 0 then 0
    else 2 * heads * dim * max 1 (if dtypeBytes = 0 then 2 else dtypeBytes)

/-- `slot_cache_bytes`: the cache of some layers for a whole context. -/
def slotCacheBytes (metadata : Obj φ) (context slots layers dtypeBytes : Int) :
    Except Exn Int := do
  let perToken ← kvBytesPerToken metadata dtypeBytes
  let count ← if layers ≠ 0 then .ok layers else layerCount metadata
  return max 0 (perToken * max 0 context * max 1 (if slots = 0 then 1 else slots) * max 0 count)

end Gguf

/-! ## The planner -/

/-- `usable_headroom`. -/
def usableHeadroom (memAvailableBytes advertisedBytes : PyVal φ) (reserveBytes : Int) :
    Except Exn Int := do
  let measured ← intOf (orElse memAvailableBytes (.int 0))
  if measured ≤ 0 then return 0
  else
    let clamped ← if truthy advertisedBytes then (intOf advertisedBytes).map (min measured)
      else .ok measured
    return max 0 (clamped - reserveBytes)

/-- A node as the planner is given it.  What is absent is `None`. -/
structure PlanNode (φ : Type) where
  deviceId : Str
  memAvailableBytes : PyVal φ
  advertisedBytes : PyVal φ
  thermalStatus : PyVal φ
  paired : PyVal φ

/-- A device with room for layers. -/
structure Offer where
  deviceId : Str
  layers : Int
  room : Int
deriving DecidableEq, Repr

/-- What the planner found out about its nodes. -/
structure Survey where
  skipped : List (Str × Str) := []
  headroom : Dict Str Int := []
  candidates : List Offer := []
deriving DecidableEq, Repr

/-- `v is False`. -/
def isFalse : PyVal φ → Bool
  | .bool b => !b
  | _ => false

/-- The thermal status of a node, if it states one. -/
def thermalOf : PyVal φ → Except Exn (Option Int)
  | .none => .ok none
  | v => rescue none ((intOf v).map some)

/-- A node is left out. -/
def Survey.skip (s : Survey) (deviceId reason : Str) : Survey :=
  { s with skipped := s.skipped ++ [(deviceId, reason)] }

/-- A node whose headroom was measured. -/
def Survey.measure (s : Survey) (deviceId : Str) (room cost : Int) : Survey :=
  let s := { s with headroom := Dict.set s.headroom deviceId room }
  if room / cost ≤ 0 then s.skip deviceId (lit "insufficient_headroom")
  else { s with candidates := s.candidates ++ [⟨deviceId, room / cost, room⟩] }

/-- One round of the first loop of `plan_layer_split`. -/
def surveyNode (reserveBytes cost : Int) (s : Survey) (node : PlanNode φ) : Except Exn Survey :=
  let deviceId := strip node.deviceId
  if deviceId = [] then .ok s
  else if isFalse node.paired then .ok (s.skip deviceId (lit "unpaired"))
  else do
    let thermal ← thermalOf node.thermalStatus
    match thermal.filter fun t => thermalRefuseStatus ≤ t with
    | some t => return s.skip deviceId (lit "thermal_status=" ++ (Literal.ofInt t).text)
    | none =>
        let room ← usableHeadroom node.memAvailableBytes node.advertisedBytes reserveBytes
        return s.measure deviceId room cost

/-- Largest headroom first, and then by id. -/
def offerLe (a b : Offer) : Bool :=
  b.room < a.room || (a.room = b.room && a.deviceId ≤ b.deviceId)

/-- The second loop of `plan_layer_split`: the layers that each device is given. -/
def share : Int → List Offer → List (Str × Int)
  | _, [] => []
  | remaining, o :: offers =>
      if remaining ≤ 0 then []
      else
        let take := min o.layers remaining
        if take ≤ 0 then share remaining offers
        else (o.deviceId, take) :: share (remaining - take) offers

/-- What `plan_layer_split` returns. -/
structure LayerPlan where
  assignments : Dict Str Int
  remoteLayers : Int
  localLayers : Int
  skipped : List (Str × Str)
  headroom : Dict Str Int
  costPerLayerBytes : Int
  cacheBytesPerLayer : Int
  slots : Int
deriving DecidableEq, Repr

/-- The arguments of `plan_layer_split` beside the nodes. -/
structure PlanArgs where
  totalLayers : Int
  bytesPerLayer : Int
  localLayersMin : Int
  reserveBytes : Int
  cacheBytesPerLayer : Int
  slots : Int
deriving DecidableEq, Repr

namespace PlanArgs

/-- `cache_per_layer`: the cache of all slots. -/
def cachePerLayer (a : PlanArgs) : Int :=
  max 0 a.cacheBytesPerLayer * max 1 (if a.slots = 0 then 1 else a.slots)

/-- `cost_per_layer`. -/
def costPerLayer (a : PlanArgs) : Int := max 1 a.bytesPerLayer + a.cachePerLayer

/-- `budget_layers`: what may leave this host. -/
def budgetLayers (a : PlanArgs) : Int :=
  max 0 (max 0 a.totalLayers - max 0 (min a.localLayersMin (max 0 a.totalLayers)))

end PlanArgs

/-- The survey of all nodes. -/
def surveyAll (a : PlanArgs) (nodes : List (PlanNode φ)) : Except Exn Survey :=
  nodes.foldlM (surveyNode a.reserveBytes a.costPerLayer) {}

/-- The candidates in the order in which they are given layers. -/
def Survey.offers (s : Survey) : List Offer := s.candidates.insertionSort fun a b => offerLe a b

/-- `plan_layer_split`. -/
def planLayerSplit (a : PlanArgs) (nodes : List (PlanNode φ)) : Except Exn LayerPlan := do
  let s ← surveyAll a nodes
  let assignments := Dict.ofPairs (share a.budgetLayers s.offers)
  let remote := (assignments.map Prod.snd).sum
  return {
    assignments := assignments
    remoteLayers := remote
    localLayers := max 0 a.totalLayers - remote
    skipped := s.skipped
    headroom := s.headroom
    costPerLayerBytes := a.costPerLayer
    cacheBytesPerLayer := a.cachePerLayer
    slots := max 1 (if a.slots = 0 then 1 else a.slots) }

/-! ## The plan of a host -/

/-- The part of a `MeshModelHost` that planning reads.  The constructor brings the numbers
within their bounds. -/
structure HostModel (φ : Type) where
  /-- What `read_metadata` returned. -/
  metadata : Obj φ
  totalLayers : Int
  totalLayers_pos : 0 < totalLayers
  context : Int
  context_nonneg : 0 ≤ context
  slots : Int
  slots_pos : 1 ≤ slots
  cacheDtypeBytes : Int
  reserveBytes : Int
  localLayersMin : Int
  /-- The operator's own exclusions. -/
  exclude : List Str

/-- A device that is held out of the plan. -/
structure Pin where
  reason : Str
  heldUntil : Seconds
deriving DecidableEq, Repr

/-- What `plan_for_fleet` returns. -/
structure FleetPlan (φ : Type) extends LayerPlan where
  nodes : List (PlanNode φ)
  reserveBytes : Int
  bytesPerLayer : Int
  totalLayers : Int

/-- The id of a live peer. -/
def peerId (peer : Obj φ) : Str :=
  strip (strOf (orElse (orElse (fetch (lit "node_id") peer) (fetch (lit "device_id") peer)) (.str [])))

/-- The node that a peer is planned as. -/
def peerNode (peer : Obj φ) : PlanNode φ where
  deviceId := peerId peer
  memAvailableBytes := fetch (lit "mem_available_bytes") peer
  advertisedBytes := .none
  thermalStatus := fetch (lit "thermal_status") peer
  paired := fetch (lit "paired") peer

/-- The peers that have an id. -/
def namedPeers (peers : List (PyVal φ)) : List (Obj φ) :=
  peers.filterMap fun
    | .dict peer => if peerId peer = [] then none else some peer
    | _ => none

/-- The peers that are not excluded, as nodes. -/
def fleetNodes (peers : List (PyVal φ)) (skip : Dict Str Str) : List (PlanNode φ) :=
  ((namedPeers peers).filter fun peer => (Dict.get? skip (peerId peer)).isNone).map peerNode

/-- The peers that are excluded, with the reason. -/
def fleetExcluded (peers : List (PyVal φ)) (skip : Dict Str Str) : List (Str × Str) :=
  (namedPeers peers).filterMap fun peer =>
    (Dict.get? skip (peerId peer)).map fun reason => (peerId peer, reason)

/-- `plan_for_fleet`, with the exclusions and their reasons. -/
def planForFleet (a : PlanArgs) (peers : List (PyVal φ)) (skip : Dict Str Str) :
    Except Exn (FleetPlan φ) := do
  let plan ← planLayerSplit a (fleetNodes peers skip)
  return { plan with
    skipped := plan.skipped ++ fleetExcluded peers skip
    nodes := fleetNodes peers skip
    reserveBytes := a.reserveBytes
    bytesPerLayer := a.bytesPerLayer
    totalLayers := a.totalLayers }

namespace HostModel

/-- `bytes_per_layer`, with the size of the file, 0 if it cannot be read. -/
def bytesPerLayer (h : HostModel φ) (fileSize : Nat) : Int :=
  if fileSize = 0 then 1 else max 1 ((fileSize : Int) / h.totalLayers)

/-- `cache_bytes_per_layer`. -/
def cacheBytesPerLayer (h : HostModel φ) : Except Exn Int :=
  Gguf.kvBytesPerToken h.metadata h.cacheDtypeBytes

/-- `exclusion_reasons` of both sources, the second over the first. -/
def exclusions (h : HostModel φ) (extraExclude : Dict Str Str) : Dict Str Str :=
  let operator := (h.exclude.map strip).filterMap fun name =>
    if name = [] then none else some (name, lit "excluded by operator")
  let extra := extraExclude.filterMap fun i =>
    if strip i.1 = [] then none
    else some (strip i.1, if i.2 = [] then lit "excluded by operator" else i.2)
  Dict.ofPairs (operator ++ extra)

/-- The pins that still hold at `now`. -/
def heldPins (refused : Dict Str Pin) (now : Seconds) : Dict Str Pin :=
  refused.filter fun i => !(i.2.heldUntil ≤ now)

/-- `_apply_pins`, with the pins that still hold. -/
def applyPins (totalLayers : Int) (plan : FleetPlan φ) (held : Dict Str Pin) : FleetPlan φ :=
  if held = [] then plan
  else
    let pinned (d : Str) : Bool := (Dict.get? held d).isSome
    let assignments := plan.assignments.filter fun i => !pinned i.1
    let out := ((plan.assignments.map Prod.fst).filter pinned).insertionSort (· ≤ ·)
    let remote := (assignments.map Prod.snd).sum
    { plan with
      assignments := assignments
      remoteLayers := remote
      localLayers := (if plan.totalLayers = 0 then totalLayers else plan.totalLayers) - remote
      skipped := plan.skipped ++ out.filterMap fun d =>
        (Dict.get? held d).map fun pin =>
          (d, lit "held out: " ++ (if pin.reason = [] then lit "thermal" else pin.reason)) }

/-- The arguments that `plan` calls the planner with. -/
def planArgs (h : HostModel φ) (fileSize : Nat) (cacheBytesPerLayer : Int) : PlanArgs where
  totalLayers := h.totalLayers
  bytesPerLayer := h.bytesPerLayer fileSize
  localLayersMin := h.localLayersMin
  reserveBytes := h.reserveBytes
  cacheBytesPerLayer := cacheBytesPerLayer
  slots := h.slots

/-- `plan`: the plan for the live peers, and the pins that are left. -/
def plan (h : HostModel φ) (refused : Dict Str Pin) (peers : List (PyVal φ))
    (extraExclude : Dict Str Str) (fileSize : Nat) (now : Seconds) :
    Except Exn (FleetPlan φ × Dict Str Pin) := do
  let cache ← h.cacheBytesPerLayer
  let fleet ← planForFleet (h.planArgs fileSize cache) peers (h.exclusions extraExclude)
  return (applyPins h.totalLayers fleet (heldPins refused now), heldPins refused now)

end HostModel

end ShugoCore
