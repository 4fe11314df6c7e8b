import ShugoCore.ModelHost.Split

/-!
# Pinned devices

`plan` hands out the layers as if no device were pinned, and `_apply_pins` then takes the shares of
the pinned devices away.  These layers stay with the host, although the devices that are ranked
behind might have had room for them, as they would with the pinned devices gone or excluded.

A plan with pins is the plan of the fleet without the pinned devices exactly if the budget was used
up before each of them had its turn, or is enough for all devices up to the last that is not pinned
(`pinned_as_removed_iff`).
-/

namespace ShugoCore

open Py

variable {φ : Type} [Builtins φ]

/-! ## Some of the nodes -/

/-- The offers of some nodes are those of the offers that come from them. -/
theorem offers_filter (a : PlanArgs) (nodes : List (PlanNode φ)) (keep : Str → Bool) :
    a.offers (nodes.filter fun node => keep (strip node.deviceId)) =
      (a.offers nodes).filter fun o => keep o.deviceId := by
  refine List.Perm.eq_of_pairwise ?_ (pairwise_offers a _) ((pairwise_offers a nodes).filter _) ?_
  · intro o o' ho ho' hle hge
    exact Offer.eq_of_rank (layers_of_mem_offers ho).2 (layers_of_mem_offers (List.mem_of_mem_filter ho')).2
      (le_antisymm hle hge)
  · have hoffers : (nodes.filter fun node => keep (strip node.deviceId)).filterMap
        (PlanNode.offer a.reserveBytes a.costPerLayer) =
          (nodes.filterMap (PlanNode.offer a.reserveBytes a.costPerLayer)).filter
            fun o => keep o.deviceId := by
      rw [List.filterMap_filter, List.filter_filterMap]
      refine List.filterMap_congr fun node _ => ?_
      cases hoffer : node.offer a.reserveBytes a.costPerLayer with
      | none => simp
      | some o =>
          obtain ⟨-, -, -, room, -, -, rfl⟩ := PlanNode.offer_eq_some_iff.1 hoffer
          simp [Option.filter]
    refine (List.perm_insertionSort _ _).trans ?_
    rw [hoffers]
    exact ((List.perm_insertionSort _ _).symm).filter _

theorem assigned_filter (a : PlanArgs) (nodes : List (PlanNode φ)) (keep : Str → Bool) :
    (a.assigned nodes).filter (fun i => keep i.1) =
        a.assigned (nodes.filter fun node => keep (strip node.deviceId)) ↔
      Greedy.Unneeded Offer.layers (fun o => keep o.deviceId) a.budgetLayers (a.offers nodes) ∨
        Greedy.Ample Offer.layers (fun o => keep o.deviceId) a.budgetLayers (a.offers nodes) := by
  rw [← Greedy.kept_give_iff Offer.deviceId offers_pos, PlanArgs.assigned, PlanArgs.assigned,
    offers_filter, List.filter_map]
  rfl

/-! ## The fleet without the pinned devices -/

/-- The device is not held out. -/
def unpinned (held : Dict Str Pin) (deviceId : Str) : Bool := (Dict.get? held deviceId).isNone

/-- The fleet without the devices that are held out. -/
def removePinned (held : Dict Str Pin) (peers : List (PyVal φ)) : List (PyVal φ) :=
  peers.filter fun
    | .dict peer => unpinned held (peerId peer)
    | _ => true

theorem namedPeers_removePinned (held : Dict Str Pin) (peers : List (PyVal φ)) :
    namedPeers (removePinned held peers) =
      (namedPeers peers).filter fun peer => unpinned held (peerId peer) := by
  rw [namedPeers, namedPeers, removePinned, List.filterMap_filter, List.filter_filterMap]
  refine List.filterMap_congr fun peer _ => ?_
  cases peer with
  | dict peer =>
      by_cases hid : peerId peer = []
      · simp [hid]
      · cases hpin : unpinned held (peerId peer) <;> simp [hid, hpin, Option.filter]
  | _ => rfl

@[simp] theorem strip_peerId (peer : Obj φ) : strip (peerId peer) = peerId peer := strip_strip _

theorem fleetNodes_removePinned (held : Dict Str Pin) (peers : List (PyVal φ)) (skip : Dict Str Str) :
    fleetNodes (removePinned held peers) skip =
      (fleetNodes peers skip).filter fun node => unpinned held (strip node.deviceId) := by
  simp only [fleetNodes, namedPeers_removePinned, List.filter_map, Function.comp_def, peerNode,
    strip_peerId, List.filter_filter, Bool.and_comm]

/-- No two live peers have one id, as in the live set of the election. -/
def DistinctPeers (peers : List (PyVal φ)) : Prop := ((namedPeers peers).map peerId).Nodup

instance (peers : List (PyVal φ)) : Decidable (DistinctPeers peers) :=
  inferInstanceAs (Decidable (List.Nodup _))

theorem DistinctPeers.nodes {peers : List (PyVal φ)} (h : DistinctPeers peers) (skip : Dict Str Str) :
    DistinctIds (fleetNodes peers skip) := by
  have hids : ((fleetNodes peers skip).map fun node => strip node.deviceId) =
      ((namedPeers peers).filter fun peer => (Dict.get? skip (peerId peer)).isNone).map peerId := by
    simp [fleetNodes, peerNode, Function.comp_def]
  rw [DistinctIds, hids]
  exact (h.sublist ((List.filter_sublist).map peerId)).filter _

theorem DistinctPeers.removePinned {peers : List (PyVal φ)} (h : DistinctPeers peers)
    (held : Dict Str Pin) : DistinctPeers (removePinned held peers) := by
  rw [DistinctPeers, namedPeers_removePinned]
  exact h.sublist ((List.filter_sublist).map peerId)

/-! ## The plan -/

namespace HostModel

/-- The split that a plan makes: who is given how many layers, and what stays. -/
def splitOf (r : Except Exn (FleetPlan φ × Dict Str Pin)) : Option (Dict Str Int × Int) :=
  r.toOption.map fun p => (p.1.assignments, p.1.localLayers)

/-- The plan with pins makes the split that the plan of the fleet without the pinned devices
makes. -/
def PinnedAsRemoved (h : HostModel φ) (refused : Dict Str Pin) (peers : List (PyVal φ))
    (extraExclude : Dict Str Str) (fileSize : Nat) (now : Seconds) : Prop :=
  splitOf (h.plan refused peers extraExclude fileSize now) =
    splitOf (h.plan [] (removePinned (heldPins refused now) peers) extraExclude fileSize now)

/-- The pinned devices would get nothing, or the others could not get more: the budget is used
up before the turn of each pinned device, or it is enough for each other device and all before
it.  A pinned device whose numbers cannot be read does harm, unless another one has such numbers. -/
def PinsHarmless (h : HostModel φ) (refused : Dict Str Pin) (peers : List (PyVal φ))
    (extraExclude : Dict Str Str) (fileSize : Nat) (now : Seconds) : Prop :=
  ∀ perToken, h.cacheBytesPerLayer = .ok perToken →
    (∃ node ∈ fleetNodes peers (h.exclusions extraExclude),
      unpinned (heldPins refused now) node.deviceId = true ∧ node.readable h.reserveBytes = false) ∨
    (∀ node ∈ fleetNodes peers (h.exclusions extraExclude), node.readable h.reserveBytes = true) ∧
      (Greedy.Unneeded Offer.layers (fun o => unpinned (heldPins refused now) o.deviceId)
          (h.planArgs fileSize perToken).budgetLayers
          (h.peerOffers peers (h.exclusions extraExclude) fileSize perToken) ∨
        Greedy.Ample Offer.layers (fun o => unpinned (heldPins refused now) o.deviceId)
          (h.planArgs fileSize perToken).budgetLayers
          (h.peerOffers peers (h.exclusions extraExclude) fileSize perToken))

omit [Builtins φ] in
theorem applyPins_localLayers {totalLayers : Int} {plan : FleetPlan φ} (held : Dict Str Pin)
    (htotal : plan.totalLayers = totalLayers)
    (hlocal : plan.localLayers = totalLayers - layersOf plan.assignments) :
    (applyPins totalLayers plan held).localLayers =
      totalLayers - layersOf (applyPins totalLayers plan held).assignments := by
  simp only [applyPins]
  split
  · exact hlocal
  · simp [htotal, layersOf]

/-- The split of a plan, if the cost of a layer is known. -/
theorem splitOf_plan {h : HostModel φ} {peers : List (PyVal φ)} (hids : DistinctPeers peers)
    (refused : Dict Str Pin) (extraExclude : Dict Str Str) (fileSize : Nat) (now : Seconds)
    {perToken : Int} (hcache : h.cacheBytesPerLayer = .ok perToken) :
    splitOf (h.plan refused peers extraExclude fileSize now) =
      if (fleetNodes peers (h.exclusions extraExclude)).all fun node => node.readable h.reserveBytes then
        let assigned := ((h.planArgs fileSize perToken).assigned
          (fleetNodes peers (h.exclusions extraExclude))).filter fun i =>
            unpinned (heldPins refused now) i.1
        some (assigned, h.totalLayers - layersOf assigned)
      else none := by
  have hok := planLayerSplit_isOk (h.planArgs fileSize perToken)
    (fleetNodes peers (h.exclusions extraExclude))
  rw [show (h.planArgs fileSize perToken).reserveBytes = h.reserveBytes from rfl] at hok
  rw [← hok]
  simp only [HostModel.plan, hcache, planForFleet, bind, Except.bind]
  cases hplan : planLayerSplit (h.planArgs fileSize perToken)
      (fleetNodes peers (h.exclusions extraExclude)) with
  | error e => rfl
  | ok plan =>
      obtain ⟨hassigned, hremote, hlocal⟩ := planLayerSplit_ok hplan
      have htotal : max 0 (h.planArgs fileSize perToken).totalLayers = h.totalLayers :=
        max_eq_right h.totalLayers_pos.le
      rw [Dict.ofPairs_eq_self (nodup_assigned (hids.nodes _))] at hassigned
      rw [htotal, hremote] at hlocal
      simp only [splitOf, Except.toOption, Option.map_some, Except.isOk, Except.toBool, if_true,
        pure, Except.pure]
      rw [applyPins_localLayers, applyPins_assignments]
      · simp only [hassigned]
        rfl
      · rfl
      · exact hlocal

/-- The split of the fleet without the pinned devices. -/
theorem splitOf_plan_removePinned {h : HostModel φ} {peers : List (PyVal φ)} (hids : DistinctPeers peers)
    (held : Dict Str Pin) (extraExclude : Dict Str Str) (fileSize : Nat) (now : Seconds)
    {perToken : Int} (hcache : h.cacheBytesPerLayer = .ok perToken) :
    splitOf (h.plan [] (removePinned held peers) extraExclude fileSize now) =
      if ((fleetNodes peers (h.exclusions extraExclude)).filter fun node =>
          unpinned held (strip node.deviceId)).all fun node => node.readable h.reserveBytes then
        let assigned := (h.planArgs fileSize perToken).assigned
          ((fleetNodes peers (h.exclusions extraExclude)).filter fun node =>
            unpinned held (strip node.deviceId))
        some (assigned, h.totalLayers - layersOf assigned)
      else none := by
  have hall : ∀ given : List (Str × Int),
      (given.filter fun i => unpinned (heldPins [] now) i.1) = given := by
    intro given
    exact List.filter_eq_self.2 fun _ _ => rfl
  rw [splitOf_plan (hids.removePinned held) [] extraExclude fileSize now hcache,
    fleetNodes_removePinned]
  simp only [hall]

theorem strip_deviceId_of_mem {peers : List (PyVal φ)} {skip : Dict Str Str} {node : PlanNode φ}
    (h : node ∈ fleetNodes peers skip) : strip node.deviceId = node.deviceId := by
  obtain ⟨peer, -, rfl⟩ := List.mem_map.1 h
  exact strip_peerId peer

omit [Builtins φ] in
/-- The numbers of a device that is not pinned cannot be read. -/
theorem unread_unpinned_iff {nodes : List (PlanNode φ)} {readable : PlanNode φ → Bool}
    (hstrip : ∀ node ∈ nodes, strip node.deviceId = node.deviceId) (held : Dict Str Pin) :
    ((nodes.filter fun node => unpinned held (strip node.deviceId)).all readable) = false ↔
      ∃ node ∈ nodes, unpinned held node.deviceId = true ∧ readable node = false := by
  simp only [List.all_eq_false, List.mem_filter, and_assoc, Bool.not_eq_true]
  constructor
  · rintro ⟨node, hnode, hkept, hunread⟩
    exact ⟨node, hnode, hstrip node hnode ▸ hkept, hunread⟩
  · rintro ⟨node, hnode, hkept, hunread⟩
    exact ⟨node, hnode, (hstrip node hnode).symm ▸ hkept, hunread⟩

/-- For every fleet of distinct ids, the plan with pins makes the split of the fleet without the
pinned devices if and only if the pins are harmless. -/
theorem pinned_as_removed_iff {h : HostModel φ} {peers : List (PyVal φ)} (hids : DistinctPeers peers)
    (refused : Dict Str Pin) (extraExclude : Dict Str Str) (fileSize : Nat) (now : Seconds) :
    h.PinnedAsRemoved refused peers extraExclude fileSize now ↔
      h.PinsHarmless refused peers extraExclude fileSize now := by
  simp only [PinnedAsRemoved, PinsHarmless]
  cases hcache : h.cacheBytesPerLayer with
  | error e => simp [HostModel.plan, hcache, bind, Except.bind, splitOf]
  | ok perToken =>
      rw [splitOf_plan hids refused extraExclude fileSize now hcache,
        splitOf_plan_removePinned hids _ extraExclude fileSize now hcache]
      simp only [Except.ok.injEq, forall_eq']
      generalize hnodes : fleetNodes peers (h.exclusions extraExclude) = nodes
      generalize heldPins refused now = held
      have hoffers : h.peerOffers peers (h.exclusions extraExclude) fileSize perToken =
          (h.planArgs fileSize perToken).offers nodes := hnodes ▸ rfl
      rw [hoffers, ← assigned_filter]
      have hstrip (node : PlanNode φ) (hnode : node ∈ nodes) : strip node.deviceId = node.deviceId :=
        strip_deviceId_of_mem (hnodes ▸ hnode)
      rw [← unread_unpinned_iff hstrip held]
      cases hrest : (nodes.filter fun node => unpinned held (strip node.deviceId)).all fun node =>
          node.readable h.reserveBytes with
      | false =>
          have hall : (nodes.all fun node => node.readable h.reserveBytes) = false := by
            obtain ⟨node, hnode, -, hunread⟩ := (unread_unpinned_iff hstrip held).1 hrest
            exact List.all_eq_false.2 ⟨node, hnode, by simp [hunread]⟩
          simp [hall]
      | true =>
          simp only [if_true, Bool.true_eq_false, false_or]
          cases hall : nodes.all fun node => node.readable h.reserveBytes with
          | true =>
              simp only [if_true, Option.some.injEq, Prod.mk.injEq]
              exact ⟨fun hsame => ⟨List.all_eq_true.1 hall, hsame.1⟩,
                fun hsame => ⟨hsame.2, by rw [hsame.2]⟩⟩
          | false =>
              have hunread : ¬ ∀ node ∈ nodes, node.readable h.reserveBytes = true := fun hread =>
                Bool.eq_false_iff.1 hall (List.all_eq_true.2 hread)
              simp [hunread]

/-- A laptop and a tablet with the same free memory. -/
def twinPeers (bytes : Int) : List (PyVal WholeFloat) :=
  [.dict (obj [("node_id", .str (lit "laptop")), ("mem_available_bytes", .int bytes)]),
    .dict (obj [("node_id", .str (lit "tablet")), ("mem_available_bytes", .int bytes)])]

/-- The laptop is pinned. -/
def laptopPinned : Dict Str Pin := [(lit "laptop", ⟨lit "did not answer", 300⟩)]

/-- With room for ten layers each, the tablet holds no more than ten in any case. -/
theorem laptop_pinned_small :
    (benchHost 1).PinnedAsRemoved laptopPinned (twinPeers 10006120) [] 24000000 0 := by
  refine (pinned_as_removed_iff (by decide +kernel) laptopPinned [] 24000000 0).2 ?_
  intro perToken hcache
  have hperToken : ((benchHost 1).cacheBytesPerLayer).toOption = some 512 := by decide +kernel
  rw [hcache] at hperToken
  cases Option.some.inj hperToken
  have hoffers : (benchHost 1).peerOffers (twinPeers 10006120) ((benchHost 1).exclusions []) 24000000 512 =
      [⟨lit "laptop", 10, 10005120⟩, ⟨lit "tablet", 10, 10005120⟩] := by decide +kernel
  refine .inr ⟨by decide +kernel, .inr ?_⟩
  rw [hoffers]
  simp only [Greedy.ample_cons, Greedy.ample_nil]
  decide +kernel

/-- With room for twenty layers each, the tablet is given three while the laptop is pinned, and
twenty when the laptop is gone. -/
theorem laptop_pinned_large :
    ¬ (benchHost 1).PinnedAsRemoved laptopPinned (twinPeers 20011240) [] 24000000 0 ∧
      splitOf ((benchHost 1).plan laptopPinned (twinPeers 20011240) [] 24000000 0) =
        some ([(lit "tablet", 3)], 21) ∧
      splitOf ((benchHost 1).plan [] (removePinned laptopPinned (twinPeers 20011240)) [] 24000000 0) =
        some ([(lit "tablet", 20)], 4) := by
  refine ⟨?_, by decide +kernel, by decide +kernel⟩
  simp only [PinnedAsRemoved]
  decide +kernel

end HostModel

end ShugoCore
