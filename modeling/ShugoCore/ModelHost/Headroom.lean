import ShugoCore.ModelHost.Plan

/-!
# Plans against the measured headroom

`cache_bytes_per_layer` is documented as the cache that one layer needs for one slot, and
returns the cache of a single token.  The planner divides the headroom of a device by that
cost, so a device may be given more layers than it can hold the cache of once the context
is full.

A device of the plan holds its layers with their cache for the whole context exactly if
the layers it offers, or the layers that are left when its turn comes, are within its
headroom at the full cost of a layer (`plan_fits_iff`).
-/

namespace ShugoCore

open Py

variable {φ : Type} [Builtins φ]

/-! ## Offers -/

/-- What a node offers, unless it is skipped. -/
def PlanNode.offer (reserveBytes cost : Int) (node : PlanNode φ) : Option Offer :=
  if strip node.deviceId = [] then none
  else if isFalse node.paired then none
  else match thermalOf node.thermalStatus with
  | .error _ => none
  | .ok thermal =>
      match thermal.filter fun t => thermalRefuseStatus ≤ t with
      | some _ => none
      | none =>
          match usableHeadroom node.memAvailableBytes node.advertisedBytes reserveBytes with
          | .error _ => none
          | .ok room =>
              if room / cost ≤ 0 then none else some ⟨strip node.deviceId, room / cost, room⟩

theorem PlanNode.offer_layers_pos {reserveBytes cost : Int} {node : PlanNode φ} {o : Offer}
    (h : node.offer reserveBytes cost = some o) : 0 < o.layers := by
  unfold PlanNode.offer at h
  split at h
  · cases h
  split at h
  · cases h
  split at h
  · cases h
  split at h
  · cases h
  split at h
  · cases h
  split at h
  · cases h
  · rename_i hroom
    cases h
    exact Int.not_le.1 hroom

theorem Survey.measure_candidates (s : Survey) (deviceId : Str) (room cost : Int) :
    (s.measure deviceId room cost).candidates =
      s.candidates ++ (if room / cost ≤ 0 then none else some ⟨deviceId, room / cost, room⟩ :
        Option Offer).toList := by
  simp only [Survey.measure]
  split
  · simp [Survey.skip]
  · rfl

/-- A node adds its offer to the candidates. -/
theorem surveyNode_candidates {reserveBytes cost : Int} {s s' : Survey} {node : PlanNode φ}
    (h : surveyNode reserveBytes cost s node = .ok s') :
    s'.candidates = s.candidates ++ (node.offer reserveBytes cost).toList := by
  unfold surveyNode at h
  simp only [PlanNode.offer]
  by_cases hid : strip node.deviceId = []
  · rw [if_pos hid] at h ⊢
    cases h
    simp
  rw [if_neg hid] at h ⊢
  by_cases hpaired : isFalse node.paired
  · rw [if_pos hpaired] at h ⊢
    cases h
    simp [Survey.skip]
  rw [if_neg hpaired] at h ⊢
  cases hthermal : thermalOf node.thermalStatus with
  | error e => rw [hthermal] at h; cases h
  | ok thermal =>
      rw [hthermal] at h
      simp only [bind, Except.bind] at h
      cases hrefused : thermal.filter fun t => decide (thermalRefuseStatus ≤ t) with
      | some t =>
          rw [hrefused] at h
          cases h
          simp [Survey.skip, hrefused]
      | none =>
          rw [hrefused] at h
          cases hroom : usableHeadroom node.memAvailableBytes node.advertisedBytes reserveBytes with
          | error e => rw [hroom] at h; cases h
          | ok room =>
              rw [hroom] at h
              cases h
              simp only [hrefused]
              exact Survey.measure_candidates ..

/-- The candidates are the offers of the nodes, in order. -/
theorem surveyAll_candidates {a : PlanArgs} {nodes : List (PlanNode φ)} {s : Survey}
    (h : surveyAll a nodes = .ok s) :
    s.candidates = nodes.filterMap (PlanNode.offer a.reserveBytes a.costPerLayer) := by
  suffices hfold : ∀ s₀ : Survey,
      nodes.foldlM (surveyNode a.reserveBytes a.costPerLayer) s₀ = .ok s →
      s.candidates =
        s₀.candidates ++ nodes.filterMap (PlanNode.offer a.reserveBytes a.costPerLayer) from
    hfold {} h
  clear h
  induction nodes with
  | nil =>
      intro s₀ h
      cases h
      simp
  | cons node nodes ih =>
      intro s₀ h
      rw [List.foldlM_cons] at h
      cases hnode : surveyNode a.reserveBytes a.costPerLayer s₀ node with
      | error e => rw [hnode] at h; cases h
      | ok s₁ =>
          rw [hnode] at h
          rw [ih s₁ h, surveyNode_candidates hnode, List.filterMap_cons]
          cases PlanNode.offer a.reserveBytes a.costPerLayer node <;> simp

/-! ## Turns -/

/-- The offers whose turn comes before the layers are used up, with what is left of the
layers then. -/
def turns : Int → List Offer → List (Offer × Int)
  | _, [] => []
  | left, o :: offers => if left ≤ 0 then [] else (o, left) :: turns (left - o.layers) offers

theorem turns_of_nonpos {left : Int} (h : left ≤ 0) (offers : List Offer) : turns left offers = [] := by
  cases offers with
  | nil => rfl
  | cons o offers => exact if_pos h

theorem mem_turns {offers : List Offer} {left : Int} {t : Offer × Int}
    (h : t ∈ turns left offers) : t.1 ∈ offers ∧ 0 < t.2 := by
  induction offers generalizing left with
  | nil => cases h
  | cons o offers ih =>
      rw [turns] at h
      split at h
      · cases h
      · rename_i hleft
        rcases List.mem_cons.1 h with rfl | h
        · exact ⟨List.mem_cons_self, Int.not_le.1 hleft⟩
        · exact (ih h).imp_left (List.mem_cons_of_mem _)

/-- Each device is given what it offers, or what is left. -/
theorem share_eq_turns {offers : List Offer} (h : ∀ o ∈ offers, 0 < o.layers) (left : Int) :
    share left offers = (turns left offers).map fun t => (t.1.deviceId, min t.1.layers t.2) := by
  induction offers generalizing left with
  | nil => rfl
  | cons o offers ih =>
      have ho := h o List.mem_cons_self
      have ih := ih fun o' ho' => h o' (List.mem_cons_of_mem _ ho')
      rw [share, turns]
      by_cases hleft : left ≤ 0
      · simp only [hleft, if_true, List.map_nil]
      have htake : ¬ min o.layers left ≤ 0 := by omega
      simp only [hleft, if_false, htake, List.map_cons, ih]
      by_cases hall : o.layers ≤ left
      · rw [min_eq_left hall]
      · have hmin : min o.layers left = left := min_eq_right (by omega)
        rw [hmin, turns_of_nonpos (by omega), turns_of_nonpos (by omega)]

/-! ## The plan of a host -/

namespace HostModel

/-- The offers of the live peers, in the order of their turns. -/
def peerOffers (h : HostModel φ) (peers : List (PyVal φ)) (skip : Dict Str Str) (fileSize : Nat)
    (perToken : Int) : List Offer :=
  ((fleetNodes peers skip).filterMap (PlanNode.offer h.reserveBytes
    (h.planArgs fileSize perToken).costPerLayer)).insertionSort fun a b => offerLe a b

/-- The turns of the live peers. -/
def peerTurns (h : HostModel φ) (peers : List (PyVal φ)) (extraExclude : Dict Str Str)
    (fileSize : Nat) (perToken : Int) : List (Offer × Int) :=
  turns (h.planArgs fileSize perToken).budgetLayers
    (h.peerOffers peers (h.exclusions extraExclude) fileSize perToken)

omit [Builtins φ] in
theorem applyPins_assignments (totalLayers : Int) (plan : FleetPlan φ) (held : Dict Str Pin) :
    (applyPins totalLayers plan held).assignments =
      plan.assignments.filter fun i => (Dict.get? held i.1).isNone := by
  simp only [applyPins]
  split
  · rename_i hheld
    simp [hheld]
  · simp

theorem peerOffers_layers_pos {h : HostModel φ} {peers : List (PyVal φ)} {skip : Dict Str Str}
    {fileSize : Nat} {perToken : Int} :
    ∀ o ∈ h.peerOffers peers skip fileSize perToken, 0 < o.layers := by
  intro o ho
  rw [peerOffers, List.mem_insertionSort, List.mem_filterMap] at ho
  obtain ⟨node, -, hnode⟩ := ho
  exact PlanNode.offer_layers_pos hnode

/-- Who is given layers by a plan, and how many. -/
theorem plan_assignments {h : HostModel φ} {refused : Dict Str Pin} {peers : List (PyVal φ)}
    {extraExclude : Dict Str Str} {fileSize : Nat} {now : Seconds} {plan : FleetPlan φ}
    {pins : Dict Str Pin} (hplan : h.plan refused peers extraExclude fileSize now = .ok (plan, pins)) :
    ∃ perToken, h.cacheBytesPerLayer = .ok perToken ∧
      plan.assignments =
        (Dict.ofPairs ((h.peerTurns peers extraExclude fileSize perToken).map fun t =>
          (t.1.deviceId, min t.1.layers t.2))).filter fun i =>
            (Dict.get? (heldPins refused now) i.1).isNone := by
  unfold HostModel.plan at hplan
  cases hcache : h.cacheBytesPerLayer with
  | error e => rw [hcache] at hplan; cases hplan
  | ok perToken =>
      rw [hcache] at hplan
      simp only [bind, Except.bind] at hplan
      refine ⟨perToken, rfl, ?_⟩
      unfold planForFleet planLayerSplit at hplan
      cases hsurvey : surveyAll (h.planArgs fileSize perToken)
          (fleetNodes peers (h.exclusions extraExclude)) with
      | error e => rw [hsurvey] at hplan; cases hplan
      | ok s =>
          rw [hsurvey] at hplan
          cases hplan
          rw [applyPins_assignments]
          have hoffers : s.offers =
              h.peerOffers peers (h.exclusions extraExclude) fileSize perToken := by
            rw [Survey.offers, surveyAll_candidates hsurvey]
            rfl
          simp only [hoffers, share_eq_turns peerOffers_layers_pos]
          rfl

/-! ## What the layers take -/

/-- The bytes that some layers take on a device: their weights, and their cache for the
whole context. -/
def footprint (h : HostModel φ) (fileSize : Nat) (layers : Int) : Except Exn Int := do
  let cache ← Gguf.slotCacheBytes h.metadata h.context h.slots layers h.cacheDtypeBytes
  return layers * h.bytesPerLayer fileSize + cache

/-- The full cost of a layer. -/
def fullCost (h : HostModel φ) (fileSize : Nat) (perToken : Int) : Int :=
  h.bytesPerLayer fileSize + perToken * h.context * h.slots

/-- A live peer measured this headroom. -/
def Measured (h : HostModel φ) (peers : List (PyVal φ)) (deviceId : Str) (room : Int) : Prop :=
  ∃ peer, .dict peer ∈ peers ∧ peerId peer = deviceId ∧
    usableHeadroom (fetch (lit "mem_available_bytes") peer) .none h.reserveBytes = .ok room

/-- Each device of a plan has the room for its layers. -/
def Fits (h : HostModel φ) (peers : List (PyVal φ)) (fileSize : Nat) (plan : FleetPlan φ) : Prop :=
  ∀ i ∈ plan.assignments, ∃ room, h.Measured peers i.1 room ∧
    ∃ bytes, h.footprint fileSize i.2 = .ok bytes ∧ bytes ≤ room

/-- At the last turn of each device that is not held out, its offer or what is left is
within its headroom at the full cost of a layer. -/
def RoomAtFullCost (h : HostModel φ) (refused : Dict Str Pin) (peers : List (PyVal φ))
    (extraExclude : Dict Str Str) (fileSize : Nat) (now : Seconds) : Prop :=
  ∀ perToken, h.cacheBytesPerLayer = .ok perToken →
    ∀ before o left after,
      h.peerTurns peers extraExclude fileSize perToken = before ++ (o, left) :: after →
      (∀ t ∈ after, t.1.deviceId ≠ o.deviceId) →
      Dict.get? (heldPins refused now) o.deviceId = none →
      ∃ room, h.Measured peers o.deviceId room ∧
        (o.layers ≤ room / h.fullCost fileSize perToken ∨ left ≤ room / h.fullCost fileSize perToken)

omit [Builtins φ] in
theorem bytesPerLayer_pos (h : HostModel φ) (fileSize : Nat) : 0 < h.bytesPerLayer fileSize := by
  simp only [bytesPerLayer]
  split <;> omega

theorem cacheBytesPerLayer_nonneg {h : HostModel φ} {perToken : Int}
    (hcache : h.cacheBytesPerLayer = .ok perToken) : 0 ≤ perToken := by
  unfold cacheBytesPerLayer Gguf.kvBytesPerToken at hcache
  cases hgeometry : rescue (0, 0) (Gguf.geometry h.metadata) with
  | error e => rw [hgeometry] at hcache; cases hcache
  | ok g =>
      rw [hgeometry] at hcache
      cases hcache
      dsimp only
      split
      · exact le_rfl
      · have hheads : 0 ≤ g.1 := by omega
        have hdim : 0 ≤ g.2 := by omega
        positivity

omit [Builtins φ] in
theorem fullCost_pos {h : HostModel φ} {fileSize : Nat} {perToken : Int} (hnonneg : 0 ≤ perToken) :
    0 < h.fullCost fileSize perToken := by
  have hw := h.bytesPerLayer_pos fileSize
  have hcontext := h.context_nonneg
  have hslots := h.slots_pos
  simp only [fullCost]
  positivity

/-- Layers take their full cost each. -/
theorem footprint_eq {h : HostModel φ} {fileSize : Nat} {perToken layers : Int}
    (hcache : h.cacheBytesPerLayer = .ok perToken) (hlayers : 0 < layers) :
    h.footprint fileSize layers = .ok (layers * h.fullCost fileSize perToken) := by
  have hnonneg := cacheBytesPerLayer_nonneg hcache
  have hslots := h.slots_pos
  have hcontext := h.context_nonneg
  have hcount : max 0 layers = layers := by omega
  have hslot : max 1 (if h.slots = 0 then 1 else h.slots) = h.slots := by
    rw [if_neg (by omega)]
    omega
  have hctx : max 0 h.context = h.context := by omega
  have hproduct : 0 ≤ perToken * h.context * h.slots * layers := by positivity
  simp only [footprint, Gguf.slotCacheBytes]
  rw [show Gguf.kvBytesPerToken h.metadata h.cacheDtypeBytes = .ok perToken from hcache]
  simp only [bind, Except.bind, if_pos (show layers ≠ 0 by omega), hcount, hslot, hctx,
    max_eq_right hproduct]
  refine congrArg Except.ok ?_
  simp only [fullCost]
  ring

/-- The layers of a device fit if and only if their number is within the headroom at the
full cost. -/
theorem footprint_le_iff {h : HostModel φ} {fileSize : Nat} {perToken layers room : Int}
    (hcache : h.cacheBytesPerLayer = .ok perToken) (hlayers : 0 < layers) :
    (∃ bytes, h.footprint fileSize layers = .ok bytes ∧ bytes ≤ room) ↔
      layers ≤ room / h.fullCost fileSize perToken := by
  rw [footprint_eq hcache hlayers, Int.le_ediv_iff_mul_le (fullCost_pos (cacheBytesPerLayer_nonneg hcache))]
  constructor
  · rintro ⟨bytes, ⟨⟩, hle⟩
    exact hle
  · intro hle
    exact ⟨_, rfl, hle⟩

/-- The plan that the host returns gives each device layers that it has the memory for,
cache included, if and only if each of them has the room at the full cost of a layer. -/
theorem plan_fits_iff {h : HostModel φ} {refused : Dict Str Pin} {peers : List (PyVal φ)}
    {extraExclude : Dict Str Str} {fileSize : Nat} {now : Seconds} {plan : FleetPlan φ}
    {pins : Dict Str Pin} (hplan : h.plan refused peers extraExclude fileSize now = .ok (plan, pins)) :
    h.Fits peers fileSize plan ↔ h.RoomAtFullCost refused peers extraExclude fileSize now := by
  obtain ⟨perToken, hcache, hassigned⟩ := plan_assignments hplan
  have hturns : ∀ {before o left after},
      h.peerTurns peers extraExclude fileSize perToken = before ++ (o, left) :: after →
      0 < min o.layers left := by
    intro before o left after hsplit
    have hmem := mem_turns (hsplit ▸ List.mem_append_right before List.mem_cons_self)
    exact lt_min (peerOffers_layers_pos o hmem.1) hmem.2
  constructor
  · intro hfits perToken' hcache' before o left after hsplit hlast hpin
    cases hcache.symm.trans hcache'
    have hmem : (o.deviceId, min o.layers left) ∈ plan.assignments := by
      rw [hassigned, List.mem_filter, Dict.mem_ofPairs_iff, hsplit]
      refine ⟨⟨_, _, List.map_append, ?_⟩, by simp [hpin]⟩
      intro i hi
      obtain ⟨t, ht, rfl⟩ := List.mem_map.1 hi
      exact hlast t ht
    obtain ⟨room, hroom, hbytes⟩ := hfits _ hmem
    rw [footprint_le_iff hcache (hturns hsplit), min_le_iff] at hbytes
    exact ⟨room, hroom, hbytes⟩
  · rintro hroom ⟨deviceId, layers⟩ hi
    rw [hassigned, List.mem_filter, Dict.mem_ofPairs_iff] at hi
    obtain ⟨⟨before, after, hmap, hlast⟩, hpin⟩ := hi
    obtain ⟨before, rest, hsplit, rfl, hrest⟩ := List.map_eq_append_iff.1 hmap
    obtain ⟨⟨o, left⟩, after, rfl, hi, rfl⟩ := List.map_eq_cons_iff.1 hrest
    cases hi
    have hlast : ∀ t ∈ after, t.1.deviceId ≠ o.deviceId := fun t ht =>
      hlast _ (List.mem_map_of_mem ht)
    obtain ⟨room, hmeasured, hle⟩ :=
      hroom perToken hcache before o left after hsplit hlast (Option.isNone_iff_eq_none.1 hpin)
    refine ⟨room, hmeasured, ?_⟩
    rw [footprint_le_iff hcache (hturns hsplit)]
    exact min_le_iff.2 hle

/-- A model of 24 layers of a million bytes each, with 512 bytes of cache for each token. -/
def benchHost (context : Nat) : HostModel WholeFloat where
  metadata := obj [("attention.head_count_kv", .int 2), ("attention.key_length", .int 64)]
  totalLayers := 24
  totalLayers_pos := by decide
  context := context
  context_nonneg := by omega
  slots := 1
  slots_pos := by decide
  cacheDtypeBytes := 2
  reserveBytes := 1000
  localLayersMin := 1
  exclude := []

/-- A phone with room for ten layers and the cache of one token. -/
def benchPeers : List (PyVal WholeFloat) :=
  [.dict (obj [("node_id", .str (lit "phone")), ("mem_available_bytes", .int 10006120)])]

/-- The plan of the bench. -/
abbrev benchPlan (context : Nat) : Except Exn (FleetPlan WholeFloat × Dict Str Pin) :=
  (benchHost context).plan [] benchPeers [] 24000000 0

theorem benchPeers_measured {context : Nat} {d : Str} {room : Int}
    (h : (benchHost context).Measured benchPeers d room) : room = 10005120 := by
  obtain ⟨peer, hpeer, -, hroom⟩ := h
  cases List.mem_singleton.1 hpeer
  have hmeasured : (usableHeadroom (fetch (lit "mem_available_bytes")
      (obj [("node_id", .str (lit "phone")), ("mem_available_bytes", .int 10006120)]))
      (.none : PyVal WholeFloat) 1000).toOption = some 10005120 := by decide +kernel
  rw [show (1000 : Int) = (benchHost context).reserveBytes from rfl, hroom] at hmeasured
  exact Option.some.inj hmeasured

/-- With a context of one token the phone has the room. -/
theorem phone_holds_one_token :
    ∃ plan pins, benchPlan 1 = .ok (plan, pins) ∧ plan.assignments = [(lit "phone", 10)] ∧
      (benchHost 1).Fits benchPeers 24000000 plan := by
  have hassigned : ((benchPlan 1).toOption.map fun r => r.1.assignments) = some [(lit "phone", 10)] := by
    decide +kernel
  cases hplan : benchPlan 1 with
  | error e => rw [hplan] at hassigned; cases hassigned
  | ok r =>
      rw [hplan] at hassigned
      refine ⟨r.1, r.2, rfl, Option.some.inj hassigned, (plan_fits_iff hplan).2 ?_⟩
      intro perToken hcache before o left after hsplit hlast hpin
      have hperToken : ((benchHost 1).cacheBytesPerLayer).toOption = some 512 := by decide +kernel
      rw [hcache] at hperToken
      cases Option.some.inj hperToken
      have hturns : (benchHost 1).peerTurns benchPeers [] 24000000 512 =
          [(⟨lit "phone", 10, 10005120⟩, 23)] := by decide +kernel
      rw [hturns] at hsplit
      obtain ⟨rfl, hsplit⟩ | ⟨_, -, hsplit⟩ := List.cons_eq_append_iff.1 hsplit
      · cases hsplit
        exact ⟨10005120, ⟨_, List.mem_singleton_self _, by decide +kernel, rfl⟩, .inl (by decide +kernel)⟩
      · simp at hsplit

/-- With a context of 2048 tokens the phone is given ten layers, and has the memory for
four. -/
theorem phone_overcommitted :
    ∃ plan pins, benchPlan 2048 = .ok (plan, pins) ∧ plan.assignments = [(lit "phone", 10)] ∧
      ¬ (benchHost 2048).Fits benchPeers 24000000 plan := by
  have hassigned : ((benchPlan 2048).toOption.map fun r => r.1.assignments) =
      some [(lit "phone", 10)] := by decide +kernel
  cases hplan : benchPlan 2048 with
  | error e => rw [hplan] at hassigned; cases hassigned
  | ok r =>
      rw [hplan] at hassigned
      have hassigned : r.1.assignments = [(lit "phone", 10)] := Option.some.inj hassigned
      refine ⟨r.1, r.2, rfl, hassigned, fun hfits => ?_⟩
      obtain ⟨room, hroom, bytes, hbytes, hle⟩ :=
        hfits (lit "phone", 10) (hassigned ▸ List.mem_singleton_self _)
      have hneeded : ((benchHost 2048).footprint 24000000 10).toOption = some 20485760 := by
        decide +kernel
      rw [hbytes] at hneeded
      cases Option.some.inj hneeded
      rw [benchPeers_measured hroom] at hle
      omega

end HostModel

end ShugoCore
