import ShugoCore.ModelHost.Headroom
import ShugoCore.Lib.Greedy
import Mathlib.Data.Prod.Lex

/-!
# The split of the layers

What makes a split of the layers between this host and its devices a safe one (`IsSplit`), and
that `plan_layer_split` finds one with the most layers away from this host on the fewest
devices, whatever the order of the nodes (`layer_split_optimal`).

The planner strips the ids, takes a total below zero for zero, and keeps a node unless
it says that it is unpaired or too warm.
-/

namespace ShugoCore

open Py

variable {φ : Type} [Builtins φ]

/-! ## Nodes -/

/-- The numbers of a node that the planner gets to can be read. -/
def PlanNode.readable (reserveBytes : Int) (node : PlanNode φ) : Bool :=
  strip node.deviceId = [] || isFalse node.paired ||
    match thermalOf node.thermalStatus with
    | .error _ => false
    | .ok thermal =>
        (thermal.filter fun t => thermalRefuseStatus ≤ t).isSome ||
          (usableHeadroom node.memAvailableBytes node.advertisedBytes reserveBytes).isOk

/-- No two nodes have one id, blanks aside. -/
def DistinctIds (nodes : List (PlanNode φ)) : Prop :=
  ((nodes.map fun node => strip node.deviceId).filter fun d => d ≠ []).Nodup

instance (nodes : List (PlanNode φ)) : Decidable (DistinctIds nodes) :=
  inferInstanceAs (Decidable (List.Nodup _))

/-- A device may be given some layers: it is not marked unpaired, states no thermal status that
is refused, and has the headroom. -/
structure PlanNode.Holds (a : PlanArgs) (node : PlanNode φ) (layers : Int) : Prop where
  named : strip node.deviceId ≠ []
  paired : isFalse node.paired = false
  cool : ∃ thermal, thermalOf node.thermalStatus = .ok thermal ∧ ∀ t ∈ thermal, t < thermalRefuseStatus
  room : ∃ room, usableHeadroom node.memAvailableBytes node.advertisedBytes a.reserveBytes = .ok room ∧
    layers * a.costPerLayer ≤ room

/-- What a node offers, if it offers something. -/
theorem PlanNode.offer_eq_some_iff {reserveBytes cost : Int} {node : PlanNode φ} {o : Offer} :
    node.offer reserveBytes cost = some o ↔
      strip node.deviceId ≠ [] ∧ isFalse node.paired = false ∧
        (∃ thermal, thermalOf node.thermalStatus = .ok thermal ∧ ∀ t ∈ thermal, t < thermalRefuseStatus) ∧
        ∃ room, usableHeadroom node.memAvailableBytes node.advertisedBytes reserveBytes = .ok room ∧
          0 < room / cost ∧ o = ⟨strip node.deviceId, room / cost, room⟩ := by
  simp only [PlanNode.offer]
  by_cases hid : strip node.deviceId = []
  · simp [hid]
  cases hpaired : isFalse node.paired with
  | true => simp [hid]
  | false =>
      simp only [hid, if_false, Bool.false_eq_true, not_false_eq_true, ne_eq, true_and]
      cases hthermal : thermalOf node.thermalStatus with
      | error e => simp
      | ok thermal =>
          have hcool : (∃ thermal', (.ok thermal : Except Exn (Option Int)) = .ok thermal' ∧
              ∀ t ∈ thermal', t < thermalRefuseStatus) ↔
                (thermal.filter fun t => decide (thermalRefuseStatus ≤ t)) = none := by
            simp [Option.filter_eq_none_iff]
          rw [hcool]
          cases hrefused : thermal.filter fun t => decide (thermalRefuseStatus ≤ t) with
          | some t => simp [hrefused]
          | none =>
              cases usableHeadroom node.memAvailableBytes node.advertisedBytes reserveBytes with
              | error e => simp [hrefused]
              | ok room =>
                  by_cases hlayers : room / cost ≤ 0
                  · simp [hrefused, hlayers, Int.not_lt.2 hlayers]
                  · simp [hrefused, hlayers, Int.not_le.1 hlayers, eq_comm]

/-- A node is surveyed if and only if its numbers can be read. -/
theorem surveyNode_isOk {reserveBytes cost : Int} (s : Survey) (node : PlanNode φ) :
    (surveyNode reserveBytes cost s node).isOk = node.readable reserveBytes := by
  simp only [surveyNode, PlanNode.readable]
  by_cases hid : strip node.deviceId = []
  · simp [hid, Except.isOk, Except.toBool]
  cases hpaired : isFalse node.paired with
  | true => simp [hid, Except.isOk, Except.toBool]
  | false =>
      cases hthermal : thermalOf node.thermalStatus with
      | error e => simp [hid, bind, Except.bind, Except.isOk, Except.toBool]
      | ok thermal =>
          cases hrefused : thermal.filter fun t => decide (thermalRefuseStatus ≤ t) with
          | some t => simp [hid, hrefused, bind, Except.bind, pure, Except.pure, Except.isOk, Except.toBool]
          | none =>
              cases usableHeadroom node.memAvailableBytes node.advertisedBytes reserveBytes <;>
                simp [hid, hrefused, bind, Except.bind, pure, Except.pure, Except.isOk, Except.toBool]

/-- All nodes are surveyed if and only if all their numbers can be read. -/
theorem surveyAll_isOk (a : PlanArgs) (nodes : List (PlanNode φ)) :
    (surveyAll a nodes).isOk = nodes.all fun node => node.readable a.reserveBytes := by
  suffices hfold : ∀ s : Survey,
      (nodes.foldlM (surveyNode a.reserveBytes a.costPerLayer) s).isOk =
        nodes.all fun node => node.readable a.reserveBytes from
    hfold {}
  induction nodes with
  | nil => exact fun s => rfl
  | cons node nodes ih =>
      intro s
      have hnode : (surveyNode a.reserveBytes a.costPerLayer s node).isOk = node.readable a.reserveBytes :=
        surveyNode_isOk s node
      rw [List.foldlM_cons, List.all_cons, ← hnode]
      cases surveyNode a.reserveBytes a.costPerLayer s node with
      | error e => rfl
      | ok s' => exact ih s'

/-! ## Offers -/

/-- The offers of some nodes, in the order of their turns. -/
def PlanArgs.offers (a : PlanArgs) (nodes : List (PlanNode φ)) : List Offer :=
  (nodes.filterMap (PlanNode.offer a.reserveBytes a.costPerLayer)).insertionSort fun o o' => offerLe o o'

namespace Offer

/-- The rank of an offer: the larger headroom first, and then the id. -/
def rank (o : Offer) : Int ×ₗ Str := toLex (-o.room, o.deviceId)

theorem offerLe_iff {o o' : Offer} : offerLe o o' = true ↔ o.rank ≤ o'.rank := by
  simp [offerLe, rank, Prod.Lex.toLex_le_toLex]

/-- Offers of one rank are one, if they count by one cost. -/
theorem eq_of_rank {cost : Int} {o o' : Offer} (ho : o.layers = o.room / cost)
    (ho' : o'.layers = o'.room / cost) (h : o.rank = o'.rank) : o = o' := by
  simp only [rank, EmbeddingLike.apply_eq_iff_eq, Prod.mk.injEq, neg_inj] at h
  have hlayers : o.layers = o'.layers := by rw [ho, ho', h.1]
  cases o
  cases o'
  simp_all

end Offer

/-- The order of the turns is total, transitive and antisymmetric in the ranks. -/
theorem pairwise_offers (a : PlanArgs) (nodes : List (PlanNode φ)) :
    (a.offers nodes).Pairwise fun o o' => o.rank ≤ o'.rank := by
  have htotal : Std.Total fun o o' : Offer => offerLe o o' = true :=
    ⟨fun o o' => by simpa only [Offer.offerLe_iff] using le_total o.rank o'.rank⟩
  have htrans : IsTrans Offer fun o o' => offerLe o o' = true :=
    ⟨fun o o' o'' => by simpa only [Offer.offerLe_iff] using le_trans⟩
  have hsorted := List.pairwise_insertionSort (fun o o' : Offer => offerLe o o' = true)
    (nodes.filterMap (PlanNode.offer a.reserveBytes a.costPerLayer))
  exact hsorted.imp fun h => Offer.offerLe_iff.1 h

omit [Builtins φ] in
theorem PlanArgs.costPerLayer_pos (a : PlanArgs) : 0 < a.costPerLayer := by
  have hcache : 0 ≤ a.cachePerLayer := by
    simp only [PlanArgs.cachePerLayer]
    positivity
  simp only [PlanArgs.costPerLayer]
  omega

theorem mem_offers {a : PlanArgs} {nodes : List (PlanNode φ)} {o : Offer} :
    o ∈ a.offers nodes ↔ ∃ node ∈ nodes, node.offer a.reserveBytes a.costPerLayer = some o := by
  rw [PlanArgs.offers, List.mem_insertionSort, List.mem_filterMap]

/-- An offer counts the layers that fit into its room. -/
theorem layers_of_mem_offers {a : PlanArgs} {nodes : List (PlanNode φ)} {o : Offer}
    (h : o ∈ a.offers nodes) : 0 < o.layers ∧ o.layers = o.room / a.costPerLayer := by
  obtain ⟨node, -, hnode⟩ := mem_offers.1 h
  obtain ⟨-, -, -, room, -, hpos, rfl⟩ := PlanNode.offer_eq_some_iff.1 hnode
  exact ⟨hpos, rfl⟩

theorem offers_pos {a : PlanArgs} {nodes : List (PlanNode φ)} : ∀ o ∈ a.offers nodes, 0 < o.layers :=
  fun _ ho => (layers_of_mem_offers ho).1

/-- The turns come in the order of what can be held. -/
theorem pairwise_layers_offers (a : PlanArgs) (nodes : List (PlanNode φ)) :
    (a.offers nodes).Pairwise fun o o' => o'.layers ≤ o.layers := by
  refine (pairwise_offers a nodes).imp_of_mem ?_
  intro o o' ho ho' hrank
  have hroom : o'.room ≤ o.room := by
    have hfst := Prod.Lex.monotone_fst _ _ hrank
    simpa [Offer.rank] using hfst
  rw [(layers_of_mem_offers ho).2, (layers_of_mem_offers ho').2]
  exact Int.ediv_le_ediv a.costPerLayer_pos hroom

/-- The order of the nodes does not matter. -/
theorem offers_perm (a : PlanArgs) {nodes nodes' : List (PlanNode φ)} (h : nodes.Perm nodes') :
    a.offers nodes = a.offers nodes' := by
  refine List.Perm.eq_of_pairwise ?_ (pairwise_offers a nodes) (pairwise_offers a nodes') ?_
  · intro o o' ho ho' hle hge
    exact Offer.eq_of_rank (layers_of_mem_offers ho).2 (layers_of_mem_offers ho').2 (le_antisymm hle hge)
  · refine (List.perm_insertionSort _ _).trans (.trans ?_ (List.perm_insertionSort _ _).symm)
    exact h.filterMap _

theorem nodup_offers {a : PlanArgs} {nodes : List (PlanNode φ)} (h : DistinctIds nodes) :
    ((a.offers nodes).map Offer.deviceId).Nodup := by
  have hperm := (List.perm_insertionSort (fun o o' => offerLe o o' = true)
    (nodes.filterMap (PlanNode.offer a.reserveBytes a.costPerLayer))).map Offer.deviceId
  refine hperm.nodup_iff.2 (List.Nodup.sublist ?_ h)
  clear h hperm
  induction nodes with
  | nil => simp
  | cons node nodes ih =>
      cases hoffer : node.offer a.reserveBytes a.costPerLayer with
      | none =>
          rw [List.filterMap_cons_none hoffer, List.map_cons, List.filter_cons]
          split
          · exact ih.cons _
          · exact ih
      | some o =>
          obtain ⟨hid, -, -, room, -, -, rfl⟩ := PlanNode.offer_eq_some_iff.1 hoffer
          rw [List.filterMap_cons_some hoffer, List.map_cons, List.map_cons,
            List.filter_cons_of_pos (by simpa using hid)]
          exact ih.cons_cons _

/-- The planner hands out its budget in order. -/
theorem share_eq_give {offers : List Offer} (h : ∀ o ∈ offers, 0 < o.layers) (left : Int) :
    share left offers = (Greedy.give Offer.layers left offers).map fun t => (t.1.deviceId, t.2) := by
  induction offers generalizing left with
  | nil => rfl
  | cons o offers ih =>
      have ho := h o List.mem_cons_self
      rw [share]
      by_cases hleft : left ≤ 0
      · simp [hleft]
      · have htake : ¬ min o.layers left ≤ 0 := by omega
        have ih := ih fun o' ho' => h o' (List.mem_cons_of_mem o ho')
        simp only [hleft, if_false, htake, Greedy.give_cons (Int.not_le.1 hleft), List.map_cons, ih]
        by_cases hall : o.layers ≤ left
        · rw [min_eq_left hall]
        · have hmin : min o.layers left = left := min_eq_right (by omega)
          rw [hmin, Greedy.give_of_nonpos (by omega), Greedy.give_of_nonpos (by omega)]

/-! ## The plan -/

/-- What the planner gives the devices, if all numbers can be read. -/
def PlanArgs.assigned (a : PlanArgs) (nodes : List (PlanNode φ)) : List (Str × Int) :=
  (Greedy.give Offer.layers a.budgetLayers (a.offers nodes)).map fun t => (t.1.deviceId, t.2)

theorem planLayerSplit_ok {a : PlanArgs} {nodes : List (PlanNode φ)} {plan : LayerPlan}
    (h : planLayerSplit a nodes = .ok plan) :
    plan.assignments = Dict.ofPairs (a.assigned nodes) ∧
      plan.remoteLayers = (plan.assignments.map Prod.snd).sum ∧
      plan.localLayers = max 0 a.totalLayers - plan.remoteLayers := by
  simp only [planLayerSplit] at h
  cases hsurvey : surveyAll a nodes with
  | error e => rw [hsurvey] at h; cases h
  | ok s =>
      have hoffers : s.offers = a.offers nodes := by
        rw [Survey.offers, surveyAll_candidates hsurvey]
        rfl
      rw [hsurvey] at h
      cases h
      rw [hoffers, share_eq_give offers_pos]
      exact ⟨rfl, rfl, rfl⟩

theorem planLayerSplit_isOk (a : PlanArgs) (nodes : List (PlanNode φ)) :
    (planLayerSplit a nodes).isOk = nodes.all fun node => node.readable a.reserveBytes := by
  rw [← surveyAll_isOk, planLayerSplit]
  cases surveyAll a nodes with
  | error e => rfl
  | ok s => rfl

/-! ## Splits -/

/-- The layers that some devices are given together. -/
def layersOf (given : Dict Str Int) : Int := (given.map Prod.snd).sum

/-- A split that keeps to the limits: each device holds its layers, and this host keeps its
share of the total. -/
structure IsSplit (a : PlanArgs) (nodes : List (PlanNode φ)) (given : Dict Str Int) : Prop where
  ids : (given.map Prod.fst).Nodup
  held : ∀ i ∈ given, 0 < i.2 ∧ ∃ node ∈ nodes, strip node.deviceId = i.1 ∧ node.Holds a i.2
  whole : layersOf given ≤ max 0 a.totalLayers
  home : min a.localLayersMin (max 0 a.totalLayers) ≤ max 0 a.totalLayers - layersOf given

/-- A device holds the layers that it offers. -/
theorem PlanNode.holds_iff {a : PlanArgs} {node : PlanNode φ} {layers : Int} (h : 0 < layers) :
    node.Holds a layers ↔ ∃ o, node.offer a.reserveBytes a.costPerLayer = some o ∧ layers ≤ o.layers := by
  simp only [PlanNode.offer_eq_some_iff]
  constructor
  · rintro ⟨hnamed, hpaired, hcool, room, hroom, hle⟩
    have hlayers := (Int.le_ediv_iff_mul_le a.costPerLayer_pos).2 hle
    exact ⟨_, ⟨hnamed, hpaired, hcool, room, hroom, h.trans_le hlayers, rfl⟩, hlayers⟩
  · rintro ⟨o, ⟨hnamed, hpaired, hcool, room, hroom, hpos, rfl⟩, hle⟩
    exact ⟨hnamed, hpaired, hcool, room, hroom, (Int.le_ediv_iff_mul_le a.costPerLayer_pos).1 hle⟩

theorem nodup_assigned {a : PlanArgs} {nodes : List (PlanNode φ)} (h : DistinctIds nodes) :
    ((a.assigned nodes).map Prod.fst).Nodup := by
  have hinitial : (Greedy.give Offer.layers a.budgetLayers (a.offers nodes)).map Prod.fst <+: a.offers nodes :=
    Greedy.map_fst_give_prefix a.budgetLayers (a.offers nodes)
  have hids := (hinitial.sublist.map Offer.deviceId).nodup (nodup_offers h)
  simpa [PlanArgs.assigned, Function.comp_def] using hids

/-- The planner gives away its budget, or all that the devices hold. -/
theorem layersOf_assigned (a : PlanArgs) (nodes : List (PlanNode φ)) :
    layersOf (a.assigned nodes) =
      max 0 (min a.budgetLayers ((a.offers nodes).map Offer.layers).sum) := by
  rw [← Greedy.sum_give offers_pos, layersOf, PlanArgs.assigned, List.map_map]
  rfl

omit [Builtins φ] in
theorem PlanArgs.budgetLayers_eq (a : PlanArgs) :
    a.budgetLayers = max 0 a.totalLayers - max 0 (min a.localLayersMin (max 0 a.totalLayers)) := by
  simp only [PlanArgs.budgetLayers]
  omega

/-- What the planner assigns is a split. -/
theorem isSplit_assigned {a : PlanArgs} {nodes : List (PlanNode φ)} (h : DistinctIds nodes) :
    IsSplit a nodes (a.assigned nodes) := by
  have hsum := layersOf_assigned a nodes
  have hbudget := a.budgetLayers_eq
  refine ⟨nodup_assigned h, ?_, by omega, by omega⟩
  intro i hi
  obtain ⟨t, ht, rfl⟩ := List.mem_map.1 hi
  obtain ⟨hmem, hpos, hle⟩ := Greedy.mem_give offers_pos ht
  obtain ⟨node, hnode, hoffer⟩ := mem_offers.1 hmem
  have hid : strip node.deviceId = t.1.deviceId := by
    obtain ⟨-, -, -, room, -, -, ho⟩ := PlanNode.offer_eq_some_iff.1 hoffer
    rw [ho]
  exact ⟨hpos, node, hnode, hid, (PlanNode.holds_iff hpos).2 ⟨t.1, hoffer, hle⟩⟩

/-- The devices of a split are among those that are offered, and offer what they are given. -/
theorem IsSplit.chosen {a : PlanArgs} {nodes : List (PlanNode φ)} {given : Dict Str Int}
    (h : IsSplit a nodes given) :
    ∃ chosen : List Offer, chosen.Subperm (a.offers nodes) ∧ chosen.length = given.length ∧
      layersOf given ≤ (chosen.map Offer.layers).sum := by
  have hoffers : ∀ i ∈ given, ∃ o ∈ a.offers nodes, o.deviceId = i.1 ∧ i.2 ≤ o.layers := by
    intro i hi
    obtain ⟨hpos, node, hnode, hid, hholds⟩ := h.held i hi
    obtain ⟨o, hoffer, hle⟩ := (PlanNode.holds_iff hpos).1 hholds
    obtain ⟨-, -, -, room, -, -, ho⟩ := PlanNode.offer_eq_some_iff.1 hoffer
    exact ⟨o, mem_offers.2 ⟨node, hnode, hoffer⟩, by rw [ho, hid], hle⟩
  have hnonempty : Nonempty Offer := ⟨⟨[], 0, 0⟩⟩
  choose! pick hmem hid hle using hoffers
  have hids : (given.map pick).map Offer.deviceId = given.map Prod.fst := by
    rw [List.map_map]
    exact List.map_congr_left hid
  refine ⟨given.map pick, ?_, List.length_map _, ?_⟩
  · refine List.Nodup.subperm (List.Nodup.of_map Offer.deviceId (hids ▸ h.ids)) ?_
    intro o ho
    obtain ⟨i, hi, rfl⟩ := List.mem_map.1 ho
    exact hmem i hi
  · rw [List.map_map]
    exact List.sum_le_sum hle

/-- No split gives away more layers. -/
theorem IsSplit.layersOf_le {a : PlanArgs} {nodes : List (PlanNode φ)} {given : Dict Str Int}
    (h : IsSplit a nodes given) : layersOf given ≤ layersOf (a.assigned nodes) := by
  obtain ⟨chosen, hsub, -, hle⟩ := h.chosen
  have hall := Greedy.sum_le_of_subperm hsub offers_pos
  have hwhole := h.whole
  have hhome := h.home
  have hbudget := a.budgetLayers_eq
  rw [layersOf_assigned]
  omega

/-- No split gives as many layers away on fewer devices. -/
theorem IsSplit.length_le {a : PlanArgs} {nodes : List (PlanNode φ)} {given : Dict Str Int}
    (h : IsSplit a nodes given) (hmost : layersOf given = layersOf (a.assigned nodes)) :
    (a.assigned nodes).length ≤ given.length := by
  obtain ⟨chosen, hsub, hlength, hle⟩ := h.chosen
  have henough : ((Greedy.give Offer.layers a.budgetLayers (a.offers nodes)).map Prod.snd).sum ≤
      (chosen.map Offer.layers).sum := by
    rw [Greedy.sum_give offers_pos, ← layersOf_assigned, ← hmost]
    exact hle
  rw [PlanArgs.assigned, List.length_map, ← hlength]
  exact Greedy.length_give_le_of_chosen hsub (pairwise_layers_offers a nodes) offers_pos henough

/-- The planner's plan, if all numbers can be read and no two nodes have one id. -/
theorem planLayerSplit_eq_assigned {a : PlanArgs} {nodes : List (PlanNode φ)} (hids : DistinctIds nodes)
    (hread : ∀ node ∈ nodes, node.readable a.reserveBytes = true) :
    ∃ plan, planLayerSplit a nodes = .ok plan ∧ plan.assignments = a.assigned nodes ∧
      plan.localLayers = max 0 a.totalLayers - layersOf (a.assigned nodes) := by
  have hok : (planLayerSplit a nodes).isOk = true := by
    rw [planLayerSplit_isOk, List.all_eq_true]
    exact hread
  cases hplan : planLayerSplit a nodes with
  | error e => rw [hplan] at hok; cases hok
  | ok plan =>
      obtain ⟨hassigned, hremote, hlocal⟩ := planLayerSplit_ok hplan
      rw [Dict.ofPairs_eq_self (nodup_assigned hids)] at hassigned
      exact ⟨plan, rfl, hassigned, by rw [hlocal, hremote, hassigned]; rfl⟩

/-- For nodes with distinct ids whose numbers can be read, in any order, the planner returns a
split of the whole total that keeps to all limits, gives the most layers away that any such
split does, and does so on the fewest devices. -/
theorem layer_split_optimal {a : PlanArgs} {nodes : List (PlanNode φ)} (hids : DistinctIds nodes)
    (hread : ∀ node ∈ nodes, node.readable a.reserveBytes = true) :
    ∃ plan, planLayerSplit a nodes = .ok plan ∧ IsSplit a nodes plan.assignments ∧
      layersOf plan.assignments + plan.localLayers = max 0 a.totalLayers ∧
      min a.localLayersMin (max 0 a.totalLayers) ≤ plan.localLayers ∧
      (∀ given, IsSplit a nodes given →
        layersOf given ≤ layersOf plan.assignments ∧
          (layersOf given = layersOf plan.assignments → plan.assignments.length ≤ given.length)) ∧
      ∀ nodes', nodes.Perm nodes' → ∃ plan', planLayerSplit a nodes' = .ok plan' ∧
        plan'.assignments = plan.assignments ∧ plan'.localLayers = plan.localLayers := by
  obtain ⟨plan, hplan, hassigned, hlocal⟩ := planLayerSplit_eq_assigned hids hread
  have hsplit : IsSplit a nodes (a.assigned nodes) := isSplit_assigned hids
  refine ⟨plan, hplan, hassigned ▸ hsplit, by rw [hassigned, hlocal]; omega, ?_, ?_, ?_⟩
  · rw [hlocal]
    exact hsplit.home
  · intro given hgiven
    rw [hassigned]
    exact ⟨hgiven.layersOf_le, hgiven.length_le⟩
  · intro nodes' hperm
    have hids' : DistinctIds nodes' := ((hperm.map _).filter _).nodup_iff.1 hids
    obtain ⟨plan', hplan', hassigned', hlocal'⟩ := planLayerSplit_eq_assigned hids'
      fun node hnode => hread node (hperm.mem_iff.2 hnode)
    have hsame : a.assigned nodes' = a.assigned nodes := by
      rw [PlanArgs.assigned, PlanArgs.assigned, offers_perm a hperm]
    exact ⟨plan', hplan', by rw [hassigned', hassigned, hsame], by rw [hlocal', hlocal, hsame]⟩

/-- A node that measured some memory. -/
def measuredNode (deviceId : String) (bytes : Int) : PlanNode WholeFloat where
  deviceId := lit deviceId
  memAvailableBytes := .int bytes
  advertisedBytes := .none
  thermalStatus := .none
  paired := .bool true

/-- A model of some layers of a hundred bytes each, one of them kept at home. -/
def hundredByteLayers (total : Int) : PlanArgs := ⟨total, 100, 1, 0, 0, 1⟩

/-- A tablet and a phone share a model of six layers. -/
theorem tablet_and_phone :
    ∃ plan, planLayerSplit (hundredByteLayers 6) [measuredNode "phone" 250, measuredNode "tablet" 399] =
        .ok plan ∧ plan.assignments = [(lit "tablet", 3), (lit "phone", 2)] := by
  have hids : DistinctIds [measuredNode "phone" 250, measuredNode "tablet" 399] := by decide
  have hread : ∀ node ∈ [measuredNode "phone" 250, measuredNode "tablet" 399],
      node.readable (hundredByteLayers 6).reserveBytes = true := by decide
  obtain ⟨plan, hplan, -⟩ := layer_split_optimal hids hread
  have hassigned : ((planLayerSplit (hundredByteLayers 6)
      [measuredNode "phone" 250, measuredNode "tablet" 399]).toOption.map LayerPlan.assignments) =
        some [(lit "tablet", 3), (lit "phone", 2)] := by decide
  rw [hplan] at hassigned
  exact ⟨plan, hplan, Option.some.inj hassigned⟩

/-- A total below zero is zero, two ids that differ in blanks are one device, a node that does not
say whether it is paired is given layers, and a measurement that cannot be read leaves no plan. -/
theorem stray_nodes :
    (∃ plan, planLayerSplit (hundredByteLayers (-1)) ([] : List (PlanNode WholeFloat)) = .ok plan ∧
      layersOf plan.assignments + plan.localLayers ≠ -1) ∧
    (∃ plan plan', planLayerSplit (hundredByteLayers 9)
        [measuredNode " phone" 550, measuredNode "phone" 350] = .ok plan ∧
      planLayerSplit (hundredByteLayers 9) [measuredNode " phone" 550] = .ok plan' ∧
      layersOf plan.assignments < layersOf plan'.assignments) ∧
    (∃ plan, planLayerSplit (hundredByteLayers 6)
        [{ measuredNode "phone" 250 with paired := .none }] = .ok plan ∧
      plan.assignments = [(lit "phone", 2)]) ∧
    (planLayerSplit (hundredByteLayers 6)
      [{ measuredNode "phone" 250 with memAvailableBytes := .str (lit "much") }]).isOk = false :=
  ⟨⟨_, rfl, by decide⟩, ⟨_, _, rfl, rfl, by decide⟩, ⟨_, rfl, by decide⟩, by decide⟩

end ShugoCore
