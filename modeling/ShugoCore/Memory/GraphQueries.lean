import Mathlib.Data.List.Sort
import ShugoCore.Memory.EntityGraph

/-!
# Queries of the entity graph

`related_entities` and `query_subgraph` of `memory_system.py`, over a fact table that decays and is
pruned.

`prune` deletes rows of `facts` and nothing else, and `link_entities` does not look for the fact.
The queries join the links with the entities and not with the facts, as `facts_about` does. So the
graph refers to stored facts only, exactly as long as no name is linked to a fact that is not
stored, and no fact is pruned that has a link (`graph_grounded_iff`).

SQL leaves two things open: the order of rows that the `ORDER BY` does not tell apart, and which row
of a group a column is read from that is not grouped by. A `QueryPlan` is a choice of both.
-/

namespace ShugoCore

open Py Machine

/-! ## Queries -/

/-- A group of the joined rows: an entity, and the facts that it shares with another. -/
structure Peer where
  entity : Entity
  facts : List Int
deriving DecidableEq

/-- What SQL leaves open. -/
structure QueryPlan where
  shuffle : List Peer → List Peer
  pick : List Int → Int
  shuffle_perm : ∀ peers, (shuffle peers).Perm peers
  pick_mem : ∀ facts, facts ≠ [] → pick facts ∈ facts

/-- A row of `related_entities`. -/
structure RelatedEntity where
  name : Str
  mentionCount : Nat
  coOccurrences : Nat

/-- A node of a subgraph. -/
structure SubgraphNode where
  id : Nat
  name : Str
  mentionCount : Nat
  hops : Nat

/-- An edge of a subgraph. -/
structure SubgraphEdge where
  source : Str
  target : Str
  viaFactId : Int
deriving DecidableEq

/-- The variables of `query_subgraph`. -/
structure Subgraph where
  nodes : List SubgraphNode
  edges : List SubgraphEdge
  seenNodes : List Nat
  nextFrontier : List Str

/-- An edge that was not seen. -/
def Subgraph.addEdge (g : Subgraph) (edge : SubgraphEdge) : Subgraph :=
  if edge ∈ g.edges then g else { g with edges := g.edges ++ [edge] }

namespace EntityTables

/-- The facts that the entity shares with one of the name, once for each joined row. -/
def sharedFacts (t : EntityTables) (name : Str) (e : Entity) : List Int :=
  (t.entities.filter fun e₁ => e₁.name = name).flatMap fun e₁ =>
    (t.links.filter fun l => l.entityId = e₁.id).flatMap fun l₁ =>
      (t.links.filter fun l => l.factId = l₁.factId ∧ l.entityId = e.id).map FactLink.factId

/-- The groups of both queries. -/
def peers (t : EntityTables) (name : Str) : List Peer :=
  ((t.entities.filter fun e => e.name ≠ name).map fun e => ⟨e, t.sharedFacts name e⟩).filter
    fun p => !p.facts.isEmpty

/-- The groups that `related_entities` returns. -/
def relatedPeers (plan : QueryPlan) (lower : Str → Str) (t : EntityTables) (entityName : Str)
    (limit : Int) :
    List Peer :=
  ((plan.shuffle (t.peers (lower (sanitizeText entityName 64)))).insertionSort
    fun p q => q.facts.length ≤ p.facts.length).take (max 1 limit).toNat

/-- `related_entities`. -/
def relatedEntities (plan : QueryPlan) (lower : Str → Str) (t : EntityTables) (entityName : Str)
    (limit : Int) :
    List RelatedEntity :=
  (t.relatedPeers plan lower entityName limit).map fun p =>
    ⟨p.entity.name, p.entity.mentionCount, p.facts.length⟩

/-- The peers that `query_subgraph` goes through at a node. -/
def subgraphPeers (plan : QueryPlan) (t : EntityTables) (current : Str) (limit : Int) : List Peer :=
  ((plan.shuffle (t.peers current)).insertionSort
    fun p q => q.entity.mentionCount ≤ p.entity.mentionCount).take (max 1 limit).toNat

/-- The loop over the peers of a node. -/
def visitPeers (plan : QueryPlan) (limit : Int) (maxDepth hops : Nat) (current : Str) :
    List Peer → Subgraph → Subgraph
  | [], g => g
  | p :: peers, g =>
      let g := g.addEdge ⟨current, p.entity.name, plan.pick p.facts⟩
      if limit ≤ g.nodes.length then g
      else if p.entity.id ∈ g.seenNodes then visitPeers plan limit maxDepth hops current peers g
      else
        visitPeers plan limit maxDepth hops current peers
          { g with
            nodes := g.nodes ++ [⟨p.entity.id, p.entity.name, p.entity.mentionCount, hops + 1⟩]
            seenNodes := p.entity.id :: g.seenNodes
            nextFrontier :=
              if hops + 1 < maxDepth then g.nextFrontier ++ [p.entity.name] else g.nextFrontier }

/-- The loop over the frontier. -/
def visitFrontier (plan : QueryPlan) (t : EntityTables) (limit : Int) (maxDepth hops : Nat) :
    List Str → Subgraph → Subgraph
  | [], g => g
  | current :: frontier, g =>
      if limit ≤ g.nodes.length then g
      else
        match t.find current with
        | none => visitFrontier plan t limit maxDepth hops frontier g
        | some e =>
            let g :=
              if e.id ∈ g.seenNodes then g
              else
                { g with
                  nodes := g.nodes ++ [⟨e.id, current, e.mentionCount, hops⟩]
                  seenNodes := e.id :: g.seenNodes }
            visitFrontier plan t limit maxDepth hops frontier
              (visitPeers plan limit maxDepth hops current
                (t.subgraphPeers plan current (limit - g.nodes.length)) g)

/-- The loop over the hops, with those that are left. -/
def visitHops (plan : QueryPlan) (t : EntityTables) (limit : Int) (maxDepth : Nat) :
    Nat → List Str → Subgraph → Subgraph
  | 0, _, g => g
  | left + 1, frontier, g =>
      if frontier = [] ∨ limit ≤ g.nodes.length then g
      else
        let g := visitFrontier plan t limit maxDepth (maxDepth - left) frontier
          { g with nextFrontier := [] }
        visitHops plan t limit maxDepth left g.nextFrontier g

/-- `query_subgraph`. -/
def querySubgraph (plan : QueryPlan) (lower : Str → Str) (t : EntityTables) (entityName : Str)
    (depth limit : Int) : Subgraph :=
  let maxDepth := (max 1 depth).toNat
  visitHops plan t limit maxDepth (maxDepth + 1) [lower (sanitizeText entityName 64)]
    ⟨[], [], [], []⟩

/-! ## Queries see linked facts -/

variable {plan : QueryPlan} {lower : Str → Str} {t : EntityTables}

/-- The fact has a link. -/
def HasLink (t : EntityTables) (factId : Int) : Prop := ∃ l ∈ t.links, l.factId = factId

theorem hasLink_of_peers {name : Str} {p : Peer} (h : p ∈ t.peers name) :
    p.facts ≠ [] ∧ ∀ factId ∈ p.facts, t.HasLink factId := by
  obtain ⟨hgroup, hsome⟩ := List.mem_filter.1 h
  refine ⟨fun hnil => by simp [hnil] at hsome, ?_⟩
  obtain ⟨e, -, rfl⟩ := List.mem_map.1 hgroup
  intro factId hfact
  obtain ⟨e₁, -, hfact⟩ := List.mem_flatMap.1 hfact
  obtain ⟨l₁, -, hfact⟩ := List.mem_flatMap.1 hfact
  obtain ⟨l, hl, rfl⟩ := List.mem_map.1 hfact
  exact ⟨l, (List.mem_filter.1 hl).1, rfl⟩

/-- Sorting and cutting off adds no group. -/
theorem mem_peers_of_taken {name : Str} {p : Peer} {n : Nat} {r : Peer → Peer → Prop}
    [DecidableRel r] (h : p ∈ ((plan.shuffle (t.peers name)).insertionSort r).take n) :
    p ∈ t.peers name :=
  (plan.shuffle_perm _).mem_iff.1 ((List.mem_insertionSort r).1 (List.mem_of_mem_take h))

theorem hasLink_of_related {name : Str} {limit : Int} {p : Peer}
    (h : p ∈ t.relatedPeers plan lower name limit) : ∀ factId ∈ p.facts, t.HasLink factId :=
  (hasLink_of_peers (mem_peers_of_taken h)).2

/-- All edges so far are by way of linked facts. -/
def ViaLinks (t : EntityTables) (g : Subgraph) : Prop := ∀ e ∈ g.edges, t.HasLink e.viaFactId

theorem viaLinks_visitPeers {limit : Int} {maxDepth hops : Nat} {current : Str} {peers : List Peer}
    {g : Subgraph} (h : ViaLinks t g) (hpeers : ∀ p ∈ peers, p ∈ t.peers current) :
    ViaLinks t (visitPeers plan limit maxDepth hops current peers g) := by
  induction peers generalizing g with
  | nil => exact h
  | cons p peers ih =>
      obtain ⟨hp, hrest⟩ := List.forall_mem_cons.1 hpeers
      obtain ⟨hsome, hlink⟩ := hasLink_of_peers hp
      have hedge : ViaLinks t (g.addEdge ⟨current, p.entity.name, plan.pick p.facts⟩) := by
        rw [Subgraph.addEdge]
        split
        · exact h
        · refine List.forall_mem_append.2 ⟨h, fun e he => ?_⟩
          rw [List.mem_singleton.1 he]
          exact hlink _ (plan.pick_mem _ hsome)
      rw [visitPeers]
      split
      · exact hedge
      · split
        · exact ih hedge hrest
        · exact ih hedge hrest

theorem viaLinks_visitFrontier {limit : Int} {maxDepth hops : Nat} {frontier : List Str}
    {g : Subgraph} (h : ViaLinks t g) :
    ViaLinks t (visitFrontier plan t limit maxDepth hops frontier g) := by
  induction frontier generalizing g with
  | nil => exact h
  | cons current frontier ih =>
      rw [visitFrontier]
      split
      · exact h
      · cases t.find current with
        | none => exact ih h
        | some e =>
            refine ih (viaLinks_visitPeers ?_ fun p hp => mem_peers_of_taken hp)
            split
            · exact h
            · exact h

theorem viaLinks_visitHops {limit : Int} {maxDepth left : Nat} {frontier : List Str} {g : Subgraph}
    (h : ViaLinks t g) : ViaLinks t (visitHops plan t limit maxDepth left frontier g) := by
  induction left generalizing frontier g with
  | zero => exact h
  | succ left ih =>
      rw [visitHops]
      split
      · exact h
      · exact ih (viaLinks_visitFrontier h)

theorem hasLink_of_subgraph {name : Str} {depth limit : Int} {e : SubgraphEdge}
    (h : e ∈ (t.querySubgraph plan lower name depth limit).edges) : t.HasLink e.viaFactId :=
  viaLinks_visitHops (fun e he => by cases he) e h

/-! ## Links come from calls -/

theorem hasLink_link {t : EntityTables} {factId factId' : Int} {entityId : Nat} :
    (t.link factId' entityId).HasLink factId ↔ factId = factId' ∨ t.HasLink factId := by
  simp only [HasLink, link, List.mem_insert_iff]
  constructor
  · rintro ⟨l, rfl | hl, rfl⟩
    · exact .inl rfl
    · exact .inr ⟨l, hl, rfl⟩
  · rintro (rfl | ⟨l, hl, rfl⟩)
    · exact ⟨_, .inl rfl, rfl⟩
    · exact ⟨l, .inr hl, rfl⟩

theorem hasLink_linkName {t : EntityTables} {factId factId' : Int} {now : Seconds} {name : Str} :
    (t.linkName factId' now name).HasLink factId ↔ factId = factId' ∨ t.HasLink factId := by
  cases h : t.find name with
  | some e =>
      rw [linkName_of_find h]
      exact hasLink_link
  | none =>
      rw [linkName_of_new h]
      exact hasLink_link

theorem hasLink_linkExtracted {t : EntityTables} {factId factId' : Int} {now : Seconds}
    {names : List Str} :
    (t.linkExtracted factId' now names).HasLink factId ↔ (names ≠ [] ∧ factId = factId') ∨
      t.HasLink factId := by
  rw [linkExtracted]
  induction names generalizing t with
  | nil => simp
  | cons name names ih =>
      rw [List.foldl_cons, ih, hasLink_linkName]
      constructor
      · rintro (⟨-, h⟩ | h | h)
        · exact .inl ⟨List.cons_ne_nil _ _, h⟩
        · exact .inl ⟨List.cons_ne_nil _ _, h⟩
        · exact .inr h
      · rintro (⟨-, h⟩ | h)
        · exact .inr (.inl h)
        · exact .inr (.inr h)

theorem hasLink_linkRaws {factId factId' : Int} {now : Seconds} {raws : List Str}
    {s : EntityTables × Nat} :
    (raws.foldl (linkRaw lower factId' now) s).1.HasLink factId ↔
      ((∃ raw ∈ raws, 2 ≤ (entityName lower raw).length) ∧ factId = factId') ∨
        s.1.HasLink factId := by
  induction raws generalizing s with
  | nil => simp
  | cons raw raws ih =>
      have hstep : (linkRaw lower factId' now s raw).1.HasLink factId ↔
          (2 ≤ (entityName lower raw).length ∧ factId = factId') ∨ s.1.HasLink factId := by
        simp only [linkRaw]
        split
        · rename_i hshort
          simp [not_le.2 hshort]
        · rename_i hlong
          simp [hasLink_linkName, not_lt.1 hlong]
      rw [List.foldl_cons, ih, hstep]
      simp only [List.mem_cons, exists_eq_or_imp]
      rw [or_and_right, or_assoc, or_left_comm]

end EntityTables

/-! ## Facts and their graph -/

/-- `SemanticMemory` with its three tables. -/
structure GraphStore (μ : Type) where
  facts : FactTable μ
  graph : EntityTables

/-- What the store does with texts and numbers. -/
structure GraphSettings where
  /-- `str.lower`. -/
  lower : Str → Str
  /-- `extract_entities`. -/
  extractEntities : Str → List Str
  /-- `salience * 0.5 ** x`. -/
  faded : ℚ → ℚ → ℚ

/-- A call of the store. -/
inductive GraphCall (μ : Type) where
  | storeFact (now : Seconds) (content kind : Str) (salience : ℚ) (metadata : μ)
  | linkEntities (now : Seconds) (factId : Int) (entities : List Str)
  | decay (now : Seconds) (halfLifeHours : ℚ)
  | prune (minSalience : ℚ)

namespace GraphStore

variable {μ : Type}

def empty : GraphStore μ := ⟨⟨[], 1⟩, .empty⟩

/-- One call. -/
def step (cfg : GraphSettings) (s : GraphStore μ) : GraphCall μ → GraphStore μ
  | .storeFact now content kind salience metadata =>
      { facts := s.facts.storeFact now content kind salience metadata
        graph :=
          s.graph.linkExtracted s.facts.nextId now
            (cfg.extractEntities (sanitizeText content 2000)) }
  | .linkEntities now factId entities =>
      { s with graph := (s.graph.linkEntities cfg.lower now factId entities).1 }
  | .decay now halfLifeHours => { s with facts := s.facts.decay ⟨halfLifeHours, 0, cfg.faded⟩ now }
  | .prune minSalience => { s with facts := (s.facts.prune ⟨1, minSalience, cfg.faded⟩).1 }

/-- `SELECT 1 FROM facts WHERE id = ?`. -/
def Stored (s : GraphStore μ) (factId : Int) : Prop := ∃ row ∈ s.facts.rows, (row.id : Int) = factId

/-- The graph refers to stored facts only. -/
structure Grounded (cfg : GraphSettings) (s : GraphStore μ) : Prop where
  links : ∀ l ∈ s.graph.links, s.Stored l.factId
  related : ∀ plan name limit, ∀ p ∈ s.graph.relatedPeers plan cfg.lower name limit,
    ∀ factId ∈ p.facts, s.Stored factId
  subgraph :
    ∀ plan name depth limit, ∀ e ∈ (s.graph.querySubgraph plan cfg.lower name depth limit).edges,
    s.Stored e.viaFactId

/-- A name is linked to a stored fact, and no fact is pruned that has a link. -/
def Careful (cfg : GraphSettings) (s : GraphStore μ) : GraphCall μ → Prop
  | .linkEntities _ factId entities =>
      (∃ raw ∈ entities, 2 ≤ (EntityTables.entityName cfg.lower raw).length) → s.Stored factId
  | .prune minSalience =>
      ∀ row ∈ s.facts.rows, row.salience < minSalience → ∀ l ∈ s.graph.links, l.factId ≠ row.id
  | _ => True

/-! ## From calls to runs -/

variable {cfg : GraphSettings} {s : GraphStore μ}

/-- What the queries show follows from the links. -/
theorem grounded_iff : Grounded cfg s ↔ ∀ factId, s.graph.HasLink factId → s.Stored factId := by
  constructor
  · rintro h factId ⟨l, hl, rfl⟩
    exact h.links l hl
  · intro h
    refine ⟨fun l hl => h _ ⟨l, hl, rfl⟩, ?_, ?_⟩
    · exact fun plan name limit p hp factId hfact =>
        h factId (EntityTables.hasLink_of_related hp factId hfact)
    · exact fun plan name depth limit e he => h _ (EntityTables.hasLink_of_subgraph he)

/-- The ids of the facts are a key. -/
structure Keyed (s : GraphStore μ) : Prop where
  ids : (s.facts.rows.map fun row => row.id).Nodup
  below : ∀ row ∈ s.facts.rows, row.id < s.facts.nextId

@[simp] theorem decayRow_id (f : Forgetting) (now : Seconds) (row : KeptFact μ) :
    (FactTable.decayRow f now row).id = row.id := by
  simp only [FactTable.decayRow]
  split
  · rfl
  · split
    · rfl
    · split <;> rfl

theorem Keyed.step (h : Keyed s) (call : GraphCall μ) : Keyed (step cfg s call) := by
  cases call with
  | storeFact now content kind salience metadata =>
      refine ⟨?_, ?_⟩
      · simp only [GraphStore.step, FactTable.storeFact, List.map_append, List.map_singleton]
        rw [List.nodup_append]
        refine ⟨h.ids, List.nodup_singleton _, fun a ha b hb => ?_⟩
        obtain ⟨row, hrow, rfl⟩ := List.mem_map.1 ha
        rw [List.mem_singleton.1 hb]
        exact Nat.ne_of_lt (h.below row hrow)
      · intro row hrow
        rcases List.mem_append.1 hrow with hrow | hrow
        · exact Nat.lt_succ_of_lt (h.below row hrow)
        · rw [List.mem_singleton.1 hrow]
          exact Nat.lt_succ_self _
  | linkEntities now factId entities => exact ⟨h.ids, h.below⟩
  | decay now halfLifeHours =>
      refine ⟨?_, ?_⟩
      · simp only [GraphStore.step, FactTable.decay, List.map_map, Function.comp_def, decayRow_id]
        exact h.ids
      · intro faded hfaded
        obtain ⟨row, hrow, rfl⟩ := List.mem_map.1 hfaded
        rw [decayRow_id]
        exact h.below row hrow
  | prune minSalience =>
      refine ⟨?_, ?_⟩
      · exact h.ids.sublist (List.filter_sublist.map _)
      · exact fun row hrow => h.below row (List.mem_filter.1 hrow).1

/-- A call keeps the graph grounded if and only if it is careful. -/
theorem grounded_step_iff (hkeyed : Keyed s) (h : Grounded cfg s) (call : GraphCall μ) :
    Grounded cfg (step cfg s call) ↔ Careful cfg s call := by
  rw [grounded_iff] at h ⊢
  cases call with
  | storeFact now content kind salience metadata =>
      refine iff_of_true (fun factId hlink => ?_) trivial
      rcases EntityTables.hasLink_linkExtracted.1 hlink with ⟨-, rfl⟩ | hlink
      · exact ⟨_, List.mem_append_right _ List.mem_cons_self, rfl⟩
      · obtain ⟨row, hrow, hid⟩ := h factId hlink
        exact ⟨row, List.mem_append_left _ hrow, hid⟩
  | linkEntities now factId entities =>
      constructor
      · exact fun hall hraw => hall factId (EntityTables.hasLink_linkRaws.2 (.inl ⟨hraw, rfl⟩))
      · intro hcareful factId' hlink
        rcases EntityTables.hasLink_linkRaws.1 hlink with ⟨hraw, rfl⟩ | hlink
        · exact hcareful hraw
        · exact h factId' hlink
  | decay now halfLifeHours =>
      refine iff_of_true (fun factId hlink => ?_) trivial
      obtain ⟨row, hrow, hid⟩ := h factId hlink
      exact ⟨_, List.mem_map_of_mem hrow, by rw [decayRow_id, hid]⟩
  | prune minSalience =>
      constructor
      · rintro hall row hrow hlow l hl hid
        obtain ⟨row', hrow', hid'⟩ := hall l.factId ⟨l, hl, rfl⟩
        obtain ⟨hmem, hkept⟩ := List.mem_filter.1 hrow'
        -- Ids are a key, so the row that is left would be the one that was deleted.
        obtain rfl : row' = row := List.inj_on_of_nodup_map hkeyed.ids hmem hrow
          (Int.natCast_inj.1 (hid'.trans hid))
        exact absurd hlow (by simpa using hkept)
      · rintro hcareful factId ⟨l, hl, rfl⟩
        obtain ⟨row, hrow, hid⟩ := h l.factId ⟨l, hl, rfl⟩
        refine ⟨row, List.mem_filter.2 ⟨hrow, decide_eq_true fun hlow => ?_⟩, hid⟩
        exact hcareful row hrow hlow l hl hid.symm

/-- The graph refers to stored facts only along a run, if and only if in every step of it names are
linked to stored facts and no fact is pruned that has a link. -/
theorem graph_grounded_iff (cfg : GraphSettings) (calls : List (GraphCall μ)) :
    Always (step cfg) (Grounded cfg) empty calls ↔ Meets (step cfg) (Careful cfg) empty calls := by
  have hinv : ∀ (s : GraphStore μ) (call : GraphCall μ), Keyed s → Keyed (step cfg s call) :=
    fun s call h => h.step call
  have hstep : ∀ (s : GraphStore μ) (call : GraphCall μ), Keyed s → Grounded cfg s →
      (Grounded cfg (step cfg s call) ↔ Careful cfg s call) :=
    fun s call hkeyed h => grounded_step_iff hkeyed h call
  refine always_iff_meets hinv hstep ⟨List.nodup_nil, fun row hrow => by cases hrow⟩ ?_
  refine grounded_iff.2 fun factId hlink => ?_
  obtain ⟨l, hl, -⟩ := hlink
  cases hl

/-! ## A forgotten incident -/

/-- The names in the text of the incident.  `0.5 ** x` is right for whole `x`. -/
def incidentSettings : GraphSettings where
  lower := id
  extractEntities _ := [lit "tape_api", lit "ollama_host"]
  faded salience x := salience / 2 ^ x.num.toNat

/-- A query that leaves the rows in their order and takes the first of each group. -/
def firstRows : QueryPlan where
  shuffle := id
  pick facts := facts.headD 0
  shuffle_perm _ := .refl _
  pick_mem facts h := by
    obtain ⟨factId, rest, rfl⟩ := List.exists_cons_of_ne_nil h
    exact List.mem_cons_self

/-- It is stored, and fades for five half-lives, and is pruned. -/
def forgottenIncident : List (GraphCall Unit) :=
  [.storeFact 0 (lit "tape_api waits for ollama_host") (lit "fact") 1 (), .decay (5 * 72 * 3600) 72,
    .prune (1 / 20)]

/-- No fact is left, but the subgraph still has two edges by way of it. -/
theorem forgotten_incident_linked :
    ¬ Always (step incidentSettings) (Grounded incidentSettings) empty forgottenIncident ∧
      (run (step incidentSettings) empty forgottenIncident).facts.rows.map (fun row => row.id) = [] ∧
      ((run (step incidentSettings) empty forgottenIncident).graph.querySubgraph firstRows id
        (lit "tape_api") 2 25).edges.map SubgraphEdge.viaFactId = [1, 1] := by
  have hrows : (run (step incidentSettings) empty forgottenIncident).facts.rows.map
      (fun row => row.id) = [] := by
    decide +kernel
  have hedges :
      ((run (step incidentSettings) empty forgottenIncident).graph.querySubgraph firstRows id
      (lit "tape_api") 2 25).edges.map SubgraphEdge.viaFactId = [1, 1] := by
    decide +kernel
  refine ⟨fun h => ?_, hrows, hedges⟩
  have hmem : (1 : Int) ∈
      ((run (step incidentSettings) empty forgottenIncident).graph.querySubgraph firstRows id
      (lit "tape_api") 2 25).edges.map SubgraphEdge.viaFactId := by
    rw [hedges]
    exact List.mem_cons_self
  obtain ⟨e, he, -⟩ := List.mem_map.1 hmem
  obtain ⟨row, hrow, -⟩ := h.last.subgraph firstRows (lit "tape_api") 2 25 e he
  rw [List.map_eq_nil_iff.1 hrows] at hrow
  cases hrow

end GraphStore

end ShugoCore
