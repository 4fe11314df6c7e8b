import Mathlib.Algebra.BigOperators.Group.List.Basic
import ShugoCore.Memory.Maintenance

/-!
# The entity graph

The tables `entities` and `fact_entities` beside the fact table of `memory_system.py`, and the calls
that write them: `_link_entities` of a stored fact, and `link_entities` of both backends.

A name that is linked is inserted, or its mentions are counted up, and then the pair is inserted
unless it is there. So a second call for the same fact and names leaves the names and the pairs
alone (`link_entities_twice`), but it counts every mention again (`link_entities_idempotent_iff`).

What is read is what was written on the same connection, so when it is committed does not matter
here.
-/

namespace ShugoCore

open Py

/-- A row of `entities`. -/
structure Entity where
  id : Nat
  name : Str
  mentionCount : Nat
  createdAt : IsoSeconds
deriving DecidableEq

/-- A row of `fact_entities`. -/
structure FactLink where
  factId : Int
  entityId : Nat
deriving DecidableEq

/-- The two tables with their keys. -/
structure EntityTables where
  entities : List Entity
  links : List FactLink
  nextId : Nat
  below : ∀ e ∈ entities, e.id < nextId
  ids : (entities.map Entity.id).Nodup
  names : (entities.map Entity.name).Nodup
  pairs : links.Nodup

namespace EntityTables

/-- `_initialize_schema`. -/
def empty : EntityTables where
  entities := []
  links := []
  nextId := 1
  below := by simp
  ids := by simp
  names := by simp
  pairs := by simp

/-! ## Statements -/

/-- `SELECT id FROM entities WHERE name = ?`. -/
def find (t : EntityTables) (name : Str) : Option Entity := t.entities.find? fun e => e.name = name

/-- One mention more of an entity. -/
def mentioned (id : Nat) (e : Entity) : Entity :=
  if e.id = id then { e with mentionCount := e.mentionCount + 1 } else e

@[simp] theorem mentioned_id (id : Nat) (e : Entity) : (mentioned id e).id = e.id := by
  rw [mentioned]
  split <;> rfl

@[simp] theorem mentioned_name (id : Nat) (e : Entity) : (mentioned id e).name = e.name := by
  rw [mentioned]
  split <;> rfl

/-- `UPDATE entities SET mention_count = mention_count + 1 WHERE id = ?`. -/
def mention (t : EntityTables) (id : Nat) : EntityTables where
  entities := t.entities.map (mentioned id)
  links := t.links
  nextId := t.nextId
  below := by
    intro e' he'
    obtain ⟨e, he, rfl⟩ := List.mem_map.1 he'
    rw [mentioned_id]
    exact t.below e he
  ids := by
    rw [List.map_map]
    exact (List.map_congr_left fun e _ => mentioned_id id e).symm ▸ t.ids
  names := by
    rw [List.map_map]
    exact (List.map_congr_left fun e _ => mentioned_name id e).symm ▸ t.names
  pairs := t.pairs

/-- `INSERT INTO entities (name, mention_count, created_at) VALUES (?, 1, ?)`. -/
def insert (t : EntityTables) (name : Str) (now : Seconds) (h : name ∉ t.entities.map Entity.name) :
    EntityTables where
  entities := t.entities ++ [⟨t.nextId, name, 1, utcNowIso now⟩]
  links := t.links
  nextId := t.nextId + 1
  below := by
    intro e he
    rcases List.mem_append.1 he with he | he
    · exact Nat.lt_succ_of_lt (t.below e he)
    · rw [List.mem_singleton.1 he]
      exact Nat.lt_succ_self _
  ids := by
    rw [List.map_append, List.map_singleton, List.nodup_append]
    refine ⟨t.ids, List.nodup_singleton _, fun a ha b hb => ?_⟩
    obtain ⟨e, he, rfl⟩ := List.mem_map.1 ha
    rw [List.mem_singleton.1 hb]
    exact Nat.ne_of_lt (t.below e he)
  names := by
    rw [List.map_append, List.map_singleton, List.nodup_append]
    refine ⟨t.names, List.nodup_singleton _, fun a ha b hb hab => ?_⟩
    rw [hab, List.mem_singleton.1 hb] at ha
    exact h ha
  pairs := t.pairs

/-- `INSERT OR IGNORE INTO fact_entities`, and `ON CONFLICT DO NOTHING`. -/
def link (t : EntityTables) (factId : Int) (entityId : Nat) : EntityTables :=
  { t with
    links := t.links.insert ⟨factId, entityId⟩
    pairs := t.pairs.insert }

theorem not_mem_names {t : EntityTables} {name : Str} (h : t.find name = none) :
    name ∉ t.entities.map Entity.name := by
  intro hmem
  obtain ⟨e, he, hname⟩ := List.mem_map.1 hmem
  exact absurd hname (by simpa using List.find?_eq_none.1 h e he)

/-! ## Links -/

/-- The body of the loop over the names. -/
def linkName (t : EntityTables) (factId : Int) (now : Seconds) (name : Str) : EntityTables :=
  match h : t.find name with
  | some e => (t.mention e.id).link factId e.id
  | none => (t.insert name now (not_mem_names h)).link factId t.nextId

/-- `_link_entities` with the names that were extracted. -/
def linkExtracted (t : EntityTables) (factId : Int) (now : Seconds) (names : List Str) :
    EntityTables :=
  names.foldl (fun t name => t.linkName factId now name) t

/-- `sanitize_text(raw, 64).strip().lower()`. -/
def entityName (lower : Str → Str) (raw : Str) : Str := lower (strip (sanitizeText raw 64))

/-- One name that is asked for, with the number of those linked. -/
def linkRaw (lower : Str → Str) (factId : Int) (now : Seconds) (s : EntityTables × Nat) (raw : Str) :
    EntityTables × Nat :=
  let name := entityName lower raw
  if name.length < 2 then s else (s.1.linkName factId now name, s.2 + 1)

/-- `SemanticMemory.link_entities`. -/
def linkEntities (lower : Str → Str) (t : EntityTables) (now : Seconds) (factId : Int)
    (entities : List Str) :
    EntityTables × Nat :=
  entities.foldl (linkRaw lower factId now) (t, 0)

/-- `PgSemanticMemory.link_entities`. -/
def pgLinkEntities (lower : Str → Str) (t : EntityTables) (now : Seconds) (factId : Int)
    (entities : List Str) :
    EntityTables × Nat :=
  entities.foldl (linkRaw lower factId now) (t, 0)

theorem linkName_of_find {t : EntityTables} {name : Str} {e : Entity} (h : t.find name = some e)
    (factId : Int) (now : Seconds) :
    t.linkName factId now name = (t.mention e.id).link factId e.id := by
  rw [linkName]
  split
  · rename_i e' h'
    obtain rfl : e' = e := Option.some.inj (h'.symm.trans h)
    rfl
  · rename_i h'
    cases h'.symm.trans h

theorem linkName_of_new {t : EntityTables} {name : Str} (h : t.find name = none) (factId : Int)
    (now : Seconds) :
    t.linkName factId now name = (t.insert name now (not_mem_names h)).link factId t.nextId := by
  rw [linkName]
  split
  · rename_i e' h'
    cases h.symm.trans h'
  · rfl

/-! ## Mentions -/

/-- All mentions. -/
def mentions (t : EntityTables) : Nat := (t.entities.map Entity.mentionCount).sum

/-- An update counts one mention more. -/
theorem mentions_mention {t : EntityTables} {e : Entity} (h : e ∈ t.entities) :
    (t.mention e.id).mentions = t.mentions + 1 := by
  have hsum : ∀ entities : List Entity, (entities.map Entity.id).Nodup → e ∈ entities →
      ((entities.map (mentioned e.id)).map Entity.mentionCount).sum =
        (entities.map Entity.mentionCount).sum + 1 := by
    intro entities
    induction entities with
    | nil => intro _ he; cases he
    | cons d entities ih =>
        intro hids he
        rw [List.map_cons, List.nodup_cons] at hids
        simp only [List.map_cons, List.sum_cons]
        rcases List.mem_cons.1 he with rfl | he
        · have hothers : entities.map (mentioned e.id) = entities := by
            refine (List.map_congr_left fun d hd => ?_).trans (List.map_id _)
            exact if_neg fun hid : d.id = e.id => hids.1 (hid ▸ List.mem_map_of_mem hd)
          have hself : (mentioned e.id e).mentionCount = e.mentionCount + 1 := by simp [mentioned]
          rw [hothers, hself]
          omega
        · have hother : mentioned e.id d = d :=
            if_neg fun hid : d.id = e.id => hids.1 (hid ▸ List.mem_map_of_mem he)
          rw [hother, ih hids.2 he]
          omega
  exact hsum t.entities t.ids h

theorem mem_of_find {t : EntityTables} {name : Str} {e : Entity} (h : t.find name = some e) :
    e ∈ t.entities ∧ e.name = name :=
  ⟨List.mem_of_find?_eq_some h, by simpa using List.find?_some h⟩

/-- Each name that is linked is one mention more. -/
theorem mentions_linkName (t : EntityTables) (factId : Int) (now : Seconds) (name : Str) :
    (t.linkName factId now name).mentions = t.mentions + 1 := by
  cases h : t.find name with
  | some e =>
      rw [linkName_of_find h]
      exact mentions_mention (mem_of_find h).1
  | none =>
      rw [linkName_of_new h]
      simp [mentions, link, insert]

/-- The loop, from some tables and number on. -/
theorem mentions_linkRaws (lower : Str → Str) (factId : Int) (now : Seconds) (raws : List Str)
    (s : EntityTables × Nat) : (raws.foldl (linkRaw lower factId now) s).1.mentions + s.2 =
      s.1.mentions + (raws.foldl (linkRaw lower factId now) s).2 := by
  induction raws generalizing s with
  | nil => rfl
  | cons raw raws ih =>
      rw [List.foldl_cons]
      have hrest := ih (linkRaw lower factId now s raw)
      have hstep : (linkRaw lower factId now s raw).1.mentions + s.2 =
          s.1.mentions + (linkRaw lower factId now s raw).2 := by
        simp only [linkRaw]
        split
        · rfl
        · rw [mentions_linkName]
          omega
      omega

/-- The number is that of the names that are not too short. -/
theorem linked_linkRaws (lower : Str → Str) (factId : Int) (now : Seconds) (raws : List Str)
    (s : EntityTables × Nat) : (raws.foldl (linkRaw lower factId now) s).2 =
      s.2 + raws.countP fun raw => 2 ≤ (entityName lower raw).length := by
  induction raws generalizing s with
  | nil => rfl
  | cons raw raws ih =>
      rw [List.foldl_cons, ih, List.countP_cons]
      simp only [linkRaw]
      split
      · rename_i hshort
        rw [if_neg (by simpa using hshort), Nat.add_zero]
      · rename_i hlong
        rw [if_pos (decide_eq_true (not_lt.1 hlong))]
        omega

/-! ## The second call -/

/-- A name has its entity, and the fact is linked to it. -/
def Linked (factId : Int) (name : Str) (t : EntityTables) : Prop :=
  ∃ e, t.find name = some e ∧ ⟨factId, e.id⟩ ∈ t.links

/-- What the second call is to leave alone: the entities without their mentions, and the links. -/
def graph (t : EntityTables) : List (Nat × Str × IsoSeconds) × List FactLink :=
  (t.entities.map fun e => (e.id, e.name, e.createdAt), t.links)

theorem find_mention (t : EntityTables) (id : Nat) (name : Str) :
    (t.mention id).find name = (t.find name).map (mentioned id) := by
  simp only [find, mention, List.find?_map]
  congr 2
  funext e
  simp

/-- A name that is linked is linked, and what was linked stays so. -/
theorem linked_linkName (t : EntityTables) (factId : Int) (now : Seconds) (name : Str) :
    Linked factId name (t.linkName factId now name) ∧
      ∀ factId' name', Linked factId' name' t →
        Linked factId' name' (t.linkName factId now name) := by
  cases h : t.find name with
  | some e =>
      rw [linkName_of_find h]
      refine ⟨⟨mentioned e.id e, ?_, ?_⟩, ?_⟩
      · exact (find_mention t e.id name).trans (by rw [h, Option.map_some])
      · rw [mentioned_id]
        exact List.mem_insert_self
      · rintro factId' name' ⟨e', hfind, hlink⟩
        refine ⟨mentioned e.id e', (find_mention t e.id name').trans
          (by rw [hfind, Option.map_some]), ?_⟩
        rw [mentioned_id]
        exact List.mem_insert_of_mem hlink
  | none =>
      rw [linkName_of_new h]
      have hfind : ∀ name' e', t.find name' = some e' →
          (t.insert name now (not_mem_names h)).find name' = some e' := fun name' e' he' => by
        rw [find] at he' ⊢
        rw [insert, List.find?_append, he', Option.some_or]
      refine ⟨⟨⟨t.nextId, name, 1, utcNowIso now⟩, ?_, List.mem_insert_self⟩, ?_⟩
      · rw [find] at h ⊢
        simp [link, insert, List.find?_append, h]
      · rintro factId' name' ⟨e', he', hlink⟩
        exact ⟨e', hfind name' e' he', List.mem_insert_of_mem hlink⟩

/-- To link a name again changes a count of mentions and nothing else. -/
theorem graph_linkName {t : EntityTables} {factId : Int} {name : Str} (h : Linked factId name t)
    (now : Seconds) :
    (t.linkName factId now name).graph = t.graph := by
  obtain ⟨e, hfind, hlink⟩ := h
  have hentities : (t.entities.map (mentioned e.id)).map (fun e => (e.id, e.name, e.createdAt)) =
      t.entities.map fun e => (e.id, e.name, e.createdAt) := by
    rw [List.map_map]
    refine List.map_congr_left fun d _ => ?_
    simp only [Function.comp, mentioned]
    split <;> rfl
  rw [linkName_of_find hfind, graph, graph]
  exact Prod.ext hentities (List.insert_of_mem hlink)

/-- After a call, every name of it that is long enough is linked, and what was linked stays so. -/
theorem linked_linkRaws_names (lower : Str → Str) (factId : Int) (now : Seconds) (raws : List Str)
    (s : EntityTables × Nat) :
    (∀ raw ∈ raws, 2 ≤ (entityName lower raw).length →
        Linked factId (entityName lower raw) (raws.foldl (linkRaw lower factId now) s).1) ∧
      ∀ factId' name', Linked factId' name' s.1 →
        Linked factId' name' (raws.foldl (linkRaw lower factId now) s).1 := by
  induction raws generalizing s with
  | nil => exact ⟨(fun raw hraw => by cases hraw), fun _ _ h => h⟩
  | cons raw raws ih =>
      have hstep : (2 ≤ (entityName lower raw).length →
          Linked factId (entityName lower raw) (linkRaw lower factId now s raw).1) ∧
          ∀ factId' name', Linked factId' name' s.1 →
            Linked factId' name' (linkRaw lower factId now s raw).1 := by
        simp only [linkRaw]
        split
        · rename_i hshort
          exact ⟨fun hlong => absurd hlong (not_le.2 hshort), fun _ _ h => h⟩
        · have h := linked_linkName s.1 factId now (entityName lower raw)
          exact ⟨fun _ => h.1, h.2⟩
      obtain ⟨hnames, hkept⟩ := ih (linkRaw lower factId now s raw)
      rw [List.foldl_cons]
      refine ⟨List.forall_mem_cons.2 ⟨fun hlong => hkept _ _ (hstep.1 hlong), hnames⟩, ?_⟩
      exact fun factId' name' h => hkept _ _ (hstep.2 _ _ h)

/-- A call whose names are linked leaves the graph alone. -/
theorem graph_linkRaws {lower : Str → Str} {factId : Int} {raws : List Str} {s : EntityTables × Nat}
    (h : ∀ raw ∈ raws, 2 ≤ (entityName lower raw).length → Linked factId (entityName lower raw) s.1)
    (now : Seconds) : (raws.foldl (linkRaw lower factId now) s).1.graph = s.1.graph := by
  induction raws generalizing s with
  | nil => rfl
  | cons raw raws ih =>
      obtain ⟨hraw, hraws⟩ := List.forall_mem_cons.1 h
      have hstep : (linkRaw lower factId now s raw).1.graph = s.1.graph ∧
          ∀ factId' name', Linked factId' name' s.1 →
            Linked factId' name' (linkRaw lower factId now s raw).1 := by
        simp only [linkRaw]
        split
        · exact ⟨rfl, fun _ _ h => h⟩
        · rename_i hlong
          exact ⟨graph_linkName (hraw (not_lt.1 hlong)) now,
            (linked_linkName s.1 factId now (entityName lower raw)).2⟩
      rw [List.foldl_cons, ih fun raw' hraw' hlong => hstep.2 _ _ (hraws raw' hraw' hlong)]
      exact hstep.1

/-- The second of two calls in a row leaves the entities, but for their mentions, and the links as
they are. -/
theorem link_entities_twice (lower : Str → Str) (t : EntityTables) (now later : Seconds)
    (factId : Int) (entities : List Str) :
    (linkEntities lower (linkEntities lower t now factId entities).1 later factId entities).1.graph =
      (linkEntities lower t now factId entities).1.graph :=
  graph_linkRaws (s := ((linkEntities lower t now factId entities).1, 0))
    (linked_linkRaws_names lower factId now entities (t, 0)).1 later

theorem linkRaws_short {lower : Str → Str} {factId : Int} {now : Seconds} {raws : List Str}
    {s : EntityTables × Nat} (h : ∀ raw ∈ raws, (entityName lower raw).length < 2) :
    raws.foldl (linkRaw lower factId now) s = s := by
  induction raws with
  | nil => rfl
  | cons raw raws ih =>
      obtain ⟨hraw, hraws⟩ := List.forall_mem_cons.1 h
      have hstep : linkRaw lower factId now s raw = s := if_pos hraw
      rw [List.foldl_cons, hstep]
      exact ih hraws

/-- A call leaves the tables as they are if and only if all its names are too short. -/
theorem linkRaws_eq_iff {lower : Str → Str} {factId : Int} {now : Seconds} {raws : List Str}
    {t : EntityTables} :
    (raws.foldl (linkRaw lower factId now) (t, 0)).1 = t ↔
      ∀ raw ∈ raws, (entityName lower raw).length < 2 := by
  constructor
  · intro h raw hraw
    by_contra hlong
    have hmentions := mentions_linkRaws lower factId now raws (t, 0)
    have hlinked := linked_linkRaws lower factId now raws (t, 0)
    have hpos : 0 < raws.countP fun raw => 2 ≤ (entityName lower raw).length :=
      List.countP_pos_iff.2 ⟨raw, hraw, decide_eq_true (not_lt.1 hlong)⟩
    rw [h] at hmentions
    dsimp only at hmentions hlinked
    omega
  · intro h
    rw [linkRaws_short h]

/-- On both backends, a second call in a row leaves the tables as the first left them if and only if
no name is long enough to be linked. -/
theorem link_entities_idempotent_iff (lower : Str → Str) (t : EntityTables) (now later : Seconds)
    (factId : Int) (entities : List Str) :
    ((linkEntities lower (linkEntities lower t now factId entities).1 later factId entities).1 =
        (linkEntities lower t now factId entities).1 ↔
      ∀ raw ∈ entities, (entityName lower raw).length < 2) ∧
    ((pgLinkEntities lower (pgLinkEntities lower t now factId entities).1 later factId entities).1 =
        (pgLinkEntities lower t now factId entities).1 ↔
      ∀ raw ∈ entities, (entityName lower raw).length < 2) :=
  ⟨linkRaws_eq_iff, linkRaws_eq_iff⟩

/-- Billing is linked to a fact twice, and mentioned twice. -/
theorem billing_mentioned_twice :
    (linkEntities id (linkEntities id empty 0 1 [lit "billing"]).1 0 1 [lit "billing"]).1.entities =
        [⟨1, lit "billing", 2, 0⟩] ∧
      (linkEntities id empty 0 1 [lit "billing"]).1.entities = [⟨1, lit "billing", 1, 0⟩] ∧
      (pgLinkEntities id (pgLinkEntities id empty 0 1 [lit "billing"]).1 0 1
        [lit "billing"]).1.entities =
        [⟨1, lit "billing", 2, 0⟩] := by
  decide +kernel

end EntityTables

end ShugoCore
