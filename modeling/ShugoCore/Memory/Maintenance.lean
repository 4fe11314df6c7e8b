import ShugoCore.Lib.Dict
import ShugoCore.Lib.PyBuiltins
import ShugoCore.Lib.Run
import ShugoCore.Memory.Episodic
import ShugoCore.Memory.Semantic

/-!
# Maintenance of Tier 2

The calls of a `MemoryManager` that its agent and its worker make: `note_step`,
`record_event`, `consolidate_now` and `_maintenance_pass`, with `decay` and `prune` of
the fact table.

A `shared_read` manager is to leave the shared table alone.  `_consolidate_impl` asks for
the policy in both of its branches, and the idle branch of `_maintenance_pass` does not.
So the table stays as it is exactly as long as no idle pass finds a fact to fade or to
delete.

Salience is a rational number here, and `salience * 0.5 ** x` is any function of the two.
-/

namespace ShugoCore

open Py Machine

/-! ## Tier 0 -/

/-- `estimate_tokens`. -/
def estimateTokens (text : Str) : Nat :=
  if text.isEmpty then 0 else max 1 ((text.length + 3) / 4)

/-- `Scratchpad`. -/
structure Scratchpad where
  maxEntries : Nat
  maxTokens : Nat
  entries : List (IsoSeconds × Str)
  tokenCount : Int

/-- The loop that keeps the token ceiling. -/
def evictTokens (maxTokens : Nat) : List (IsoSeconds × Str) → Int → List (IsoSeconds × Str) × Int
  | [], count => ([], count)
  | e :: entries, count =>
      if maxTokens < count then evictTokens maxTokens entries (count - estimateTokens e.2)
      else (e :: entries, count)

/-- `Scratchpad.write`.  What the full deque drops stays in the token count. -/
def Scratchpad.write (pad : Scratchpad) (now : Seconds) (text : Str) : Scratchpad :=
  let text := sanitizeText text 512
  let entries := (pad.entries ++ [(utcNowIso now, text)]).drop
    (pad.entries.length + 1 - pad.maxEntries)
  let kept := evictTokens pad.maxTokens entries (pad.tokenCount + estimateTokens text)
  { pad with entries := kept.1, tokenCount := kept.2 }

/-! ## Tier 2 -/

/-- A row of `facts` with the time of its last access, if `fromisoformat` reads it. -/
structure KeptFact (μ : Type) extends FactRow μ where
  lastAccessed : Option Seconds

/-- The fact table. -/
structure FactTable (μ : Type) where
  rows : List (KeptFact μ)
  nextId : Nat

/-- How facts are forgotten. -/
structure Forgetting where
  halfLifeHours : ℚ
  pruneMinSalience : ℚ
  /-- `salience * 0.5 ** x`. -/
  faded : ℚ → ℚ → ℚ

namespace FactTable

variable {μ : Type}

/-- `store_fact`. -/
def storeFact (t : FactTable μ) (now : Seconds) (content kind : Str) (salience : ℚ) (metadata : μ) :
    FactTable μ where
  rows := t.rows ++ [{
    id := t.nextId
    content := sanitizeText content 2000
    kind := SemanticMemory.kindText kind
    salience := salience
    createdAt := utcNowIso now
    metadata := metadata
    shared := none
    lastAccessed := some (utcNowIso now) }]
  nextId := t.nextId + 1

/-- The salience of a row after `x` half-lives, where `x` is the time since its last access. -/
def fadedSalience (f : Forgetting) (row : KeptFact μ) (hours : ℚ) : ℚ :=
  f.faded row.salience (hours / if f.halfLifeHours ≤ 0 then 1 / 10 ^ 9 else f.halfLifeHours)

/-- One row of `decay`. -/
def decayRow (f : Forgetting) (now : Seconds) (row : KeptFact μ) : KeptFact μ :=
  match row.lastAccessed with
  | none => row
  | some accessed =>
      let hours := max 0 ((now - accessed) / 3600)
      if hours ≤ 0 then row
      else if 1 / 10 ^ 9 < |fadedSalience f row hours - row.salience| then
        { row with salience := fadedSalience f row hours }
      else row

/-- `decay`. -/
def decay (t : FactTable μ) (f : Forgetting) (now : Seconds) : FactTable μ :=
  { t with rows := t.rows.map (decayRow f now) }

/-- `prune`: the table, and the number of rows it deletes. -/
def prune (t : FactTable μ) (f : Forgetting) : FactTable μ × Nat :=
  let kept := t.rows.filter fun row => ¬ row.salience < f.pruneMinSalience
  ({ t with rows := kept }, t.rows.length - kept.length)

end FactTable

/-! ## The manager -/

/-- `policy`. -/
inductive MemoryPolicy where
  | sharedRw
  | sharedRead
  | isolated
deriving DecidableEq

/-- `read_only_tier2`. -/
def MemoryPolicy.readOnlyTier2 (policy : MemoryPolicy) : Bool := policy = .sharedRead

/-- The settings of a manager, and what its passes read of an event. -/
structure MaintenanceConfig (β : Type) where
  policy : MemoryPolicy
  consolidationThreshold : Nat
  failurePromotionThreshold : Nat
  patternPromotionThreshold : Nat
  forgetting : Forgetting
  eventType : β → Str
  /-- `str(payload.get("status", "")).lower()`. -/
  status : β → Str
  /-- `str(payload)`. -/
  payloadText : β → Str

/-- A manager. -/
structure MemoryManager (φ β : Type) where
  tier0 : Scratchpad
  tier1 : EpisodicMemory β
  tier2 : FactTable (Obj φ)
  maintenancePasses : Nat

/-- What a consolidation pass counts. -/
structure ConsolidationStats where
  eventsProcessed : Nat
  factsStored : Nat
  promoted : Nat
  pruned : Nat
deriving DecidableEq

namespace MemoryManager

variable {φ β : Type}

/-- `_FAILURE_STATUSES`. -/
def failureStatuses : List Str := [lit "error", lit "failure", lit "failed"]

/-- The events by their type, the types in the order of their first event. -/
def groupByType (cfg : MaintenanceConfig β) (events : List (Event β)) :
    Dict Str (List (Event β)) :=
  events.foldl (fun grouped e =>
    let type := cfg.eventType e.body
    grouped.set type ((grouped.get? type).getD [] ++ [e])) []

/-- The fact that a group of events becomes, and whether it is promoted. -/
def storeGroup (cfg : MaintenanceConfig β) (now : Seconds)
    (s : FactTable (Obj φ) × Nat × Nat) (g : Str × List (Event β)) :
    FactTable (Obj φ) × Nat × Nat :=
  let (table, stored, promoted) := s
  let (type, group) := g
  let failures := group.countP fun e => cfg.status e.body ∈ failureStatuses
  let last := ((group.getLast?.map fun e => cfg.payloadText e.body).getD []).take 200
  let number (n : Nat) : Str := (Literal.ofInt n).text
  let metadata (key : String) (n : Nat) : Obj φ := obj [("event_type", .str type), (key, .int n)]
  if cfg.failurePromotionThreshold ≤ failures then
    (table.storeFact now
        (lit "Critical failure mode '" ++ type ++ lit "' observed " ++ number failures ++
          lit " times; last: " ++ last)
        (lit "procedural_insight") (5 / 2) (metadata "failures" failures),
      stored + 1, promoted + 1)
  else if cfg.patternPromotionThreshold ≤ group.length then
    (table.storeFact now
        (lit "Recurring pattern '" ++ type ++ lit "' observed " ++ number group.length ++
          lit " times in recent execution.")
        (lit "pattern") (3 / 2) (metadata "occurrences" group.length),
      stored + 1, promoted)
  else
    (table.storeFact now
        (lit "Event summary '" ++ type ++ lit "' x" ++ number group.length ++ lit "; last: " ++ last)
        (lit "summary") 1 (metadata "occurrences" group.length),
      stored + 1, promoted)

/-- `decay` and `prune`, one after the other. -/
def forget (cfg : MaintenanceConfig β) (now : Seconds) (table : FactTable (Obj φ)) :
    FactTable (Obj φ) × Nat :=
  (table.decay cfg.forgetting now).prune cfg.forgetting

/-- `_consolidate_impl`. -/
def consolidateImpl (cfg : MaintenanceConfig β) (now : Seconds) (table : FactTable (Obj φ))
    (events : List (Event β)) : FactTable (Obj φ) × ConsolidationStats :=
  if events.isEmpty then
    if cfg.policy.readOnlyTier2 then (table, ⟨0, 0, 0, 0⟩)
    else
      let (table, pruned) := forget cfg now table
      (table, ⟨0, 0, 0, pruned⟩)
  else if cfg.policy.readOnlyTier2 then (table, ⟨events.length, 0, 0, 0⟩)
  else
    let (table, stored, promoted) := (groupByType cfg events).foldl (storeGroup cfg now) (table, 0, 0)
    let (table, pruned) := forget cfg now table
    (table, ⟨events.length, stored, promoted, pruned⟩)

/-- `consolidate_now`. -/
def consolidateNow (cfg : MaintenanceConfig β) (now : Seconds) (s : MemoryManager φ β) :
    MemoryManager φ β × ConsolidationStats :=
  let (events, tier1) := s.tier1.drain
  let (tier2, stats) := consolidateImpl cfg now s.tier2 events
  ({ s with tier1 := tier1.markConsolidated, tier2 := tier2 }, stats)

/-- `_maintenance_pass`. -/
def maintenancePass (cfg : MaintenanceConfig β) (now : Seconds) (s : MemoryManager φ β) :
    MemoryManager φ β :=
  let s :=
    if cfg.consolidationThreshold ≤ s.tier1.events.length then (consolidateNow cfg now s).1
    else { s with tier2 := (forget cfg now s.tier2).1 }
  { s with maintenancePasses := s.maintenancePasses + 1 }

/-- The calls.  `recordEventRaises` is a `record_event` with a payload that cannot be written. -/
inductive Op (β : Type) where
  | noteStep (now : Seconds) (text : Str)
  | recordEvent (stamp now : Seconds) (body : β)
  | recordEventRaises
  | consolidateNow (now : Seconds)
  | maintenancePass (now : Seconds)

/-- One call. -/
def step (cfg : MaintenanceConfig β) (s : MemoryManager φ β) : Op β → MemoryManager φ β
  | .noteStep now text => { s with tier0 := s.tier0.write now text }
  | .recordEvent stamp now body => { s with tier1 := s.tier1.record stamp now body }
  | .recordEventRaises => { s with tier1 := s.tier1.recordRaises }
  | .consolidateNow now => (s.consolidateNow cfg now).1
  | .maintenancePass now => s.maintenancePass cfg now

/-! ## What a pass leaves alone -/

/-- A decay changes the salience of a row. -/
def Fades (f : Forgetting) (now : Seconds) (row : KeptFact (Obj φ)) : Prop :=
  ∃ accessed ∈ row.lastAccessed, accessed < now ∧
    1 / 10 ^ 9 < |FactTable.fadedSalience f row ((now - accessed) / 3600) - row.salience|

/-- The call finds nothing to forget: it is no idle pass, or no row fades and none is below
the floor. -/
def Untouched (cfg : MaintenanceConfig β) (s : MemoryManager φ β) : Op β → Prop
  | .maintenancePass now =>
      s.tier1.events.length < cfg.consolidationThreshold →
        ∀ row ∈ s.tier2.rows, ¬ Fades cfg.forgetting now row ∧
          cfg.forgetting.pruneMinSalience ≤ row.salience
  | _ => True

theorem decayRow_eq_iff {f : Forgetting} {now : Seconds} {row : KeptFact (Obj φ)} :
    FactTable.decayRow f now row = row ↔ ¬ Fades f now row := by
  simp only [FactTable.decayRow, Fades]
  cases hrow : row.lastAccessed with
  | none => simp
  | some accessed =>
      dsimp only
      have hhours : max 0 ((now - accessed) / 3600) ≤ 0 ↔ ¬ accessed < now := by
        rw [max_le_iff, not_lt, div_le_iff₀ (by norm_num), zero_mul, sub_nonpos]
        exact and_iff_right le_rfl
      split
      · rename_i h
        refine iff_of_true rfl ?_
        rintro ⟨_, ⟨⟩, hlt, -⟩
        exact hhours.1 h hlt
      · rename_i h
        have hlt : accessed < now := not_not.1 fun hn => h (hhours.2 hn)
        have hpos : max 0 ((now - accessed) / 3600) = (now - accessed) / 3600 :=
          max_eq_right (div_nonneg (sub_nonneg.2 hlt.le) (by norm_num))
        rw [hpos]
        split
        · rename_i hfade
          refine iff_of_false (fun heq => ?_) (fun hn => hn ⟨accessed, rfl, hlt, hfade⟩)
          -- A salience that has changed by more than the threshold is another one.
          have hsame : FactTable.fadedSalience f row ((now - accessed) / 3600) = row.salience :=
            congrArg (fun r : KeptFact (Obj φ) => r.salience) heq
          rw [hsame, sub_self, abs_zero] at hfade
          exact absurd hfade (by norm_num)
        · rename_i hfade
          refine iff_of_true rfl ?_
          rintro ⟨_, ⟨⟩, -, h'⟩
          exact hfade h'

/-- Forgetting leaves the table as it is, if and only if no row fades or is below the floor. -/
theorem forget_eq_iff {cfg : MaintenanceConfig β} {now : Seconds} {table : FactTable (Obj φ)} :
    (forget cfg now table).1 = table ↔
      ∀ row ∈ table.rows, ¬ Fades cfg.forgetting now row ∧
        cfg.forgetting.pruneMinSalience ≤ row.salience := by
  have hrows : (forget cfg now table).1 = table ↔
      ((table.rows.map (FactTable.decayRow cfg.forgetting now)).filter fun row =>
        ¬ row.salience < cfg.forgetting.pruneMinSalience) = table.rows := by
    obtain ⟨rows, nextId⟩ := table
    simp [forget, FactTable.decay, FactTable.prune]
  rw [hrows]
  constructor
  · intro h
    -- Nothing is deleted, or the table would be shorter.
    have hall : ∀ row ∈ table.rows.map (FactTable.decayRow cfg.forgetting now),
        ¬ row.salience < cfg.forgetting.pruneMinSalience := by
      have hlen := (congrArg List.length h).trans
        (List.length_map (FactTable.decayRow cfg.forgetting now)).symm
      rw [List.length_filter_eq_length_iff] at hlen
      exact fun row hrow => of_decide_eq_true (hlen row hrow)
    rw [List.filter_eq_self.2 fun row hrow => decide_eq_true (hall row hrow)] at h
    intro row hrow
    have hsame : FactTable.decayRow cfg.forgetting now row = row :=
      List.map_inj_left.1 (h.trans (List.map_id _).symm) row hrow
    have hkept := hall _ (List.mem_map_of_mem hrow)
    rw [hsame] at hkept
    exact ⟨decayRow_eq_iff.1 hsame, not_lt.1 hkept⟩
  · intro h
    have hmap : table.rows.map (FactTable.decayRow cfg.forgetting now) = table.rows := by
      refine (List.map_congr_left fun row hrow => ?_).trans (List.map_id _)
      exact decayRow_eq_iff.2 (h row hrow).1
    rw [hmap, List.filter_eq_self]
    exact fun row hrow => decide_eq_true (not_lt.2 (h row hrow).2)

/-- A consolidation of a manager that may not write leaves the table as it is. -/
theorem consolidateNow_tier2 {cfg : MaintenanceConfig β} (h : cfg.policy.readOnlyTier2 = true)
    (now : Seconds) (s : MemoryManager φ β) : (s.consolidateNow cfg now).1.tier2 = s.tier2 := by
  show (consolidateImpl cfg now s.tier2 s.tier1.drain.1).1 = s.tier2
  simp only [consolidateImpl]
  rw [h]
  split
  · rfl
  · rfl

/-- One call of such a manager leaves the table as it is, if and only if it finds nothing to
forget. -/
theorem tier2_step_iff {cfg : MaintenanceConfig β} (h : cfg.policy.readOnlyTier2 = true)
    (s : MemoryManager φ β) (op : Op β) : (s.step cfg op).tier2 = s.tier2 ↔ s.Untouched cfg op := by
  cases op with
  | noteStep now text => exact iff_of_true rfl trivial
  | recordEvent stamp now body => exact iff_of_true rfl trivial
  | recordEventRaises => exact iff_of_true rfl trivial
  | consolidateNow now => exact iff_of_true (consolidateNow_tier2 h now s) trivial
  | maintenancePass now =>
      rw [step, maintenancePass, Untouched]
      split
      · rename_i hbusy
        exact iff_of_true (consolidateNow_tier2 h now s) fun hidle => absurd hbusy (not_le.2 hidle)
      · rename_i hidle
        refine forget_eq_iff.trans ?_
        exact ⟨fun hall _ => hall, fun hall => hall (not_le.1 hidle)⟩

/-- The runs of a `shared_read` manager that leave the table as it is are the runs in which
no idle pass finds anything to forget. -/
theorem shared_read_leaves_tier2_iff (cfg : MaintenanceConfig β) (s : MemoryManager φ β)
    (ops : List (Op β)) :
    Always (step { cfg with policy := .sharedRead }) (fun t => t.tier2 = s.tier2) s ops ↔
      Meets (step { cfg with policy := .sharedRead }) (Untouched cfg) s ops := by
  refine always_iff_meets (I := fun _ => True) (fun _ _ _ => trivial) ?_ trivial rfl
  intro t op _ ht
  rw [← ht]
  exact tier2_step_iff rfl t op

/-- A `shared_read` manager with the default settings.  `0.5 ** x` is right for whole `x`. -/
def reader : MaintenanceConfig Unit where
  policy := .sharedRead
  consolidationThreshold := 25
  failurePromotionThreshold := 3
  patternPromotionThreshold := 5
  forgetting := ⟨72, 1 / 20, fun salience x => salience / 2 ^ x.num.toNat⟩
  eventType _ := lit "decision"
  status _ := lit "success"
  payloadText _ := []

/-- A table with one fact, accessed at time zero. -/
def oneFact : MemoryManager WholeFloat Unit where
  tier0 := ⟨256, 4096, [], 0⟩
  tier1 := .init 1000 none none
  tier2 := FactTable.storeFact ⟨[], 1⟩ 0 (lit "a") (lit "fact") 1 []
  maintenancePasses := 0

/-- An idle pass after 72 hours halves the salience of the shared fact. -/
theorem idle_pass_fades :
    (run (step reader) oneFact [.maintenancePass (72 * 3600)]).tier2 ≠ oneFact.tier2 := by
  intro h
  have hsalience := congrArg (fun t => t.rows.map fun row => row.salience) h
  revert hsalience
  decide +kernel

end MemoryManager

end ShugoCore
