import Mathlib.Data.List.Dedup
import ShugoCore.Lib.Run
import ShugoCore.Memory.Semantic

/-!
# Two honest peers and the storm guard

Two runtimes that sync with each other, and nothing else that stores facts.  The calls of
each are those of `sync`, in three steps as in `ShugoCore.Mesh.Sync`, so that any steps of
other calls can fall between them.  `_note_conflicts` counts the facts of a page that the
caller holds already, over a sliding window, and reports a storm at a threshold.

A fact that a runtime takes over gets a new `created_at`.  So it is exported again, to
the peer it came from too, and is a conflict there.  Twenty facts that go to the peer and
come back within a minute are a storm.
-/

namespace ShugoCore

open Py Machine

/-! ## What an import counts -/

section Import

variable {μ : Type}

/-- The contents of a page, as they are stored.  Empty ones are skipped. -/
def pageTexts (facts : List (SharedFact μ)) : List Str :=
  ((facts.map fun fact => sanitizeText fact.content 2000).filter fun c => c ≠ []).map
    fun c => sanitizeText c 2000

/-- The contents of a page that a table lacks. -/
def newTexts (held : List Str) (facts : List (SharedFact μ)) : List Str :=
  ((pageTexts facts).filter fun c => c ∉ held).dedup

/-- The facts of a page that a table has, or that the page repeats. -/
def knownFacts (held : List Str) (facts : List (SharedFact μ)) : Nat :=
  (pageTexts facts).length - (newTexts held facts).length

theorem pageTexts_cons_of_empty {fact : SharedFact μ} (h : sanitizeText fact.content 2000 = [])
    (facts : List (SharedFact μ)) : pageTexts (fact :: facts) = pageTexts facts := by
  simp [pageTexts, h]

theorem pageTexts_cons {fact : SharedFact μ} (h : sanitizeText fact.content 2000 ≠ [])
    (facts : List (SharedFact μ)) :
    pageTexts (fact :: facts) =
      sanitizeText (sanitizeText fact.content 2000) 2000 :: pageTexts facts := by
  simp [pageTexts, h]

/-- What an import adds and counts, from any state of its loop on: one row for each content
that is new, and a duplicate for every other one. -/
theorem foldl_importFact (origin : Str) (now : Seconds) (facts : List (SharedFact μ))
    (m : SemanticMemory μ) (counts : ImportCounts) :
    ∃ rows, (facts.foldl (importFact origin now) (m, counts)).1.rows = m.rows ++ rows ∧
      (rows.map FactRow.content).Nodup ∧
      (∀ c, c ∈ rows.map FactRow.content ↔ c ∈ pageTexts facts ∧ c ∉ m.contents) ∧
      (facts.foldl (importFact origin now) (m, counts)).2.duplicates + rows.length =
        counts.duplicates + (pageTexts facts).length := by
  induction facts generalizing m counts with
  | nil => exact ⟨[], (List.append_nil _).symm, List.nodup_nil, by simp [pageTexts], rfl⟩
  | cons fact facts ih =>
      rw [List.foldl_cons]
      by_cases hempty : sanitizeText fact.content 2000 = []
      · have hstep : importFact origin now (m, counts) fact =
            (m, { counts with skipped := counts.skipped + 1 }) := by
          simp [importFact, hempty]
        rw [hstep, pageTexts_cons_of_empty hempty]
        exact ih m _
      · rw [pageTexts_cons hempty]
        generalize htext : sanitizeText (sanitizeText fact.content 2000) 2000 = text
        by_cases hknown : m.contentExists (sanitizeText fact.content 2000) = true
        · have hstep : importFact origin now (m, counts) fact =
              (m, { counts with duplicates := counts.duplicates + 1 }) := by
            simp [importFact, hempty, hknown]
          obtain ⟨rows, hrows, hnodup, hmem, hcount⟩ :=
            ih m { counts with duplicates := counts.duplicates + 1 }
          rw [SemanticMemory.contentExists_iff, htext] at hknown
          rw [hstep]
          refine ⟨rows, hrows, hnodup, fun c => ?_, ?_⟩
          · rw [hmem, List.mem_cons]
            constructor
            · rintro ⟨hc, hnew⟩
              exact ⟨.inr hc, hnew⟩
            · rintro ⟨rfl | hc, hnew⟩
              · exact absurd hknown hnew
              · exact ⟨hc, hnew⟩
          · rw [List.length_cons]
            dsimp only at hcount
            omega
        · have hstep : ∃ m', importFact origin now (m, counts) fact =
                (m', { counts with imported := counts.imported + 1 }) ∧
              ∃ row, m'.rows = m.rows ++ [row] ∧ row.content = text := by
            simp only [importFact, List.isEmpty_iff, hempty, hknown, if_false]
            refine ⟨_, rfl, _, rfl, ?_⟩
            rw [SemanticMemory.rowOf_content, htext]
          obtain ⟨m', hstep, row, hm', hrow⟩ := hstep
          obtain ⟨rows, hrows, hnodup, hmem, hcount⟩ :=
            ih m' { counts with imported := counts.imported + 1 }
          have hcontents : m'.contents = m.contents ++ [text] := by
            rw [SemanticMemory.contents, hm', List.map_append, ← hrow]
            rfl
          rw [SemanticMemory.contentExists_iff, htext] at hknown
          rw [hstep]
          refine ⟨row :: rows, by rw [hrows, hm', List.append_assoc]; rfl, ?_, fun c => ?_, ?_⟩
          · rw [List.map_cons, List.nodup_cons, hrow, hmem, hcontents]
            exact ⟨fun h => h.2 (by simp), hnodup⟩
          · rw [List.map_cons, List.mem_cons, hrow, hmem, hcontents, List.mem_append,
              List.mem_singleton, List.mem_cons]
            constructor
            · rintro (rfl | ⟨hc, hnew⟩)
              · exact ⟨.inl rfl, hknown⟩
              · exact ⟨.inr hc, fun h => hnew (.inl h)⟩
            · rintro ⟨rfl | hc, hnew⟩
              · exact .inl rfl
              · by_cases heq : c = text
                · exact .inl heq
                · exact .inr ⟨hc, fun h => h.elim hnew heq⟩
          · rw [List.length_cons, List.length_cons]
            dsimp only at hcount
            omega

/-- What an import adds to a table, and the duplicates that it counts. -/
theorem importSharedFacts_rows (m : SemanticMemory μ) (facts : List (SharedFact μ)) (source : Str)
    (now : Seconds) :
    ∃ rows, (importSharedFacts m facts source now).1.rows = m.rows ++ rows ∧
      (rows.map FactRow.content).Nodup ∧
      (∀ c, c ∈ rows.map FactRow.content ↔ c ∈ pageTexts facts ∧ c ∉ m.contents) ∧
      (importSharedFacts m facts source now).2.duplicates = knownFacts m.contents facts := by
  obtain ⟨rows, hrows, hnodup, hmem, hcount⟩ :=
    foldl_importFact (if (sanitizeText source 64).isEmpty then lit "unknown" else
      sanitizeText source 64) now facts m ⟨0, 0, 0⟩
  refine ⟨rows, hrows, hnodup, hmem, ?_⟩
  have hperm : (newTexts m.contents facts).Perm (rows.map FactRow.content) := by
    refine (List.perm_ext_iff_of_nodup (List.nodup_dedup _) hnodup).2 fun c => ?_
    rw [hmem, List.mem_dedup, List.mem_filter, decide_eq_true_eq]
  have hlen := hperm.length_eq
  rw [List.length_map] at hlen
  rw [knownFacts, hlen]
  exact Nat.eq_sub_of_add_eq (hcount.trans (Nat.zero_add _))

end Import

/-! ## The guard -/

/-- The settings of the guard. -/
structure ConflictGuard where
  /-- `conflict_threshold`. -/
  threshold : Nat
  /-- `conflict_window_s`. -/
  window : Seconds
  /-- There is a fallback controller. -/
  controller : Bool
  positive : 1 ≤ threshold
  wide : 1 ≤ window

/-- One of the two runtimes. -/
structure SyncPeer (μ : Type) where
  guard : ConflictGuard
  memory : SemanticMemory μ
  /-- The watermark for the other one. -/
  watermark : Option IsoSeconds
  /-- `_conflict_events`, oldest first. -/
  conflictEvents : List Seconds
  /-- The number of `memory_sync_conflict_storm` reports. -/
  storms : Nat

namespace SyncPeer

variable {μ : Type}

/-- The conflicts that a reading of the clock leaves in the window. -/
def recent (p : SyncPeer μ) (mono : Seconds) : List Seconds :=
  p.conflictEvents.dropWhile fun t => t < mono - p.guard.window

/-- `_note_conflicts`. -/
def noteConflicts (p : SyncPeer μ) (duplicates : Nat) (mono : Seconds) : SyncPeer μ :=
  if duplicates = 0 then p
  else
    let events := (p.conflictEvents ++ List.replicate duplicates mono).dropWhile
      fun t => t < mono - p.guard.window
    { p with
      conflictEvents := events
      storms :=
        if p.guard.threshold ≤ events.length ∧ p.guard.controller = true then p.storms + 1
        else p.storms }

/-- `sync`, from the reply on. -/
def merge (p : SyncPeer μ) (facts : List (FactRow μ)) (source : Str) (now mono : Seconds) :
    SyncPeer μ :=
  let merged := importSharedFacts p.memory (facts.map FactRow.shareable) source now
  let p := p.noteConflicts merged.2.duplicates mono
  { p with
    memory := merged.1
    watermark :=
      match facts.getLast? with
      | some newest => some newest.createdAt
      | none => p.watermark }

end SyncPeer

/-! ## The pair -/

/-- The two runtimes. -/
inductive Side where
  | a
  | b
deriving DecidableEq

/-- The peer of a runtime. -/
def Side.other : Side → Side
  | .a => .b
  | .b => .a

/-- A call of `sync`. -/
inductive PairCall (μ : Type) where
  | requested (caller : Side) (since : Option IsoSeconds)
  | answered (caller : Side) (facts : List (FactRow μ))
  | returned (caller : Side)

/-- Two runtimes and the calls made so far. -/
structure Pair (μ : Type) where
  /-- The name by which a runtime's peer knows it. -/
  name : Side → Str
  node : Side → SyncPeer μ
  calls : List (PairCall μ)

namespace Pair

variable {μ : Type}

/-- What can happen next.  A step of a call that is not at that point does nothing.  `now`
and `mono` are the two clocks of the caller. -/
inductive Op where
  | sync (caller : Side)
  | reply (call : Nat)
  | merge (call : Nat) (now mono : Seconds)

/-- Two runtimes that have not synced yet. -/
def start (name : Side → Str) (guard : Side → ConflictGuard) (store : Side → SemanticMemory μ) :
    Pair μ where
  name := name
  node side := ⟨guard side, store side, none, [], 0⟩
  calls := []

/-- One step of a run.  The page is the default `limit` of `export_shared_facts`. -/
def step (s : Pair μ) : Op → Pair μ
  | .sync caller =>
      { s with calls := s.calls ++ [.requested caller (s.node caller).watermark] }
  | .reply i =>
      match s.calls[i]? with
      | some (.requested caller since) =>
          { s with
            calls := s.calls.set i
              (.answered caller ((s.node caller.other).memory.factsSince since 200)) }
      | _ => s
  | .merge i now mono =>
      match s.calls[i]? with
      | some (.answered caller facts) =>
          { s with
            node := Function.update s.node caller
              ((s.node caller).merge facts (s.name caller.other) now mono)
            calls := s.calls.set i (.returned caller) }
      | _ => s

/-- Neither runtime has reported a storm. -/
def NoStorm (s : Pair μ) : Prop := ∀ side, (s.node side).storms = 0

/-- A merge brings nothing that its caller holds, or so little that the window stays below
the threshold. -/
def Calm (s : Pair μ) : Op → Prop
  | .merge i _ mono =>
      ∀ caller facts, s.calls[i]? = some (.answered caller facts) →
        let p := s.node caller
        let known := knownFacts p.memory.contents (facts.map FactRow.shareable)
        known = 0 ∨ p.guard.controller = false ∨
          known + (p.recent mono).length < p.guard.threshold
  | _ => True

/-! ## Exactly the crowded windows are storms -/

/-- The guard reports a storm where the new conflicts and the recent ones reach the threshold. -/
theorem noteConflicts_storms (p : SyncPeer μ) (duplicates : Nat) (mono : Seconds) :
    (p.noteConflicts duplicates mono).storms =
      if duplicates ≠ 0 ∧ p.guard.controller = true ∧
        p.guard.threshold ≤ duplicates + (p.recent mono).length then p.storms + 1
      else p.storms := by
  simp only [SyncPeer.noteConflicts]
  by_cases hzero : duplicates = 0
  · simp [hzero]
  · have hin : ∀ n, (List.replicate n mono).dropWhile (fun t => t < mono - p.guard.window) =
        List.replicate n mono := by
      intro n
      rw [List.dropWhile_eq_self_iff]
      intro h
      have hwide := p.guard.wide
      simp only [List.getElem_replicate, decide_eq_true_eq, not_lt]
      linarith
    have hlen : ((p.conflictEvents ++ List.replicate duplicates mono).dropWhile
        fun t => t < mono - p.guard.window).length = duplicates + (p.recent mono).length := by
      rw [List.dropWhile_append, hin, SyncPeer.recent]
      split
      · rename_i hall
        rw [List.isEmpty_iff.1 hall, List.length_nil, List.length_replicate]
        rfl
      · rw [List.length_append, List.length_replicate, Nat.add_comm]
    simp only [hzero, if_false, hlen, ne_eq, not_false_eq_true, true_and]
    exact if_congr and_comm rfl rfl

theorem reply_cases (s : Pair μ) (i : Nat) :
    s.step (.reply i) = s ∨
      ∃ caller since, s.calls[i]? = some (.requested caller since) ∧
        s.step (.reply i) =
          { s with
            calls := s.calls.set i
              (.answered caller ((s.node caller.other).memory.factsSince since 200)) } := by
  simp only [step]
  split
  · rename_i caller since hcall
    exact .inr ⟨caller, since, hcall, rfl⟩
  · exact .inl rfl

theorem merge_cases (s : Pair μ) (i : Nat) (now mono : Seconds) :
    (s.step (.merge i now mono) = s ∧ ∀ caller facts, s.calls[i]? ≠ some (.answered caller facts)) ∨
      ∃ caller facts, s.calls[i]? = some (.answered caller facts) ∧
        s.step (.merge i now mono) =
          { s with
            node := Function.update s.node caller
              ((s.node caller).merge facts (s.name caller.other) now mono)
            calls := s.calls.set i (.returned caller) } := by
  simp only [step]
  split
  · rename_i caller facts hcall
    exact .inr ⟨caller, facts, hcall, rfl⟩
  · rename_i hcall
    exact .inl ⟨rfl, hcall⟩

/-- A merge counts the facts of its page that the caller holds. -/
theorem merge_storms (p : SyncPeer μ) (facts : List (FactRow μ)) (source : Str)
    (now mono : Seconds) :
    (p.merge facts source now mono).storms =
      (p.noteConflicts (knownFacts p.memory.contents (facts.map FactRow.shareable)) mono).storms := by
  obtain ⟨-, -, -, -, hdup⟩ :=
    importSharedFacts_rows p.memory (facts.map FactRow.shareable) source now
  rw [← hdup]
  rfl

/-- One step reports no storm if and only if it is calm. -/
theorem noStorm_step {s : Pair μ} (h : s.NoStorm) (op : Op) : (s.step op).NoStorm ↔ s.Calm op := by
  cases op with
  | sync caller => exact iff_of_true h trivial
  | reply i =>
      refine iff_of_true ?_ trivial
      rcases s.reply_cases i with he | ⟨caller, since, -, he⟩
      · rwa [he]
      · rw [he]
        exact h
  | merge i now mono =>
      rcases s.merge_cases i now mono with ⟨he, hcall⟩ | ⟨caller, facts, hcall, he⟩
      · rw [he]
        exact iff_of_true h fun caller facts hcall' => absurd hcall' (hcall caller facts)
      · have hstorms := merge_storms (s.node caller) facts (s.name caller.other) now mono
        rw [noteConflicts_storms, h caller] at hstorms
        rw [he]
        constructor
        · intro hno caller' facts' hcall'
          obtain ⟨rfl, rfl⟩ : caller = caller' ∧ facts = facts' := by
            simpa [hcall] using hcall'
          have hzero := hno caller
          simp only [Function.update_self] at hzero
          rw [hstorms] at hzero
          split at hzero
          · cases hzero
          · rename_i hcalm
            by_contra hcrowd
            simp only [not_or, not_lt, Bool.not_eq_false] at hcrowd
            exact hcalm hcrowd
        · intro hcalm side
          by_cases hside : side = caller
          · subst hside
            simp only [Function.update_self]
            rw [hstorms, if_neg]
            rintro ⟨hne, hcontroller, hcrowd⟩
            rcases hcalm side facts hcall with hzero | hoff | hlt
            · exact hne hzero
            · rw [hcontroller] at hoff
              cases hoff
            · exact absurd hcrowd (not_le.2 hlt)
          · simp only [Function.update_of_ne hside]
            exact h side

/-- The runs without a storm are the calm ones, whatever the two stores start with and
however the calls are interleaved. -/
theorem storm_free_iff (name : Side → Str) (guard : Side → ConflictGuard)
    (store : Side → SemanticMemory μ) (ops : List Op) :
    Always step NoStorm (start name guard store) ops ↔ Meets step Calm (start name guard store) ops :=
  always_iff_meets (I := fun _ => True) (fun _ _ _ => trivial)
    (fun _ op _ h => noStorm_step h op) trivial fun _ => rfl

/-- The default settings. -/
def defaultGuard : ConflictGuard := ⟨20, 60, true, by decide, by norm_num⟩

/-- A table of `n` facts of one letter each, one a second. -/
def letters : Nat → SemanticMemory Unit
  | 0 => .empty
  | n + 1 => (letters n).storeFact n [Fin.ofNat 0x110000 (97 + n)] (lit "fact") 1 () none

/-- An empty runtime and one with twenty facts, and one sync of each with the other. -/
theorem echo_is_a_storm :
    let store : Side → SemanticMemory Unit := fun
      | .a => .empty
      | .b => letters 20
    (∀ c, c ∈ (store .a).contents → c ∉ (store .b).contents) ∧
      ¬ NoStorm (run step (start (fun _ => lit "peer") (fun _ => defaultGuard) store)
        [.sync .a, .reply 0, .merge 0 100 0, .sync .b, .reply 1, .merge 1 101 1]) := by
  refine ⟨by decide +kernel, fun h => ?_⟩
  have hb := h .b
  revert hb
  decide +kernel

end Pair

end ShugoCore
