import ShugoCore.Lib.Dict
import ShugoCore.Memory.Import
import ShugoCore.Mesh.Requests

/-!
# Merging the reply to a sync

The part of `ShugonetAgentRuntime.sync` after the request, over any reply.  The facts go
to `_memory_import`, and the watermark goes to the time of the last one.

`_memory_import` turns an exception of the import into zero counts, and the watermark is
moved all the same.  So the entries after the one that raised are passed by, and no later
sync asks for them.
-/

namespace ShugoCore

open Py

/-- The parts of the runtime that the merge changes. -/
structure SyncNode (φ : Type) where
  /-- `_sync_watermarks`. -/
  watermarks : Dict Str (PyVal φ)
  memory : SemanticMemory (Obj φ)

/-- What the call returns. -/
inductive MergeReport where
  | unreachable
  | refused (reason : Str)
  /-- `facts[-1]` raises: the facts are a dictionary or a number. -/
  | raised
  | success (received imported duplicates : Nat)
deriving DecidableEq

variable {φ : Type} [Builtins φ]

/-- `_memory_import`. -/
def memoryImport (env : Importer φ) (m : SemanticMemory (Obj φ)) (facts : PyVal φ) (source : Str) :
    SemanticMemory (Obj φ) × ImportCounts :=
  match importFacts env m facts source with
  | (m, .ok counts) => (m, counts)
  | (m, .error _) => (m, ⟨0, 0, 0⟩)

/-- `facts[-1]`.  The keys of a reply are texts, so a dictionary has no such key. -/
def lastFact : PyVal φ → Option (PyVal φ)
  | .list entries => entries.getLast?
  | .str s => s.getLast?.map fun c => .str [c]
  | _ => none

/-- The time of an entry. -/
def createdAt : PyVal φ → PyVal φ
  | .dict fact => fetch (lit "created_at") fact
  | _ => .none

/-- `len(facts)`. -/
def factCount : PyVal φ → Nat
  | .list entries => entries.length
  | .str s => s.length
  | _ => 0

/-- `resp.get("facts") or []`. -/
def replyFacts (resp : Obj φ) : PyVal φ := orElse (fetch (lit "facts") resp) (.list [])

/-- The watermark that a last fact sets. -/
def newest (last : PyVal φ) : Option (PyVal φ) :=
  if truthy (createdAt last) then some (createdAt last) else none

/-- `sync`, from the reply on. -/
def syncReply (env : Importer φ) (pid : Str) (s : SyncNode φ) (resp : Reply φ) :
    SyncNode φ × MergeReport :=
  match answered resp with
  | .unreachable => (s, .unreachable)
  | .refused reason => (s, .refused reason)
  | .answer answer =>
      let facts := replyFacts answer
      let merged := memoryImport env s.memory facts pid
      let s := { s with memory := merged.1 }
      let report := MergeReport.success (factCount facts) merged.2.imported merged.2.duplicates
      if truthy facts then
        match lastFact facts with
        | none => (s, .raised)
        | some last =>
            match newest last with
            | some w => ({ s with watermarks := s.watermarks.set pid w }, report)
            | none => (s, report)
      else (s, report)

/-- The entries of a reply. -/
def replyEntries (resp : Reply φ) : List (PyVal φ) :=
  match answered resp with
  | .answer answer =>
      match replyFacts answer with
      | .list entries => entries
      | _ => []
  | _ => []

/-- The watermark that a reply moves to: the time of its last entry. -/
def movesTo (resp : Reply φ) : Option (PyVal φ) := (replyEntries resp).getLast?.bind newest

/-! ## What is passed by -/

/-- A reply that moves the watermark is an answer with a list of facts. -/
theorem movesTo_cases {resp : Reply φ} {w : PyVal φ} (h : movesTo resp = some w) :
    ∃ answer last, answered resp = .answer answer ∧
      replyFacts answer = .list (replyEntries resp) ∧
      lastFact (replyFacts answer) = some last ∧ newest last = some w := by
  unfold movesTo at h
  cases hlast : (replyEntries resp).getLast? with
  | none =>
      rw [hlast] at h
      cases h
  | some last =>
      rw [hlast] at h
      simp only [replyEntries] at hlast ⊢
      split at hlast
      · rename_i answer hanswer
        split at hlast
        · rename_i entries hfacts
          refine ⟨answer, last, hanswer, ?_, ?_, h⟩
          · simp only [hfacts]
          · rw [hfacts]
            exact hlast
        · cases hlast
      · cases hlast

/-- What is held after a reply that moves the watermark, and where the watermark is. -/
theorem syncReply_of_movesTo {env : Importer φ} {pid : Str} {s : SyncNode φ} {resp : Reply φ}
    {w : PyVal φ} (h : movesTo resp = some w) :
    (syncReply env pid s resp).1.watermarks.get? pid = some w ∧
      (syncReply env pid s resp).1.memory =
        (importEntries env (importOrigin pid) 0 s.memory ⟨0, 0, 0⟩ (replyEntries resp)).1 := by
  obtain ⟨answer, last, hanswer, hfacts, hlast, hnewest⟩ := movesTo_cases h
  have hne : replyEntries resp ≠ [] := by
    intro hnil
    rw [movesTo, hnil] at h
    cases h
  have htruthy : truthy (replyFacts answer) = true := by
    rw [hfacts]
    simp [truthy, hne]
  have himport : (memoryImport env s.memory (replyFacts answer) pid).1 =
      (importEntries env (importOrigin pid) 0 s.memory ⟨0, 0, 0⟩ (replyEntries resp)).1 := by
    have hsame : orElse (replyFacts answer) (.list []) = .list (replyEntries resp) := by
      rw [orElse, if_pos htruthy, hfacts]
    rw [memoryImport, importFacts, hsame]
    show Prod.fst (match importEntries env (importOrigin pid) 0 s.memory ⟨0, 0, 0⟩
      (replyEntries resp) with | (m, .ok counts) => (m, counts) | (m, .error _) => _) = _
    split
    · rename_i heq
      rw [heq]
    · rename_i heq
      rw [heq]
  have hsync : syncReply env pid s resp =
      ({ s with
          memory := (memoryImport env s.memory (replyFacts answer) pid).1
          watermarks := s.watermarks.set pid w },
        .success (factCount (replyFacts answer))
          (memoryImport env s.memory (replyFacts answer) pid).2.imported
          (memoryImport env s.memory (replyFacts answer) pid).2.duplicates) := by
    simp only [syncReply, hanswer, htruthy, if_true, hlast, hnewest]
  rw [hsync]
  exact ⟨Dict.get?_set_self .., himport⟩

/-- The watermark passes merged facts only, if and only if nothing that is new and as old
as the watermark stands at or after an entry that raises. -/
theorem watermark_passes_merged_iff (notAfter : PyVal φ → PyVal φ → Prop) (env : Importer φ)
    (pid : Str) (s : SyncNode φ) (resp : Reply φ) :
    (∀ w, movesTo resp = some w →
        (syncReply env pid s resp).1.watermarks.get? pid = some w ∧
          ∀ fact ∈ replyEntries resp, ∀ content, entryContent fact = some content →
            notAfter (createdAt fact) w →
            content ∈ (syncReply env pid s resp).1.memory.contents) ↔
      ∀ w, movesTo resp = some w →
        ∀ before entry after, replyEntries resp = before ++ entry :: after →
          EntryRaises env before.length (Held s.memory before) entry →
          ∀ fact ∈ entry :: after, ∀ content, entryContent fact = some content →
            notAfter (createdAt fact) w → Held s.memory before content := by
  refine forall_congr' fun w => forall_congr' fun hmoves => ?_
  obtain ⟨hmark, hmemory⟩ : (syncReply env pid s resp).1.watermarks.get? pid = some w ∧ _ :=
    syncReply_of_movesTo hmoves
  rw [hmemory]
  refine (and_iff_right hmark).trans ?_
  rcases importEntries_cases env (importOrigin pid) 0 s.memory ⟨0, 0, 0⟩ (replyEntries resp) with
    ⟨hquiet, hheld, -⟩ | ⟨before, entry, after, hsplit, hraise, hquiet, hheld, -⟩
  · -- The import gets through.
    constructor
    · intro _ before entry after hsplit hraise
      have hnot := hquiet before entry after hsplit
      rw [Nat.zero_add] at hnot
      exact absurd hraise hnot
    · intro _ fact hfact content hcontent _
      exact (hheld content).2 (.inr ⟨fact, hfact, hcontent⟩)
  · rw [Nat.zero_add] at hraise
    simp only [hheld]
    constructor
    · intro hall before' entry' after' hsplit' hraise' fact hfact content hcontent hdate
      have hmem : fact ∈ replyEntries resp := by
        rw [hsplit']
        exact List.mem_append_right _ hfact
      -- The first entry that raises is not after this one.
      have hpre : before <+: before' := first_raise hquiet hsplit hsplit' hraise'
      exact (hall fact hmem content hcontent hdate).mono hpre.subset
    · intro hcond fact hfact content hcontent hdate
      rw [hsplit, List.mem_append] at hfact
      rcases hfact with hfact | hfact
      · exact .inr ⟨fact, hfact, hcontent⟩
      · exact hcond before entry after hsplit hraise fact hfact content hcontent hdate

/-- `a <= b` of two texts. -/
def textLe : PyVal φ → PyVal φ → Prop
  | .str a, .str b => a ≤ b
  | _, _ => False

/-- An importer without a fault, on SQLite. -/
def Importer.plain : Importer WholeFloat :=
  ⟨.sqlite, 0, fun _ => none, fun _ => false, fun _ => false⟩

/-- Two facts, the first with metadata that is no mapping. -/
def poisonedReply : Reply WholeFloat :=
  some (.dict (obj [("type", .str (lit "sync_result")), ("facts", .list [
    .dict (obj [("content", .str (lit "a")), ("metadata", .int 1), ("created_at", .str (lit "1"))]),
    .dict (obj [("content", .str (lit "b")), ("created_at", .str (lit "2"))])])]))

/-- The second fact is passed by. -/
theorem fact_passed_by :
    ∃ w fact content, movesTo poisonedReply = some w ∧ fact ∈ replyEntries poisonedReply ∧
      entryContent fact = some content ∧ textLe (createdAt fact) w ∧
      content ∉ (syncReply Importer.plain (lit "b") ⟨[], .empty⟩ poisonedReply).1.memory.contents :=
  ⟨_, _, lit "b", rfl, List.mem_cons_of_mem _ List.mem_cons_self, by decide +kernel,
    le_refl (lit "2"), by decide +kernel⟩

end ShugoCore
