import Mathlib.Logic.Function.Basic
import ShugoCore.Lib.Dict
import ShugoCore.Lib.Run
import ShugoCore.Memory.Semantic

/-!
# Incremental sync with peers

`ShugonetAgentRuntime.sync` asks a peer for the facts after the peer's watermark,
merges the reply, and moves the watermark to the time stamp of the last fact it
received.  A call has three steps here, so that calls of other threads and
`store_fact` calls on the peer can fall between them: the request reads the
watermark, the peer builds its reply, and the caller merges it.

Beside the state stands its history: the row ids of each peer that a reply has
delivered, and with each reply the rows the peer held when it was built.

A watermark is a time stamp with a resolution of one second, and a page is cut
after 200 rows.  So the second of a watermark can hold rows that no reply will
carry: those stored after the page was built, and those that the cut left out.
`NoTie` says that neither happens, and under it a sync that receives nothing has
nothing left to receive.
-/

namespace ShugoCore

open Py Machine

/-- What a call of `sync` returned.  `held` is what the peer held when it built its reply. -/
structure SyncReport (μ : Type) where
  peer : Str
  received : Nat
  imported : Nat
  duplicates : Nat
  held : List (FactRow μ)

/-- A call of `sync`. -/
inductive SyncCall (μ : Type) where
  /-- The request is on its way, with the watermark it was made with. -/
  | requested (peer : Str) (since : Option IsoSeconds)
  /-- The reply is on its way, with what the peer held when it was built. -/
  | answered (peer : Str) (facts held : List (FactRow μ))
  | returned (report : SyncReport μ)

/-- The peer and the watermark of a request on its way. -/
def SyncCall.request? {μ : Type} : SyncCall μ → Option (Str × Option IsoSeconds)
  | .requested peer since => some (peer, since)
  | _ => none

/-- The report of a call that has returned. -/
def SyncCall.report? {μ : Type} : SyncCall μ → Option (SyncReport μ)
  | .returned report => some report
  | _ => none

/-- A runtime, the Tier 2 stores of its peers, and the calls made so far. -/
structure Mesh (μ : Type) where
  outbound : List Str
  stores : Str → SemanticMemory μ
  watermarks : Dict Str IsoSeconds
  memory : SemanticMemory μ
  calls : List (SyncCall μ)
  /-- The ids of the peer's rows that a merged reply carried. -/
  delivered : Str → List Nat

namespace Mesh

variable {μ : Type}

/-- What can happen next.  A step of a call that is not at that point does nothing. -/
inductive Op (μ : Type) where
  | storeFact (peer : Str) (now : Seconds) (content kind : Str) (salience : ℚ) (metadata : μ)
      (shared : Option (Str × IsoSeconds))
  | sync (peer : Option Str)
  | reply (call : Nat)
  | merge (call : Nat) (now : Seconds)

/-- A runtime that has not synced yet. -/
def start (outbound : List Str) (stores : Str → SemanticMemory μ) (memory : SemanticMemory μ) :
    Mesh μ where
  outbound := outbound
  stores := stores
  watermarks := []
  memory := memory
  calls := []
  delivered := fun _ => []

/-- `peer or next(iter(self._outbound.keys()), None)`. -/
def target (s : Mesh μ) : Option Str → Option Str
  | some peer => if peer.isEmpty then s.outbound.head? else some peer
  | none => s.outbound.head?

/-- The first part of `sync`: refuse an unknown peer, or send the request. -/
def sync (s : Mesh μ) (peer : Option Str) : Mesh μ :=
  match s.target peer with
  | none => s
  | some pid =>
      if pid ∈ s.outbound then
        { s with calls := s.calls ++ [.requested pid (s.watermarks.get? pid)] }
      else s

/-- The default `limit` of `export_shared_facts`. -/
def exportLimit : Int := 200

/-- `_dispatch_message` on the peer, for a `sync` message. -/
def reply (s : Mesh μ) (i : Nat) : Mesh μ :=
  match s.calls[i]? with
  | some (.requested pid since) =>
      { s with
        calls := s.calls.set i
          (.answered pid ((s.stores pid).factsSince since exportLimit) (s.stores pid).rows) }
  | _ => s

/-- The watermarks after a reply: the time stamp of the last fact, if there is one. -/
def advance (watermarks : Dict Str IsoSeconds) (pid : Str) (facts : List (FactRow μ)) :
    Dict Str IsoSeconds :=
  match facts.getLast? with
  | some newest => watermarks.set pid newest.createdAt
  | none => watermarks

/-- The history after a reply. -/
def deliver (delivered : Str → List Nat) (pid : Str) (facts : List (FactRow μ)) : Str → List Nat :=
  Function.update delivered pid (delivered pid ++ facts.map FactRow.id)

/-- The last part of `sync`: merge the reply and move the watermark. -/
def merge (s : Mesh μ) (i : Nat) (now : Seconds) : Mesh μ :=
  match s.calls[i]? with
  | some (.answered pid facts held) =>
      let merged := importSharedFacts s.memory (facts.map FactRow.shareable) pid now
      { s with
        memory := merged.1
        watermarks := advance s.watermarks pid facts
        calls := s.calls.set i
          (.returned ⟨pid, facts.length, merged.2.imported, merged.2.duplicates, held⟩)
        delivered := deliver s.delivered pid facts }
  | _ => s

/-- `store_fact` on a peer. -/
def storeFact (s : Mesh μ) (pid : Str) (now : Seconds) (content kind : Str) (salience : ℚ)
    (metadata : μ) (shared : Option (Str × IsoSeconds)) : Mesh μ :=
  { s with
    stores := Function.update s.stores pid
      ((s.stores pid).storeFact now content kind salience metadata shared) }

/-- One step of a run. -/
def step (s : Mesh μ) : Op μ → Mesh μ
  | .storeFact pid now content kind salience metadata shared =>
      s.storeFact pid now content kind salience metadata shared
  | .sync peer => s.sync peer
  | .reply i => s.reply i
  | .merge i now => s.merge i now

/-! ## Cuts

A cut of a peer is a time stamp that a later request will go on from: the
watermark, the watermark of a request on its way, and the last time stamp of a
reply on its way.  The page of such a reply goes with the cut. -/

/-- The cut of a call. -/
def callCut (pid : Str) : SyncCall μ → Option (IsoSeconds × List (FactRow μ))
  | .requested peer since => if peer = pid then since.map fun w => (w, []) else none
  | .answered peer facts _ =>
      if peer = pid then facts.getLast?.map fun newest => (newest.createdAt, facts) else none
  | .returned .. => none

/-- The cuts of a peer. -/
def cuts (s : Mesh μ) (pid : Str) : List (IsoSeconds × List (FactRow μ)) :=
  ((s.watermarks.get? pid).map fun w => (w, [])).toList ++ s.calls.filterMap (callCut pid)

/-- Whatever is not after a cut is delivered, or on the page that goes with the cut. -/
def Complete (s : Mesh μ) : Prop :=
  ∀ pid, ∀ cut ∈ s.cuts pid, ∀ row ∈ (s.stores pid).rows, row.createdAt ≤ cut.1 →
    row.id ∈ s.delivered pid ∨ row ∈ cut.2

/-- The page that a request gets does not end between two rows of one second,
unless the second of them is delivered already. -/
def CleanPage (s : Mesh μ) (pid : Str) (since : Option IsoSeconds) : Prop :=
  ∀ newest ∈ ((s.stores pid).factsSince since exportLimit).getLast?,
    ∀ row ∈ ((s.stores pid).newer since).drop (SemanticMemory.pageSize exportLimit),
      newest.createdAt < row.createdAt ∨ row.id ∈ s.delivered pid

/-- No row is stored in the second of a cut or before it, and every page is clean. -/
def NoTie (s : Mesh μ) : Op μ → Prop
  | .storeFact pid now .. => ∀ cut ∈ s.cuts pid, cut.1 < utcNowIso now
  | .reply i => ∀ call ∈ s.calls[i]?, ∀ q ∈ call.request?, s.CleanPage q.1 q.2
  | _ => True

/-- A call that returned `received = 0` found everything delivered that the peer
held when it built the reply. -/
def NothingLeft (s : Mesh μ) : Prop :=
  ∀ call ∈ s.calls, ∀ report ∈ call.report?, report.received = 0 →
    ∀ row ∈ report.held, row.id ∈ s.delivered report.peer

instance (s : Mesh μ) (pid : Str) (since : Option IsoSeconds) :
    Decidable (s.CleanPage pid since) := by
  simp only [CleanPage]
  infer_instance

instance (s : Mesh μ) : ∀ op : Op μ, Decidable (s.NoTie op)
  | .storeFact pid now .. => inferInstanceAs (Decidable (∀ cut ∈ s.cuts pid, cut.1 < utcNowIso now))
  | .sync _ => inferInstanceAs (Decidable True)
  | .reply i =>
      inferInstanceAs (Decidable (∀ call ∈ s.calls[i]?, ∀ q ∈ call.request?, s.CleanPage q.1 q.2))
  | .merge .. => inferInstanceAs (Decidable True)

instance (s : Mesh μ) : Decidable s.NothingLeft := by
  simp only [NothingLeft]
  infer_instance

/-! ## What a step does to the cuts -/

theorem mem_cuts {s : Mesh μ} {pid : Str} {cut : IsoSeconds × List (FactRow μ)} :
    cut ∈ s.cuts pid ↔
      (∃ w, s.watermarks.get? pid = some w ∧ cut = (w, [])) ∨
        ∃ call ∈ s.calls, callCut pid call = some cut := by
  rw [cuts, List.mem_append, List.mem_filterMap, Option.mem_toList, Option.map_eq_some_iff]
  simp only [eq_comm]

theorem callCut_requested {pid peer : Str} {since : Option IsoSeconds}
    {cut : IsoSeconds × List (FactRow μ)} :
    callCut pid (.requested peer since) = some cut ↔
      peer = pid ∧ ∃ w, since = some w ∧ cut = (w, []) := by
  by_cases h : peer = pid <;> simp [callCut, h, eq_comm]

theorem callCut_answered {pid peer : Str} {facts held : List (FactRow μ)}
    {cut : IsoSeconds × List (FactRow μ)} :
    callCut pid (.answered peer facts held) = some cut ↔
      peer = pid ∧ ∃ newest, facts.getLast? = some newest ∧ cut = (newest.createdAt, facts) := by
  by_cases h : peer = pid <;> simp [callCut, h, eq_comm]

theorem sync_cases (s : Mesh μ) (peer : Option Str) :
    s.sync peer = s ∨
      ∃ pid, s.sync peer =
        { s with calls := s.calls ++ [.requested pid (s.watermarks.get? pid)] } := by
  simp only [sync]
  split
  · exact .inl rfl
  · rename_i pid _
    split
    · exact .inr ⟨pid, rfl⟩
    · exact .inl rfl

theorem reply_cases (s : Mesh μ) (i : Nat) :
    (s.reply i = s ∧ ∀ call ∈ s.calls[i]?, call.request? = none) ∨
      ∃ pid since, s.calls[i]? = some (.requested pid since) ∧
        s.reply i =
          { s with
            calls := s.calls.set i
              (.answered pid ((s.stores pid).factsSince since exportLimit)
                (s.stores pid).rows) } := by
  simp only [reply]
  split
  · rename_i pid since h
    exact .inr ⟨pid, since, h, rfl⟩
  · rename_i h
    refine .inl ⟨rfl, ?_⟩
    intro call hcall
    cases call with
    | requested pid since => exact absurd hcall (h pid since)
    | answered pid facts held => rfl
    | returned report => rfl

theorem merge_cases (s : Mesh μ) (i : Nat) (now : Seconds) :
    s.merge i now = s ∨
      ∃ pid facts held memory imported duplicates,
        s.calls[i]? = some (.answered pid facts held) ∧
        s.merge i now =
          { s with
            memory := memory
            watermarks := advance s.watermarks pid facts
            calls := s.calls.set i (.returned ⟨pid, facts.length, imported, duplicates, held⟩)
            delivered := deliver s.delivered pid facts } := by
  simp only [merge]
  split
  · rename_i pid facts held h
    exact .inr ⟨pid, facts, held, _, _, _, h, rfl⟩
  · exact .inl rfl

/-- A new request starts at the watermark. -/
theorem mem_cuts_sync {s : Mesh μ} {peer : Option Str} {pid : Str}
    {cut : IsoSeconds × List (FactRow μ)} (h : cut ∈ (s.sync peer).cuts pid) :
    cut ∈ s.cuts pid := by
  rcases s.sync_cases peer with he | ⟨p, he⟩
  · rwa [he] at h
  · rw [he, mem_cuts] at h
    rw [mem_cuts]
    rcases h with h | ⟨call, hcall, hcut⟩
    · exact .inl h
    · rcases List.mem_append.1 hcall with hcall | hcall
      · exact .inr ⟨call, hcall, hcut⟩
      · rw [List.mem_singleton.1 hcall, callCut_requested] at hcut
        obtain ⟨rfl, hw⟩ := hcut
        exact .inl hw

/-- A reply adds the cut at the end of its page. -/
theorem mem_cuts_reply {s : Mesh μ} {i : Nat} {pid p : Str}
    {facts held : List (FactRow μ)} {cut : IsoSeconds × List (FactRow μ)}
    (h : cut ∈ Mesh.cuts { s with calls := s.calls.set i (.answered p facts held) } pid) :
    cut ∈ s.cuts pid ∨
      p = pid ∧ ∃ newest, facts.getLast? = some newest ∧ cut = (newest.createdAt, facts) := by
  rcases mem_cuts.1 h with h | ⟨call, hcall, hcut⟩
  · exact .inl (mem_cuts.2 (.inl h))
  · rcases List.mem_or_eq_of_mem_set hcall with hcall | rfl
    · exact .inl (mem_cuts.2 (.inr ⟨call, hcall, hcut⟩))
    · exact .inr (callCut_answered.1 hcut)

theorem mem_deliver {delivered : Str → List Nat} {pid p : Str} {facts : List (FactRow μ)}
    {id : Nat} :
    id ∈ deliver delivered pid facts p ↔
      id ∈ delivered p ∨ pid = p ∧ ∃ row ∈ facts, row.id = id := by
  simp only [deliver]
  by_cases hp : p = pid
  · subst hp
    simp
  · simp [Function.update_of_ne hp, Ne.symm hp]

theorem advance_cases {watermarks : Dict Str IsoSeconds} {pid p : Str}
    {facts : List (FactRow μ)} {w : IsoSeconds} (h : (advance watermarks p facts).get? pid = some w) :
    watermarks.get? pid = some w ∨
      p = pid ∧ ∃ newest, facts.getLast? = some newest ∧ w = newest.createdAt := by
  unfold advance at h
  split at h
  · rename_i newest hn
    by_cases hp : p = pid
    · subst hp
      rw [Dict.get?_set_self] at h
      exact .inr ⟨rfl, newest, hn, (Option.some.inj h).symm⟩
    · rw [Dict.get?_set_of_ne _ hp] at h
      exact .inl h
  · exact .inl h

/-- A merged reply moves its cut to the watermark. -/
theorem mem_cuts_merge {s : Mesh μ} {i : Nat} {pid p : Str} {facts : List (FactRow μ)}
    {memory : SemanticMemory μ} {report : SyncReport μ} {delivered : Str → List Nat}
    {cut : IsoSeconds × List (FactRow μ)}
    (h : cut ∈ Mesh.cuts
      { s with
        memory := memory
        watermarks := advance s.watermarks p facts
        calls := s.calls.set i (.returned report)
        delivered := delivered } pid) :
    cut ∈ s.cuts pid ∨
      p = pid ∧ ∃ newest, facts.getLast? = some newest ∧ cut = (newest.createdAt, []) := by
  rcases mem_cuts.1 h with ⟨w, hw, rfl⟩ | ⟨call, hcall, hcut⟩
  · rcases advance_cases hw with hw | ⟨hp, newest, hn, rfl⟩
    · exact .inl (mem_cuts.2 (.inl ⟨w, hw, rfl⟩))
    · exact .inr ⟨hp, newest, hn, rfl⟩
  · rcases List.mem_or_eq_of_mem_set hcall with hcall | rfl
    · exact .inl (mem_cuts.2 (.inr ⟨call, hcall, hcut⟩))
    · exact absurd hcut (by simp [callCut])

/-- The cut of a reply on its way. -/
theorem answered_mem_cuts {s : Mesh μ} {i : Nat} {pid : Str} {facts held : List (FactRow μ)}
    {newest : FactRow μ} (h : s.calls[i]? = some (.answered pid facts held))
    (hn : facts.getLast? = some newest) : (newest.createdAt, facts) ∈ s.cuts pid :=
  mem_cuts.2 (.inr ⟨_, List.mem_of_getElem? h, callCut_answered.2 ⟨rfl, newest, hn, rfl⟩⟩)

/-! ## Row ids -/

/-- Delivered rows and rows on their way have been given their ids by the peer. -/
def Numbered (s : Mesh μ) : Prop :=
  ∀ pid, (∀ id ∈ s.delivered pid, id < (s.stores pid).nextId) ∧
    ∀ cut ∈ s.cuts pid, ∀ row ∈ cut.2, row.id < (s.stores pid).nextId

theorem Numbered.storeFact {s : Mesh μ} (h : s.Numbered) (pid : Str) (now : Seconds)
    (content kind : Str) (salience : ℚ) (metadata : μ) (shared : Option (Str × IsoSeconds)) :
    (s.storeFact pid now content kind salience metadata shared).Numbered := by
  intro p
  have hle : (s.stores p).nextId ≤
      ((s.storeFact pid now content kind salience metadata shared).stores p).nextId := by
    by_cases hp : p = pid
    · subst hp
      simp [Mesh.storeFact, SemanticMemory.storeFact, SemanticMemory.insert]
    · simp [Mesh.storeFact, Function.update_of_ne hp]
  refine ⟨fun id hid => ((h p).1 id hid).trans_le hle, ?_⟩
  intro cut hcut row hrow
  exact ((h p).2 cut hcut row hrow).trans_le hle

theorem Numbered.step {s : Mesh μ} (h : s.Numbered) (op : Op μ) : (s.step op).Numbered := by
  cases op with
  | storeFact pid now content kind salience metadata shared =>
      exact h.storeFact pid now content kind salience metadata shared
  | sync peer =>
      intro p
      have hd : (s.sync peer).delivered = s.delivered ∧ (s.sync peer).stores = s.stores := by
        rcases s.sync_cases peer with he | ⟨q, he⟩ <;> rw [he] <;> exact ⟨rfl, rfl⟩
      show (∀ id ∈ (s.sync peer).delivered p, id < ((s.sync peer).stores p).nextId) ∧ _
      rw [hd.1]
      refine ⟨by rw [hd.2]; exact (h p).1, ?_⟩
      intro cut hcut row hrow
      show row.id < ((s.sync peer).stores p).nextId
      rw [hd.2]
      exact (h p).2 cut (mem_cuts_sync hcut) row hrow
  | reply i =>
      rcases s.reply_cases i with ⟨he, -⟩ | ⟨pid, since, -, he⟩
      · rw [Mesh.step, he]
        exact h
      · rw [Mesh.step, he]
        intro p
        refine ⟨(h p).1, ?_⟩
        intro cut hcut row hrow
        rcases mem_cuts_reply hcut with hcut | ⟨rfl, newest, -, rfl⟩
        · exact (h p).2 cut hcut row hrow
        · exact (s.stores pid).below row (SemanticMemory.mem_rows_of_mem_factsSince hrow)
  | merge i now =>
      rcases s.merge_cases i now with he | ⟨pid, facts, held, memory, imp, dup, hcall, he⟩
      · rw [Mesh.step, he]
        exact h
      · rw [Mesh.step, he]
        intro p
        refine ⟨?_, ?_⟩
        · intro id hid
          rcases mem_deliver.1 hid with hid | ⟨rfl, row, hrow, rfl⟩
          · exact (h p).1 id hid
          · have hlast := List.getLast?_eq_some_getLast (List.ne_nil_of_mem hrow)
            exact (h pid).2 _ (answered_mem_cuts hcall hlast) row hrow
        · intro cut hcut row hrow
          rcases mem_cuts_merge hcut with hcut | ⟨-, newest, -, rfl⟩
          · exact (h p).2 cut hcut row hrow
          · exact absurd hrow (List.not_mem_nil)

/-! ## Exactly the ties lose rows -/

theorem complete_storeFact {s : Mesh μ} (hi : s.Numbered) (h : s.Complete) (pid : Str)
    (now : Seconds) (content kind : Str) (salience : ℚ) (metadata : μ)
    (shared : Option (Str × IsoSeconds)) :
    (s.storeFact pid now content kind salience metadata shared).Complete ↔
      ∀ cut ∈ s.cuts pid, cut.1 < utcNowIso now := by
  have hrows : ∀ p row,
      row ∈ ((s.storeFact pid now content kind salience metadata shared).stores p).rows ↔
        row ∈ (s.stores p).rows ∨
          pid = p ∧ row = (s.stores pid).rowOf now content kind salience metadata shared := by
    intro p row
    by_cases hp : p = pid
    · subst hp
      simp [storeFact, SemanticMemory.storeFact, SemanticMemory.insert]
    · simp [storeFact, Function.update_of_ne hp, Ne.symm hp]
  constructor
  · intro hc cut hcut
    by_contra hlt
    rcases hc pid cut hcut _ ((hrows pid _).2 (.inr ⟨rfl, rfl⟩)) (not_lt.1 hlt) with hd | hd
    · exact absurd ((hi pid).1 _ hd) (Nat.lt_irrefl _)
    · exact absurd ((hi pid).2 cut hcut _ hd) (Nat.lt_irrefl _)
  · intro hlt p cut hcut row hrow hle
    rcases (hrows p row).1 hrow with hrow | ⟨rfl, rfl⟩
    · exact h p cut hcut row hrow hle
    · exact absurd (hlt cut hcut) (not_lt.2 hle)

theorem complete_sync {s : Mesh μ} (h : s.Complete) (peer : Option Str) :
    (s.sync peer).Complete := by
  have hd : (s.sync peer).delivered = s.delivered ∧ (s.sync peer).stores = s.stores := by
    rcases s.sync_cases peer with he | ⟨q, he⟩ <;> rw [he] <;> exact ⟨rfl, rfl⟩
  intro p cut hcut row hrow hle
  rw [hd.2] at hrow
  rw [hd.1]
  exact h p cut (mem_cuts_sync hcut) row hrow hle

theorem complete_reply {s : Mesh μ} (h : s.Complete) {i : Nat} {pid : Str}
    {since : Option IsoSeconds} (hcall : s.calls[i]? = some (.requested pid since)) :
    Mesh.Complete
        { s with
          calls := s.calls.set i
            (.answered pid ((s.stores pid).factsSince since exportLimit) (s.stores pid).rows) } ↔
      s.CleanPage pid since := by
  constructor
  · intro hc newest hn row hrow
    have hi : i < s.calls.length := (List.getElem?_eq_some_iff.1 hcall).1
    have hcut := hc pid (newest.createdAt, (s.stores pid).factsSince since exportLimit)
      (answered_mem_cuts (List.getElem?_set_self hi) hn) row
      (SemanticMemory.mem_newer.1 (List.mem_of_mem_drop hrow)).1
    by_contra hno
    rw [not_or, not_lt] at hno
    rcases hcut hno.1 with hd | hd
    · exact hno.2 hd
    · exact SemanticMemory.factsSince_disjoint hd hrow rfl
  · intro hclean p cut hcut row hrow hle
    rcases mem_cuts_reply hcut with hcut | ⟨rfl, newest, hn, rfl⟩
    · exact h p cut hcut row hrow hle
    · -- The row is before the request's watermark, on the page, or cut off by the page's limit.
      rcases (s.stores pid).row_cases since exportLimit hrow with ⟨w, hw, hle'⟩ | hpage | hrest
      · have hold : (w, []) ∈ s.cuts pid :=
          mem_cuts.2 (.inr ⟨_, List.mem_of_getElem? hcall, callCut_requested.2 ⟨rfl, w, hw, rfl⟩⟩)
        exact .inl ((h pid _ hold row hrow hle').resolve_right List.not_mem_nil)
      · exact .inr hpage
      · exact .inl ((hclean newest hn row hrest).resolve_left (not_lt.2 hle))

theorem complete_merge {s : Mesh μ} (h : s.Complete) (i : Nat) (now : Seconds) :
    (s.merge i now).Complete := by
  rcases s.merge_cases i now with he | ⟨pid, facts, held, memory, imp, dup, hcall, he⟩
  · rw [he]
    exact h
  · rw [he]
    intro p cut hcut row hrow hle
    rcases mem_cuts_merge hcut with hcut | ⟨rfl, newest, hn, rfl⟩
    · exact (h p cut hcut row hrow hle).imp_left fun hd => mem_deliver.2 (.inl hd)
    · left
      rcases h pid _ (answered_mem_cuts hcall hn) row hrow hle with hd | hd
      · exact mem_deliver.2 (.inl hd)
      · exact mem_deliver.2 (.inr ⟨rfl, row, hd, rfl⟩)

/-- One step keeps the mesh complete exactly when it makes no tie. -/
theorem complete_step {s : Mesh μ} (hi : s.Numbered) (h : s.Complete) (op : Op μ) :
    (s.step op).Complete ↔ s.NoTie op := by
  cases op with
  | storeFact pid now content kind salience metadata shared =>
      exact complete_storeFact hi h pid now content kind salience metadata shared
  | sync peer => exact iff_of_true (complete_sync h peer) trivial
  | reply i =>
      rcases s.reply_cases i with ⟨he, hno⟩ | ⟨pid, since, hcall, he⟩
      · rw [step, he]
        refine iff_of_true h ?_
        intro call hcall q hq
        rw [hno call hcall] at hq
        exact absurd hq (Option.not_mem_none q)
      · rw [step, he, complete_reply h hcall]
        simp [NoTie, hcall, SyncCall.request?]
  | merge i now => exact iff_of_true (complete_merge h i now) trivial

/-! ## Replies without facts -/

/-- The peer, the number of facts and the rows held, for a call that has its reply. -/
def answer? : SyncCall μ → Option (Str × Nat × List (FactRow μ))
  | .requested .. => none
  | .answered peer facts held => some (peer, facts.length, held)
  | .returned report => some (report.peer, report.received, report.held)

/-- A reply without facts found every row of its peer delivered. -/
def EmptyReplies (s : Mesh μ) : Prop :=
  ∀ call ∈ s.calls, ∀ pid held, answer? call = some (pid, 0, held) →
    ∀ row ∈ held, row.id ∈ s.delivered pid

theorem EmptyReplies.nothingLeft {s : Mesh μ} (h : s.EmptyReplies) : s.NothingLeft := by
  intro call hcall report hr hzero
  cases call with
  | requested pid since => exact absurd hr (Option.not_mem_none _)
  | answered pid facts held => exact absurd hr (Option.not_mem_none _)
  | returned r =>
      obtain rfl : r = report := Option.some.inj hr
      exact h _ hcall r.peer r.held (by rw [answer?, hzero])

/-- An empty page leaves no row after the watermark it was asked for. -/
theorem emptyReplies_reply {s : Mesh μ} (hc : s.Complete) (h : s.EmptyReplies) {i : Nat}
    {pid : Str} {since : Option IsoSeconds}
    (hcall : s.calls[i]? = some (.requested pid since)) :
    Mesh.EmptyReplies
      { s with
        calls := s.calls.set i
          (.answered pid ((s.stores pid).factsSince since exportLimit) (s.stores pid).rows) } := by
  intro call hmem p held ha row hrow
  rcases List.mem_or_eq_of_mem_set hmem with hmem | rfl
  · exact h call hmem p held ha row hrow
  · obtain ⟨rfl, hlen, rfl⟩ : pid = p ∧
        ((s.stores pid).factsSince since exportLimit).length = 0 ∧ (s.stores pid).rows = held := by
      simpa [answer?] using ha
    have hnil : (s.stores pid).newer since = [] := by
      have := List.length_eq_zero_iff.1 hlen
      rw [SemanticMemory.factsSince, List.take_eq_nil_iff] at this
      exact this.resolve_left (by decide)
    rcases (s.stores pid).row_cases since exportLimit hrow with ⟨w, hw, hle⟩ | hpage | hrest
    · have hold : (w, []) ∈ s.cuts pid :=
        mem_cuts.2 (.inr ⟨_, List.mem_of_getElem? hcall, callCut_requested.2 ⟨rfl, w, hw, rfl⟩⟩)
      exact (hc pid _ hold row hrow hle).resolve_right List.not_mem_nil
    · rw [List.length_eq_zero_iff.1 hlen] at hpage
      exact absurd hpage List.not_mem_nil
    · rw [hnil, List.drop_nil] at hrest
      exact absurd hrest List.not_mem_nil

theorem EmptyReplies.step {s : Mesh μ} (hc : s.Complete) (h : s.EmptyReplies) (op : Op μ) :
    (s.step op).EmptyReplies := by
  cases op with
  | storeFact pid now content kind salience metadata shared => exact h
  | sync peer =>
      rcases s.sync_cases peer with he | ⟨pid, he⟩
      · rw [Mesh.step, he]
        exact h
      · rw [Mesh.step, he]
        intro call hmem p held ha
        rcases List.mem_append.1 hmem with hmem | hmem
        · exact h call hmem p held ha
        · rw [List.mem_singleton.1 hmem] at ha
          exact absurd ha (by simp [answer?])
  | reply i =>
      rcases s.reply_cases i with ⟨he, -⟩ | ⟨pid, since, hcall, he⟩
      · rw [Mesh.step, he]
        exact h
      · rw [Mesh.step, he]
        exact emptyReplies_reply hc h hcall
  | merge i now =>
      rcases s.merge_cases i now with he | ⟨pid, facts, held, memory, imp, dup, hcall, he⟩
      · rw [Mesh.step, he]
        exact h
      · rw [Mesh.step, he]
        intro call hmem p held' ha row hrow
        refine mem_deliver.2 (.inl ?_)
        rcases List.mem_or_eq_of_mem_set hmem with hmem | rfl
        · exact h call hmem p held' ha row hrow
        · -- The report repeats the reply that it merged.
          exact h _ (List.mem_of_getElem? hcall) p held' ha row hrow

/-! ## Runs -/

theorem numbered_start (outbound : List Str) (stores : Str → SemanticMemory μ)
    (memory : SemanticMemory μ) : (start outbound stores memory).Numbered := by
  intro pid
  simp [start, cuts]

theorem complete_start (outbound : List Str) (stores : Str → SemanticMemory μ)
    (memory : SemanticMemory μ) : (start outbound stores memory).Complete := by
  intro pid cut hcut
  simp [start, cuts] at hcut

/-- The runs in which every cut stays complete are the runs without a tie. -/
theorem always_complete_iff (outbound : List Str) (stores : Str → SemanticMemory μ)
    (memory : SemanticMemory μ) (ops : List (Op μ)) :
    Always step Complete (start outbound stores memory) ops ↔
      Meets step NoTie (start outbound stores memory) ops :=
  always_iff_meets (I := Numbered) (fun _ op hi => hi.step op)
    (fun _ op hi hc => complete_step hi hc op) (numbered_start outbound stores memory)
    (complete_start outbound stores memory)

/-- In a run without a tie, over any peer stores and with any calls interleaved, a
sync that receives nothing has nothing left to receive. -/
theorem nothingLeft_of_noTie (outbound : List Str) (stores : Str → SemanticMemory μ)
    (memory : SemanticMemory μ) (ops : List (Op μ))
    (h : Meets step NoTie (start outbound stores memory) ops) :
    Always step NothingLeft (start outbound stores memory) ops := by
  have hempty : (start outbound stores memory).EmptyReplies := by
    intro call hcall
    exact absurd hcall List.not_mem_nil
  have hinv : Always step (fun s => s.Numbered ∧ s.Complete ∧ s.EmptyReplies)
      (start outbound stores memory) ops := by
    refine Always.of_inv ?_
      ⟨numbered_start outbound stores memory, complete_start outbound stores memory, hempty⟩ h
    rintro s op ⟨hi, hc, he⟩ hok
    exact ⟨hi.step op, (complete_step hi hc op).2 hok, he.step hc op⟩
  exact hinv.mono fun _ hs => hs.2.2.nothingLeft

/-- A store, a sync and a store on one peer, with an empty sync at the end. -/
def storeSyncStore (first second : Seconds) : List (Op Unit) :=
  let peer := lit "agent-b"
  [.storeFact peer first (lit "fact one") (lit "fact") 1 () none,
    .sync none, .reply 0, .merge 0 first,
    .storeFact peer second (lit "fact two") (lit "fact") 1 () none,
    .sync none, .reply 1, .merge 1 second,
    .sync none, .reply 2, .merge 2 second]

/-- Two stores in different seconds and three syncs, the last one empty. -/
theorem nothingLeft_two_seconds :
    Meets step NoTie (start [lit "agent-b"] (fun _ => .empty) .empty) (storeSyncStore 10 11) ∧
      Always step NothingLeft (start [lit "agent-b"] (fun _ => .empty) .empty)
        (storeSyncStore 10 11) ∧
      ((run step (start [lit "agent-b"] (fun _ => .empty) .empty) (storeSyncStore 10 11)).calls.map
        fun call => call.report?.map SyncReport.received) = [some 1, some 1, some 0] := by
  have h : Meets step NoTie (start [lit "agent-b"] (fun _ => .empty) .empty)
      (storeSyncStore 10 11) := by
    decide +kernel
  exact ⟨h, nothingLeft_of_noTie _ _ _ _ h, by decide +kernel⟩

/-- Two stores in one second: the second fact is stored after the page of the first
was built, and no sync receives it. -/
theorem same_second_fact_skipped :
    ¬ NothingLeft
      (run step (start [lit "agent-b"] (fun _ => .empty) .empty) (storeSyncStore 10 (10 + 1 / 2))) := by
  decide +kernel

end Mesh

end ShugoCore
