import ShugoCore.Lib.Run
import ShugoCore.Memory.Episodic

/-!
# Consolidation passes over a journalled ring

`MemoryManager.consolidate_now` drains Tier 1, stores the batch in Tier 2 with
`_consolidate_impl`, and acknowledges it.  The three parts are separate steps
here, so that a record of another thread, an exception or a crash can fall
between any two of them.

The history of a run is kept beside the memory.  Each event carries the number
of the `record` call that made it, because sequence numbers start again when a
memory is reopened over an empty journal.  `stored` collects the batches whose
`_consolidate_impl` completed, `failed` those of this process whose
`_consolidate_impl` raised.

`_batch_in_flight` is one flag, and a compaction rewrites the journal from the
ring alone.  So the copy of a failed batch goes with the next compaction, which
is the acknowledgement of a later batch or the drain after an empty one.
-/

namespace ShugoCore

open Machine

universe u

/-- Where the consolidation pass of the process stands. -/
inductive Pass (β : Type u) where
  | idle
  /-- `drain` has returned and `_consolidate_impl` is running. -/
  | storing (batch : List (Event β))
  /-- `_consolidate_impl` has returned and the batch is not acknowledged yet. -/
  | stored
deriving DecidableEq, Repr

/-- A manager, its journalled Tier 1 and the history of the run. -/
structure Manager (β : Type u) where
  tier1 : EpisodicMemory (Nat × β)
  pass : Pass (Nat × β)
  /-- The events of every `record` call, in call order. -/
  recorded : List (Event (Nat × β))
  /-- The batches whose `_consolidate_impl` completed. -/
  stored : List (Event (Nat × β))
  /-- The batches whose `_consolidate_impl` raised since the process started. -/
  failed : List (Event (Nat × β))
deriving DecidableEq

namespace Manager

variable {β : Type u}

/-- What can happen next.  A step of a pass that is not at that point does nothing. -/
inductive Op (β : Type u) where
  | record (stamp now : Seconds) (body : β)
  | recordRaises
  | drain
  | implCompletes
  | implRaises
  | markConsolidated
  /-- The process dies at this point and a new one opens the journal. -/
  | crash

/-- A first start, with no journal file yet. -/
def start (maxEvents : Int) (maxAgeHours : Option ℚ) : Manager β where
  tier1 := .init maxEvents (some []) maxAgeHours
  pass := .idle
  recorded := []
  stored := []
  failed := []

/-- One step of a run. -/
def step (s : Manager β) : Op β → Manager β
  | .record stamp now body =>
      let tagged := (s.recorded.length, body)
      { s with
        tier1 := s.tier1.record stamp now tagged
        recorded := s.recorded ++ [s.tier1.eventOf stamp tagged] }
  | .recordRaises => { s with tier1 := s.tier1.recordRaises }
  | .drain =>
      match s.pass with
      | .idle => { s with tier1 := s.tier1.drain.2, pass := .storing s.tier1.drain.1 }
      | _ => s
  | .implCompletes =>
      match s.pass with
      | .storing batch => { s with pass := .stored, stored := s.stored ++ batch }
      | _ => s
  | .implRaises =>
      match s.pass with
      | .storing batch => { s with pass := .idle, failed := s.failed ++ batch }
      | _ => s
  | .markConsolidated =>
      match s.pass with
      | .stored => { s with tier1 := s.tier1.markConsolidated, pass := .idle }
      | _ => s
  | .crash => { s with tier1 := s.tier1.reopen, pass := .idle, failed := [] }

/-- The events in the journal file. -/
def journal (s : Manager β) : List (Event (Nat × β)) := s.tier1.journal.getD []

/-- The batch that `_consolidate_impl` is working on. -/
def batch (s : Manager β) : List (Event (Nat × β)) :=
  match s.pass with
  | .storing batch => batch
  | _ => []

/-- No event is lost: each is in the ring, in the journal or in Tier 2, and a
batch that failed is replayed by the next start. -/
structure Kept (s : Manager β) : Prop where
  somewhere : ∀ e ∈ s.recorded, e ∈ s.tier1.events ∨ e ∈ s.journal ∨ e ∈ s.stored
  replayed : ∀ e ∈ s.failed, e ∉ s.stored → e ∈ s.tier1.reopen.events

/-- The step finds room in the ring and in the age window. -/
def HasRoom (s : Manager β) : Op β → Prop
  | .record stamp now _ => s.tier1.Room stamp now
  | _ => True

/-- The step rewrites the journal from the ring. -/
def Compacts (s : Manager β) : Op β → Prop
  | .drain => s.pass = .idle ∧ s.tier1.batchInFlight = false
  | .markConsolidated => s.pass = .stored
  | _ => False

instance [DecidableEq β] (s : Manager β) : (op : Op β) → Decidable (s.Compacts op)
  | .drain => inferInstanceAs (Decidable (_ ∧ _))
  | .markConsolidated => inferInstanceAs (Decidable (_ = _))
  | .record _ _ _ | .recordRaises | .implCompletes | .implRaises | .crash =>
      inferInstanceAs (Decidable False)

/-- The step rewrites the journal only when every batch that failed in this
process has been stored by another pass. -/
def Releases (s : Manager β) (op : Op β) : Prop :=
  s.Compacts op → ∀ e ∈ s.failed, e ∈ s.stored

instance [DecidableEq β] (s : Manager β) (op : Op β) : Decidable (s.Releases op) :=
  inferInstanceAs (Decidable (_ → _))

/-! ## What every step with room keeps -/

/-- The relation between ring, journal, running batch and history along a run. -/
structure Ordered (s : Manager β) : Prop where
  journalled : s.tier1.journal = some s.journal
  rising : EpisodicMemory.Rising s.journal
  positive : ∀ e ∈ s.journal, 0 < e.seq
  bounded : ∀ e ∈ s.journal, e.seq ≤ s.tier1.seq
  fits : s.journal.length ≤ s.tier1.maxlen
  ring : s.tier1.events.Sublist s.journal
  /-- A line of the journal that left the ring is of a batch. -/
  covered : ∀ e ∈ s.journal,
    e ∈ s.tier1.events ∨ e ∈ s.batch ∨ e ∈ s.failed ∨ e ∈ s.stored
  /-- The running batch keeps its copy. -/
  copied : ∀ e ∈ s.batch, e ∈ s.journal
  known : ∀ e, e ∈ s.journal ∨ e ∈ s.failed → e ∈ s.recorded
  /-- What was drained is older than what is in the ring now. -/
  older : ∀ e, e ∈ s.batch ∨ e ∈ s.failed →
    e.seq ≤ s.tier1.seq ∧ ∀ r ∈ s.tier1.events, e.seq < r.seq

/-- A start on an empty journal is ordered. -/
theorem ordered_start (maxEvents : Int) (maxAgeHours : Option ℚ) :
    (start maxEvents maxAgeHours : Manager β).Ordered := by
  constructor <;> simp [start, journal, batch, EpisodicMemory.init, EpisodicMemory.replayJournal,
    EpisodicMemory.Rising]

theorem Ordered.record {s : Manager β} (h : s.Ordered) {stamp now : Seconds}
    (hroom : s.tier1.Room stamp now) (body : β) : (s.step (.record stamp now body)).Ordered := by
  have hlen := h.ring.length_le
  have hrec := EpisodicMemory.record_of_room hroom h.journalled hlen (s.recorded.length, body)
  have hcap : s.journal.length < s.tier1.maxlen := by
    simpa [h.journalled] using hroom.capacity
  generalize he : s.tier1.eventOf stamp (s.recorded.length, body) = e at hrec
  have hseq : e.seq = s.tier1.seq + 1 := by rw [← he]; rfl
  have hstep : s.step (.record stamp now body) =
      { s with
        tier1 := { s.tier1 with
          seq := s.tier1.seq + 1
          events := s.tier1.events ++ [e]
          journal := some (s.journal ++ [e]) }
        recorded := s.recorded ++ [e] } := by
    simp only [step, hrec, he]
  rw [hstep]
  constructor
  · rfl
  · refine List.pairwise_append.2 ⟨h.rising, List.pairwise_singleton _ _, ?_⟩
    intro d hd e' he'
    rw [List.mem_singleton.1 he', hseq]
    exact Nat.lt_succ_of_le (h.bounded d hd)
  · intro d hd
    rcases List.mem_append.1 hd with hd | hd
    · exact h.positive d hd
    · rw [List.mem_singleton.1 hd, hseq]
      exact Nat.succ_pos _
  · intro d hd
    rcases List.mem_append.1 hd with hd | hd
    · exact Nat.le_succ_of_le (h.bounded d hd)
    · rw [List.mem_singleton.1 hd, hseq]
  · show (s.journal ++ [e]).length ≤ _
    rw [List.length_append]
    exact hcap
  · exact h.ring.append (List.Sublist.refl _)
  · intro d hd
    rcases List.mem_append.1 hd with hd | hd
    · exact (h.covered d hd).imp_left (List.mem_append_left _)
    · exact .inl (List.mem_append_right _ hd)
  · intro d hd
    exact List.mem_append_left _ (h.copied d hd)
  · rintro d (hd | hd)
    · rcases List.mem_append.1 hd with hd | hd
      · exact List.mem_append_left _ (h.known d (.inl hd))
      · exact List.mem_append_right _ hd
    · exact List.mem_append_left _ (h.known d (.inr hd))
  · intro d hd
    obtain ⟨hle, hlt⟩ := h.older d hd
    refine ⟨Nat.le_succ_of_le hle, ?_⟩
    intro r hr
    rcases List.mem_append.1 hr with hr | hr
    · exact hlt r hr
    · rw [List.mem_singleton.1 hr, hseq]
      exact Nat.lt_succ_of_le hle

theorem Ordered.recordRaises_eq {s : Manager β} (h : s.Ordered) :
    s.step .recordRaises = { s with tier1 := { s.tier1 with seq := s.tier1.seq + 1 } } := by
  simp [step, EpisodicMemory.recordRaises, h.journalled]

theorem Ordered.recordRaises {s : Manager β} (h : s.Ordered) : (s.step .recordRaises).Ordered := by
  rw [h.recordRaises_eq]
  refine { h with bounded := ?_, older := ?_ }
  · intro e he
    exact Nat.le_succ_of_le (h.bounded e he)
  · intro e he
    exact (h.older e he).imp_left Nat.le_succ_of_le

/-- A drain either compacts first or leaves the journal alone. -/
theorem Ordered.drain_cases {s : Manager β} (h : s.Ordered) (hidle : s.pass = .idle) :
    ∃ lines flag, s.step .drain =
        { s with
          tier1 := { s.tier1 with events := [], batchInFlight := flag, journal := some lines }
          pass := .storing s.tier1.events } ∧
      (s.tier1.batchInFlight = false ∧ lines = s.tier1.events ∨
        s.tier1.batchInFlight = true ∧ lines = s.journal) := by
  cases hf : s.tier1.batchInFlight with
  | false =>
      refine ⟨s.tier1.events, !s.tier1.events.isEmpty, ?_, .inl ⟨rfl, rfl⟩⟩
      simp [step, hidle, EpisodicMemory.drain, EpisodicMemory.compactJournal, h.journalled, hf]
  | true =>
      refine ⟨s.journal, !s.tier1.events.isEmpty, ?_, .inr ⟨rfl, rfl⟩⟩
      simp [step, hidle, EpisodicMemory.drain, h.journalled, hf]

theorem Ordered.drain {s : Manager β} (h : s.Ordered) : (s.step .drain).Ordered := by
  cases hp : s.pass with
  | storing batch => simpa [step, hp] using h
  | stored => simpa [step, hp] using h
  | idle =>
      obtain ⟨lines, flag, hstep, hlines⟩ := h.drain_cases hp
      have hsub : lines.Sublist s.journal := by
        rcases hlines with ⟨-, rfl⟩ | ⟨-, rfl⟩
        · exact h.ring
        · exact List.Sublist.refl _
      have hring : ∀ e ∈ s.tier1.events, e ∈ lines := by
        rcases hlines with ⟨-, rfl⟩ | ⟨-, rfl⟩
        · exact fun e he => he
        · exact fun e he => h.ring.subset he
      have hnone : s.batch = [] := by simp [batch, hp]
      rw [hstep]
      constructor
      · rfl
      · exact h.rising.sublist hsub
      · exact fun e he => h.positive e (hsub.subset he)
      · exact fun e he => h.bounded e (hsub.subset he)
      · exact Nat.le_trans hsub.length_le h.fits
      · exact List.nil_sublist _
      · -- What was in the ring is the batch now.
        intro e he
        have hc := h.covered e (hsub.subset he)
        rw [hnone] at hc
        rcases hc with hc | hc | hc
        · exact .inr (.inl hc)
        · cases hc
        · exact .inr (.inr hc)
      · exact hring
      · exact fun e he => h.known e (he.imp_left fun he => hsub.subset he)
      · rintro e he
        refine ⟨?_, by simp⟩
        rcases he with he | he
        · exact h.bounded e (h.ring.subset he)
        · exact (h.older e (.inr he)).1

theorem Ordered.implCompletes {s : Manager β} (h : s.Ordered) :
    (s.step .implCompletes).Ordered := by
  cases hp : s.pass with
  | idle => simpa [step, hp] using h
  | stored => simpa [step, hp] using h
  | storing b =>
      have hb : s.batch = b := by simp [batch, hp]
      have hstep : s.step .implCompletes = { s with pass := .stored, stored := s.stored ++ b } := by
        simp only [step, hp]
      rw [hstep]
      refine { h with covered := ?_, copied := by simp [batch], older := ?_ }
      · intro e he
        rcases h.covered e he with hc | hc | hc | hc
        · exact .inl hc
        · exact .inr (.inr (.inr (List.mem_append_right _ (hb ▸ hc))))
        · exact .inr (.inr (.inl hc))
        · exact .inr (.inr (.inr (List.mem_append_left _ hc)))
      · rintro e (he | he)
        · cases he
        · exact h.older e (.inr he)

theorem Ordered.implRaises {s : Manager β} (h : s.Ordered) : (s.step .implRaises).Ordered := by
  cases hp : s.pass with
  | idle => simpa [step, hp] using h
  | stored => simpa [step, hp] using h
  | storing b =>
      have hb : s.batch = b := by simp [batch, hp]
      have hstep : s.step .implRaises = { s with pass := .idle, failed := s.failed ++ b } := by
        simp only [step, hp]
      rw [hstep]
      refine { h with covered := ?_, copied := by simp [batch], known := ?_, older := ?_ }
      · intro e he
        rcases h.covered e he with hc | hc | hc | hc
        · exact .inl hc
        · exact .inr (.inr (.inl (List.mem_append_right _ (hb ▸ hc))))
        · exact .inr (.inr (.inl (List.mem_append_left _ hc)))
        · exact .inr (.inr (.inr hc))
      · rintro e (he | he)
        · exact h.known e (.inl he)
        · rcases List.mem_append.1 he with he | he
          · exact h.known e (.inr he)
          · exact h.known e (.inl (h.copied e (hb ▸ he)))
      · rintro e (he | he)
        · cases he
        · rcases List.mem_append.1 he with he | he
          · exact h.older e (.inr he)
          · exact h.older e (.inl (hb ▸ he))

theorem Ordered.mark_eq {s : Manager β} (h : s.Ordered) (hp : s.pass = .stored) :
    s.step .markConsolidated =
      { s with
        tier1 := { s.tier1 with batchInFlight := false, journal := some s.tier1.events }
        pass := .idle } := by
  simp [step, hp, EpisodicMemory.markConsolidated, EpisodicMemory.compactJournal, h.journalled]

theorem Ordered.markConsolidated {s : Manager β} (h : s.Ordered) :
    (s.step .markConsolidated).Ordered := by
  cases hp : s.pass with
  | idle => simpa [step, hp] using h
  | storing batch => simpa [step, hp] using h
  | stored =>
      rw [h.mark_eq hp]
      constructor
      · rfl
      · exact h.rising.sublist h.ring
      · exact fun e he => h.positive e (h.ring.subset he)
      · exact fun e he => h.bounded e (h.ring.subset he)
      · exact Nat.le_trans h.ring.length_le h.fits
      · exact List.Sublist.refl _
      · exact fun e he => .inl he
      · simp [batch]
      · exact fun e he => h.known e (he.imp_left fun he => h.ring.subset he)
      · rintro e (he | he)
        · cases he
        · exact h.older e (.inr he)

theorem Ordered.crash {s : Manager β} (h : s.Ordered) : (s.step .crash).Ordered := by
  obtain ⟨heq, hseq⟩ :=
    EpisodicMemory.reopen_of_rising h.journalled h.rising h.positive h.fits
  have hstep : s.step .crash =
      { s with
        tier1 := { s.tier1 with
          events := s.journal
          seq := s.tier1.reopen.seq
          batchInFlight := false }
        pass := .idle
        failed := [] } := by
    rw [← heq]
    rfl
  rw [hstep]
  constructor
  · exact h.journalled
  · exact h.rising
  · exact h.positive
  · exact hseq
  · exact h.fits
  · exact List.Sublist.refl _
  · exact fun e he => .inl he
  · simp [batch]
  · exact fun e he => h.known e (he.imp_right fun he => by cases he)
  · rintro e (he | he) <;> cases he

theorem Ordered.step {s : Manager β} (h : s.Ordered) {op : Op β} (hroom : s.HasRoom op) :
    (s.step op).Ordered := by
  cases op with
  | record stamp now body => exact h.record hroom body
  | recordRaises => exact h.recordRaises
  | drain => exact h.drain
  | implCompletes => exact h.implCompletes
  | implRaises => exact h.implRaises
  | markConsolidated => exact h.markConsolidated
  | crash => exact h.crash

/-! ## When nothing is lost -/

/-- Along a run the ring has no event that the journal lacks, and the journal is
what the next start replays.  So both halves of `Kept` are about the journal. -/
theorem Ordered.kept_iff {s : Manager β} (h : s.Ordered) :
    s.Kept ↔ ∀ e ∈ s.recorded, e ∈ s.journal ∨ e ∈ s.stored := by
  have hreopen : s.tier1.reopen.events = s.journal := by
    rw [(EpisodicMemory.reopen_of_rising h.journalled h.rising h.positive h.fits).1]
  constructor
  · intro hk e he
    rcases hk.somewhere e he with hr | hr
    · exact .inl (h.ring.subset hr)
    · exact hr
  · intro hk
    refine ⟨fun e he => .inr (hk e he), ?_⟩
    intro e he hns
    rw [hreopen]
    exact (hk e (h.known e (.inr he))).resolve_right hns

/-- Between passes, rewriting the journal from the ring loses exactly the failed
events that no pass has stored. -/
theorem Ordered.compaction_keeps_iff {s : Manager β} (h : s.Ordered) (hk : s.Kept)
    (hb : s.batch = []) :
    (∀ e ∈ s.recorded, e ∈ s.tier1.events ∨ e ∈ s.stored) ↔ ∀ e ∈ s.failed, e ∈ s.stored := by
  constructor
  · intro hall e he
    refine (hall e (h.known e (.inr he))).resolve_left ?_
    intro hr
    exact Nat.lt_irrefl _ ((h.older e (.inr he)).2 e hr)
  · intro hfailed e he
    rcases h.kept_iff.1 hk e he with hj | hs
    · rcases h.covered e hj with hc | hc | hc | hc
      · exact .inl hc
      · rw [hb] at hc
        cases hc
      · exact .inr (hfailed e hc)
      · exact .inr hc
    · exact .inr hs

/-- One step with room loses nothing exactly when it meets `Releases`. -/
theorem Ordered.step_kept_iff {s : Manager β} (h : s.Ordered) {op : Op β} (hroom : s.HasRoom op)
    (hk : s.Kept) : (s.step op).Kept ↔ s.Releases op := by
  have hall := h.kept_iff.1 hk
  rw [(h.step hroom).kept_iff]
  cases op with
  | record stamp now body =>
      refine ⟨fun _ hc => hc.elim, fun _ => ?_⟩
      have hrec := EpisodicMemory.record_of_room hroom h.journalled h.ring.length_le
        (s.recorded.length, body)
      simp only [Manager.step, journal, hrec, Option.getD_some]
      intro e he
      rcases List.mem_append.1 he with he | he
      · exact (hall e he).imp_left (List.mem_append_left _)
      · exact .inl (List.mem_append_right _ he)
  | recordRaises =>
      refine ⟨fun _ hc => hc.elim, fun _ => ?_⟩
      rw [h.recordRaises_eq]
      exact hall
  | drain =>
      cases hp : s.pass with
      | storing b => simpa [Manager.step, hp, Releases, Compacts] using hall
      | stored => simpa [Manager.step, hp, Releases, Compacts] using hall
      | idle =>
          obtain ⟨lines, flag, hstep, hlines⟩ := h.drain_cases hp
          rw [hstep]
          rcases hlines with ⟨hf, rfl⟩ | ⟨hf, rfl⟩
          · simp only [Releases, Compacts, hp, hf, true_and, forall_const]
            exact h.compaction_keeps_iff hk (by simp [batch, hp])
          · refine ⟨fun _ hc => ?_, fun _ => hall⟩
            exact absurd (hf.symm.trans hc.2) (by decide)
  | implCompletes =>
      refine ⟨fun _ hc => hc.elim, fun _ => ?_⟩
      cases hp : s.pass with
      | idle => simpa [Manager.step, hp] using hall
      | stored => simpa [Manager.step, hp] using hall
      | storing b =>
          simp only [Manager.step, hp]
          exact fun e he => (hall e he).imp_right (List.mem_append_left _)
  | implRaises =>
      refine ⟨fun _ hc => hc.elim, fun _ => ?_⟩
      cases hp : s.pass with
      | idle => simpa [Manager.step, hp] using hall
      | stored => simpa [Manager.step, hp] using hall
      | storing b =>
          simp only [Manager.step, hp]
          exact hall
  | markConsolidated =>
      cases hp : s.pass with
      | idle => simpa [Manager.step, hp, Releases, Compacts] using hall
      | storing b => simpa [Manager.step, hp, Releases, Compacts] using hall
      | stored =>
          rw [h.mark_eq hp]
          simp only [Releases, Compacts, hp, forall_const]
          exact h.compaction_keeps_iff hk (by simp [batch, hp])
  | crash =>
      refine ⟨fun _ hc => hc.elim, fun _ => ?_⟩
      have heq := (EpisodicMemory.reopen_of_rising h.journalled h.rising h.positive h.fits).1
      simp only [Manager.step, journal]
      rw [heq]
      exact hall

/-- On a memory with room for every event, in every state of a run each recorded
event is in the ring, in the journal or in a stored batch, and each failed batch
is replayed by the next start, exactly when no step of the run rewrites the
journal while a batch that failed in this process is still unstored. -/
theorem episodes_kept_iff (maxEvents : Int) (maxAgeHours : Option ℚ) (ops : List (Op β))
    (hroom : Meets step HasRoom (start maxEvents maxAgeHours) ops) :
    Always step Kept (start maxEvents maxAgeHours) ops ↔
      Meets step Releases (start maxEvents maxAgeHours) ops := by
  have hstart : (start maxEvents maxAgeHours : Manager β).Kept := by
    rw [(ordered_start maxEvents maxAgeHours).kept_iff]
    simp [start]
  exact always_iff_meets_under (I := Ordered) (fun _ _ h hr => h.step hr)
    (fun _ _ h hr hk => h.step_kept_iff hr hk) (ordered_start maxEvents maxAgeHours) hstart hroom

/-- Record, a pass that raises, a restart, and a pass that stores the replayed batch. -/
def retriedAfterRestart : List (Op String) :=
  [.record 0 0 "a", .drain, .implRaises, .crash, .drain, .implCompletes, .markConsolidated]

/-- Record, a pass that raises, another record, and a pass that stores that one. -/
def laterPassSucceeds : List (Op String) :=
  [.record 0 0 "a", .drain, .implRaises, .record 1 1 "b", .drain, .implCompletes,
    .markConsolidated]

/-- A failed batch survives a pass that comes after a restart. -/
theorem episodes_kept_after_restart :
    Meets step HasRoom (start 1000 none) retriedAfterRestart ∧
      Always step Kept (start 1000 none) retriedAfterRestart := by
  have hroom : Meets step HasRoom (start 1000 none) retriedAfterRestart := by
    refine ⟨⟨by decide, ?_⟩, trivial, trivial, trivial, trivial, trivial, trivial, trivial⟩
    simp [start, EpisodicMemory.init, EpisodicMemory.replayJournal]
  refine ⟨hroom, (episodes_kept_iff 1000 none _ hroom).2 ?_⟩
  decide +kernel

/-- A failed batch does not survive a later pass of the same process: the first
event is in no ring, no journal and no stored batch, and a restart does not
replay it. -/
theorem failed_batch_lost :
    Meets step HasRoom (start 1000 none) laterPassSucceeds ∧
      ¬ Always step Kept (start 1000 none) laterPassSucceeds ∧
      (run step (start 1000 none) laterPassSucceeds).recorded.map Event.body = [(0, "a"), (1, "b")] ∧
      (run step (start 1000 none) laterPassSucceeds).tier1.events = [] ∧
      (run step (start 1000 none) laterPassSucceeds).journal = [] ∧
      (run step (start 1000 none) laterPassSucceeds).stored.map Event.body = [(1, "b")] ∧
      (run step (start 1000 none) laterPassSucceeds).tier1.reopen.events = [] := by
  refine ⟨?_, ?_, by decide +kernel, by decide +kernel, by decide +kernel, by decide +kernel,
    by decide +kernel⟩
  · refine ⟨⟨by decide, ?_⟩, trivial, trivial, ⟨by decide +kernel, ?_⟩, trivial, trivial, trivial,
      trivial⟩
    · simp [start, EpisodicMemory.init, EpisodicMemory.replayJournal]
    · intro hours hh
      cases hh
  · intro h
    have hlost := h.last.somewhere ⟨1, 0, (0, "a")⟩ (by decide +kernel)
    exact absurd hlost (by decide +kernel)

end Manager

end ShugoCore
