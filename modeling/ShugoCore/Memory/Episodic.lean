import Mathlib.Data.List.TakeWhile
import ShugoCore.Clock

/-!
# Tier 1: the episodic ring and its journal

`EpisodicMemory` in `memory_system.py`.  Events enter a bounded ring.  With a
journal path every event is written to the journal file first, and a memory that
is opened over an existing journal replays it.  `drain` hands the ring to
consolidation and keeps the journal copy, `mark_consolidated` releases it by
rewriting the journal from the ring.

The content of an event (its type, payload and metadata) is a type variable: the
memory stores it and never looks at it.  The journal is the list of the events
its lines hold, in file order.  Journal I/O succeeds, so a line that was written
reads back with the sequence number it was written with.
-/

namespace ShugoCore

universe u

/-- A stored record.  `body` holds the sanitised type, the payload and the metadata. -/
structure Event (β : Type u) where
  seq : Nat
  timestamp : IsoSeconds
  body : β
deriving DecidableEq, Repr

/-- `EpisodicMemory`, with the journal file it owns. -/
structure EpisodicMemory (β : Type u) where
  /-- `max(1, max_events)`, the `maxlen` of the deque. -/
  maxlen : Nat
  /-- `_max_age_hours`. -/
  maxAgeHours : Option ℚ
  /-- `_events`, oldest first. -/
  events : List (Event β)
  /-- `_seq`. -/
  seq : Nat
  /-- `_batch_in_flight`. -/
  batchInFlight : Bool
  /-- The events in the journal file, or `none` without a `_journal_path`. -/
  journal : Option (List (Event β))
deriving DecidableEq, Repr

namespace EpisodicMemory

variable {β : Type u}

/-- `deque.append`: a full deque drops from the left. -/
def push (maxlen : Nat) (events : List (Event β)) (e : Event β) : List (Event β) :=
  (events ++ [e]).drop (events.length + 1 - maxlen)

/-- One line of `_replay_journal`: an event that is not newer than the last one
is skipped. -/
def replayLine (m : EpisodicMemory β) (e : Event β) : EpisodicMemory β :=
  if m.seq < e.seq then { m with seq := e.seq, events := push m.maxlen m.events e } else m

/-- `_replay_journal`. -/
def replayJournal (m : EpisodicMemory β) : EpisodicMemory β :=
  match m.journal with
  | none => m
  | some lines => lines.foldl replayLine m

/-- `EpisodicMemory.__init__`: the memory a process starts with over a journal file. -/
def init (maxEvents : Int) (journal : Option (List (Event β))) (maxAgeHours : Option ℚ) :
    EpisodicMemory β :=
  replayJournal
    { maxlen := (max 1 maxEvents).toNat, maxAgeHours, events := [], seq := 0,
      batchInFlight := false, journal }

/-- The process dies and another one opens the same journal. -/
def reopen (m : EpisodicMemory β) : EpisodicMemory β :=
  replayJournal { m with events := [], seq := 0, batchInFlight := false }

/-- `_append_journal`. -/
def appendJournal (m : EpisodicMemory β) (e : Event β) : EpisodicMemory β :=
  { m with journal := m.journal.map (· ++ [e]) }

/-- `_evict_by_age`, at the reading `now`. -/
def evictByAge (m : EpisodicMemory β) (now : Seconds) : EpisodicMemory β :=
  match m.maxAgeHours with
  | none => m
  | some hours =>
      { m with events := m.events.dropWhile fun e => (e.timestamp : ℚ) < now - hours * 3600 }

/-- The event that `record` builds. -/
def eventOf (m : EpisodicMemory β) (stamp : Seconds) (body : β) : Event β where
  seq := m.seq + 1
  timestamp := utcNowIso stamp
  body := body

/-- `record`.  It reads the clock twice: `stamp` dates the event and `now` is the
reading that the age window ends at. -/
def record (m : EpisodicMemory β) (stamp now : Seconds) (body : β) : EpisodicMemory β :=
  let e := m.eventOf stamp body
  let m := { m with seq := e.seq }.appendJournal e
  { m with events := push m.maxlen m.events e }.evictByAge now

/-- `record` with a payload that `json.dumps` rejects.  The sequence number is
taken before the exception leaves the call. -/
def recordRaises (m : EpisodicMemory β) : EpisodicMemory β :=
  if m.journal.isSome then { m with seq := m.seq + 1 } else m

/-- `_compact_journal`. -/
def compactJournal (m : EpisodicMemory β) : EpisodicMemory β :=
  { m with journal := m.journal.map fun _ => m.events }

/-- `drain`: the drained batch, and the memory it leaves. -/
def drain (m : EpisodicMemory β) : List (Event β) × EpisodicMemory β :=
  let m := if m.journal.isSome && !m.batchInFlight then m.compactJournal else m
  (m.events, { m with events := [], batchInFlight := !m.events.isEmpty && m.journal.isSome })

/-- `mark_consolidated`. -/
def markConsolidated (m : EpisodicMemory β) : EpisodicMemory β :=
  { m with batchInFlight := false }.compactJournal

/-! ## Room for an event -/

/-- Recording at these readings evicts nothing: the journal, and with it the
ring, is below the capacity and no event is older than the age window. -/
structure Room (m : EpisodicMemory β) (stamp now : Seconds) : Prop where
  capacity : (m.journal.getD m.events).length < m.maxlen
  window : ∀ hours ∈ m.maxAgeHours, now - hours * 3600 ≤ (utcNowIso stamp : ℚ) ∧
    ∀ e ∈ m.events, now - hours * 3600 ≤ (e.timestamp : ℚ)

theorem push_of_lt {maxlen : Nat} {events : List (Event β)} (h : events.length < maxlen)
    (e : Event β) : push maxlen events e = events ++ [e] := by
  have hz : events.length + 1 - maxlen = 0 := by omega
  rw [push, hz, List.drop_zero]

theorem evictByAge_of_fresh {m : EpisodicMemory β} {now : Seconds}
    (h : ∀ hours ∈ m.maxAgeHours, ∀ e ∈ m.events, now - hours * 3600 ≤ (e.timestamp : ℚ)) :
    m.evictByAge now = m := by
  simp only [evictByAge]
  cases ha : m.maxAgeHours with
  | none => rfl
  | some hours =>
      have hd : m.events.dropWhile (fun e => (e.timestamp : ℚ) < now - hours * 3600) = m.events := by
        rw [List.dropWhile_eq_self_iff]
        intro hlen
        have hold := h hours ha _ (List.getElem_mem hlen)
        simpa using hold
      simp only [hd]
      rw [← ha]

/-- With room for it, an event goes to the end of the ring and of the journal. -/
theorem record_of_room {m : EpisodicMemory β} {stamp now : Seconds} (h : m.Room stamp now)
    {lines : List (Event β)} (hj : m.journal = some lines)
    (hlen : m.events.length ≤ lines.length) (body : β) :
    m.record stamp now body =
      { m with
        seq := m.seq + 1
        events := m.events ++ [m.eventOf stamp body]
        journal := some (lines ++ [m.eventOf stamp body]) } := by
  have hcap : lines.length < m.maxlen := by simpa [hj] using h.capacity
  have hpush := push_of_lt (show m.events.length < m.maxlen by omega) (m.eventOf stamp body)
  rw [record, evictByAge_of_fresh]
  · simp only [appendJournal, hj, hpush, Option.map_some]
    rfl
  · intro hours hh e he
    simp only [appendJournal, hpush, List.mem_append, List.mem_singleton] at he
    rcases he with he | rfl
    · exact (h.window hours hh).2 e he
    · exact (h.window hours hh).1

/-! ## What a replay restores -/

/-- A journal as `record` writes it: sequence numbers rise from line to line. -/
def Rising (lines : List (Event β)) : Prop := lines.Pairwise fun d e => d.seq < e.seq

theorem foldl_replayLine {lines : List (Event β)} (hr : Rising lines) {m : EpisodicMemory β}
    (hnew : ∀ e ∈ lines, m.seq < e.seq) (hcap : m.events.length + lines.length ≤ m.maxlen) :
    lines.foldl replayLine m =
      { m with
        events := m.events ++ lines
        seq := (lines.foldl replayLine m).seq } ∧
      m.seq ≤ (lines.foldl replayLine m).seq ∧
      ∀ e ∈ lines, e.seq ≤ (lines.foldl replayLine m).seq := by
  induction lines generalizing m with
  | nil => simp
  | cons e lines ih =>
      obtain ⟨hhead, htail⟩ := List.pairwise_cons.1 hr
      have he : m.seq < e.seq := hnew e (List.mem_cons_self ..)
      have hlen : m.events.length < m.maxlen := by
        simp only [List.length_cons] at hcap
        omega
      have hline : m.replayLine e = { m with seq := e.seq, events := m.events ++ [e] } := by
        rw [replayLine, if_pos he, push_of_lt hlen]
      obtain ⟨heq, hle, hall⟩ := ih htail (m := m.replayLine e)
        (by rw [hline]; exact hhead)
        (by rw [hline]; simp only [List.length_append, List.length_cons, List.length_nil] at hcap ⊢; omega)
      rw [hline] at heq hle hall
      rw [List.foldl_cons, hline]
      refine ⟨?_, Nat.le_trans (Nat.le_of_lt he) hle, ?_⟩
      · rw [heq]
        simp
      · intro d hd
        rcases List.mem_cons.1 hd with rfl | hd
        · exact hle
        · exact hall d hd

/-- A rising journal that fits the ring is replayed whole. -/
theorem reopen_of_rising {m : EpisodicMemory β} {lines : List (Event β)}
    (hj : m.journal = some lines) (hr : Rising lines) (hpos : ∀ e ∈ lines, 0 < e.seq)
    (hcap : lines.length ≤ m.maxlen) :
    m.reopen = { m with events := lines, seq := m.reopen.seq, batchInFlight := false } ∧
      ∀ e ∈ lines, e.seq ≤ m.reopen.seq := by
  have h := foldl_replayLine hr (m := { m with events := [], seq := 0, batchInFlight := false })
    hpos (by simpa using hcap)
  simp only [reopen, replayJournal, hj, List.nil_append] at h ⊢
  exact ⟨h.1, h.2.2⟩

end EpisodicMemory

end ShugoCore
