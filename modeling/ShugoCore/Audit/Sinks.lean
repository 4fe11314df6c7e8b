import Mathlib.Data.List.Perm.Basic
import ShugoCore.Lib.Dict
import ShugoCore.Lib.Run

/-!
# The sinks of the audit chain

`_BaseThreadedSink` of `audit.py`: a bounded queue that any number of threads
`submit` to and one flusher thread empties in batches.  A step is one access to
what the threads share: a change of a counter under `_stats_lock`, a
`put_nowait` or a `get_nowait` of the queue, or one call of `_deliver`, whose
answer is part of the action.  A `_deliver` that raises answers `false`.  Nothing
sets `_stop`, so the flusher does not end.

A full queue loses its oldest entry.  `submit` does that in three steps, and
other threads run between them: the queue may be empty by the time the oldest
entry is taken, and full again by the time there is room.  So one overflow can
cost the new entry, or two entries.

The fields after `flusher` are what no attribute holds: which entries came in,
which were queued, and what became of them.
-/

namespace ShugoCore

open Machine

/-- The bounds of a sink, as `__init__` leaves them. -/
structure SinkBounds where
  queueCap : Nat
  batchMax : Nat
  maxRetries : Nat
  queueCap_pos : 0 < queueCap
  batchMax_pos : 0 < batchMax

/-- The bounds that `__init__` makes of its arguments. -/
def SinkBounds.of (queueCap batchMax maxRetries : Int) : SinkBounds where
  queueCap := (max 1 queueCap).toNat
  batchMax := (max 1 batchMax).toNat
  maxRetries := (max 0 maxRetries).toNat
  queueCap_pos := by omega
  batchMax_pos := by omega

/-- A point of `submit`, with the entry it is about. -/
inductive Submission (ε : Type) where
  /-- Counted, before `put_nowait`. -/
  | counted (entry : ε)
  /-- `put_nowait` raised `queue.Full`. -/
  | refused (entry : ε)
  /-- The drop is counted, before `get_nowait`. -/
  | dropping (entry : ε)
  /-- The oldest entry is taken, before the second `put_nowait`. -/
  | retrying (entry : ε)
deriving DecidableEq, Repr

/-- The entry of a submission. -/
def Submission.entry {ε : Type} : Submission ε → ε
  | counted e | refused e | dropping e | retrying e => e

def Submission.isDropping {ε : Type} : Submission ε → Bool
  | dropping _ => true
  | _ => false

def Submission.isRetrying {ε : Type} : Submission ε → Bool
  | retrying _ => true
  | _ => false

/-- A point of `_flush_once`. -/
inductive Flusher (ε : Type) where
  /-- The loop over `get_nowait`. -/
  | collecting (batch : List ε)
  /-- Before the call of `_deliver` with this number. -/
  | delivering (batch : List ε) (attempt : Nat)
  /-- Delivered, before `_delivered` is raised. -/
  | delivered (batch : List ε)
  /-- Out of attempts, before `_failed` is raised. -/
  | exhausted (batch : List ε)
deriving DecidableEq, Repr

/-- The entries the flusher has taken from the queue and not yet counted. -/
def Flusher.batch {ε : Type} : Flusher ε → List ε
  | collecting b | delivering b _ | delivered b | exhausted b => b

/-- A sink, with the threads inside `submit`. -/
structure Sink (ε : Type) where
  queue : List ε
  submitted : Nat
  delivered : Nat
  failed : Nat
  dropped : Nat
  submissions : Dict Nat (Submission ε)
  flusher : Flusher ε
  /-- The entries that came in. -/
  entered : List ε
  /-- The entries that were queued, in the order they were. -/
  queued : List ε
  /-- The batches that are counted, with whether they were delivered. -/
  settled : List (Bool × List ε)
  /-- The entries that were taken from the queue to make room. -/
  evicted : List ε
  /-- The entries that `submit` gave up. -/
  turnedAway : List ε
deriving DecidableEq, Repr

namespace Sink

variable {ε : Type}

/-- A sink after `__init__`. -/
def new : Sink ε where
  queue := []
  submitted := 0
  delivered := 0
  failed := 0
  dropped := 0
  submissions := []
  flusher := .collecting []
  entered := []
  queued := []
  settled := []
  evicted := []
  turnedAway := []

/-- One step of the system. -/
inductive Action (ε : Type) where
  /-- A thread calls `submit`, and counts the entry. -/
  | submit (thread : Nat) (entry : ε)
  /-- A thread inside `submit` takes its next step. -/
  | advance (thread : Nat)
  /-- The flusher takes its next step.  `ok` is the answer of `_deliver`, if that is it. -/
  | flush (ok : Bool)

/-- The next step of a thread that is at this point of `submit`. -/
def advance (b : SinkBounds) (s : Sink ε) (t : Nat) : Submission ε → Sink ε
  | .counted e =>
      if s.queue.length < b.queueCap then
        { s with
          queue := s.queue ++ [e]
          queued := s.queued ++ [e]
          submissions := Dict.remove s.submissions t }
      else { s with submissions := Dict.set s.submissions t (.refused e) }
  | .refused e =>
      { s with dropped := s.dropped + 1, submissions := Dict.set s.submissions t (.dropping e) }
  | .dropping e =>
      match s.queue with
      | [] =>
          { s with
            turnedAway := s.turnedAway ++ [e]
            submissions := Dict.remove s.submissions t }
      | oldest :: rest =>
          { s with
            queue := rest
            evicted := s.evicted ++ [oldest]
            submissions := Dict.set s.submissions t (.retrying e) }
  | .retrying e =>
      if s.queue.length < b.queueCap then
        { s with
          queue := s.queue ++ [e]
          queued := s.queued ++ [e]
          submissions := Dict.remove s.submissions t }
      else
        { s with
          turnedAway := s.turnedAway ++ [e]
          submissions := Dict.remove s.submissions t }

/-- The next step of `_flush_once`. -/
def flush (b : SinkBounds) (s : Sink ε) (ok : Bool) : Sink ε :=
  match s.flusher with
  | .collecting batch =>
      if batch.length < b.batchMax then
        match s.queue with
        | e :: rest => { s with queue := rest, flusher := .collecting (batch ++ [e]) }
        | [] => { s with flusher := if batch.isEmpty then .collecting [] else .delivering batch 0 }
      else { s with flusher := .delivering batch 0 }
  | .delivering batch attempt =>
      if ok then { s with flusher := .delivered batch }
      else if attempt < b.maxRetries then { s with flusher := .delivering batch (attempt + 1) }
      else { s with flusher := .exhausted batch }
  | .delivered batch =>
      { s with
        delivered := s.delivered + batch.length
        settled := s.settled ++ [(true, batch)]
        flusher := .collecting [] }
  | .exhausted batch =>
      { s with
        failed := s.failed + batch.length
        settled := s.settled ++ [(false, batch)]
        flusher := .collecting [] }

/-- A step of the system.  A thread that is inside `submit` calls nothing else, and one
that is not takes no step of it. -/
def step (b : SinkBounds) (s : Sink ε) : Action ε → Sink ε
  | .submit t e =>
      match Dict.get? s.submissions t with
      | some _ => s
      | none =>
          { s with
            submitted := s.submitted + 1
            entered := s.entered ++ [e]
            submissions := Dict.set s.submissions t (.counted e) }
  | .advance t =>
      match Dict.get? s.submissions t with
      | some p => s.advance b t p
      | none => s
  | .flush ok => s.flush b ok

/-- `stats`. -/
structure Stats where
  submitted : Nat
  delivered : Nat
  failed : Nat
  dropped : Nat
  pending : Nat
deriving DecidableEq, Repr

def stats (s : Sink ε) : Stats :=
  ⟨s.submitted, s.delivered, s.failed, s.dropped, s.queue.length⟩

/-! ## Where an entry is -/

/-- The entries of the threads inside `submit`. -/
def inSubmit (s : Sink ε) : List ε := s.submissions.map fun i => i.2.entry

/-- The entries of the batches that ended this way. -/
def settledAs (ok : Bool) (s : Sink ε) : List ε :=
  (s.settled.filter fun b => b.1 == ok).flatMap Prod.snd

/-- The entries the flusher has taken from the queue, in the order it took them. -/
def flushed (s : Sink ε) : List ε := s.settled.flatMap Prod.snd ++ s.flusher.batch

/-- The entries the sink has lost. -/
def lost (s : Sink ε) : List ε := s.evicted ++ s.turnedAway

/-- The threads that have counted a drop and lost nothing yet. -/
def atDropping (s : Sink ε) : Nat := s.submissions.countP fun i => i.2.isDropping

/-- The threads that have taken the oldest entry and still hold their own. -/
def atRetrying (s : Sink ε) : Nat := s.submissions.countP fun i => i.2.isRetrying

/-- What holds whichever way the threads run. -/
structure Sound (b : SinkBounds) (s : Sink ε) : Prop where
  threads : (s.submissions.map Prod.fst).Nodup
  room : s.queue.length ≤ b.queueCap
  /-- Every entry that came in is held, queued or turned away. -/
  entries : s.entered.Perm (s.inSubmit ++ s.queued ++ s.turnedAway)
  /-- Every entry that was queued is still there, evicted or flushed. -/
  places : s.queued.Perm (s.evicted ++ s.flushed ++ s.queue)
  /-- The queue is first in, first out. -/
  order : (s.flushed ++ s.queue).Sublist s.queued
  submitted : s.submitted = s.entered.length
  delivered : s.delivered = (s.settledAs true).length
  failed : s.failed = (s.settledAs false).length
  /-- A counted drop evicts one entry at most, -/
  evictions : s.evicted.length + s.atDropping ≤ s.dropped
  /-- turns one entry away at most, -/
  refusals : s.turnedAway.length + s.atDropping + s.atRetrying ≤ s.dropped
  /-- and one of the two. -/
  drops : s.dropped ≤ s.lost.length + s.atDropping

theorem sound_new (b : SinkBounds) : (new : Sink ε).Sound b where
  threads := List.nodup_nil
  room := Nat.zero_le _
  entries := .nil
  places := .nil
  order := .slnil
  submitted := rfl
  delivered := rfl
  failed := rfl
  evictions := Nat.le_refl _
  refusals := Nat.le_refl _
  drops := Nat.le_refl _

/-! ## One step -/

variable {b : SinkBounds} {s : Sink ε} {t : Nat} {p : Submission ε}

/-- The thread apart from the others. -/
structure Apart (s : Sink ε) (p : Submission ε) (others : Dict Nat (Submission ε)) : Prop where
  inSubmit : s.inSubmit.Perm (p.entry :: others.map fun i => i.2.entry)
  atDropping : s.atDropping = p.isDropping.toNat + others.countP fun i => i.2.isDropping
  atRetrying : s.atRetrying = p.isRetrying.toNat + others.countP fun i => i.2.isRetrying

theorem apart_of_perm {others : Dict Nat (Submission ε)}
    (h : s.submissions.Perm ((t, p) :: others)) : s.Apart p others where
  inSubmit := by simpa [Sink.inSubmit] using h.map fun i => i.2.entry
  atDropping := by
    rw [Sink.atDropping, h.countP_eq, List.countP_cons, Nat.add_comm]
    cases p.isDropping <;> rfl
  atRetrying := by
    rw [Sink.atRetrying, h.countP_eq, List.countP_cons, Nat.add_comm]
    cases p.isRetrying <;> rfl

theorem Sound.apart (h : s.Sound b) (hp : Dict.get? s.submissions t = some p) :
    s.Apart p (Dict.remove s.submissions t) :=
  apart_of_perm (Dict.perm_cons_remove h.threads hp)

/-- A thread that goes on with its entry, and has at most counted a drop. -/
theorem Sound.move (h : s.Sound b) (hp : Dict.get? s.submissions t = some p)
    (p' : Submission ε) (hentry : p'.entry = p.entry) (drop : Nat)
    (hdrop : p'.isDropping.toNat = p.isDropping.toNat + drop)
    (hretry : p'.isRetrying = p.isRetrying) :
    ({ s with dropped := s.dropped + drop, submissions := Dict.set s.submissions t p' } :
      Sink ε).Sound b := by
  have hs := h.apart hp
  have hs' := apart_of_perm (s := { s with
    dropped := s.dropped + drop, submissions := Dict.set s.submissions t p' })
    (Dict.set_perm h.threads t p')
  have h1 := h.evictions
  have h2 := h.refusals
  have h3 := h.drops
  have hd := hs.atDropping
  have hd' := hs'.atDropping
  have hr := hs.atRetrying
  have hr' := hs'.atRetrying
  rw [hretry] at hr'
  refine { h with
    threads := Dict.nodup_set h.threads
    entries := ?_
    evictions := ?_
    refusals := ?_
    drops := ?_ }
  · have hin := hs'.inSubmit
    rw [hentry] at hin
    exact h.entries.trans (((hs.inSubmit.trans hin.symm).append_right _).append_right _)
  · show s.evicted.length + _ ≤ s.dropped + drop
    omega
  · show s.turnedAway.length + _ + _ ≤ s.dropped + drop
    omega
  · show s.dropped + drop ≤ s.lost.length + _
    omega

/-- A thread that puts its entry in the queue. -/
theorem Sound.enqueue (h : s.Sound b) (hp : Dict.get? s.submissions t = some p)
    (hdrop : p.isDropping = false) (hroom : s.queue.length < b.queueCap) :
    ({ s with
      queue := s.queue ++ [p.entry]
      queued := s.queued ++ [p.entry]
      submissions := Dict.remove s.submissions t } : Sink ε).Sound b := by
  classical
  have hs := h.apart hp
  have h1 := h.evictions
  have h2 := h.refusals
  have h3 := h.drops
  rw [hs.atDropping, hdrop] at h1 h2 h3
  rw [hs.atRetrying] at h2
  have hentries := List.perm_iff_count.1 (h.entries.trans ((hs.inSubmit.append_right _).append_right _))
  have hplaces := List.perm_iff_count.1 h.places
  refine { h with
    threads := Dict.nodup_remove h.threads t
    room := by simpa using Nat.succ_le_of_lt hroom
    entries := List.perm_iff_count.2 fun x => ?_
    places := List.perm_iff_count.2 fun x => ?_
    order := ?_
    evictions := ?_
    refusals := ?_
    drops := ?_ }
  · have hx := hentries x
    simp only [List.count_append, List.count_cons, List.count_nil, inSubmit] at hx ⊢
    omega
  · have hx := hplaces x
    simp only [List.count_append, flushed] at hx ⊢
    omega
  · show ((s.flushed ++ (s.queue ++ [p.entry])).Sublist (s.queued ++ [p.entry]))
    rw [← List.append_assoc]
    exact h.order.append (.refl _)
  · exact Nat.le_trans (by simp [Sink.atDropping]) h1
  · refine Nat.le_trans ?_ h2
    simp [Sink.atDropping, Sink.atRetrying]
  · exact Nat.le_trans h3 (by simp [Sink.atDropping, lost])

/-- A thread that gives its entry up after a drop it has counted. -/
theorem Sound.turnAway (h : s.Sound b) (hp : Dict.get? s.submissions t = some p)
    (hpoint : p.isDropping = true ∨ p.isRetrying = true) :
    ({ s with
      turnedAway := s.turnedAway ++ [p.entry]
      submissions := Dict.remove s.submissions t } : Sink ε).Sound b := by
  classical
  have hs := h.apart hp
  have h1 := h.evictions
  have h2 := h.refusals
  have h3 := h.drops
  have hentries := List.perm_iff_count.1 (h.entries.trans ((hs.inSubmit.append_right _).append_right _))
  have hpoint : p.isDropping.toNat + p.isRetrying.toNat = 1 := by
    cases p <;> simp [Submission.isDropping, Submission.isRetrying] at hpoint ⊢
  rw [hs.atDropping] at h1 h2 h3
  rw [hs.atRetrying] at h2
  simp only [lost, List.length_append] at h3
  refine { h with
    threads := Dict.nodup_remove h.threads t
    entries := List.perm_iff_count.2 fun x => ?_
    evictions := ?_
    refusals := ?_
    drops := ?_ }
  · have hx := hentries x
    simp only [List.count_append, List.count_cons, List.count_nil, inSubmit] at hx ⊢
    omega
  · simp only [Sink.atDropping]
    omega
  · simp only [Sink.atDropping, Sink.atRetrying, List.length_append, List.length_singleton]
    omega
  · simp only [Sink.atDropping, lost, List.length_append, List.length_singleton]
    omega

/-- A thread that takes the oldest entry. -/
theorem Sound.evict {e oldest : ε} {rest : List ε} (h : s.Sound b)
    (hp : Dict.get? s.submissions t = some (.dropping e)) (hq : s.queue = oldest :: rest) :
    ({ s with
      queue := rest
      evicted := s.evicted ++ [oldest]
      submissions := Dict.set s.submissions t (.retrying e) } : Sink ε).Sound b := by
  classical
  have hs := h.apart hp
  have hs' := apart_of_perm (s := { s with
    queue := rest
    evicted := s.evicted ++ [oldest]
    submissions := Dict.set s.submissions t (.retrying e) }) (Dict.set_perm h.threads t _)
  have h1 := h.evictions
  have h2 := h.refusals
  have h3 := h.drops
  have hd := hs.atDropping
  have hd' := hs'.atDropping
  have hr := hs.atRetrying
  have hr' := hs'.atRetrying
  have hplaces := List.perm_iff_count.1 h.places
  have hroom := h.room
  have horder := h.order
  simp only [Submission.isDropping, Submission.isRetrying, Bool.toNat_true, Bool.toNat_false]
    at hd hd' hr hr'
  rw [hq] at hroom horder hplaces
  simp only [lost, List.length_append] at h3
  refine { h with
    threads := Dict.nodup_set h.threads
    room := Nat.le_of_succ_le hroom
    entries := h.entries.trans (((hs.inSubmit.trans hs'.inSubmit.symm).append_right _).append_right _)
    places := List.perm_iff_count.2 fun x => ?_
    order := ((List.sublist_cons_self oldest rest).append_left s.flushed).trans horder
    evictions := ?_
    refusals := ?_
    drops := ?_ }
  · have hx := hplaces x
    simp only [List.count_append, List.count_cons, List.count_nil, flushed] at hx ⊢
    omega
  · simp only [List.length_append, List.length_singleton]
    omega
  · show s.turnedAway.length + _ + _ ≤ s.dropped
    omega
  · simp only [lost, List.length_append, List.length_singleton]
    omega

theorem Sound.advance (h : s.Sound b) (hp : Dict.get? s.submissions t = some p) :
    (s.advance b t p).Sound b := by
  cases p with
  | counted e =>
      simp only [Sink.advance]
      split
      · exact h.enqueue hp rfl ‹_›
      · exact h.move hp (.refused e) rfl 0 rfl rfl
  | refused e => exact h.move hp (.dropping e) rfl 1 rfl rfl
  | dropping e =>
      simp only [Sink.advance]
      split
      · exact h.turnAway hp (.inl rfl)
      · exact h.evict hp ‹_›
  | retrying e =>
      simp only [Sink.advance]
      split
      · exact h.enqueue hp rfl ‹_›
      · exact h.turnAway hp (.inr rfl)

theorem Sound.submit (h : s.Sound b) (hp : Dict.get? s.submissions t = none) (e : ε) :
    ({ s with
      submitted := s.submitted + 1
      entered := s.entered ++ [e]
      submissions := Dict.set s.submissions t (.counted e) } : Sink ε).Sound b := by
  have hothers := Dict.remove_of_not_mem (Dict.not_mem_keys_iff.2 hp)
  have hs' := apart_of_perm (s := { s with
    submitted := s.submitted + 1
    entered := s.entered ++ [e]
    submissions := Dict.set s.submissions t (.counted e) }) (Dict.set_perm h.threads t _)
  rw [hothers] at hs'
  have hd : _ = s.atDropping := hs'.atDropping.trans (Nat.zero_add _)
  have hr : _ = s.atRetrying := hs'.atRetrying.trans (Nat.zero_add _)
  refine { h with
    threads := Dict.nodup_set h.threads
    entries := ?_
    submitted := by rw [h.submitted, List.length_append, List.length_singleton]
    evictions := by rw [hd]; exact h.evictions
    refusals := by rw [hd, hr]; exact h.refusals
    drops := by rw [hd]; exact h.drops }
  have hin := (hs'.inSubmit.symm.append_right s.queued).append_right s.turnedAway
  exact (List.perm_append_singleton e s.entered).trans ((h.entries.cons e).trans hin)

/-- The flusher goes on with its batch. -/
theorem Sound.hold (h : s.Sound b) (f : Flusher ε) (hf : f.batch = s.flusher.batch) :
    ({ s with flusher := f } : Sink ε).Sound b := by
  have hflushed : ({ s with flusher := f } : Sink ε).flushed = s.flushed := by
    simp only [flushed, hf]
  refine { h with places := ?_, order := ?_ }
  · rw [hflushed]
    exact h.places
  · rw [hflushed]
    exact h.order

theorem Sound.take {e : ε} {rest batch : List ε} (h : s.Sound b) (hq : s.queue = e :: rest)
    (hf : s.flusher = .collecting batch) :
    ({ s with queue := rest, flusher := .collecting (batch ++ [e]) } : Sink ε).Sound b := by
  have hflushed : ({ s with queue := rest, flusher := .collecting (batch ++ [e]) } : Sink ε).flushed
      ++ rest = s.flushed ++ s.queue := by
    simp [flushed, hq, hf, Flusher.batch]
  have hroom := h.room
  rw [hq] at hroom
  refine { h with room := Nat.le_of_succ_le hroom, places := ?_, order := ?_ }
  · have hplaces := h.places
    rw [List.append_assoc] at hplaces ⊢
    rwa [hflushed]
  · rw [hflushed]
    exact h.order

/-- A batch is counted as it ended. -/
theorem Sound.settle (h : s.Sound b) (ok : Bool) {batch : List ε} (hf : s.flusher.batch = batch) :
    ({ s with
      delivered := s.delivered + (if ok then batch.length else 0)
      failed := s.failed + (if ok then 0 else batch.length)
      settled := s.settled ++ [(ok, batch)]
      flusher := .collecting [] } : Sink ε).Sound b := by
  have hflushed : (s.settled ++ [(ok, batch)]).flatMap Prod.snd ++ [] = s.flushed := by
    simp [flushed, hf]
  refine { h with places := ?_, order := ?_, delivered := ?_, failed := ?_ }
  · show s.queued.Perm (s.evicted ++ (_ ++ []) ++ s.queue)
    rw [hflushed]
    exact h.places
  · show ((_ ++ []) ++ s.queue).Sublist s.queued
    rw [hflushed]
    exact h.order
  · rw [h.delivered]
    cases ok <;> simp [settledAs, List.filter_append]
  · rw [h.failed]
    cases ok <;> simp [settledAs, List.filter_append]

theorem Sound.flush (h : s.Sound b) (ok : Bool) : (s.flush b ok).Sound b := by
  unfold Sink.flush
  split
  · rename_i batch hf
    split
    · split
      · exact h.take ‹_› hf
      · refine h.hold _ ?_
        rw [hf]
        cases batch <;> rfl
    · exact h.hold _ (by rw [hf]; rfl)
  · rename_i batch attempt hf
    split
    · exact h.hold _ (by rw [hf]; rfl)
    · split <;> exact h.hold _ (by rw [hf]; rfl)
  · rename_i batch hf
    exact h.settle true (by rw [hf]; rfl)
  · rename_i batch hf
    exact h.settle false (by rw [hf]; rfl)

theorem Sound.step (h : s.Sound b) (a : Action ε) : (s.step b a).Sound b := by
  cases a with
  | submit t e =>
      simp only [Sink.step]
      split
      · exact h
      · exact h.submit ‹_› e
  | advance t =>
      simp only [Sink.step]
      split
      · exact h.advance ‹_›
      · exact h
  | flush ok => exact h.flush ok

theorem sound_run (b : SinkBounds) (as : List (Action ε)) :
    (run (step b) (new : Sink ε) as).Sound b :=
  inv_run (fun _ a h => h.step a) (sound_new b) as

/-- Only `submit` brings an entry in, or a thread. -/
theorem step_of_not_submit (s : Sink ε) {a : Action ε} (ha : ∀ t e, a ≠ .submit t e) :
    (s.step b a).entered = s.entered ∧
      ∀ t, Dict.get? (s.step b a).submissions t ≠ none → Dict.get? s.submissions t ≠ none := by
  cases a with
  | submit t e => exact absurd rfl (ha t e)
  | advance t =>
      simp only [Sink.step]
      split
      · rename_i p hp
        have hkeep : ∀ t', Dict.get? (Dict.remove s.submissions t) t' ≠ none →
            Dict.get? s.submissions t' ≠ none := by
          intro t' h
          by_cases ht : t = t'
          · rw [← ht, hp]
            exact Option.some_ne_none p
          · rwa [Dict.get?_remove_of_ne _ ht] at h
        have hmove : ∀ p' t', Dict.get? (Dict.set s.submissions t p') t' ≠ none →
            Dict.get? s.submissions t' ≠ none := by
          intro p' t' h
          by_cases ht : t = t'
          · rw [← ht, hp]
            exact Option.some_ne_none p
          · rwa [Dict.get?_set_of_ne _ ht] at h
        cases p <;> dsimp only [Sink.advance] <;> (try split) <;>
          first | exact ⟨rfl, hkeep⟩ | exact ⟨rfl, hmove _⟩
      · exact ⟨rfl, fun _ h => h⟩
  | flush ok =>
      simp only [Sink.step, Sink.flush]
      split <;> (try split) <;> (try split) <;> exact ⟨rfl, fun _ h => h⟩

/-! ## Runs -/

theorem settledAs_perm (s : Sink ε) :
    (s.settled.flatMap Prod.snd).Perm (s.settledAs true ++ s.settledAs false) := by
  have hsplit := (List.filter_append_perm (fun b : Bool × List ε => b.1) s.settled).symm
  have hflat := hsplit.flatMap_right Prod.snd
  simpa [settledAs, List.flatMap_append] using hflat

theorem Sound.accounted (h : s.Sound b) :
    s.entered.Perm (s.inSubmit ++ s.queue ++ s.flusher.batch ++ s.settledAs true ++
      s.settledAs false ++ s.lost) := by
  classical
  have hentries := List.perm_iff_count.1 h.entries
  have hplaces := List.perm_iff_count.1 h.places
  have hsettled := List.perm_iff_count.1 (settledAs_perm s)
  refine List.perm_iff_count.2 fun x => ?_
  have h1 := hentries x
  have h2 := hplaces x
  have h3 := hsettled x
  simp only [List.count_append, flushed, lost] at h1 h2 h3 ⊢
  omega

/-- Whichever way the threads run, every entry that came in is in exactly one place: with a
thread inside `submit`, in the queue, in the batch of the flusher, delivered, given up with its
batch, or lost on an overflow. -/
theorem entered_perm (b : SinkBounds) (as : List (Action ε)) :
    (run (step b) (new : Sink ε) as).entered.Perm
      ((run (step b) new as).inSubmit ++ (run (step b) new as).queue ++
        (run (step b) new as).flusher.batch ++ (run (step b) new as).settledAs true ++
        (run (step b) new as).settledAs false ++ (run (step b) new as).lost) :=
  (sound_run b as).accounted

/-- The counters of a sink, with the entries they do not count. -/
theorem Sound.counters (h : s.Sound b) :
    s.submitted = s.delivered + s.failed + s.queue.length + s.inSubmit.length +
      s.flusher.batch.length + s.lost.length := by
  have hlength := h.accounted.length_eq
  have h1 := h.submitted
  have h2 := h.delivered
  have h3 := h.failed
  simp only [List.length_append] at hlength
  omega

/-- The counters of `stats` at any moment: what came in and is neither delivered, failed,
pending nor in the hands of a thread is lost, at least one entry and at most two for every
drop that is counted and has taken effect. -/
theorem stats_account (b : SinkBounds) (as : List (Action ε)) :
    (run (step b) (new : Sink ε) as).stats.submitted =
        (run (step b) new as).stats.delivered + (run (step b) new as).stats.failed +
        (run (step b) new as).stats.pending + (run (step b) new as).inSubmit.length +
        (run (step b) new as).flusher.batch.length + (run (step b) new as).lost.length ∧
      (run (step b) new as).stats.dropped ≤
        (run (step b) new as).lost.length + (run (step b) new as).atDropping ∧
      (run (step b) new as).lost.length + 2 * (run (step b) new as).atDropping ≤
        2 * (run (step b) new as).stats.dropped := by
  have h := sound_run b as
  have h1 := h.evictions
  have h2 := h.refusals
  refine ⟨h.counters, h.drops, ?_⟩
  simp only [stats, lost, List.length_append]
  omega

/-- Two threads overflow a full queue one after the other's step, and one counted drop loses
two entries. -/
example :
    (run (step ⟨1, 1, 0, by decide, by decide⟩) new
      [.submit 0 'a', .advance 0, .submit 0 'b', .advance 0, .advance 0, .advance 0,
        .submit 1 'c', .advance 1, .advance 0]).lost = ['a', 'b'] := by decide

/-! ## What the flusher delivers -/

/-- The batches of the flusher are within their bound, and none that is sent is empty. -/
structure Batched (b : SinkBounds) (s : Sink ε) : Prop where
  bound : s.flusher.batch.length ≤ b.batchMax
  sent : (∀ batch, s.flusher ≠ .collecting batch) → s.flusher.batch ≠ []
  settled : ∀ i ∈ s.settled, i.2 ≠ [] ∧ i.2.length ≤ b.batchMax

theorem Batched.hold {f : Flusher ε} (h : s.Batched b) (hf : f.batch = s.flusher.batch)
    (hne : f.batch ≠ []) : ({ s with flusher := f } : Sink ε).Batched b :=
  ⟨hf ▸ h.bound, fun _ => hne, h.settled⟩

theorem Batched.settle (h : s.Batched b) (ok : Bool) (counters : Nat × Nat)
    (hf : ∀ batch, s.flusher ≠ .collecting batch) :
    ({ s with
      delivered := counters.1
      failed := counters.2
      settled := s.settled ++ [(ok, s.flusher.batch)]
      flusher := .collecting [] } : Sink ε).Batched b := by
  refine ⟨Nat.zero_le _, fun hne => absurd rfl (hne []), fun i hi => ?_⟩
  rcases List.mem_append.1 hi with hi | hi
  · exact h.settled i hi
  · rw [List.mem_singleton.1 hi]
    exact ⟨h.sent hf, h.bound⟩

theorem Batched.flush (h : s.Batched b) (ok : Bool) : (s.flush b ok).Batched b := by
  have hsent := h.sent
  unfold Sink.flush
  split
  · rename_i batch hf
    have hbound := h.bound
    rw [hf] at hbound
    split
    · rename_i hlt
      split
      · refine ⟨?_, fun hne => absurd rfl (hne _), h.settled⟩
        simpa [Flusher.batch] using Nat.succ_le_of_lt hlt
      · cases batch with
        | nil => exact ⟨Nat.zero_le _, fun hne => absurd rfl (hne []), h.settled⟩
        | cons e batch => exact ⟨hbound, fun _ => List.cons_ne_nil e batch, h.settled⟩
    · rename_i hge
      refine ⟨hbound, fun _ he => ?_, h.settled⟩
      rw [show batch = [] from he] at hge
      exact hge b.batchMax_pos
  · rename_i batch attempt hf
    rw [hf] at hsent
    have hne : batch ≠ [] := hsent fun _ he => by cases he
    split
    · exact h.hold (by rw [hf]; rfl) hne
    · split <;> exact h.hold (by rw [hf]; rfl) hne
  · rename_i batch hf
    have hs := h.settle true (s.delivered + batch.length, s.failed) (by simp [hf])
    rwa [hf] at hs
  · rename_i batch hf
    have hs := h.settle false (s.delivered, s.failed + batch.length) (by simp [hf])
    rwa [hf] at hs

theorem advance_flusher (s : Sink ε) (t : Nat) (p : Submission ε) :
    (s.advance b t p).flusher = s.flusher ∧ (s.advance b t p).settled = s.settled := by
  cases p <;> simp only [Sink.advance] <;> (try split) <;> simp

theorem Batched.step (h : s.Batched b) (a : Action ε) : (s.step b a).Batched b := by
  have keep : ∀ s' : Sink ε, s'.flusher = s.flusher ∧ s'.settled = s.settled → s'.Batched b := by
    rintro s' ⟨hf, hs⟩
    refine ⟨hf ▸ h.bound, hf ▸ h.sent, hs ▸ h.settled⟩
  cases a with
  | submit t e =>
      simp only [Sink.step]
      split <;> exact keep _ ⟨rfl, rfl⟩
  | advance t =>
      simp only [Sink.step]
      split
      · exact keep _ (advance_flusher s t _)
      · exact h
  | flush ok => exact h.flush ok

theorem batched_run (b : SinkBounds) (as : List (Action ε)) :
    (run (step b) (new : Sink ε) as).Batched b :=
  inv_run (fun _ a h => h.step a)
    ⟨Nat.zero_le _, fun hne => absurd rfl (hne []), fun _ hi => by cases hi⟩ as

/-! ## One thread -/

/-- Only this thread submits. -/
def By (t : Nat) : Action ε → Prop
  | .submit t' _ => t' = t
  | _ => True

/-- What holds beside the rest while one thread submits: a drop that has taken effect has lost
one entry, and the entries are queued in the order they came in. -/
structure Lone (b : SinkBounds) (t : Nat) (s : Sink ε) : Prop where
  single : s.submissions = [] ∨ ∃ p, s.submissions = [(t, p)]
  room : ∀ e, s.submissions = [(t, .retrying e)] → s.queue.length < b.queueCap
  drops : s.dropped = s.lost.length + s.atDropping
  order : (s.queued ++ s.inSubmit).Sublist s.entered

theorem Lone.advance (hs : s.Sound b) (h : s.Lone b t) (hp : s.submissions = [(t, p)]) :
    (s.advance b t p).Lone b t := by
  have hget : ∀ p', Dict.set s.submissions t p' = [(t, p')] := fun p' => by simp [hp, Dict.set]
  have hremove : Dict.remove s.submissions t = [] := by simp [hp, Dict.remove]
  have hdrops := h.drops
  have horder := h.order
  simp only [atDropping, inSubmit, hp, lost] at hdrops horder
  cases p with
  | counted e =>
      simp only [Sink.advance, hget, hremove]
      split
      · exact ⟨.inl rfl, fun _ he => (by cases he), hdrops, by simpa [inSubmit, Submission.entry] using horder⟩
      · exact ⟨.inr ⟨_, rfl⟩, fun _ he => (by cases he), hdrops, horder⟩
  | refused e =>
      simp only [Sink.advance, hget]
      exact ⟨.inr ⟨_, rfl⟩, fun _ he => (by cases he), congrArg (· + 1) hdrops, horder⟩
  | dropping e =>
      simp only [Sink.advance, hget, hremove]
      split
      · refine ⟨.inl rfl, fun _ he => (by cases he), ?_, ?_⟩
        · simpa [atDropping, lost, Submission.isDropping, Nat.add_assoc] using hdrops
        · exact (List.append_sublist_append_left s.queued).2 (List.nil_sublist _) |>.trans horder
      · rename_i oldest rest hq
        have hroom := hs.room
        rw [hq] at hroom
        refine ⟨.inr ⟨_, rfl⟩, fun _ _ => hroom, ?_, horder⟩
        simp only [List.length_append] at hdrops
        simp [atDropping, lost, Submission.isDropping] at hdrops ⊢
        omega
  | retrying e =>
      have hroom := h.room e hp
      simp only [Sink.advance, hremove, if_pos hroom]
      exact ⟨.inl rfl, fun _ he => (by cases he), hdrops, by simpa [inSubmit, Submission.entry] using horder⟩

theorem Lone.flush (h : s.Lone b t) (ok : Bool) : (s.flush b ok).Lone b t := by
  have hqueue : (s.flush b ok).queue.length ≤ s.queue.length := by
    unfold Sink.flush
    split
    · split
      · split
        · rename_i hq
          simp [hq]
        · exact Nat.le_refl _
      · exact Nat.le_refl _
    · split
      · exact Nat.le_refl _
      · split <;> exact Nat.le_refl _
    · exact Nat.le_refl _
    · exact Nat.le_refl _
  have hsame : (s.flush b ok).submissions = s.submissions ∧ (s.flush b ok).dropped = s.dropped ∧
      (s.flush b ok).lost = s.lost ∧ (s.flush b ok).queued = s.queued ∧
      (s.flush b ok).entered = s.entered := by
    unfold Sink.flush
    split
    · split
      · split <;> simp [lost]
      · simp [lost]
    · split
      · simp [lost]
      · split <;> simp [lost]
    · simp [lost]
    · simp [lost]
  obtain ⟨hsub, hdropped, hlost, hqueued, hentered⟩ := hsame
  refine ⟨?_, fun e he => ?_, ?_, ?_⟩
  · rw [hsub]
    exact h.single
  · exact Nat.lt_of_le_of_lt hqueue (h.room e (hsub ▸ he))
  · rw [hdropped, hlost, atDropping, hsub]
    exact h.drops
  · rw [hqueued, hentered, inSubmit, hsub]
    exact h.order

theorem Lone.step (hs : s.Sound b) (h : s.Lone b t) {a : Action ε} (ha : By t a) :
    (s.step b a).Lone b t := by
  cases a with
  | submit t' e =>
      obtain rfl : t' = t := ha
      simp only [Sink.step]
      split
      · exact h
      · rename_i hp
        have hnone : s.submissions = [] := by
          refine h.single.resolve_right fun hone => ?_
          obtain ⟨p, hsub⟩ := hone
          rw [hsub, Dict.get?, if_pos rfl] at hp
          cases hp
        have hdrops := h.drops
        have horder := h.order
        simp only [atDropping, inSubmit, hnone, List.map_nil, List.append_nil] at hdrops horder
        rw [hnone]
        exact ⟨.inr ⟨_, rfl⟩, fun _ he => (by cases he), hdrops, horder.append (.refl [e])⟩
  | advance t' =>
      simp only [Sink.step]
      split
      · rename_i p hp
        rcases h.single with hsub | ⟨p', hsub⟩
        · rw [hsub] at hp
          cases hp
        · by_cases ht : t = t'
          · subst ht
            rw [hsub, Dict.get?, if_pos rfl] at hp
            cases hp
            exact h.advance hs hsub
          · rw [hsub, Dict.get?, if_neg ht] at hp
            cases hp
      · exact h
  | flush ok => exact h.flush ok

theorem lone_run (b : SinkBounds) {t : Nat} {as : List (Action ε)} (h : ∀ a ∈ as, By t a) :
    (run (step b) (new : Sink ε) as).Sound b ∧ (run (step b) (new : Sink ε) as).Lone b t := by
  have key : ∀ {s : Sink ε}, s.Sound b ∧ s.Lone b t → (run (step b) s as).Sound b ∧
      (run (step b) s as).Lone b t := by
    induction as with
    | nil => exact fun hs => hs
    | cons a as ih =>
        intro s hs
        rw [List.forall_mem_cons] at h
        exact ih h.2 ⟨hs.1.step a, hs.2.step hs.1 h.1⟩
  exact key ⟨sound_new b, .inl rfl, fun _ he => (by cases he), rfl, .slnil⟩

/-- While one thread submits, every counted drop that has taken effect lost one entry, so that
the counters add up to what came in. -/
theorem stats_exact (b : SinkBounds) {t : Nat} {as : List (Action ε)} (h : ∀ a ∈ as, By t a) :
    (run (step b) (new : Sink ε) as).stats.submitted +
        (run (step b) new as).atDropping =
      (run (step b) new as).stats.delivered + (run (step b) new as).stats.failed +
        (run (step b) new as).stats.pending + (run (step b) new as).stats.dropped +
        (run (step b) new as).inSubmit.length + (run (step b) new as).flusher.batch.length := by
  have hdrops := (lone_run b h).2.drops
  have hcounters := (lone_run b h).1.counters
  simp only [stats]
  omega

/-- One thread that overflows a queue of one entry. -/
def overflow : List (Action Char) :=
  [.submit 0 'a', .advance 0, .submit 0 'b', .advance 0, .advance 0, .advance 0, .advance 0,
    .flush true]

/-- The sink that this overflow leaves. -/
def overflown : Sink Char := run (step ⟨1, 1, 0, by decide, by decide⟩) new overflow

theorem stats_exact_overflow :
    overflown.stats.submitted + overflown.atDropping =
        overflown.stats.delivered + overflown.stats.failed + overflown.stats.pending +
          overflown.stats.dropped + overflown.inSubmit.length + overflown.flusher.batch.length ∧
      overflown.stats = ⟨2, 0, 0, 1, 0⟩ :=
  ⟨stats_exact ⟨1, 1, 0, by decide, by decide⟩ (t := 0) (by simp [overflow, By]), by decide⟩

/-- The flusher delivers and gives up entries in the order they were queued, each at most once,
in batches within their bound; what waits comes after.  While one thread submits, that is the
order in which the entries came in. -/
theorem flushed_in_order (b : SinkBounds) (as : List (Action ε)) :
    ((run (step b) (new : Sink ε) as).settled.flatMap Prod.snd ++
        (run (step b) new as).flusher.batch ++ (run (step b) new as).queue).Sublist
      (run (step b) new as).queued ∧
    (∀ i ∈ (run (step b) (new : Sink ε) as).settled, i.2 ≠ [] ∧ i.2.length ≤ b.batchMax) ∧
    (run (step b) (new : Sink ε) as).queue.length ≤ b.queueCap ∧
    ∀ t, (∀ a ∈ as, By t a) →
      ((run (step b) (new : Sink ε) as).settled.flatMap Prod.snd ++
        (run (step b) new as).flusher.batch ++ (run (step b) new as).queue).Sublist
      (run (step b) new as).entered := by
  have h := sound_run b as
  refine ⟨h.order, (batched_run b as).settled, h.room, fun t ht => ?_⟩
  have horder := (lone_run b ht).2.order
  exact (h.order.trans (List.sublist_append_left _ _)).trans horder

theorem settledAs_true {s : Sink ε} (h : s.settledAs false = []) :
    s.settledAs true = s.settled.flatMap Prod.snd := by
  have hempty : ∀ i ∈ s.settled, i.1 = false → i.2 = [] := by
    intro i hi hf
    rw [settledAs, List.flatMap_eq_nil_iff] at h
    exact h i (List.mem_filter.2 ⟨hi, by simp [hf]⟩)
  unfold settledAs
  generalize s.settled = batches at hempty ⊢
  induction batches with
  | nil => rfl
  | cons i batches ih =>
      rw [List.forall_mem_cons] at hempty
      cases hi : i.1 with
      | true => rw [List.filter_cons_of_pos (by simp [hi]), List.flatMap_cons, List.flatMap_cons,
          ih hempty.2]
      | false => rw [List.filter_cons_of_neg (by simp [hi]), List.flatMap_cons, hempty.1 hi,
          List.nil_append, ih hempty.2]

/-- At rest, with nothing dropped and nothing failed, what was delivered is what came in. -/
theorem Lone.settledAs_true_eq (hs : s.Sound b) (h : s.Lone b t) (hsubmit : s.submissions = [])
    (hflusher : s.flusher.batch = []) (hqueue : s.queue = []) (hdropped : s.dropped = 0)
    (hfailed : s.failed = 0) : s.settledAs true = s.entered := by
  have hevicted : s.evicted = [] := by
    have := hs.evictions
    exact List.eq_nil_of_length_eq_zero (by omega)
  have hturned : s.turnedAway = [] := by
    have := hs.refusals
    exact List.eq_nil_of_length_eq_zero (by omega)
  have hfalse : s.settledAs false = [] :=
    List.eq_nil_of_length_eq_zero (hs.failed ▸ hfailed)
  have hentered : s.queued = s.entered := by
    have hlength := hs.entries.length_eq
    have horder := h.order
    simp only [inSubmit, hsubmit, hturned, List.map_nil, List.append_nil, List.nil_append]
      at hlength horder
    exact horder.eq_of_length hlength.symm
  have hflushed : s.flushed = s.queued := by
    have hlength := hs.places.length_eq
    have horder := hs.order
    simp only [hevicted, hqueue, List.append_nil, List.nil_append] at hlength horder
    exact horder.eq_of_length hlength.symm
  rw [settledAs_true hfalse, ← hentered, ← hflushed, flushed, hflusher, List.append_nil]

end Sink

end ShugoCore
