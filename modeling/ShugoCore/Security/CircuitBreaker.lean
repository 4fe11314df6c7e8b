import Mathlib.Algebra.Order.Ring.Rat
import ShugoCore.Clock
import ShugoCore.Lib.Run

/-!
# Circuit breakers

`CircuitBreaker` of `security.py`, and the calls that `_guarded_request` of `execution_layer.py` makes
on it.  A breaker opens at a number of failures in a row.  The first call of `allow` after the
cooldown is let through and leaves the breaker closed, one failure short of opening again.  `is_open`
says whom `allow` does not let through (`allow_fst`), and changes nothing.

So nothing is kept of the probe that is under way.  Every later call of `allow` is let through too,
until a result is recorded: as many as there are (`granted_eq_asked`).  One probe is admitted if and
only if nobody else asks in that time (`admits_one_probe_iff`).

Each call holds the lock of the breaker, so a list of calls is an interleaving of all its callers.
-/

namespace ShugoCore

open Machine

/-- `CircuitBreaker`. -/
structure CircuitBreaker where
  failureThreshold : Int
  resetTimeout : Seconds
  failures : Int
  openedAt : Option Seconds
  threshold_pos : 1 ≤ failureThreshold
  timeout_nonneg : 0 ≤ resetTimeout

namespace CircuitBreaker

theorem threshold_floor (failureThreshold : Int) : 1 ≤ max 1 failureThreshold :=
  le_max_left 1 failureThreshold

theorem timeout_floor (resetTimeout : Seconds) : 0 ≤ max 0 resetTimeout := le_max_left 0 resetTimeout

/-- `__init__`. -/
def new (failureThreshold : Int) (resetTimeout : Seconds) : CircuitBreaker where
  failureThreshold := max 1 failureThreshold
  resetTimeout := max 0 resetTimeout
  failures := 0
  openedAt := none
  threshold_pos := threshold_floor failureThreshold
  timeout_nonneg := timeout_floor resetTimeout

/-- `allow`. -/
def allow (b : CircuitBreaker) (now : Seconds) : Bool × CircuitBreaker :=
  match b.openedAt with
  | none => (true, b)
  | some opened =>
      if b.resetTimeout ≤ now - opened then
        (true, { b with openedAt := none, failures := b.failureThreshold - 1 })
      else (false, b)

/-- `is_open`. -/
def isOpen (b : CircuitBreaker) (now : Seconds) : Bool :=
  match b.openedAt with
  | none => false
  | some opened => now - opened < b.resetTimeout

/-- `record_success`. -/
def recordSuccess (b : CircuitBreaker) : CircuitBreaker := { b with failures := 0, openedAt := none }

/-- `record_failure`. -/
def recordFailure (b : CircuitBreaker) (now : Seconds) : CircuitBreaker :=
  { b with
    failures := b.failures + 1
    openedAt := if b.failureThreshold ≤ b.failures + 1 then some now else b.openedAt }

/-! ## Calls -/

/-- A call on a breaker, with its reading of the clock. -/
inductive Call where
  | allow (now : Seconds)
  | recordSuccess
  | recordFailure (now : Seconds)
deriving DecidableEq

namespace Call

/-- The readings of the clock. -/
def readings : Call → List Seconds
  | .allow now | .recordFailure now => [now]
  | .recordSuccess => []

/-- A result is recorded. -/
def records : Call → Bool
  | .allow _ => false
  | .recordSuccess | .recordFailure _ => true

/-- A call of `allow` at a time or later. -/
def asksFrom (due : Seconds) : Call → Bool
  | .allow now => due ≤ now
  | .recordSuccess | .recordFailure _ => false

end Call

/-- One call. -/
def step (b : CircuitBreaker) : Call → CircuitBreaker
  | .allow now => (b.allow now).2
  | .recordSuccess => b.recordSuccess
  | .recordFailure now => b.recordFailure now

/-- The call is one of `allow`, and is let through. -/
def grants (b : CircuitBreaker) : Call → Bool
  | .allow now => (b.allow now).1
  | .recordSuccess | .recordFailure _ => false

/-- How many calls of `allow` are let through. -/
def granted : CircuitBreaker → List Call → Nat
  | _, [] => 0
  | b, c :: calls => (if b.grants c then 1 else 0) + granted (b.step c) calls

/-- The clock does not go back. -/
def Chronological (calls : List Call) : Prop := (calls.flatMap Call.readings).Pairwise (· ≤ ·)

instance (calls : List Call) : Decidable (Chronological calls) :=
  inferInstanceAs (Decidable ((calls.flatMap Call.readings).Pairwise (· ≤ ·)))

/-- At most one call of `allow` is let through between any time the breaker is open and the next
result.  Before the end of the cooldown none is (`grants_open_iff`). -/
def AdmitsOneProbe (b : CircuitBreaker) (calls : List Call) : Prop :=
  ∀ before asks after, calls = before ++ asks ++ after →
    ((run step b before).openedAt).isSome → (∀ c ∈ asks, c.records = false) →
      (run step b before).granted asks ≤ 1

/-- At most one caller asks after the cooldown and before the next result. -/
def AskedOnce (b : CircuitBreaker) (calls : List Call) : Prop :=
  ∀ before asks after, calls = before ++ asks ++ after →
    ∀ opened, (run step b before).openedAt = some opened → (∀ c ∈ asks, c.records = false) →
      asks.countP (Call.asksFrom (opened + b.resetTimeout)) ≤ 1

/-! ## What is let through -/

/-- A call is let through unless the breaker says that it is open. -/
theorem allow_fst (b : CircuitBreaker) (now : Seconds) : (b.allow now).1 = !b.isOpen now := by
  simp only [allow, isOpen]
  split
  · rfl
  · split
    · rename_i h
      rw [decide_eq_false (not_lt.2 h)]
      rfl
    · rename_i h
      rw [decide_eq_true (not_le.1 h)]
      rfl

@[simp] theorem resetTimeout_step (b : CircuitBreaker) (c : Call) :
    (b.step c).resetTimeout = b.resetTimeout := by
  cases c with
  | allow now =>
      simp only [step, allow]
      split
      · rfl
      · split <;> rfl
  | recordSuccess => rfl
  | recordFailure now => rfl

theorem resetTimeout_run (b : CircuitBreaker) (calls : List Call) :
    (run step b calls).resetTimeout = b.resetTimeout := by
  induction calls generalizing b with
  | nil => rfl
  | cons c calls ih => rw [run_cons, ih, resetTimeout_step]

/-- An open breaker lets a call through from the end of the cooldown on, and is closed then. -/
theorem grants_open_iff {b : CircuitBreaker} {opened : Seconds} (h : b.openedAt = some opened)
    (c : Call) : b.grants c = c.asksFrom (opened + b.resetTimeout) := by
  cases c with
  | allow now =>
      have hdue : b.resetTimeout ≤ now - opened ↔ opened + b.resetTimeout ≤ now := by
        rw [le_sub_iff_add_le']
      simp only [grants, allow, h, Call.asksFrom]
      split
      · rename_i hle
        exact (decide_eq_true (hdue.1 hle)).symm
      · rename_i hle
        exact (decide_eq_false fun hlate => hle (hdue.2 hlate)).symm
  | recordSuccess => rfl
  | recordFailure now => rfl

theorem openedAt_step_open {b : CircuitBreaker} {opened : Seconds} (h : b.openedAt = some opened)
    {c : Call} (hc : c.records = false) :
    (b.step c).openedAt = if b.grants c then none else some opened := by
  cases c with
  | allow now =>
      simp only [step, grants, allow, h]
      split
      · rfl
      · exact h
  | recordSuccess => cases hc
  | recordFailure now => cases hc

/-- A closed breaker lets every call through, and stays closed. -/
theorem granted_closed {b : CircuitBreaker} (h : b.openedAt = none) {asks : List Call}
    (hasks : ∀ c ∈ asks, c.records = false) : b.granted asks = asks.length := by
  induction asks with
  | nil => rfl
  | cons c asks ih =>
      cases c with
      | allow now =>
          have hstep : b.step (.allow now) = b := by simp only [step, allow, h]
          have hgrants : b.grants (.allow now) = true := by simp only [grants, allow, h]
          rw [granted, hstep, hgrants, ih fun c hc => hasks c (List.mem_cons_of_mem _ hc),
            if_pos rfl, List.length_cons, Nat.add_comm]
      | recordSuccess => cases hasks _ List.mem_cons_self
      | recordFailure now => cases hasks _ List.mem_cons_self

theorem Chronological.tail {c : Call} {calls : List Call} (h : Chronological (c :: calls)) :
    Chronological calls := by
  rw [Chronological, List.flatMap_cons, List.pairwise_append] at h
  exact h.2.1

theorem Chronological.middle {before asks after : List Call}
    (h : Chronological (before ++ asks ++ after)) : Chronological asks := by
  rw [Chronological, List.flatMap_append, List.flatMap_append, List.pairwise_append,
    List.pairwise_append] at h
  exact h.1.2.1

/-- After a call at some time, everybody who asks does so at that time or later. -/
theorem Chronological.countP_asksFrom {now due : Seconds} {asks : List Call}
    (h : Chronological (.allow now :: asks)) (hdue : due ≤ now)
    (hasks : ∀ c ∈ asks, c.records = false) : asks.countP (Call.asksFrom due) = asks.length := by
  rw [List.countP_eq_length]
  intro c hc
  cases c with
  | allow later =>
      rw [Chronological, List.flatMap_cons, List.pairwise_append] at h
      have hlater : now ≤ later :=
        h.2.2 now (List.mem_singleton_self now) later
          (List.mem_flatMap.2 ⟨_, hc, List.mem_singleton_self later⟩)
      exact decide_eq_true (hdue.trans hlater)
  | recordSuccess => cases hasks _ hc
  | recordFailure later => cases hasks _ hc

/-- Of the calls before the next result an open breaker lets through all that come after the
cooldown. -/
theorem granted_eq_asked {b : CircuitBreaker} {opened : Seconds} (h : b.openedAt = some opened)
    {asks : List Call} (htime : Chronological asks) (hasks : ∀ c ∈ asks, c.records = false) :
    b.granted asks = asks.countP (Call.asksFrom (opened + b.resetTimeout)) := by
  induction asks generalizing b with
  | nil => rfl
  | cons c asks ih =>
      have hrest : ∀ c ∈ asks, c.records = false := fun c hc => hasks c (List.mem_cons_of_mem _ hc)
      have hopened := openedAt_step_open h (hasks c List.mem_cons_self)
      have hgrants := grants_open_iff h c
      rw [granted, List.countP_cons, ← hgrants]
      cases hc : b.grants c with
      | true =>
          -- the probe: the breaker is closed from here on
          rw [hc, if_pos rfl] at hopened
          rw [hc] at hgrants
          cases c with
          | allow now =>
              rw [granted_closed hopened hrest,
                htime.countP_asksFrom (of_decide_eq_true hgrants.symm) hrest, Nat.add_comm]
          | recordSuccess => cases hasks _ List.mem_cons_self
          | recordFailure now => cases hasks _ List.mem_cons_self
      | false =>
          rw [hc, if_neg Bool.false_ne_true] at hopened
          rw [ih hopened htime.tail hrest, resetTimeout_step]
          simp

/-- For every breaker and every list of calls at times that do not decrease: at most one call of
`allow` is let through after the cooldown and before the next result, if and only if no two calls
of `allow` come in that time. -/
theorem admits_one_probe_iff (failureThreshold : Int) (resetTimeout : Seconds) (calls : List Call)
    (htime : Chronological calls) :
    (new failureThreshold resetTimeout).AdmitsOneProbe calls ↔
      (new failureThreshold resetTimeout).AskedOnce calls := by
  have hcount : ∀ before asks after, calls = before ++ asks ++ after → ∀ opened,
      (run step (new failureThreshold resetTimeout) before).openedAt = some opened →
      (∀ c ∈ asks, c.records = false) →
      (run step (new failureThreshold resetTimeout) before).granted asks =
        asks.countP (Call.asksFrom
          (opened + (new failureThreshold resetTimeout).resetTimeout)) := by
    intro before asks after hsplit opened hopened hasks
    rw [granted_eq_asked hopened (hsplit ▸ htime).middle hasks, resetTimeout_run]
  constructor
  · intro hone before asks after hsplit opened hopened hasks
    rw [← hcount before asks after hsplit opened hopened hasks]
    exact hone before asks after hsplit (by rw [hopened]; rfl) hasks
  · intro hone before asks after hsplit hopened hasks
    obtain ⟨opened, hopened⟩ := Option.isSome_iff_exists.1 hopened
    rw [hcount before asks after hsplit opened hopened hasks]
    exact hone before asks after hsplit opened hopened hasks

/-! ## Requests one after the other -/

/-- What becomes of a request that the breaker lets through. -/
inductive RequestOutcome where
  /-- The rate limiter refuses it. -/
  | rateLimited
  | answered (httpStatus : Int) (now : Seconds)
  /-- A `RequestException`. -/
  | failed (now : Seconds)
  /-- Any other exception. -/
  | raised
deriving DecidableEq

/-- The calls on the breaker after `allow`. -/
def RequestOutcome.calls : RequestOutcome → List Call
  | .rateLimited | .raised => []
  | .answered httpStatus now =>
      if httpStatus < 400 ∧ httpStatus ≠ 429 then [.recordSuccess] else [.recordFailure now]
  | .failed now => [.recordFailure now]

/-- The calls of `_guarded_request`, and of `_do_request` in it, at a time. -/
def guardedRequest (b : CircuitBreaker) (asked : Seconds) (outcome : RequestOutcome) : List Call :=
  .allow asked :: if (b.allow asked).1 then outcome.calls else []

/-- The calls of requests that are made one after the other. -/
def guardedRequests : CircuitBreaker → List (Seconds × RequestOutcome) → List Call
  | _, [] => []
  | b, r :: requests =>
      b.guardedRequest r.1 r.2 ++
        guardedRequests (run step b (b.guardedRequest r.1 r.2)) requests

/-- What is let through is followed by its result. -/
def Answered : CircuitBreaker → List Call → Prop
  | _, [] => True
  | b, c :: calls =>
      (b.grants c = true → ∀ d ∈ calls.head?, d.records = true) ∧ Answered (b.step c) calls

instance Answered.decidable : ∀ (b : CircuitBreaker) (calls : List Call), Decidable (b.Answered calls)
  | _, [] => inferInstanceAs (Decidable True)
  | b, c :: calls =>
      have : Decidable ((b.step c).Answered calls) := Answered.decidable (b.step c) calls
      inferInstanceAs (Decidable ((_ → _) ∧ (b.step c).Answered calls))

theorem Answered.right {b : CircuitBreaker} {before calls : List Call}
    (h : b.Answered (before ++ calls)) : (run step b before).Answered calls := by
  induction before generalizing b with
  | nil => exact h
  | cons c before ih => exact ih h.2

/-- An open breaker whose probes are followed by their results. -/
theorem Answered.countP_le {b : CircuitBreaker} {opened : Seconds} (h : b.openedAt = some opened)
    {asks after : List Call} (hanswered : b.Answered (asks ++ after))
    (hasks : ∀ c ∈ asks, c.records = false) :
    asks.countP (Call.asksFrom (opened + b.resetTimeout)) ≤ 1 := by
  induction asks generalizing b with
  | nil => exact Nat.zero_le 1
  | cons c asks ih =>
      have hrest : ∀ c ∈ asks, c.records = false := fun c hc => hasks c (List.mem_cons_of_mem _ hc)
      have hopened := openedAt_step_open h (hasks c List.mem_cons_self)
      rw [List.countP_cons, ← grants_open_iff h c]
      cases hc : b.grants c with
      | true =>
          -- the next call is no result, so there is none
          cases asks with
          | nil => exact le_rfl
          | cons d asks =>
              have hd := hanswered.1 hc d rfl
              rw [hrest d List.mem_cons_self] at hd
              cases hd
      | false =>
          rw [hc, if_neg Bool.false_ne_true] at hopened
          have hle := ih hopened hanswered.2 hrest
          rw [resetTimeout_step] at hle
          exact hle

theorem askedOnce_of_answered {b : CircuitBreaker} {calls : List Call} (h : b.Answered calls) :
    b.AskedOnce calls := by
  intro before asks after hsplit opened hopened hasks
  rw [hsplit, List.append_assoc] at h
  have hle := h.right.countP_le hopened hasks
  rwa [resetTimeout_run] at hle

/-- Requests one after the other, of which none is refused by the rate limiter or ends in another
exception, ask once. -/
theorem answered_guardedRequests (b : CircuitBreaker) {requests : List (Seconds × RequestOutcome)}
    (h : ∀ r ∈ requests, r.2.calls ≠ []) : b.Answered (b.guardedRequests requests) := by
  induction requests generalizing b with
  | nil => trivial
  | cons r requests ih =>
      obtain ⟨asked, outcome⟩ := r
      have hrest := fun b => ih b fun r hr => h r (List.mem_cons_of_mem _ hr)
      have hcalls := h _ List.mem_cons_self
      rw [guardedRequests, guardedRequest]
      cases hallow : (b.allow asked).1 with
      | false =>
          refine ⟨fun hgrants => ?_, hrest _⟩
          rw [show b.grants (.allow asked) = (b.allow asked).1 from rfl, hallow] at hgrants
          cases hgrants
      | true =>
          have hrecord : ∃ c, outcome.calls = [c] ∧ c.records = true := by
            cases outcome with
            | rateLimited => exact absurd rfl hcalls
            | answered httpStatus now =>
                simp only [RequestOutcome.calls]
                split
                · exact ⟨_, rfl, rfl⟩
                · exact ⟨_, rfl, rfl⟩
            | failed now => exact ⟨_, rfl, rfl⟩
            | raised => exact absurd rfl hcalls
          obtain ⟨c, hc, hrecords⟩ := hrecord
          have hresult : ∀ b' : CircuitBreaker, b'.grants c = false := by
            intro b'
            cases c with
            | allow now => cases hrecords
            | recordSuccess => rfl
            | recordFailure now => rfl
          rw [if_pos rfl, hc]
          refine ⟨fun _ d hd => ?_, fun hgrants => ?_, hrest _⟩
          · cases hd
            exact hrecords
          · rw [hresult] at hgrants
            cases hgrants

/-- Five failures, and a probe a minute later whose result is recorded before anybody asks. -/
def recovery : List Call :=
  List.replicate 5 (.recordFailure 0) ++ [.allow 59, .allow 60, .recordSuccess, .allow 61]

theorem recovery_admitted : (new 5 60).AdmitsOneProbe recovery :=
  (admits_one_probe_iff 5 60 recovery (by decide +kernel)).2
    (askedOnce_of_answered (by decide +kernel))

/-- Five failures, and two callers a minute later. -/
def stampede : List Call := List.replicate 5 (.recordFailure 0) ++ [.allow 60, .allow 60]

/-- Both callers are let through. -/
theorem stampede_admitted : ¬ (new 5 60).AdmitsOneProbe stampede := by
  intro hone
  have htwo := hone (List.replicate 5 (.recordFailure 0)) [.allow 60, .allow 60] [] rfl
    (by decide +kernel) (by decide)
  revert htwo
  decide +kernel

end CircuitBreaker

end ShugoCore
