import Mathlib.Algebra.Order.Monoid.WithTop
import Mathlib.Data.List.MinMax
import Mathlib.Logic.Function.Basic
import ShugoCore.Clock
import ShugoCore.Lib.Binary64
import ShugoCore.Lib.Run

/-!
# The backend pool

`BackendPool` of `model_backends.py`.  `call` takes the backend with the best score, and on a
failure the best one again, until that is one it has tried.  Any number of threads are inside
`call`: a step is one `_choose` under the lock, or the answer of a backend with the bookkeeping
under the lock that follows it, each with its readings of the clock.

`get_health` opens circuits halfway as well, and takes no lock.  Any number of threads are inside it
too, and each of their accesses to the tables is a step of its own: what one of them has read may be
out of date when it writes.  It writes before or after a `_choose`, not in the middle of one.

A backend is known by its `id`, and one object may be in the pool twice.  The tables of the pool
are total here: what they do not hold is the default that the code reads it with.
-/

namespace ShugoCore

open Machine Py

/-- An entry of a pool, as `__init__` leaves it: the priority is a positive finite float. -/
structure PoolEntry where
  backend : Nat
  priority : ℚ
  priority_pos : 0 < priority
  priority_lt : priority < 2 ^ 1024

/-- What `__init__` makes of its arguments. -/
structure BackendPool where
  entries : List PoolEntry
  maxFailures : Nat
  cooldown : Seconds
  entries_ne : entries ≠ []
  maxFailures_pos : 1 ≤ maxFailures
  cooldown_nonneg : 0 ≤ cooldown

/-- The tables of a pool. -/
@[ext]
structure PoolHealth where
  failures : Nat → Nat
  openUntil : Nat → Seconds
  successes : Nat → Nat

namespace PoolHealth

/-- The tables after `__init__`. -/
def new : PoolHealth := ⟨fun _ => 0, fun _ => 0, fun _ => 0⟩

/-- `_is_circuit_open`.  A cooldown that has run out takes one failure back. -/
def isCircuitOpen (h : PoolHealth) (now : Seconds) (bid : Nat) : Bool × PoolHealth :=
  let until' := h.openUntil bid
  if until' ≤ 0 then (false, h)
  else if until' ≤ now then
    (false, { h with
      openUntil := Function.update h.openUntil bid 0
      failures := Function.update h.failures bid (h.failures bid - 1) })
  else (true, h)

/-- The score of a backend that may be called. -/
def closedScore (failures : Nat) (priority : ℚ) : WithTop ℚ :=
  match PyFloat.div (PyFloat.nearest failures) (PyFloat.max (.finite 1) (.finite priority)) with
  | .finite q => q
  | .nan | .posInf | .negInf => ⊤

/-- `_score`.  An open circuit is `float("inf")`. -/
def score (h : PoolHealth) (now : Seconds) (e : PoolEntry) : WithTop ℚ × PoolHealth :=
  let (isOpen, h) := h.isCircuitOpen now e.backend
  if isOpen then (⊤, h) else (closedScore (h.failures e.backend) e.priority, h)

/-- The scores of the loop of `_choose`, in declared order, each with its own reading of the clock. -/
def scores (clock : Nat → Seconds) :
    List PoolEntry → PoolHealth → List (WithTop ℚ × PoolEntry) × PoolHealth
  | [], h => ([], h)
  | e :: es, h =>
      let (s, h) := h.score (clock 0) e
      let (rest, h) := scores (fun i => clock (i + 1)) es h
      ((s, e) :: rest, h)

/-- `_record_success`. -/
def recordSuccess (h : PoolHealth) (bid : Nat) : PoolHealth where
  successes := Function.update h.successes bid (h.successes bid + 1)
  failures := Function.update h.failures bid 0
  openUntil := Function.update h.openUntil bid 0

end PoolHealth

namespace BackendPool

/-- The ids of the backends, in declared order. -/
def bids (p : BackendPool) : List Nat := p.entries.map PoolEntry.backend

/-- `_choose`: the first of the entries with the least score, unless that is infinite. -/
def choose (p : BackendPool) (h : PoolHealth) (clock : Nat → Seconds) :
    Option PoolEntry × PoolHealth :=
  let (scored, h) := PoolHealth.scores clock p.entries h
  match scored.argmin Prod.fst with
  | none => (none, h)
  | some (s, e) => (if s = ⊤ then none else some e, h)

/-- `_record_failure`. -/
def recordFailure (p : BackendPool) (h : PoolHealth) (now : Seconds) (bid : Nat) : PoolHealth :=
  let count := h.failures bid + 1
  { h with
    failures := Function.update h.failures bid count
    openUntil :=
      if p.maxFailures ≤ count then Function.update h.openUntil bid (now + p.cooldown)
      else h.openUntil }

end BackendPool

namespace BackendPool

theorem one_lt_limit : (1 : ℚ) < 2 ^ 1024 := one_lt_pow₀ one_lt_two (by decide)

/-- Two backends that are alike. -/
def pairEntries : List PoolEntry :=
  [⟨0, 1, one_pos, one_lt_limit⟩, ⟨1, 1, one_pos, one_lt_limit⟩]

theorem pairEntries_ne : pairEntries ≠ [] := List.cons_ne_nil _ _

theorem pair_cooldown : (0 : Seconds) ≤ 30 := by decide

theorem ten_lt_limit : (10 : ℚ) < 2 ^ 1024 := by
  calc (10 : ℚ) < 2 ^ 4 := by norm_num
    _ ≤ 2 ^ 1024 := pow_le_pow_right₀ one_le_two (by decide)

theorem ten_pos : (0 : ℚ) < 10 := by norm_num

/-- A pool of two backends whose circuits open at the third failure. -/
def pair : BackendPool where
  entries := pairEntries
  maxFailures := 3
  cooldown := 30
  entries_ne := pairEntries_ne
  maxFailures_pos := Nat.le_add_left 1 2
  cooldown_nonneg := pair_cooldown

end BackendPool

namespace BackendPool

/-- Two backends of which the first one has ten times the priority. -/
def skewedEntries : List PoolEntry :=
  [⟨0, 10, ten_pos, ten_lt_limit⟩, ⟨1, 1, one_pos, one_lt_limit⟩]

theorem skewedEntries_ne : skewedEntries ≠ [] := List.cons_ne_nil _ _

/-- The pool of them. -/
def skewed : BackendPool := { pair with entries := skewedEntries, entries_ne := skewedEntries_ne }

end BackendPool

/-- What `call` raises. -/
inductive PoolFault (ε : Type) where
  /-- What a backend raised. -/
  | raised (exn : ε)
  /-- `AttributeError`: the backend has no such method. -/
  | noMethod (backend : Nat)
  /-- `BackendError`: no backend was tried. -/
  | noBackend
deriving DecidableEq, Repr

/-- What calling a method of a backend comes to. -/
inductive PoolAnswer (ρ ε : Type) where
  | missing
  | raises (exn : ε)
  | returns (result : ρ)

/-- A thread that may be inside `call`. -/
inductive PoolCall (ρ ε : Type) where
  | outside
  /-- At the head of the loop. -/
  | choosing (attempted : List Nat) (lastError : Option (PoolFault ε))
  /-- At a method of a backend, which is the last of those attempted. -/
  | invoking (backend : Nat) (attempted : List Nat) (lastError : Option (PoolFault ε))
  | returned (result : ρ)
  | failed (attempted : List Nat) (fault : PoolFault ε)
deriving DecidableEq

/-- A thread that may be inside `get_health`. -/
inductive PoolCheck where
  | outside
  /-- At the head of the loop of `any`, with the backends that are left. -/
  | looking (rest : List Nat)
  /-- In `_is_circuit_open`, with the end of the cooldown as it was read. -/
  | timing (backend : Nat) (until' : Seconds) (rest : List Nat)
  /-- The cooldown is over by the clock, and `_open_until` is to be cleared. -/
  | closing (backend : Nat)
  /-- `_open_until` is cleared, and one failure is to be taken back. -/
  | lowering (backend : Nat)
  /-- The failures were read, and are to be written. -/
  | writing (backend : Nat) (failures : Nat)
  | answered (healthy : Bool)
deriving DecidableEq

/-- The next access of `get_health`: the loop stops at the first backend that is not open. -/
def PoolCheck.next (h : PoolHealth) (now : Seconds) : PoolCheck → PoolHealth × PoolCheck
  | .looking [] => (h, .answered false)
  | .looking (bid :: rest) =>
      (h, if h.openUntil bid ≤ 0 then .answered true else .timing bid (h.openUntil bid) rest)
  | .timing bid until' rest => (h, if until' ≤ now then .closing bid else .looking rest)
  | .closing bid => ({ h with openUntil := Function.update h.openUntil bid 0 }, .lowering bid)
  | .lowering bid => (h, .writing bid (h.failures bid))
  | .writing bid failures =>
      ({ h with failures := Function.update h.failures bid (failures - 1) }, .answered true)
  | c => (h, c)

/-- A pool with its threads. -/
structure PoolSystem (ρ ε : Type) where
  health : PoolHealth
  calls : Nat → PoolCall ρ ε
  checks : Nat → PoolCheck

namespace PoolSystem

variable {ρ ε : Type}

/-- A new pool, with nobody inside `call` or `get_health`. -/
def new : PoolSystem ρ ε := ⟨.new, fun _ => .outside, fun _ => .outside⟩

/-- One step of the system. -/
inductive Action (ρ ε : Type) where
  /-- A thread that is not inside `call` calls it. -/
  | call (thread : Nat)
  /-- `_choose` of a thread, and what `call` makes of it. -/
  | choose (thread : Nat) (clock : Nat → Seconds)
  /-- The answer of the backend of a thread, recorded. -/
  | answer (thread : Nat) (a : PoolAnswer ρ ε) (now : Seconds)
  /-- A thread that is not inside `get_health` calls it. -/
  | getHealth (thread : Nat)
  /-- The next access of a thread inside `get_health`. -/
  | check (thread : Nat) (now : Seconds)

/-- The backend that `_choose` gives in this state. -/
def chosen (p : BackendPool) (s : PoolSystem ρ ε) (clock : Nat → Seconds) : Option Nat :=
  (p.choose s.health clock).1.map PoolEntry.backend

def step (p : BackendPool) (s : PoolSystem ρ ε) : Action ρ ε → PoolSystem ρ ε
  | .call t =>
      match s.calls t with
      | .outside | .returned _ | .failed _ _ =>
          { s with calls := Function.update s.calls t (.choosing [] none) }
      | .choosing _ _ | .invoking _ _ _ => s
  | .choose t clock =>
      match s.calls t with
      | .choosing attempted lastError =>
          { s with
            health := (p.choose s.health clock).2
            calls := Function.update s.calls t <|
              match s.chosen p clock with
              | some bid =>
                  if bid ∈ attempted then .failed attempted (lastError.getD .noBackend)
                  else .invoking bid (attempted ++ [bid]) lastError
              | none => .failed attempted (lastError.getD .noBackend) }
      | .outside | .invoking _ _ _ | .returned _ | .failed _ _ => s
  | .answer t a now =>
      match s.calls t with
      | .invoking bid attempted _ =>
          match a with
          | .missing =>
              { s with
                calls := Function.update s.calls t (.choosing attempted (some (.noMethod bid))) }
          | .raises exn =>
              { s with
                health := p.recordFailure s.health now bid
                calls := Function.update s.calls t (.choosing attempted (some (.raised exn))) }
          | .returns result =>
              { s with
                health := s.health.recordSuccess bid
                calls := Function.update s.calls t (.returned result) }
      | .outside | .choosing _ _ | .returned _ | .failed _ _ => s
  | .getHealth n =>
      match s.checks n with
      | .outside | .answered _ => { s with checks := Function.update s.checks n (.looking p.bids) }
      | .looking _ | .timing _ _ _ | .closing _ | .lowering _ | .writing _ _ => s
  | .check n now =>
      { s with
        health := ((s.checks n).next s.health now).1
        checks := Function.update s.checks n ((s.checks n).next s.health now).2 }

end PoolSystem

namespace PoolHealth

/-! ## What a reading of the clock changes -/

/-- A cooldown of a backend that has run out at this time. -/
def Elapsed (h : PoolHealth) (now : Seconds) (bid : Nat) : Prop :=
  0 < h.openUntil bid ∧ h.openUntil bid ≤ now

/-- A circuit that is open at this time. -/
def Open (h : PoolHealth) (now : Seconds) (bid : Nat) : Prop :=
  0 < h.openUntil bid ∧ now < h.openUntil bid

instance (h : PoolHealth) (now : Seconds) (bid : Nat) : Decidable (h.Elapsed now bid) :=
  inferInstanceAs (Decidable (_ ∧ _))

instance (h : PoolHealth) (now : Seconds) (bid : Nat) : Decidable (h.Open now bid) :=
  inferInstanceAs (Decidable (_ ∧ _))

/-- The tables once it is taken note of that the cooldown of a backend has run out. -/
def halfOpened (h : PoolHealth) (now : Seconds) (bid : Nat) : PoolHealth :=
  if h.Elapsed now bid then
    { h with
      openUntil := Function.update h.openUntil bid 0
      failures := Function.update h.failures bid (h.failures bid - 1) }
  else h

variable {h : PoolHealth} {now : Seconds} {bid : Nat}

theorem isCircuitOpen_eq (h : PoolHealth) (now : Seconds) (bid : Nat) :
    h.isCircuitOpen now bid = (decide (h.Open now bid), h.halfOpened now bid) := by
  simp only [isCircuitOpen, halfOpened]
  split
  · rename_i hzero
    simp [Open, Elapsed, not_lt.2 hzero]
  · rename_i hpos
    split
    · rename_i hle
      simp [Open, Elapsed, not_le.1 hpos, hle, not_lt.2 hle]
    · rename_i hlt
      simp [Open, Elapsed, not_le.1 hpos, hlt, not_le.1 hlt]

theorem halfOpened_of_not_elapsed (hn : ¬ h.Elapsed now bid) : h.halfOpened now bid = h := if_neg hn

theorem openUntil_halfOpened (b : Nat) :
    (h.halfOpened now bid).openUntil b = if b = bid ∧ h.Elapsed now bid then 0 else h.openUntil b := by
  rw [halfOpened]
  by_cases he : h.Elapsed now bid <;> by_cases hb : b = bid <;> simp [he, hb]

theorem failures_halfOpened (b : Nat) :
    (h.halfOpened now bid).failures b =
      if b = bid ∧ h.Elapsed now bid then h.failures b - 1 else h.failures b := by
  rw [halfOpened]
  by_cases he : h.Elapsed now bid <;> by_cases hb : b = bid <;> simp [he, hb]

/-- Looking at a circuit counts no failure. -/
theorem failures_halfOpened_le (b : Nat) : (h.halfOpened now bid).failures b ≤ h.failures b := by
  rw [failures_halfOpened]
  split
  · exact Nat.sub_le _ 1
  · exact le_refl _

theorem failures_recordSuccess (b : Nat) :
    (h.recordSuccess bid).failures b = if b = bid then 0 else h.failures b := by
  by_cases hb : b = bid <;> simp [recordSuccess, hb]

theorem openUntil_recordSuccess (b : Nat) :
    (h.recordSuccess bid).openUntil b = if b = bid then 0 else h.openUntil b := by
  by_cases hb : b = bid <;> simp [recordSuccess, hb]

theorem failures_recordFailure (p : BackendPool) (b : Nat) :
    (p.recordFailure h now bid).failures b =
      if b = bid then h.failures b + 1 else h.failures b := by
  by_cases hb : b = bid <;> simp [BackendPool.recordFailure, hb]

theorem openUntil_recordFailure (p : BackendPool) (b : Nat) :
    (p.recordFailure h now bid).openUntil b =
      if b = bid ∧ p.maxFailures ≤ h.failures b + 1 then now + p.cooldown else h.openUntil b := by
  rw [BackendPool.recordFailure]
  by_cases hb : b = bid
  · subst hb
    by_cases hcount : p.maxFailures ≤ h.failures b + 1 <;> simp [hcount]
  · by_cases hcount : p.maxFailures ≤ h.failures bid + 1 <;> simp [hb, hcount]

theorem score_eq (h : PoolHealth) (now : Seconds) (e : PoolEntry) :
    h.score now e = (if h.Open now e.backend then ⊤
      else closedScore ((h.halfOpened now e.backend).failures e.backend) e.priority,
        h.halfOpened now e.backend) := by
  simp only [score, isCircuitOpen_eq, decide_eq_true_eq]
  split <;> rfl

/-! ## The loop of `_choose` -/

theorem scores_cons (clock : Nat → Seconds) (e : PoolEntry) (es : List PoolEntry) (h : PoolHealth) :
    scores clock (e :: es) h =
      (((h.score (clock 0) e).1, e) ::
          (scores (fun i => clock (i + 1)) es (h.halfOpened (clock 0) e.backend)).1,
        (scores (fun i => clock (i + 1)) es (h.halfOpened (clock 0) e.backend)).2) := by
  simp only [scores, score_eq]

theorem scores_entries (clock : Nat → Seconds) (es : List PoolEntry) (h : PoolHealth) :
    (scores clock es h).1.map Prod.snd = es := by
  induction es generalizing clock h with
  | nil => rfl
  | cons e es ih => rw [scores_cons, List.map_cons, ih]

/-- What looking at one circuit preserves, the loop preserves. -/
theorem scores_preserve {I : PoolHealth → Prop} {clock : Nat → Seconds}
    (hone : ∀ h i bid, I h → I (h.halfOpened (clock i) bid)) (es : List PoolEntry) {h : PoolHealth}
    (hI : I h) : I (scores clock es h).2 := by
  induction es generalizing clock h with
  | nil => exact hI
  | cons e es ih =>
      rw [scores_cons]
      exact ih (fun h i bid => hone h (i + 1) bid) (hone h 0 e.backend hI)

/-- While no circuit is open, the scores are those of the failures. -/
theorem scores_of_closed {clock : Nat → Seconds} (hclosed : ∀ bid, h.openUntil bid = 0)
    (es : List PoolEntry) :
    scores clock es h = (es.map fun e => (closedScore (h.failures e.backend) e.priority, e), h) := by
  have hopen : ∀ now bid, ¬ h.Open now bid := fun now bid ho => (hclosed bid ▸ ho.1).false
  have helapsed : ∀ now bid, ¬ h.Elapsed now bid := fun now bid he => (hclosed bid ▸ he.1).false
  induction es generalizing clock with
  | nil => rfl
  | cons e es ih =>
      rw [scores_cons, score_eq, if_neg (hopen _ _), halfOpened_of_not_elapsed (helapsed _ _), ih]
      rfl

end PoolHealth

end ShugoCore
