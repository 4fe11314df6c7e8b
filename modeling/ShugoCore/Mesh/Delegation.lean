import ShugoCore.Lib.Calls
import ShugoCore.Lib.PyBuiltins
import ShugoCore.Lib.Run

/-!
# Delegations and their retries

`_mesh_delegate` sends a payload to a peer and keeps it under the peer's name, in case
the peer refuses it because its view of the lease lags.  A refusal carries nothing that
ties it to a payload, so `_retry_delegation_if_stale` resends whatever is kept for that
peer, up to the attempt that is kept beside it.  The resend is a `_mesh_delegate` again,
which keeps the payload with the attempt 0.

Calls take one step at a time.  `_mesh_delegate` reads the dictionary of the kept
payloads before it takes the lock, and a retry puts a new dictionary in its place, so a
call may write to one that nobody reads any more.  `version` tells the dictionaries
apart.

Every payload has a number here, which the code does not have, and the history counts
the sends of each number, the refusals of each, and what each retry resent.
-/

namespace ShugoCore

open Py Machine

/-- A payload with the number of its delegation. -/
structure Delegated (α : Type) where
  id : Nat
  payload : α

/-- An entry of `_delegated_pending`. -/
structure PendingEntry (α : Type) where
  item : Delegated α
  attempt : Nat

/-- Where a call of `_mesh_delegate` is.  The thread of a retry begins at `sending`. -/
inductive DelegatePhase (α : Type) where
  | sending (peer : Str) (item : Delegated α)
  /-- The frame was sent.  `_delegated_pending` is read next. -/
  | sent (peer : Str) (item : Delegated α)
  /-- There was none.  A new one is put there next. -/
  | creating (peer : Str) (item : Delegated α)
  /-- A dictionary is at hand.  The lock is next. -/
  | holding (peer : Str) (item : Delegated α) (version : Nat)
  | done

/-- What `runtime.send` does with a frame. -/
inductive SendOutcome where
  | noRuntime | raised | refused | success
deriving DecidableEq, Repr

/-- A result that a peer reported, as it is recorded. -/
structure DelegateRecord (φ : Type) where
  peer : Str
  status : PyVal φ
  actionType : PyVal φ
  delivered : PyVal φ
  reason : PyVal φ

/-- A retry: the payload that it resends, and the one whose refusal caused it. -/
structure Retry where
  resent : Nat
  refused : Nat
deriving DecidableEq, Repr

/-- The node that delegates. -/
structure Delegator (φ α : Type) where
  /-- `_delegated_pending`, once there is one. -/
  pending : Option (Dict Str (PendingEntry α))
  version : Nat
  calls : List (DelegatePhase α)
  /-- `_delegated_results`. -/
  results : List (DelegateRecord φ)
  /-- The number of the next payload. -/
  next : Nat
  /-- The payloads that `runtime.send` was called with. -/
  sends : List Nat
  /-- The payloads that were refused, as the refusals came in. -/
  refused : List Nat
  retries : List Retry

namespace Delegator

variable {φ α : Type} [Builtins φ]

/-- What can happen next. -/
inductive Action (φ α : Type) where
  /-- `_mesh_delegate` is called with a new payload. -/
  | delegate (peer : Str) (payload : α)
  /-- A call takes its next step. -/
  | advance (call : Nat) (outcome : SendOutcome)
  /-- `_record_delegated_result` is called with a result for the payload `of`. -/
  | result (peer : Str) (payload : PyVal φ) (of : Nat)

/-- Nothing was delegated yet. -/
def start : Delegator φ α where
  pending := none
  version := 0
  calls := []
  results := []
  next := 0
  sends := []
  refused := []
  retries := []

/-- A call moves on. -/
def goto (s : Delegator φ α) (i : Nat) (phase : DelegatePhase α) : Delegator φ α :=
  { s with calls := s.calls.set i phase }

/-- The next step of a call. -/
def advance (s : Delegator φ α) (i : Nat) (outcome : SendOutcome) : DelegatePhase α → Delegator φ α
  | .sending peer item =>
      match outcome with
      | .noRuntime => s.goto i .done
      | .raised | .refused => { s with sends := s.sends ++ [item.id] }.goto i .done
      | .success => { s with sends := s.sends ++ [item.id] }.goto i (.sent peer item)
  | .sent peer item =>
      match s.pending with
      | none => s.goto i (.creating peer item)
      | some _ => s.goto i (.holding peer item s.version)
  | .creating peer item =>
      { s with pending := some [], version := s.version + 1 }.goto i
        (.holding peer item (s.version + 1))
  | .holding peer item version =>
      if version = s.version then
        { s with pending := s.pending.map fun d => Dict.set d peer ⟨item, 0⟩ }.goto i .done
      else s.goto i .done
  | .done => s

/-- What is kept for a peer. -/
def pendingOf (s : Delegator φ α) (peer : Str) : Option (PendingEntry α) :=
  Dict.get? (s.pending.getD []) peer

/-- `"not the primary" in str(reason or "").lower()`. -/
def notThePrimary (reason : PyVal φ) : Bool :=
  decide (lit "not the primary" <:+: lowerLetters (strOf (orElse reason (.str []))))

/-- `_retry_delegation_if_stale`, after the reason was looked at.  `of` is the payload
that was refused. -/
def retryIfStale (s : Delegator φ α) (peer : Str) (of : Nat) : Delegator φ α :=
  match s.pendingOf peer with
  | none => s
  | some entry =>
      if 2 ≤ entry.attempt then
        { s with
          pending := some (Dict.remove (s.pending.getD []) peer)
          version := s.version + 1 }
      else
        { s with
          pending := some (Dict.set (s.pending.getD []) peer ⟨entry.item, entry.attempt + 1⟩)
          version := s.version + 1
          calls := s.calls ++ [.sending peer entry.item]
          retries := s.retries ++ [⟨entry.item.id, of⟩] }

/-- The record of a result. -/
def recordOf (peer : Str) (payload : Obj φ) : DelegateRecord φ where
  peer := peer
  status := fetch (lit "status") payload
  actionType := fetch (lit "action_type") payload
  delivered := fetch (lit "delivered") payload
  reason := fetch (lit "reason") payload

/-- `_record_delegated_result`.  The last sixteen records are kept. -/
def recordDelegatedResult (s : Delegator φ α) (peer : Str) (payload : PyVal φ) (of : Nat) :
    Delegator φ α :=
  match payload with
  | .dict d =>
      let results := s.results ++ [recordOf peer d]
      let s := { s with results := results.drop (results.length - 16) }
      if notThePrimary (fetch (lit "reason") d) then
        { s with refused := s.refused ++ [of] }.retryIfStale peer of
      else s
  | _ => s

/-- One step of a run. -/
def step (s : Delegator φ α) : Action φ α → Delegator φ α
  | .delegate peer payload =>
      { s with next := s.next + 1, calls := s.calls ++ [.sending peer ⟨s.next, payload⟩] }
  | .advance i outcome =>
      match s.calls[i]? with
      | some phase => s.advance i outcome phase
      | none => s
  | .result peer payload of => s.recordDelegatedResult peer payload of

/-! ## What is kept -/

/-- No payload was sent more than three times, and every retry resent the payload whose
refusal caused it. -/
structure Kept (s : Delegator φ α) : Prop where
  sends : ∀ id, s.sends.count id ≤ 3
  retries : ∀ r ∈ s.retries, r.resent = r.refused

/-- The result is a refusal that a retry answers. -/
def isRefusal (payload : PyVal φ) : Bool :=
  match payload with
  | .dict d => notThePrimary (fetch (lit "reason") d)
  | _ => false

/-- A refusal that causes a retry is of the payload that is kept for the peer, and that
payload was refused at most once before. -/
def Orderly (s : Delegator φ α) : Action φ α → Prop
  | .result peer payload of =>
      isRefusal payload = true → ∀ entry ∈ s.pendingOf peer, entry.attempt < 2 →
        entry.item.id = of ∧ s.refused.count of < 2
  | _ => True

instance (s : Delegator φ α) : (a : Action φ α) → Decidable (s.Orderly a)
  | .delegate _ _ | .advance _ _ => inferInstanceAs (Decidable True)
  | .result peer payload of =>
      inferInstanceAs (Decidable (isRefusal payload = true → ∀ entry ∈ s.pendingOf peer,
        entry.attempt < 2 → entry.item.id = of ∧ s.refused.count of < 2))

/-- The call has still to send this payload. -/
def waits (id : Nat) : DelegatePhase α → Bool
  | .sending _ item => item.id = id
  | _ => false

/-- What the history says of a payload.  It was sent and is still to be sent at most once
for its delegation and once for each of its retries, and it has at most two retries and
no more than refusals. -/
structure Counted (s : Delegator φ α) : Prop where
  sent : ∀ id, s.sends.count id + s.calls.countP (waits id) ≤
    (if id < s.next then 1 else 0) + (s.retries.map Retry.resent).count id
  retried : ∀ id, (s.retries.map Retry.resent).count id ≤ s.refused.count id ∧
    (s.retries.map Retry.resent).count id ≤ 2
  retries : ∀ r ∈ s.retries, r.resent = r.refused

section Counting

omit [Builtins φ]

theorem counted_start : Counted (start : Delegator φ α) where
  sent id := Nat.zero_le _
  retried id := ⟨Nat.zero_le _, Nat.zero_le _⟩
  retries r hr := by cases hr

theorem Counted.kept {s : Delegator φ α} (h : Counted s) : Kept s where
  sends id := by
    have hsent := h.sent id
    have hretried := (h.retried id).2
    split at hsent <;> omega
  retries := h.retries

/-- A new payload is to be sent once. -/
theorem Counted.delegate {s : Delegator φ α} (h : Counted s) (peer : Str) (payload : α) :
    Counted { s with
      next := s.next + 1
      calls := s.calls ++ [.sending peer ⟨s.next, payload⟩] } where
  sent id := by
    have hsent := h.sent id
    rw [Calls.countP_concat]
    by_cases hid : s.next = id
    · subst hid
      simp only [waits, Nat.lt_irrefl, if_false] at hsent ⊢
      simp
      omega
    · have hlt : id < s.next + 1 ↔ id < s.next := by omega
      simp only [waits, hid, hlt]
      simpa using hsent
  retried := h.retried
  retries := h.retries

/-- A call moves on without sending. -/
theorem Counted.goto {s : Delegator φ α} (h : Counted s) {i : Nat} {phase : DelegatePhase α}
    (hi : s.calls[i]? = some phase) {phase' : DelegatePhase α} (hphase : ∀ id, waits id phase' = false) :
    Counted (s.goto i phase') where
  sent id := by
    have hsent := h.sent id
    have hset := Calls.countP_set_add (p := waits id) (b := phase') hi
    rw [hphase id, if_neg Bool.false_ne_true] at hset
    change s.sends.count id + (s.calls.set i phase').countP (waits id) ≤
      (if id < s.next then 1 else 0) + (s.retries.map Retry.resent).count id
    omega
  retried := h.retried
  retries := h.retries

/-- A call sends its payload. -/
theorem Counted.send {s : Delegator φ α} (h : Counted s) {i : Nat} {peer : Str} {item : Delegated α}
    (hi : s.calls[i]? = some (.sending peer item)) {phase' : DelegatePhase α}
    (hphase : ∀ id, waits id phase' = false) :
    Counted ({ s with sends := s.sends ++ [item.id] }.goto i phase') where
  sent id := by
    have hsent := h.sent id
    have hset := Calls.countP_set_add (p := waits id) (b := phase') hi
    rw [hphase id, if_neg Bool.false_ne_true] at hset
    change (s.sends ++ [item.id]).count id + (s.calls.set i phase').countP (waits id) ≤
      (if id < s.next then 1 else 0) + (s.retries.map Retry.resent).count id
    rw [List.count_append]
    by_cases hid : item.id = id
    · simp only [waits, hid, decide_true, if_true] at hset
      simp only [hid, List.count_singleton_self]
      omega
    · simp only [waits, hid, decide_false, Bool.false_eq_true, if_false] at hset
      simp only [List.count_singleton, beq_iff_eq, hid, if_false]
      omega
  retried := h.retried
  retries := h.retries

theorem Counted.advance {s : Delegator φ α} (h : Counted s) {i : Nat} (outcome : SendOutcome)
    {phase : DelegatePhase α} (hi : s.calls[i]? = some phase) :
    Counted (s.advance i outcome phase) := by
  cases phase with
  | sending peer item =>
      cases outcome with
      | noRuntime => exact h.goto hi fun _ => rfl
      | raised | refused | success => exact h.send hi fun _ => rfl
  | sent peer item =>
      rw [Delegator.advance]
      split <;> exact h.goto hi fun _ => rfl
  | creating peer item =>
      have hnew : Counted { s with pending := some [], version := s.version + 1 } :=
        ⟨h.sent, h.retried, h.retries⟩
      exact hnew.goto hi fun _ => rfl
  | holding peer item version =>
      rw [Delegator.advance]
      split
      · have hnew : Counted { s with pending := s.pending.map fun d => Dict.set d peer ⟨item, 0⟩ } :=
          ⟨h.sent, h.retried, h.retries⟩
        exact hnew.goto hi fun _ => rfl
      · exact h.goto hi fun _ => rfl
  | done => exact h

/-- A refusal comes in that is of the payload kept for the peer. -/
theorem Counted.retryIfStale {s : Delegator φ α} (h : Counted s) {peer : Str} {of : Nat}
    (hok : ∀ entry ∈ s.pendingOf peer, entry.attempt < 2 →
      entry.item.id = of ∧ s.refused.count of < 2) :
    Counted ({ s with refused := s.refused ++ [of] }.retryIfStale peer of) := by
  have hrefused : ∀ id, s.refused.count id ≤ (s.refused ++ [of]).count id := by
    intro id
    rw [List.count_append]
    omega
  have hretried : ∀ id, (s.retries.map Retry.resent).count id ≤ (s.refused ++ [of]).count id ∧
      (s.retries.map Retry.resent).count id ≤ 2 :=
    fun id => ⟨(h.retried id).1.trans (hrefused id), (h.retried id).2⟩
  have hp : ({ s with refused := s.refused ++ [of] } : Delegator φ α).pendingOf peer =
      s.pendingOf peer := rfl
  rw [Delegator.retryIfStale, hp]
  cases hentry : s.pendingOf peer with
  | none => exact ⟨h.sent, hretried, h.retries⟩
  | some entry =>
      by_cases hattempt : 2 ≤ entry.attempt
      · simp only [if_pos hattempt]
        exact ⟨h.sent, hretried, h.retries⟩
      · simp only [if_neg hattempt]
        obtain ⟨hid, hfew⟩ := hok entry hentry (by omega)
        refine ⟨fun id => ?_, fun id => ?_, fun r hr => ?_⟩
        · have hsent := h.sent id
          simp only [Calls.countP_concat, List.map_append, List.map_cons, List.map_nil,
            List.count_append, waits]
          by_cases he : entry.item.id = id
          · simp [he]
            omega
          · simp [he]
            omega
        · obtain ⟨hle, htwo⟩ := h.retried id
          simp only [List.map_append, List.map_cons, List.map_nil, List.count_append, hid]
          by_cases he : of = id
          · subst he
            simp
            omega
          · simp [he]
            omega
        · rcases List.mem_append.1 hr with hr | hr
          · exact h.retries r hr
          · rw [List.mem_singleton.1 hr]
            exact hid

end Counting

theorem Counted.step {s : Delegator φ α} (h : Counted s) {a : Action φ α} (ha : s.Orderly a) :
    Counted (s.step a) := by
  cases a with
  | delegate peer payload => exact h.delegate peer payload
  | advance i outcome =>
      rw [Delegator.step]
      split
      · rename_i phase hi
        exact h.advance outcome hi
      · exact h
  | result peer payload of =>
      cases payload with
      | dict d =>
          rw [Delegator.step, recordDelegatedResult]
          dsimp only
          rw [Orderly, isRefusal] at ha
          by_cases hr : notThePrimary (fetch (lit "reason") d) = true
          · rw [if_pos hr]
            have hrec : Counted { s with
                results := (s.results ++ [recordOf peer d]).drop
                  ((s.results ++ [recordOf peer d]).length - 16) } :=
              ⟨h.sent, h.retried, h.retries⟩
            exact hrec.retryIfStale (ha hr)
          · rw [if_neg hr]
            exact ⟨h.sent, h.retried, h.retries⟩
      | none | bool _ | int _ | float _ | str _ | list _ => exact h

end Delegator

open Delegator in
/-- In every run whose refusals are of the payload that is kept for the peer, and of no
payload a third time, every payload is sent at most three times and every retry resends
what was refused. -/
theorem delegations_kept {φ α : Type} [Builtins φ] (as : List (Action φ α))
    (h : Meets step Orderly start as) : Always step Kept start as :=
  (Always.of_inv (fun _ _ hc ha => hc.step ha) counted_start h).mono fun _ hc => hc.kept

/-! ## A payload that is refused again and again -/

/-- The refusal of a peer that follows nobody. -/
def staleRefusal : PyVal WholeFloat :=
  .dict (obj [("id", .none), ("status", .str (lit "refused")),
    ("reason", .str (lit "sender is not the primary (mine is unknown, sender hub)"))])

/-- One payload is delegated. -/
def delegateOnce : List (Delegator.Action WholeFloat String) :=
  .delegate (lit "phone") "hello" :: List.replicate 4 (.advance 0 .success)

/-- It is refused, and the retry runs as the given call. -/
def refuseOnce (call : Nat) : List (Delegator.Action WholeFloat String) :=
  .result (lit "phone") staleRefusal 0 :: List.replicate 3 (.advance call .success)

/-- A second payload is delegated before the refusal of the first comes in. -/
def delegateTwice : List (Delegator.Action WholeFloat String) :=
  delegateOnce ++ .delegate (lit "phone") "goodbye" :: List.replicate 3 (.advance 1 .success) ++
    refuseOnce 2

open Delegator in
/-- A payload that is refused three times is sent a fourth time, and the refusal of a
payload resends the one that was delegated after it. -/
theorem refused_payload_sent_four_times :
    (run step start (delegateOnce ++ refuseOnce 1 ++ refuseOnce 2 ++ refuseOnce 3)).sends =
        [0, 0, 0, 0] ∧
      ¬ Kept (run step start (delegateOnce ++ refuseOnce 1 ++ refuseOnce 2 ++ refuseOnce 3)) ∧
      (run step start delegateTwice).sends = [0, 1, 1] ∧
      (run step start delegateTwice).retries = [⟨1, 0⟩] ∧ ¬ Kept (run step start delegateTwice) := by
  have hfour : (run step start (delegateOnce ++ refuseOnce 1 ++ refuseOnce 2 ++ refuseOnce 3)).sends =
      [0, 0, 0, 0] := by decide +kernel
  have hother : (run step start delegateTwice).retries = [⟨1, 0⟩] := by decide +kernel
  refine ⟨hfour, fun hkept => ?_, by decide +kernel, hother, fun hkept => ?_⟩
  · have hcount := hkept.sends 0
    rw [hfour] at hcount
    exact absurd hcount (by decide)
  · have hretry := hkept.retries ⟨1, 0⟩ (by rw [hother]; exact List.mem_singleton_self _)
    exact absurd hretry (by decide)

open Delegator in
/-- A payload that is refused twice is sent three times. -/
theorem refused_twice_kept :
    Meets step Orderly start (delegateOnce ++ refuseOnce 1 ++ refuseOnce 2) ∧
      (run step start (delegateOnce ++ refuseOnce 1 ++ refuseOnce 2)).sends = [0, 0, 0] ∧
      Kept (run step start (delegateOnce ++ refuseOnce 1 ++ refuseOnce 2)) := by
  have hmeets : Meets step Orderly start (delegateOnce ++ refuseOnce 1 ++ refuseOnce 2) := by
    decide +kernel
  exact ⟨hmeets, by decide +kernel, (delegations_kept _ hmeets).last⟩

end ShugoCore
