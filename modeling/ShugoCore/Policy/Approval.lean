import ShugoCore.Lib.Dict
import ShugoCore.Lib.Run

/-!
# The approval broker

`ApprovalBroker` of `policy.py`.  `request_approval` puts a record into `_pending`,
starts a thread that asks the operator, and waits for the event of the record.  The
first verdict that is written into the record sets the event, whether the thread writes
it or the console does (`approve`, `deny`).  When the wait is over the requester takes
the record out.

Each lock acquisition is a step, and so are the start of the thread, the end of the wait
and the answer of the operator.  A list of actions is an interleaving of any number of
requests, their operator threads and console calls.  A wait may time out whenever its
event is not set, so the time to live is arbitrary.  A request has its number as its id,
since `uuid4` does not repeat one.

Beside the state stands its history: the resolutions that were written and the waits
that ended, in order, and the console calls that returned `True`.
-/

namespace ShugoCore

open Machine

/-- Where a call of `request_approval` is. -/
inductive RequestPhase where
  /-- The record is pending.  The thread is started next. -/
  | registered
  | waiting
  /-- `event.wait` returned `False`. -/
  | expired
  /-- `event.wait` returned `True`. -/
  | woken
  /-- It returned `approved` and `reason`. -/
  | returned (approved : Bool) (reason : String)
deriving DecidableEq, Repr

/-- Where the thread of `_ask_operator` is. -/
inductive AskPhase where
  | notStarted
  | started
  /-- The operator was given the request. -/
  | asking
  /-- The operator answered, or failed. -/
  | answered (result : Bool)
  | finished
deriving DecidableEq, Repr

/-- A call of `request_approval`, with its event and its thread. -/
structure ApprovalCall where
  phase : RequestPhase
  event : Bool
  thread : AskPhase
deriving DecidableEq, Repr

/-- What happened to a request. -/
inductive ApprovalEvent where
  | resolved (id : Nat) (approved : Bool)
  | waitEnded (id : Nat)
deriving DecidableEq, Repr

/-- The request that an event is about. -/
def ApprovalEvent.id : ApprovalEvent → Nat
  | .resolved id _ | .waitEnded id => id

@[simp] theorem ApprovalEvent.id_resolved (id : Nat) (approved : Bool) :
    (resolved id approved).id = id := rfl

@[simp] theorem ApprovalEvent.id_waitEnded (id : Nat) : (waitEnded id).id = id := rfl

/-- The broker with its calls and its history. -/
structure ApprovalBroker where
  /-- An operator is attached. -/
  operator : Bool
  /-- The verdict in each pending record. -/
  pending : Dict Nat (Option Bool)
  calls : List ApprovalCall
  log : List ApprovalEvent
  /-- The console calls that returned `True`. -/
  acks : List (Nat × Bool)
deriving DecidableEq, Repr

namespace ApprovalBroker

/-- What can happen next. -/
inductive Action where
  /-- `attach_operator`. -/
  | attach (present : Bool)
  /-- `request_approval` is called and goes through its first lock. -/
  | request
  /-- The thread of a request is started. -/
  | start (id : Nat)
  /-- `event.wait` returns `True`. -/
  | wake (id : Nat)
  /-- `event.wait` returns `False`. -/
  | expire (id : Nat)
  /-- The requester takes the record out, and returns. -/
  | pop (id : Nat)
  /-- The thread looks the record up. -/
  | ask (id : Nat)
  /-- The operator returns something, or raises. -/
  | answer (id : Nat) (outcome : Option Bool)
  /-- The thread writes the answer. -/
  | deliver (id : Nat)
  /-- `approve` or `deny`. -/
  | resolve (id : Nat) (approved : Bool)
deriving DecidableEq, Repr

/-- A new broker. -/
def start : ApprovalBroker := ⟨false, [], [], [], []⟩

/-- A call moves on. -/
def setCall (s : ApprovalBroker) (id : Nat) (call : ApprovalCall) : ApprovalBroker :=
  { s with calls := s.calls.set id call }

/-- The event of a record is set. -/
def setEvent (s : ApprovalBroker) (id : Nat) : List ApprovalCall :=
  s.calls.modify id fun call => { call with event := true }

/-- A verdict is written into the record of a request, if there is one without a
verdict. -/
def record (s : ApprovalBroker) (id : Nat) (approved : Bool) : ApprovalBroker :=
  match Dict.get? s.pending id with
  | some none =>
      { s with
        pending := Dict.set s.pending id (some approved)
        calls := s.setEvent id
        log := s.log ++ [.resolved id approved] }
  | some (some _) | none => s

/-- `_resolve`, and what it returns. -/
def resolve (s : ApprovalBroker) (id : Nat) (approved : Bool) : Bool × ApprovalBroker :=
  match Dict.get? s.pending id with
  | some none =>
      (true, { s.record id approved with acks := s.acks ++ [(id, approved)] })
  | some (some _) | none => (false, s)

/-- The first lock of `request_approval`. -/
def request (s : ApprovalBroker) : ApprovalBroker :=
  if s.operator then
    { s with
      pending := Dict.set s.pending s.calls.length none
      calls := s.calls ++ [⟨.registered, false, .notStarted⟩] }
  else
    { s with
      calls := s.calls ++
        [⟨.returned false "no approval channel attached (fail-closed)", false, .finished⟩] }

/-- The end of a wait. -/
def endWait (s : ApprovalBroker) (id : Nat) (call : ApprovalCall) (phase : RequestPhase) :
    ApprovalBroker :=
  { s.setCall id { call with phase := phase } with log := s.log ++ [.waitEnded id] }

/-- The last lock of `request_approval`, after which it returns. -/
def finish (s : ApprovalBroker) (id : Nat) (call : ApprovalCall) (approved : Bool)
    (reason : String) : ApprovalBroker :=
  { s.setCall id { call with phase := .returned approved reason } with
    pending := Dict.remove s.pending id }

/-- What `request_approval` returns after it was woken: `bool(record and record.get("approved"))`. -/
def verdictOf (s : ApprovalBroker) (id : Nat) : Bool :=
  Dict.get? s.pending id = some (some true)

/-- The step of the requester or the thread that an action is about. -/
def advance (s : ApprovalBroker) (call : ApprovalCall) : Action → ApprovalBroker
  | .start id =>
      if call.phase = .registered then
        s.setCall id { call with phase := .waiting, thread := .started }
      else s
  | .wake id =>
      if call.phase = .waiting ∧ call.event = true then s.endWait id call .woken else s
  | .expire id =>
      if call.phase = .waiting ∧ call.event = false then s.endWait id call .expired else s
  | .pop id =>
      match call.phase with
      | .expired => s.finish id call false "approval timed out (default deny)"
      | .woken =>
          if s.verdictOf id then s.finish id call true "operator approved"
          else s.finish id call false "operator denied"
      | .registered | .waiting | .returned _ _ => s
  | .ask id =>
      if call.thread = .started then
        s.setCall id { call with
          thread := if (Dict.get? s.pending id).isSome then .asking else .finished }
      else s
  | .answer id outcome =>
      if call.thread = .asking then
        s.setCall id { call with thread := .answered (s.operator && outcome.getD false) }
      else s
  | .deliver id =>
      match call.thread with
      | .answered result => (s.setCall id { call with thread := .finished }).record id result
      | .notStarted | .started | .asking | .finished => s
  | .attach _ | .request | .resolve _ _ => s

/-- One action. -/
def step (s : ApprovalBroker) (a : Action) : ApprovalBroker :=
  match a with
  | .attach present => { s with operator := present }
  | .request => s.request
  | .resolve id approved => (s.resolve id approved).2
  | .start id | .wake id | .expire id | .pop id | .ask id | .answer id _ | .deliver id =>
      match s.calls[id]? with
      | some call => s.advance call a
      | none => s

/-- The request that an action of a requester or of a thread is about. -/
def Action.target? : Action → Option Nat
  | .start id | .wake id | .expire id | .pop id | .ask id | .answer id _ | .deliver id => some id
  | .attach _ | .request | .resolve _ _ => none

theorem step_of_target {s : ApprovalBroker} {a : Action} {id : Nat} (h : a.target? = some id) :
    s.step a = match s.calls[id]? with
      | some call => s.advance call a
      | none => s := by
  cases a <;> cases h <;> rfl

/-- What a call returned, if it returned. -/
def phaseResult? : RequestPhase → Option Bool
  | .returned approved _ => some approved
  | .registered | .waiting | .expired | .woken => none

/-- What the call of a request returned. -/
def result? (s : ApprovalBroker) (id : Nat) : Option Bool :=
  s.calls[id]?.bind fun call => phaseResult? call.phase

/-- What every call returned. -/
def results (s : ApprovalBroker) : List (Option Bool) := s.calls.map fun call => phaseResult? call.phase

/-! ## What is seen of one request -/

/-- A request as the others see it: its call and the event, its record, and the first
thing that happened to it. -/
structure View where
  call : Option (RequestPhase × Bool)
  record : Option (Option Bool)
  first : Option ApprovalEvent

/-- The view of a request. -/
def view (s : ApprovalBroker) (k : Nat) : View where
  call := s.calls[k]?.map fun call => (call.phase, call.event)
  record := Dict.get? s.pending k
  first := s.log.find? fun event => event.id = k

/-- What one action can do to one request. -/
inductive Moves (k : Nat) : View → View → Prop where
  | stay (v : View) : Moves k v v
  | register (r f) : Moves k ⟨none, r, f⟩ ⟨some (.registered, false), some none, f⟩
  | refuse (r f reason) : Moves k ⟨none, r, f⟩ ⟨some (.returned false reason, false), r, f⟩
  | start (e r f) : Moves k ⟨some (.registered, e), r, f⟩ ⟨some (.waiting, e), r, f⟩
  | wake (r f) : Moves k ⟨some (.waiting, true), r, f⟩
      ⟨some (.woken, true), r, f.or (some (.waitEnded k))⟩
  | expire (r f) : Moves k ⟨some (.waiting, false), r, f⟩
      ⟨some (.expired, false), r, f.or (some (.waitEnded k))⟩
  | giveUp (e r f reason) : Moves k ⟨some (.expired, e), r, f⟩
      ⟨some (.returned false reason, e), none, f⟩
  | take (e r f reason) : Moves k ⟨some (.woken, e), r, f⟩
      ⟨some (.returned (decide (r = some (some true))) reason, e), none, f⟩
  | record (c f approved) : Moves k ⟨c, some none, f⟩
      ⟨c.map fun call => (call.1, true), some (some approved),
        f.or (some (.resolved k approved))⟩

theorem find?_concat (log : List ApprovalEvent) (event : ApprovalEvent) (k : Nat) :
    (log ++ [event]).find? (fun e => e.id = k) =
      (log.find? fun e => e.id = k).or (if event.id = k then some event else none) := by
  rw [List.find?_append, List.find?_singleton]
  simp

theorem view_setCall {s : ApprovalBroker} {id : Nat} {call : ApprovalCall}
    (h : s.calls[id]? = some call) (call' : ApprovalCall) (k : Nat) :
    (s.setCall id call').view k =
      if id = k then { s.view k with call := some (call'.phase, call'.event) } else s.view k := by
  by_cases hk : id = k
  · subst hk
    rw [if_pos rfl, view, setCall]
    dsimp only
    rw [List.getElem?_set_self (List.getElem?_eq_some_iff.1 h).1]
    rfl
  · rw [if_neg hk, view, setCall]
    dsimp only
    rw [List.getElem?_set_ne hk]
    rfl

/-- A thread that moves on is not seen. -/
theorem view_setThread {s : ApprovalBroker} {id : Nat} {call : ApprovalCall}
    (h : s.calls[id]? = some call) (thread : AskPhase) (k : Nat) :
    (s.setCall id { call with thread := thread }).view k = s.view k := by
  rw [view_setCall h]
  split
  · rename_i hk
    subst hk
    rw [view, h]
    rfl
  · rfl

/-- The view after a verdict was written. -/
theorem view_written (s : ApprovalBroker) (id : Nat) (approved : Bool) (k : Nat) :
    view { s with
      pending := Dict.set s.pending id (some approved)
      calls := s.setEvent id
      log := s.log ++ [.resolved id approved] } k =
    if id = k then
      ⟨(s.view k).call.map fun call => (call.1, true), some (some approved),
        (s.view k).first.or (some (.resolved k approved))⟩
    else s.view k := by
  simp only [view, find?_concat, setEvent, List.getElem?_modify, ApprovalEvent.id_resolved]
  by_cases hk : id = k
  · subst hk
    simp only [if_true, Dict.get?_set_self, Option.map_eq_map, Option.map_map]
    rfl
  · simp [hk]

theorem moves_record (s : ApprovalBroker) (id : Nat) (approved : Bool) (k : Nat) :
    Moves k (s.view k) ((s.record id approved).view k) := by
  rw [record]
  split
  · rename_i hpending
    rw [view_written]
    split
    · rename_i hk
      subst hk
      have hview : s.view id = ⟨(s.view id).call, some none, (s.view id).first⟩ := by
        rw [view, hpending]
      rw [hview]
      exact .record _ _ approved
    · exact .stay _
  · exact .stay _
  · exact .stay _

theorem moves_endWait {s : ApprovalBroker} {id : Nat} {call : ApprovalCall}
    (h : s.calls[id]? = some call) {phase : RequestPhase}
    (hmoves : ∀ r f, Moves id ⟨some (call.phase, call.event), r, f⟩
      ⟨some (phase, call.event), r, f.or (some (.waitEnded id))⟩) (k : Nat) :
    Moves k (s.view k) ((s.endWait id call phase).view k) := by
  have hview : (s.endWait id call phase).view k =
      { (s.setCall id { call with phase := phase }).view k with
        first := (s.view k).first.or (if id = k then some (.waitEnded id) else none) } := by
    rw [view, endWait, find?_concat]
    rfl
  rw [hview, view_setCall h]
  split
  · rename_i hk
    subst hk
    have hself : s.view id = ⟨some (call.phase, call.event), (s.view id).record, (s.view id).first⟩ := by
      rw [view, h]
      rfl
    rw [hself]
    exact hmoves _ _
  · rw [Option.or_none]
    exact .stay _

theorem moves_finish {s : ApprovalBroker} {id : Nat} {call : ApprovalCall}
    (h : s.calls[id]? = some call) {approved : Bool} {reason : String}
    (hmoves : ∀ f, Moves id ⟨some (call.phase, call.event), Dict.get? s.pending id, f⟩
      ⟨some (.returned approved reason, call.event), none, f⟩) (k : Nat) :
    Moves k (s.view k) ((s.finish id call approved reason).view k) := by
  have hview : (s.finish id call approved reason).view k =
      { (s.setCall id { call with phase := .returned approved reason }).view k with
        record := Dict.get? (Dict.remove s.pending id) k } := rfl
  rw [hview, view_setCall h]
  by_cases hk : id = k
  · subst hk
    rw [if_pos rfl, Dict.get?_remove_self]
    have hself : s.view id = ⟨some (call.phase, call.event), Dict.get? s.pending id,
        (s.view id).first⟩ := by
      rw [view, h]
      rfl
    rw [hself]
    exact hmoves _
  · rw [if_neg hk, Dict.get?_remove_of_ne _ hk]
    exact .stay _

theorem moves_resolve (s : ApprovalBroker) (id : Nat) (approved : Bool) (k : Nat) :
    Moves k (s.view k) ((s.resolve id approved).2.view k) := by
  rw [resolve]
  split
  · exact s.moves_record id approved k
  · exact .stay _
  · exact .stay _

/-- The view after a call came in. -/
theorem view_concat (s : ApprovalBroker) (pending : Dict Nat (Option Bool)) (call : ApprovalCall)
    (k : Nat) :
    view { s with pending := pending, calls := s.calls ++ [call] } k =
      if k = s.calls.length then
        ⟨some (call.phase, call.event), Dict.get? pending k, (s.view k).first⟩
      else { s.view k with record := Dict.get? pending k } := by
  have hcalls : (s.calls ++ [call])[k]? =
      if k = s.calls.length then some call else s.calls[k]? := by
    split
    · rename_i hk
      rw [hk, List.getElem?_concat_length]
    · rename_i hk
      exact getElem?_concat_of_ne s.calls call hk
  simp only [view, hcalls]
  split <;> rfl

theorem moves_request (s : ApprovalBroker) (k : Nat) : Moves k (s.view k) (s.request.view k) := by
  have hself (hk : k = s.calls.length) :
      s.view k = ⟨none, Dict.get? s.pending k, (s.view k).first⟩ := by
    simp only [view, hk, List.getElem?_eq_none (Nat.le_refl _), Option.map_none]
  rw [request]
  split
  · rw [view_concat]
    split
    · rename_i hk
      rw [hself hk, hk, Dict.get?_set_self]
      exact .register _ _
    · rename_i hk
      rw [Dict.get?_set_of_ne _ (fun h => hk h.symm)]
      exact .stay _
  · rw [view_concat]
    split
    · rename_i hk
      rw [hself hk]
      exact .refuse _ _ _
    · exact .stay _

/-- The verdict is taken when the wait was woken, and given up when it has expired. -/
theorem moves_pop {s : ApprovalBroker} {id : Nat} {call : ApprovalCall}
    (hcall : s.calls[id]? = some call) (k : Nat) :
    Moves k (s.view k) ((s.advance call (.pop id)).view k) := by
  rw [advance]
  split
  · rename_i hphase
    refine moves_finish hcall (fun f => ?_) k
    rw [hphase]
    exact .giveUp _ _ _ _
  · rename_i hphase
    split
    · rename_i hverdict
      refine moves_finish hcall (fun f => ?_) k
      have htake := Moves.take (k := id) call.event (Dict.get? s.pending id) f "operator approved"
      rw [show decide (Dict.get? s.pending id = some (some true)) = true from hverdict] at htake
      rw [hphase]
      exact htake
    · rename_i hverdict
      refine moves_finish hcall (fun f => ?_) k
      have htake := Moves.take (k := id) call.event (Dict.get? s.pending id) f "operator denied"
      rw [show decide (Dict.get? s.pending id = some (some true)) = false from
        Bool.eq_false_iff.2 hverdict] at htake
      rw [hphase]
      exact htake
  · exact .stay _
  · exact .stay _
  · exact .stay _

/-- The step of a requester or of a thread. -/
theorem moves_advance {s : ApprovalBroker} {id : Nat} {call : ApprovalCall} {a : Action}
    (ha : a.target? = some id) (hcall : s.calls[id]? = some call) (k : Nat) :
    Moves k (s.view k) ((s.advance call a).view k) := by
  cases a with
  | attach _ | request | resolve _ _ => exact .stay _
  | pop _ =>
      cases ha
      exact moves_pop hcall k
  | start _ =>
      cases ha
      rw [advance]
      split
      · rename_i hphase
        rw [view_setCall hcall]
        split
        · rename_i hk
          subst hk
          rw [view, hcall, Option.map_some, hphase]
          exact .start _ _ _
        · exact .stay _
      · exact .stay _
  | wake _ =>
      cases ha
      rw [advance]
      split
      · rename_i hphase
        refine moves_endWait hcall (fun r f => ?_) k
        rw [hphase.1, hphase.2]
        exact .wake _ _
      · exact .stay _
  | expire _ =>
      cases ha
      rw [advance]
      split
      · rename_i hphase
        refine moves_endWait hcall (fun r f => ?_) k
        rw [hphase.1, hphase.2]
        exact .expire _ _
      · exact .stay _
  | ask _ =>
      cases ha
      rw [advance]
      split
      · rw [view_setThread hcall]
        exact .stay _
      · exact .stay _
  | answer _ outcome =>
      cases ha
      rw [advance]
      split
      · rw [view_setThread hcall]
        exact .stay _
      · exact .stay _
  | deliver _ =>
      cases ha
      rw [advance]
      split
      · have hmoves := moves_record (s.setCall id { call with thread := .finished }) id
        rw [← view_setThread hcall .finished k]
        exact hmoves _ k
      · exact .stay _
      · exact .stay _
      · exact .stay _
      · exact .stay _

/-- Every action does one of these things to every request. -/
theorem moves_step (s : ApprovalBroker) (a : Action) (k : Nat) :
    Moves k (s.view k) ((s.step a).view k) := by
  have hadvance (id : Nat) (ha : a.target? = some id) :
      Moves k (s.view k) ((s.step a).view k) := by
    rw [step_of_target ha]
    cases hcall : s.calls[id]? with
    | some call => exact moves_advance ha hcall k
    | none => exact .stay _
  cases a with
  | attach present => exact .stay _
  | request => exact s.moves_request k
  | resolve id approved => exact s.moves_resolve id approved k
  | start id => exact hadvance id rfl
  | wake id => exact hadvance id rfl
  | expire id => exact hadvance id rfl
  | pop id => exact hadvance id rfl
  | ask id => exact hadvance id rfl
  | answer id outcome => exact hadvance id rfl
  | deliver id => exact hadvance id rfl

/-! ## What holds of every request -/

/-- A request in each phase.  While it waits, its event is set if its record has a
verdict, and that verdict is the first thing that happened to it. -/
def View.Ok (k : Nat) : View → Prop
  | ⟨none, r, f⟩ => r = none ∧ f = none
  | ⟨some (.registered, e), r, f⟩ | ⟨some (.waiting, e), r, f⟩ =>
      ∃ verdict : Option Bool, r = some verdict ∧ e = verdict.isSome ∧
        f = verdict.map (.resolved k)
  | ⟨some (.woken, _), r, f⟩ => ∃ approved, r = some (some approved) ∧ f = some (.resolved k approved)
  | ⟨some (.expired, _), r, f⟩ => r.isSome ∧ f = some (.waitEnded k)
  | ⟨some (.returned approved _, _), r, f⟩ =>
      r = none ∧ (approved = true → f = some (.resolved k true))

theorem View.Ok.moves {k : Nat} {v v' : View} (h : v.Ok k) (hm : Moves k v v') : v'.Ok k := by
  cases hm with
  | stay => exact h
  | register r f =>
      obtain ⟨rfl, rfl⟩ := h
      exact ⟨none, rfl, rfl, rfl⟩
  | refuse r f reason =>
      obtain ⟨rfl, rfl⟩ := h
      exact ⟨rfl, fun h => nomatch h⟩
  | start e r f => exact h
  | wake r f =>
      obtain ⟨verdict, rfl, he, rfl⟩ := h
      cases verdict with
      | none => cases he
      | some approved => exact ⟨approved, rfl, rfl⟩
  | expire r f =>
      obtain ⟨verdict, rfl, he, rfl⟩ := h
      cases verdict with
      | none => exact ⟨rfl, rfl⟩
      | some approved => cases he
  | giveUp e r f reason => exact ⟨rfl, fun h => nomatch h⟩
  | take e r f reason =>
      obtain ⟨approved, rfl, rfl⟩ := h
      refine ⟨rfl, fun happroved => ?_⟩
      rw [decide_eq_true_eq, Option.some.injEq, Option.some.injEq] at happroved
      rw [happroved]
  | record c f approved =>
      cases c with
      | none => cases h.1
      | some c =>
          obtain ⟨phase, e⟩ := c
          cases phase with
          | registered =>
              obtain ⟨verdict, ⟨⟩, -, rfl⟩ := h
              exact ⟨some approved, rfl, rfl, rfl⟩
          | waiting =>
              obtain ⟨verdict, ⟨⟩, -, rfl⟩ := h
              exact ⟨some approved, rfl, rfl, rfl⟩
          | woken =>
              obtain ⟨_, ⟨⟩, -⟩ := h
          | expired =>
              obtain ⟨-, rfl⟩ := h
              exact ⟨rfl, rfl⟩
          | returned => cases h.1

/-- Every request is as its phase says. -/
def Ordered (s : ApprovalBroker) : Prop := ∀ k, (s.view k).Ok k

theorem ordered_start : start.Ordered := fun _ => ⟨rfl, rfl⟩

theorem Ordered.step {s : ApprovalBroker} (h : s.Ordered) (a : Action) : (s.step a).Ordered :=
  fun k => (h k).moves (s.moves_step a k)

theorem Ordered.run {s : ApprovalBroker} (h : s.Ordered) (as : List Action) :
    (run ApprovalBroker.step s as).Ordered :=
  inv_run (fun _ a h => h.step a) h as

theorem result?_eq_some_iff {s : ApprovalBroker} {k : Nat} {approved : Bool} :
    s.result? k = some approved ↔ ∃ reason e, (s.view k).call = some (.returned approved reason, e) := by
  rw [result?, view]
  cases hcall : s.calls[k]? with
  | none => simp
  | some call =>
      obtain ⟨phase, event, thread⟩ := call
      cases phase <;> simp [phaseResult?]

/-- A call that returned approval was approved before anything else happened to it. -/
theorem Ordered.first_of_approved {s : ApprovalBroker} (h : s.Ordered) {k : Nat}
    (hk : s.result? k = some true) :
    s.log.find? (fun event => event.id = k) = some (.resolved k true) := by
  obtain ⟨reason, e, hcall⟩ := result?_eq_some_iff.1 hk
  have hok := h k
  have hview : s.view k = ⟨some (.returned true reason, e), (s.view k).record, (s.view k).first⟩ := by
    rw [← hcall]
  rw [hview] at hok
  exact hok.2 rfl

/-! ## The call and the record of one request -/

/-- The call and the record of a request. -/
def cell (s : ApprovalBroker) (k : Nat) : Option ApprovalCall × Option (Option Bool) :=
  (s.calls[k]?, Dict.get? s.pending k)

theorem cell_setCall {s : ApprovalBroker} {id : Nat} {call : ApprovalCall}
    (h : s.calls[id]? = some call) (call' : ApprovalCall) :
    (s.setCall id call').cell id = (some call', Dict.get? s.pending id) := by
  rw [cell, setCall]
  dsimp only
  rw [List.getElem?_set_self (List.getElem?_eq_some_iff.1 h).1]

theorem cell_finish {s : ApprovalBroker} {id : Nat} {call : ApprovalCall}
    (h : s.calls[id]? = some call) (approved : Bool) (reason : String) :
    (s.finish id call approved reason).cell id =
      (some { call with phase := .returned approved reason }, none) := by
  have hset := cell_setCall h { call with phase := .returned approved reason }
  rw [cell, finish, Dict.get?_remove_self]
  exact congrArg (fun c => (c.1, none)) hset

theorem cell_record (s : ApprovalBroker) (id : Nat) (approved : Bool) :
    (s.record id approved).cell id =
      match Dict.get? s.pending id with
      | some none => (s.calls[id]?.map fun call => { call with event := true }, some (some approved))
      | some (some _) | none => s.cell id := by
  rw [record]
  cases hr : Dict.get? s.pending id with
  | none => rfl
  | some verdict =>
      cases verdict with
      | none =>
          dsimp only [cell]
          rw [Dict.get?_set_self, setEvent, List.getElem?_modify_eq]
          rfl
      | some _ => rfl

theorem cell_resolve (s : ApprovalBroker) (id : Nat) (approved : Bool) :
    (s.resolve id approved).2.cell id = (s.record id approved).cell id := by
  rw [resolve, record]
  split <;> rfl

end ApprovalBroker

end ShugoCore
