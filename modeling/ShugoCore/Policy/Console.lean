import ShugoCore.Policy.Approval

/-!
# Acknowledgements of the console

`approve` and `deny` return `True` when they wrote their verdict into the record of the
request.  The call of the request then returns that verdict, with one exception: between
the time `event.wait` returns `False` and the time the requester takes the record out,
the record is still there, and an approval that is written into it is acknowledged and
dropped.
-/

namespace ShugoCore

open Machine

namespace ApprovalBroker

/-- The steps that a requester still has to take, in order.  Those that are behind it do
nothing. -/
def ownSteps (k : Nat) : List Action := [.start k, .wake k, .pop k]

/-- Every verdict that the console was told is in is what the call of its request has
returned, or returns by its own next steps. -/
def Honoured (s : ApprovalBroker) : Prop :=
  ∀ i ∈ s.acks, (run step s (ownSteps i.1)).result? i.1 = some i.2

/-- `approve` is not called for a request whose wait has timed out and whose record is
still there, without a verdict. -/
def InTime (s : ApprovalBroker) : Action → Prop
  | .resolve id true => ∀ call, s.calls[id]? = some call → call.phase = .expired →
      Dict.get? s.pending id ≠ some none
  | _ => True

/-! ## What the requester returns -/

theorem result?_of_cell {s : ApprovalBroker} {k : Nat} {call : ApprovalCall}
    {r : Option (Option Bool)} (h : s.cell k = (some call, r)) :
    s.result? k = phaseResult? call.phase := by
  rw [result?, show s.calls[k]? = some call from congrArg Prod.fst h]
  rfl

theorem step_call {s : ApprovalBroker} {a : Action} {k : Nat} {call : ApprovalCall}
    (ha : a.target? = some k) (h : s.calls[k]? = some call) : s.step a = s.advance call a := by
  rw [step_of_target ha, h]

theorem result?_pop_woken {s : ApprovalBroker} {k : Nat} {call : ApprovalCall}
    (h : s.calls[k]? = some call) (hphase : call.phase = .woken) :
    (s.step (.pop k)).result? k = some (s.verdictOf k) := by
  rw [step_call rfl h, advance, hphase]
  dsimp only
  split
  · rename_i hverdict
    rw [result?_of_cell (cell_finish h _ _), hverdict]
    rfl
  · rename_i hverdict
    rw [result?_of_cell (cell_finish h _ _), Bool.eq_false_iff.2 hverdict]
    rfl

theorem result?_wait {s : ApprovalBroker} {k : Nat} {call : ApprovalCall}
    (h : s.calls[k]? = some call) (hphase : call.phase = .waiting) :
    (run step s [.wake k, .pop k]).result? k = if call.event then some (s.verdictOf k) else none := by
  rw [run_cons, run_cons, run_nil, step_call (a := .wake k) rfl h, advance]
  split
  · rename_i hwake
    rw [if_pos hwake.2]
    have hcall : (s.endWait k call .woken).calls[k]? = some { call with phase := .woken } :=
      congrArg Prod.fst (cell_setCall h { call with phase := .woken })
    exact result?_pop_woken hcall rfl
  · rename_i hwake
    have hevent : call.event = false := by simpa [hphase] using hwake
    rw [hevent, step_call rfl h, advance, hphase]
    dsimp only
    rw [result?, h, Option.bind_some, hphase]
    rfl

/-- A request whose call returns `v` once nothing but the requester moves. -/
def View.Answers (v : Bool) : View → Prop
  | ⟨some (.registered, _), r, _⟩ | ⟨some (.waiting, _), r, _⟩ | ⟨some (.woken, _), r, _⟩ =>
      r = some (some v)
  | ⟨some (.expired, _), _, _⟩ => v = false
  | ⟨some (.returned approved _, _), _, _⟩ => approved = v
  | ⟨none, _, _⟩ => False

theorem verdictOf_eq {s : ApprovalBroker} {k : Nat} {v : Bool}
    (h : Dict.get? s.pending k = some (some v)) : s.verdictOf k = v := by
  rw [verdictOf, h]
  cases v <;> rfl

/-- A requester that still waits returns the verdict of its record, if there is one. -/
theorem result?_waiting_iff {s : ApprovalBroker} {k : Nat} {call : ApprovalCall}
    (h : s.calls[k]? = some call) (hphase : call.phase = .waiting) {verdict : Option Bool}
    (hr : Dict.get? s.pending k = some verdict) (he : call.event = verdict.isSome) (v : Bool) :
    (run step s [.wake k, .pop k]).result? k = some v ↔ Dict.get? s.pending k = some (some v) := by
  rw [result?_wait h hphase, he, hr]
  cases verdict with
  | none => simp
  | some approved =>
      rw [verdictOf_eq hr]
      simp

theorem result?_ownSteps_iff {s : ApprovalBroker} (h : s.Ordered) (k : Nat) (v : Bool) :
    (run step s (ownSteps k)).result? k = some v ↔ (s.view k).Answers v := by
  have hok := h k
  rw [view] at hok ⊢
  rw [ownSteps, run_cons]
  cases hcall : s.calls[k]? with
  | none =>
      have hnone {t : ApprovalBroker} {a : Action} (ha : a.target? = some k)
          (ht : t.calls[k]? = none) : t.step a = t := by rw [step_of_target ha, ht]
      rw [hnone rfl hcall, run_cons, hnone rfl hcall, run_cons, hnone rfl hcall, run_nil, result?,
        hcall]
      exact ⟨fun h => (by cases h), False.elim⟩
  | some call =>
      rw [hcall] at hok
      obtain ⟨phase, event, thread⟩ := call
      rw [step_call (a := .start k) rfl hcall, advance]
      cases phase with
      | registered =>
          obtain ⟨verdict, hr, he, -⟩ := hok
          rw [if_pos rfl]
          have hwaiting := cell_setCall hcall ⟨.waiting, event, .started⟩
          exact result?_waiting_iff (congrArg Prod.fst hwaiting) rfl hr he v
      | waiting =>
          obtain ⟨verdict, hr, he, -⟩ := hok
          rw [if_neg (by simp)]
          exact result?_waiting_iff hcall rfl hr he v
      | woken =>
          obtain ⟨approved, hr, -⟩ := hok
          rw [if_neg (by simp), run_cons, step_call (a := .wake k) rfl hcall, advance,
            if_neg (by simp), run_cons, run_nil, result?_pop_woken hcall rfl, verdictOf_eq hr]
          change some approved = some v ↔ Dict.get? s.pending k = some (some v)
          rw [hr]
          simp
      | expired =>
          rw [if_neg (by simp), run_cons, step_call (a := .wake k) rfl hcall, advance,
            if_neg (by simp), run_cons, run_nil, step_call (a := .pop k) rfl hcall, advance]
          dsimp only
          rw [result?_of_cell (cell_finish hcall _ _)]
          change some false = some v ↔ v = false
          rw [Option.some.injEq, eq_comm]
      | returned approved reason =>
          rw [if_neg (by simp), run_cons, step_call (a := .wake k) rfl hcall, advance,
            if_neg (by simp), run_cons, run_nil, step_call (a := .pop k) rfl hcall, advance]
          dsimp only
          rw [result?, hcall]
          change some approved = some v ↔ approved = v
          rw [Option.some.injEq]

/-! ## Acknowledged verdicts along a run -/

/-- A verdict that was acknowledged in time stays what the call returns. -/
theorem View.Answers.moves {k : Nat} {v : Bool} {w w' : View} (h : w.Answers v) (hok : w.Ok k)
    (hm : Moves k w w') : w'.Answers v := by
  cases hm with
  | stay => exact h
  | register r f => exact h.elim
  | refuse r f reason => exact h.elim
  | start e r f => exact h
  | wake r f => exact h
  | expire r f =>
      obtain ⟨verdict, rfl, he, -⟩ := hok
      cases Option.some.inj h
      cases he
  | giveUp e r f reason => exact (show v = false from h).symm
  | take e r f reason =>
      rw [show r = some (some v) from h]
      change decide _ = v
      cases v <;> rfl
  | record c f approved =>
      cases c with
      | none => exact h.elim
      | some c =>
          obtain ⟨phase, e⟩ := c
          cases phase with
          | registered => cases h
          | waiting => cases h
          | woken => cases h
          | expired => exact h
          | returned => exact h

theorem Ordered.honoured_iff {s : ApprovalBroker} (h : s.Ordered) :
    s.Honoured ↔ ∀ i ∈ s.acks, (s.view i.1).Answers i.2 := by
  constructor
  · exact fun hon i hi => (result?_ownSteps_iff h i.1 i.2).1 (hon i hi)
  · exact fun hans i hi => (result?_ownSteps_iff h i.1 i.2).2 (hans i hi)

theorem acks_record (s : ApprovalBroker) (id : Nat) (approved : Bool) :
    (s.record id approved).acks = s.acks := by
  rw [record]
  split <;> rfl

theorem acks_advance (s : ApprovalBroker) (call : ApprovalCall) (a : Action) :
    (s.advance call a).acks = s.acks := by
  cases a with
  | pop id =>
      rw [advance]
      split
      · rfl
      · split <;> rfl
      all_goals rfl
  | deliver id =>
      rw [advance]
      split
      · exact acks_record _ id _
      all_goals rfl
  | start id => rw [advance]; split <;> rfl
  | wake id => rw [advance]; split <;> rfl
  | expire id => rw [advance]; split <;> rfl
  | ask id => rw [advance]; split <;> rfl
  | answer id outcome => rw [advance]; split <;> rfl
  | _ => rfl

theorem acks_of_target {s : ApprovalBroker} {a : Action} {id : Nat} (h : a.target? = some id) :
    (s.step a).acks = s.acks := by
  rw [step_of_target h]
  split
  · exact acks_advance s _ a
  · rfl

/-- The acknowledgement that an action adds, if it adds one. -/
theorem acks_step (s : ApprovalBroker) (a : Action) :
    (s.step a).acks = s.acks ∧ (∀ id approved, a = .resolve id approved →
      Dict.get? s.pending id ≠ some none) ∨
    ∃ id approved, a = .resolve id approved ∧ Dict.get? s.pending id = some none ∧
      (s.step a).acks = s.acks ++ [(id, approved)] := by
  cases a with
  | resolve id approved =>
      rw [step, resolve]
      split
      · rename_i hpending
        exact .inr ⟨id, approved, rfl, hpending, rfl⟩
      · rename_i hpending
        refine .inl ⟨rfl, ?_⟩
        rintro _ _ ⟨⟩ hnone
        rw [hpending] at hnone
        cases hnone
      · rename_i hpending
        refine .inl ⟨rfl, ?_⟩
        rintro _ _ ⟨⟩ hnone
        rw [hpending] at hnone
        cases hnone
  | attach present => exact .inl ⟨rfl, fun _ _ h => by cases h⟩
  | request =>
      refine .inl ⟨?_, fun _ _ h => by cases h⟩
      rw [step, request]
      split <;> rfl
  | start id => exact .inl ⟨acks_of_target rfl, fun _ _ h => by cases h⟩
  | wake id => exact .inl ⟨acks_of_target rfl, fun _ _ h => by cases h⟩
  | expire id => exact .inl ⟨acks_of_target rfl, fun _ _ h => by cases h⟩
  | pop id => exact .inl ⟨acks_of_target rfl, fun _ _ h => by cases h⟩
  | ask id => exact .inl ⟨acks_of_target rfl, fun _ _ h => by cases h⟩
  | answer id outcome => exact .inl ⟨acks_of_target rfl, fun _ _ h => by cases h⟩
  | deliver id => exact .inl ⟨acks_of_target rfl, fun _ _ h => by cases h⟩

/-- The view of a request right after the console wrote its verdict. -/
theorem view_resolve {s : ApprovalBroker} {id : Nat} (h : Dict.get? s.pending id = some none)
    (approved : Bool) : (s.step (.resolve id approved)).view id =
      ⟨(s.view id).call.map fun call => (call.1, true), some (some approved),
        (s.view id).first.or (some (.resolved id approved))⟩ := by
  have hrec : s.step (.resolve id approved) =
      { s.record id approved with acks := s.acks ++ [(id, approved)] } := by
    rw [step, resolve, h]
  have hview := s.view_written id approved id
  rw [if_pos rfl] at hview
  rw [hrec, ← hview, record, h]
  rfl

/-- The verdict that the console writes is what the call returns, unless it is an approval
and the wait has timed out. -/
theorem answers_resolve_iff {s : ApprovalBroker} (hs : s.Ordered) {id : Nat}
    (h : Dict.get? s.pending id = some none) (approved : Bool) :
    ((s.step (.resolve id approved)).view id).Answers approved ↔ s.InTime (.resolve id approved) := by
  have hok := hs id
  rw [view_resolve h]
  rw [view, h] at hok
  rw [view]
  cases hcall : s.calls[id]? with
  | none =>
      rw [hcall] at hok
      cases hok.1
  | some call =>
      rw [hcall] at hok
      obtain ⟨phase, event, thread⟩ := call
      have htime (hphase : phase ≠ .expired) : s.InTime (.resolve id approved) := by
        cases approved with
        | false => trivial
        | true =>
            intro call hcall' hexp
            cases hcall.symm.trans hcall'
            exact absurd hexp hphase
      cases phase with
      | registered => exact ⟨fun _ => htime (by simp), fun _ => rfl⟩
      | waiting => exact ⟨fun _ => htime (by simp), fun _ => rfl⟩
      | woken =>
          obtain ⟨_, hr, -⟩ := hok
          cases hr
      | returned => cases hok.1
      | expired =>
          change approved = false ↔ _
          cases approved with
          | false => exact ⟨fun _ => trivial, fun _ => rfl⟩
          | true =>
              refine ⟨fun hf => (by cases hf), fun hin => ?_⟩
              exact absurd h (hin _ hcall rfl)

/-- One action keeps every acknowledgement honoured exactly if it does not approve a
request whose wait has timed out. -/
theorem honoured_step_iff {s : ApprovalBroker} (h : s.Ordered) (hon : s.Honoured) (a : Action) :
    (s.step a).Honoured ↔ s.InTime a := by
  rw [(h.step a).honoured_iff]
  rw [h.honoured_iff] at hon
  have hold (i : Nat × Bool) (hi : i ∈ s.acks) : ((s.step a).view i.1).Answers i.2 :=
    (hon i hi).moves (h i.1) (s.moves_step a i.1)
  rcases s.acks_step a with ⟨hacks, hnone⟩ | ⟨id, approved, rfl, hpending, hacks⟩
  · rw [hacks]
    refine ⟨fun _ => ?_, fun _ => hold⟩
    cases a with
    | resolve id approved =>
        cases approved with
        | false => trivial
        | true => exact fun _ _ _ => hnone id true rfl
    | _ => trivial
  · rw [hacks, ← answers_resolve_iff h hpending approved]
    constructor
    · exact fun hall => hall (id, approved) (List.mem_append_right _ (List.mem_singleton_self _))
    · intro hnew i hi
      rcases List.mem_append.1 hi with hi | hi
      · exact hold i hi
      · rw [List.mem_singleton.1 hi]
        exact hnew

end ApprovalBroker

open ApprovalBroker in
/-- In every interleaving, every verdict that `approve` or `deny` acknowledged is what
the call of its request returns, exactly if `approve` is never called between the end of
a wait that timed out and the removal of its record, unless the record has a verdict. -/
theorem acknowledgements_honoured_iff (as : List Action) :
    Always step Honoured start as ↔ Meets step InTime start as :=
  always_iff_meets (I := Ordered) (fun _ a h => h.step a)
    (fun _ a h hon => honoured_step_iff h hon a) ordered_start (fun _ hi => nomatch hi)

/-- The wait of a request times out, and the console approves it before its record is
taken out. -/
def approvedInTheGap : List ApprovalBroker.Action :=
  [.attach true, .request, .start 0, .expire 0, .resolve 0 true, .pop 0]

open ApprovalBroker in
/-- `approve` returned `True`, and the request was denied. -/
theorem acknowledged_approval_dropped :
    (run step start approvedInTheGap).acks = [(0, true)] ∧
      (run step start approvedInTheGap).result? 0 = some false ∧
      ¬ Always step Honoured start approvedInTheGap := by
  refine ⟨by decide, by decide, fun h => ?_⟩
  have hon : Honoured (run step start approvedInTheGap) := h.last
  have hresult := hon (0, true) (by decide)
  revert hresult
  decide

end ShugoCore
