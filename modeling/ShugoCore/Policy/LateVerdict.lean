import ShugoCore.Policy.Approval

/-!
# Approval fails closed

A call of `request_approval` returns approval only if an approval is the first thing that
happened to its request.  The other half is about operators who answer late.  Once a
request is resolved or its wait has timed out, two states that differ only in that
request and its thread stay so under every action (`SameBut`), and the calls return the
same in both.
-/

namespace ShugoCore

open Machine

namespace ApprovalBroker

/-- The action is one of the operator thread of a request. -/
def Action.ofThread (k : Nat) : Action → Bool
  | .ask id | .answer id _ | .deliver id => id = k
  | .attach _ | .request | .start _ | .wake _ | .expire _ | .pop _ | .resolve _ _ => false

/-- The wait of a call timed out, or the call returned. -/
def waitEnded : RequestPhase → Bool
  | .expired | .returned _ _ => true
  | .registered | .waiting | .woken => false

/-- A verdict of the operator would come too late: the request is resolved, or its wait
is over. -/
def Late (s : ApprovalBroker) (k : Nat) : Prop :=
  ∃ call, s.calls[k]? = some call ∧
    (waitEnded call.phase = true ∨ ∃ approved, Dict.get? s.pending k = some (some approved))

/-- Two states between which only one request differs. -/
structure Touches (id : Nat) (s s' : ApprovalBroker) : Prop where
  operator : s'.operator = s.operator
  cell : ∀ k, k ≠ id → s'.cell k = s.cell k

theorem Touches.refl (id : Nat) (s : ApprovalBroker) : Touches id s s := ⟨rfl, fun _ _ => rfl⟩

theorem touches_setCall (s : ApprovalBroker) (id : Nat) (call : ApprovalCall) :
    Touches id s (s.setCall id call) :=
  ⟨rfl, fun k hk => by rw [ApprovalBroker.cell, setCall, List.getElem?_set_ne (Ne.symm hk)]; rfl⟩

theorem touches_endWait (s : ApprovalBroker) (id : Nat) (call : ApprovalCall) (phase : RequestPhase) :
    Touches id s (s.endWait id call phase) :=
  let h := touches_setCall s id { call with phase := phase }
  ⟨h.operator, h.cell⟩

theorem touches_finish (s : ApprovalBroker) (id : Nat) (call : ApprovalCall) (approved : Bool)
    (reason : String) : Touches id s (s.finish id call approved reason) := by
  refine ⟨rfl, fun k hk => ?_⟩
  rw [ApprovalBroker.cell, finish, Dict.get?_remove_of_ne _ (Ne.symm hk)]
  dsimp only [setCall]
  rw [List.getElem?_set_ne (Ne.symm hk)]
  rfl

theorem touches_record (s : ApprovalBroker) (id : Nat) (approved : Bool) :
    Touches id s (s.record id approved) := by
  rw [record]
  split
  · refine ⟨rfl, fun k hk => ?_⟩
    rw [ApprovalBroker.cell, Dict.get?_set_of_ne _ (Ne.symm hk)]
    dsimp only [setEvent]
    rw [List.getElem?_modify_ne _ _ (Ne.symm hk)]
    rfl
  · exact .refl id s
  · exact .refl id s

theorem touches_resolve (s : ApprovalBroker) (id : Nat) (approved : Bool) :
    Touches id s (s.resolve id approved).2 := by
  rw [resolve]
  split
  · have h := s.touches_record id approved
    exact ⟨h.operator, h.cell⟩
  · exact .refl id s
  · exact .refl id s

theorem touches_advance (s : ApprovalBroker) (call : ApprovalCall) {a : Action} {id : Nat}
    (h : a.target? = some id) : Touches id s (s.advance call a) := by
  cases a <;> cases h <;> rw [advance]
  case start => split; exacts [touches_setCall .., .refl id s]
  case wake => split; exacts [touches_endWait .., .refl id s]
  case expire => split; exacts [touches_endWait .., .refl id s]
  case pop =>
    split
    · exact touches_finish ..
    · split <;> exact touches_finish ..
    · exact .refl id s
    · exact .refl id s
    · exact .refl id s
  case ask => split; exacts [touches_setCall .., .refl id s]
  case answer => split; exacts [touches_setCall .., .refl id s]
  case deliver =>
    split
    · have hset := s.touches_setCall id { call with thread := .finished }
      have hrec := touches_record (s.setCall id { call with thread := .finished }) id
      exact ⟨(hrec _).operator.trans hset.operator,
        fun k hk => ((hrec _).cell k hk).trans (hset.cell k hk)⟩
    · exact .refl id s
    · exact .refl id s
    · exact .refl id s
    · exact .refl id s

/-- What a step leaves of its request depends on that request and on the operator. -/
theorem cell_advance_congr {s s' : ApprovalBroker} {call : ApprovalCall} {a : Action} {id : Nat}
    (ha : a.target? = some id) (hcall : s.calls[id]? = some call) (hcell : s.cell id = s'.cell id)
    (hop : s.operator = s'.operator) : (s.advance call a).cell id = (s'.advance call a).cell id := by
  have hcall' : s'.calls[id]? = some call := (congrArg Prod.fst hcell).symm.trans hcall
  have hpend : Dict.get? s.pending id = Dict.get? s'.pending id := congrArg Prod.snd hcell
  have hset (c : ApprovalCall) : (s.setCall id c).cell id = (s'.setCall id c).cell id := by
    rw [cell_setCall hcall, cell_setCall hcall', hpend]
  cases a <;> cases ha <;> simp only [advance]
  case start => split; exacts [hset _, hcell]
  case wake => split; exacts [hset _, hcell]
  case expire => split; exacts [hset _, hcell]
  case pop =>
    split
    · rw [cell_finish hcall, cell_finish hcall']
    · have hverdict : s.verdictOf id = s'.verdictOf id := by rw [verdictOf, verdictOf, hpend]
      rw [hverdict]
      split <;> rw [cell_finish hcall, cell_finish hcall']
    · exact hcell
    · exact hcell
    · exact hcell
  case ask =>
    rw [hpend]
    split
    exacts [hset _, hcell]
  case answer =>
    rw [hop]
    split
    exacts [hset _, hcell]
  case deliver =>
    split
    · rw [cell_record, cell_record, hset]
      have hp := congrArg Prod.snd (hset { call with thread := .finished })
      have hc := congrArg Prod.fst (hset { call with thread := .finished })
      simp only [cell] at hp hc
      rw [hp, hc]
    · exact hcell
    · exact hcell
    · exact hcell
    · exact hcell

/-- A verdict comes too late in both states: the phases are the same, and so is the
verdict in the record unless the wait is over. -/
def LateBoth (k : Nat) (s s' : ApprovalBroker) : Prop :=
  ∃ call call', s.calls[k]? = some call ∧ s'.calls[k]? = some call' ∧
    call.phase = call'.phase ∧ (waitEnded call.phase = true ∨
      call.event = call'.event ∧ ∃ approved, Dict.get? s.pending k = some (some approved) ∧
        Dict.get? s'.pending k = some (some approved))

/-- Two states that differ in one request at most, where a verdict comes too late. -/
structure SameBut (k : Nat) (s s' : ApprovalBroker) : Prop where
  operator : s.operator = s'.operator
  others : ∀ j, j ≠ k → s.cell j = s'.cell j
  late : LateBoth k s s'

theorem Late.sameBut {s : ApprovalBroker} {k : Nat} (h : s.Late k) : SameBut k s s := by
  obtain ⟨call, hcall, hlate⟩ := h
  refine ⟨rfl, fun _ _ => rfl, call, call, hcall, hcall, rfl, ?_⟩
  exact hlate.imp_right fun ⟨approved, hp⟩ => ⟨rfl, approved, hp, hp⟩

/-- The calls of such states returned the same. -/
theorem SameBut.results {k : Nat} {s s' : ApprovalBroker} (h : SameBut k s s') :
    s.results = s'.results := by
  apply List.ext_getElem?
  intro j
  rw [ApprovalBroker.results, ApprovalBroker.results, List.getElem?_map, List.getElem?_map]
  by_cases hj : j = k
  · subst hj
    obtain ⟨call, call', hcall, hcall', hphase, -⟩ := h.late
    rw [hcall, hcall', Option.map_some, Option.map_some, hphase]
  · rw [show s.calls[j]? = s'.calls[j]? from congrArg Prod.fst (h.others j hj)]

theorem SameBut.length {k : Nat} {s s' : ApprovalBroker} (h : SameBut k s s') :
    s.calls.length = s'.calls.length := by
  simpa [ApprovalBroker.results] using congrArg List.length h.results

/-- A step of another request, the same on both sides. -/
theorem SameBut.of_other {k j : Nat} {s s' t t' : ApprovalBroker} (h : SameBut k s s') (hj : j ≠ k)
    (ht : Touches j s t) (ht' : Touches j s' t') (hcell : t.cell j = t'.cell j) : SameBut k t t' where
  operator := by rw [ht.operator, ht'.operator, h.operator]
  others i hi := by
    by_cases hij : i = j
    · rw [hij, hcell]
    · rw [ht.cell i hij, ht'.cell i hij, h.others i hi]
  late := by
    obtain ⟨call, call', hcall, hcall', hphase, hlate⟩ := h.late
    have hcell := ht.cell k (Ne.symm hj)
    have hcell' := ht'.cell k (Ne.symm hj)
    refine ⟨call, call', (congrArg Prod.fst hcell).trans hcall,
      (congrArg Prod.fst hcell').trans hcall', hphase, ?_⟩
    rw [show Dict.get? t.pending k = Dict.get? s.pending k from congrArg Prod.snd hcell,
      show Dict.get? t'.pending k = Dict.get? s'.pending k from congrArg Prod.snd hcell']
    exact hlate

/-- A step of the request itself, on either side. -/
theorem SameBut.of_self {k : Nat} {s s' t t' : ApprovalBroker} (h : SameBut k s s')
    (ht : Touches k s t) (ht' : Touches k s' t')
    (hlate : LateBoth k t t') : SameBut k t t' where
  operator := by rw [ht.operator, ht'.operator, h.operator]
  others i hi := by rw [ht.cell i hi, ht'.cell i hi, h.others i hi]
  late := hlate

theorem LateBoth.congr {k : Nat} {s s' t t' : ApprovalBroker} (h : LateBoth k s s')
    (ht : t.cell k = s.cell k) (ht' : t'.cell k = s'.cell k) : LateBoth k t t' := by
  obtain ⟨call, call', hcall, hcall', hphase, hlate⟩ := h
  refine ⟨call, call', (congrArg Prod.fst ht).trans hcall, (congrArg Prod.fst ht').trans hcall',
    hphase, ?_⟩
  rw [show Dict.get? t.pending k = Dict.get? s.pending k from congrArg Prod.snd ht,
    show Dict.get? t'.pending k = Dict.get? s'.pending k from congrArg Prod.snd ht']
  exact hlate

theorem LateBoth.symm {k : Nat} {s s' : ApprovalBroker} (h : LateBoth k s s') : LateBoth k s' s := by
  obtain ⟨call, call', hcall, hcall', hphase, hlate⟩ := h
  refine ⟨call', call, hcall', hcall, hphase.symm, ?_⟩
  rw [← hphase]
  exact hlate.imp_right fun ⟨hevent, approved, hs, hs'⟩ => ⟨hevent.symm, approved, hs', hs⟩

/-- A verdict that is written too late.  It is written only if the record has none, and
then the wait is over. -/
theorem LateBoth.record {k : Nat} {s s' : ApprovalBroker} (h : LateBoth k s s') (approved : Bool) :
    LateBoth k (s.record k approved) s' := by
  have hrec := cell_record s k approved
  cases hpend : Dict.get? s.pending k with
  | none =>
      rw [hpend] at hrec
      exact h.congr hrec rfl
  | some verdict =>
      rw [hpend] at hrec
      cases verdict with
      | some _ => exact h.congr hrec rfl
      | none =>
          obtain ⟨call, call', hcall, hcall', hphase, hlate⟩ := h
          rw [hcall] at hrec
          refine ⟨{ call with event := true }, call', congrArg Prod.fst hrec, hcall', hphase, .inl ?_⟩
          rcases hlate with hover | ⟨-, _, hs, -⟩
          · exact hover
          · rw [hpend] at hs
            cases hs

theorem LateBoth.resolve {k : Nat} {s s' : ApprovalBroker} (h : LateBoth k s s') (approved : Bool) :
    LateBoth k (s.resolve k approved).2 (s'.resolve k approved).2 :=
  ((h.record approved).symm.record approved).symm.congr (cell_resolve ..) (cell_resolve ..)

theorem LateBoth.setThread {k : Nat} {s s' : ApprovalBroker} (h : LateBoth k s s')
    {call : ApprovalCall} (hcall : s.calls[k]? = some call) (thread : AskPhase) :
    LateBoth k (s.setCall k { call with thread := thread }) s' := by
  have hcell := cell_setCall hcall { call with thread := thread }
  obtain ⟨c, call', hc, hcall', hphase, hlate⟩ := h
  cases hcall.symm.trans hc
  exact ⟨_, call', congrArg Prod.fst hcell, hcall', hphase, hlate⟩

/-- What the operator thread of the request does is not seen. -/
theorem SameBut.hidden {k : Nat} {s s' : ApprovalBroker} (h : SameBut k s s') {a : Action}
    (ha : a.ofThread k = true) : SameBut k (s.step a) s' := by
  obtain ⟨call, call', hcall, -⟩ := h.late
  have hself {a : Action} (ht : a.target? = some k) (hlate : LateBoth k (s.advance call a) s') :
      SameBut k (s.step a) s' := by
    rw [step_of_target ht, hcall]
    exact h.of_self (s.touches_advance call ht) (.refl k s') hlate
  cases a with
  | ask id =>
      cases of_decide_eq_true ha
      refine hself rfl ?_
      rw [advance]
      split
      · exact h.late.setThread hcall _
      · exact h.late
  | answer id outcome =>
      cases of_decide_eq_true ha
      refine hself rfl ?_
      rw [advance]
      split
      · exact h.late.setThread hcall _
      · exact h.late
  | deliver id =>
      cases of_decide_eq_true ha
      refine hself rfl ?_
      rw [advance]
      split
      · exact (h.late.setThread hcall .finished).record _
      all_goals exact h.late
  | _ => cases ha

/-- A step of the requester itself goes the same way in both states. -/
theorem LateBoth.advance {k : Nat} {s s' : ApprovalBroker} {call call' : ApprovalCall}
    (h : LateBoth k s s') (hcall : s.calls[k]? = some call) (hcall' : s'.calls[k]? = some call')
    {a : Action} (ha : a.target? = some k) (hthread : a.ofThread k = false) :
    LateBoth k (s.advance call a) (s'.advance call' a) := by
  have hsame := h
  obtain ⟨c, c', hc, hc', hphase, hlate⟩ := hsame
  cases hcall.symm.trans hc
  cases hcall'.symm.trans hc'
  have hset (phase : RequestPhase) (thread thread' : AskPhase)
      (hl : waitEnded phase = true ∨ call.event = call'.event ∧ ∃ approved,
        Dict.get? s.pending k = some (some approved) ∧
          Dict.get? s'.pending k = some (some approved)) :
      LateBoth k (s.setCall k { call with phase := phase, thread := thread })
        (s'.setCall k { call' with phase := phase, thread := thread' }) :=
    ⟨_, _, congrArg Prod.fst (cell_setCall hcall _), congrArg Prod.fst (cell_setCall hcall' _), rfl, hl⟩
  have hfinish (approved : Bool) (reason : String) : LateBoth k (s.finish k call approved reason)
      (s'.finish k call' approved reason) :=
    ⟨_, _, congrArg Prod.fst (cell_finish hcall _ _), congrArg Prod.fst (cell_finish hcall' _ _),
      rfl, .inl rfl⟩
  cases a with
  | start id =>
      cases ha
      rw [ApprovalBroker.advance, ApprovalBroker.advance, ← hphase]
      split
      · rename_i hp
        rw [hp] at hlate
        exact hset _ _ _ (.inr (hlate.resolve_left Bool.false_ne_true))
      · exact h
  | wake id =>
      cases ha
      rw [ApprovalBroker.advance, ApprovalBroker.advance, ← hphase]
      by_cases hp : call.phase = .waiting
      · rw [hp] at hlate
        have hl := hlate.resolve_left Bool.false_ne_true
        rw [← hl.1]
        split
        · exact hset _ call.thread call'.thread (.inr hl)
        · exact h
      · rw [if_neg (fun hw => hp hw.1), if_neg (fun hw => hp hw.1)]
        exact h
  | expire id =>
      cases ha
      rw [ApprovalBroker.advance, ApprovalBroker.advance, ← hphase]
      by_cases hp : call.phase = .waiting
      · rw [hp] at hlate
        have hl := hlate.resolve_left Bool.false_ne_true
        rw [← hl.1]
        split
        · exact hset _ call.thread call'.thread (.inl rfl)
        · exact h
      · rw [if_neg (fun hw => hp hw.1), if_neg (fun hw => hp hw.1)]
        exact h
  | pop id =>
      cases ha
      rw [ApprovalBroker.advance, ApprovalBroker.advance, ← hphase]
      cases hp : call.phase with
      | expired => exact hfinish _ _
      | woken =>
          rw [hp] at hlate
          obtain ⟨-, approved, hs, hs'⟩ := hlate.resolve_left Bool.false_ne_true
          have hverdict : s.verdictOf k = s'.verdictOf k := by rw [verdictOf, verdictOf, hs, hs']
          dsimp only
          rw [hverdict]
          split
          · exact hfinish _ _
          · exact hfinish _ _
      | registered => exact h
      | waiting => exact h
      | returned => exact h
  | ask id => cases ha; exact absurd rfl (of_decide_eq_false hthread)
  | answer id outcome => cases ha; exact absurd rfl (of_decide_eq_false hthread)
  | deliver id => cases ha; exact absurd rfl (of_decide_eq_false hthread)
  | _ => cases ha

theorem touches_request (s : ApprovalBroker) : Touches s.calls.length s s.request := by
  rw [request]
  split
  · refine ⟨rfl, fun k hk => ?_⟩
    rw [ApprovalBroker.cell, getElem?_concat_of_ne s.calls _ hk, Dict.get?_set_of_ne _ (Ne.symm hk)]
    rfl
  · refine ⟨rfl, fun k hk => ?_⟩
    rw [ApprovalBroker.cell, getElem?_concat_of_ne s.calls _ hk]
    rfl

theorem cell_request (s : ApprovalBroker) :
    s.request.cell s.calls.length =
      if s.operator then (some ⟨.registered, false, .notStarted⟩, some none)
      else (some ⟨.returned false "no approval channel attached (fail-closed)", false, .finished⟩,
        Dict.get? s.pending s.calls.length) := by
  rw [request]
  split
  · rw [cell, List.getElem?_concat_length, Dict.get?_set_self]
  · rw [cell, List.getElem?_concat_length]

/-- Everything else goes the same way in both states. -/
theorem SameBut.shown {k : Nat} {s s' : ApprovalBroker} (h : SameBut k s s') {a : Action}
    (ha : a.ofThread k = false) : SameBut k (s.step a) (s'.step a) := by
  have htarget {id : Nat} (ht : a.target? = some id) : SameBut k (s.step a) (s'.step a) := by
    rw [step_of_target ht, step_of_target ht]
    by_cases hid : id = k
    · subst hid
      obtain ⟨call, call', hcall, hcall', -⟩ := h.late
      rw [hcall, hcall']
      exact h.of_self (s.touches_advance call ht) (s'.touches_advance call' ht)
        (h.late.advance hcall hcall' ht ha)
    · have hcell := h.others id hid
      rw [← show s.calls[id]? = s'.calls[id]? from congrArg Prod.fst hcell]
      cases hcall : s.calls[id]? with
      | none => exact h
      | some call =>
          exact h.of_other hid (s.touches_advance call ht) (s'.touches_advance call ht)
            (cell_advance_congr ht hcall hcell h.operator)
  cases a with
  | attach present => exact ⟨rfl, h.others, h.late⟩
  | request =>
      obtain ⟨call, -, hcall, -⟩ := h.late
      have hk : s.calls.length ≠ k := by
        have := (List.getElem?_eq_some_iff.1 hcall).1
        omega
      have ht' := s'.touches_request
      have hcell' := s'.cell_request
      rw [← h.length] at ht' hcell'
      refine h.of_other hk s.touches_request ht' ?_
      change s.request.cell _ = s'.request.cell _
      rw [s.cell_request, hcell', h.operator,
        show Dict.get? s.pending s.calls.length = Dict.get? s'.pending s.calls.length from
          congrArg Prod.snd (h.others _ hk)]
  | resolve id approved =>
      by_cases hid : id = k
      · subst hid
        exact h.of_self (s.touches_resolve id approved) (s'.touches_resolve id approved)
          (h.late.resolve approved)
      · have hcell := h.others id hid
        refine h.of_other hid (s.touches_resolve id approved) (s'.touches_resolve id approved) ?_
        change (s.resolve id approved).2.cell id = (s'.resolve id approved).2.cell id
        rw [cell_resolve, cell_resolve, cell_record, cell_record, hcell,
          show s.calls[id]? = s'.calls[id]? from congrArg Prod.fst hcell,
          show Dict.get? s.pending id = Dict.get? s'.pending id from congrArg Prod.snd hcell]
  | start id => exact htarget rfl
  | wake id => exact htarget rfl
  | expire id => exact htarget rfl
  | pop id => exact htarget rfl
  | ask id => exact htarget rfl
  | answer id outcome => exact htarget rfl
  | deliver id => exact htarget rfl

/-- From a state on in which the verdict of an operator comes too late, the results do
not depend on what its thread does. -/
theorem Late.results_eq {s : ApprovalBroker} {k : Nat} (h : s.Late k) {as bs : List Action}
    (heq : as.filter (fun a => !a.ofThread k) = bs.filter fun a => !a.ofThread k) :
    (run step s as).results = (run step s bs).results := by
  have hsame (as : List Action) :
      SameBut k (run step s as) (run step s (as.filter fun a => !a.ofThread k)) :=
    rel_run_filter (fun _ _ _ ha hR => hR.hidden ha) (fun _ _ _ ha hR => hR.shown ha) h.sameBut as
  rw [(hsame as).results, (hsame bs).results, heq]

end ApprovalBroker

open ApprovalBroker in
/-- In every interleaving, a call returns approval only if the first thing that happened
to its request, its resolutions and the end of its wait taken together, is an approval.
From the moment a request is resolved or its wait timed out, whatever its operator
thread does or does not do changes what no call returns. -/
theorem approval_fail_closed (as : List Action) :
    (∀ k, (run step start as).result? k = some true →
      (run step start as).log.find? (fun event => event.id = k) = some (.resolved k true)) ∧
    (∀ k, (run step start as).Late k → ∀ bs bs' : List Action,
      bs.filter (fun a => !a.ofThread k) = bs'.filter (fun a => !a.ofThread k) →
        (run step start (as ++ bs)).results = (run step start (as ++ bs')).results) := by
  refine ⟨fun k hk => (ordered_start.run as).first_of_approved hk, fun k hlate bs bs' heq => ?_⟩
  rw [run_append, run_append]
  exact hlate.results_eq heq

/-- The console approves a request while the operator thinks. -/
def consoleFirst : List ApprovalBroker.Action :=
  [.attach true, .request, .start 0, .ask 0, .resolve 0 true, .wake 0, .pop 0]

open ApprovalBroker in
/-- The request is approved, and the denial of the operator changes nothing. -/
theorem late_denial_ignored :
    (run step start consoleFirst).result? 0 = some true ∧
      (run step start consoleFirst).log = [.resolved 0 true, .waitEnded 0] ∧
      (run step start consoleFirst).log.find? (fun event => event.id = 0) =
        some (.resolved 0 true) ∧
      (run step start (consoleFirst ++ [.answer 0 (some false), .deliver 0])).results =
        (run step start (consoleFirst ++ [])).results := by
  have hresult : (run step start consoleFirst).result? 0 = some true := by decide
  have hlate : (run step start consoleFirst).Late 0 :=
    ⟨⟨.returned true "operator approved", true, .asking⟩, by decide, .inl rfl⟩
  refine ⟨hresult, by decide, (approval_fail_closed consoleFirst).1 0 hresult, ?_⟩
  exact (approval_fail_closed consoleFirst).2 0 hlate _ _ (by decide)

end ShugoCore
