import ShugoCore.Backends.Failover

/-!
# The circuits of a pool

What the tables of a pool say while any number of threads are inside `call`.  An open circuit
keeps its backend from everybody until the cooldown is over.  That it is open exactly when the
failures that open it are counted is so while one thread calls: a failure of a second thread
may be counted on top, and taking one failure back does not close the gap.

`get_health` takes no lock.  If it has read a cooldown that is over, it clears the circuit even if a
failure has opened it again since, and it may write back failures that are out of date.
-/

namespace ShugoCore

open Machine Py

/-- A thread inside `get_health` has read the end of a cooldown of this backend, and may clear it. -/
def PoolCheck.Holds (bid : Nat) : PoolCheck → Prop
  | .timing bid' _ _ | .closing bid' => bid' = bid
  | _ => False

/-- A thread inside `get_health` has found a cooldown over, and writes to the tables. -/
def PoolCheck.Writes : PoolCheck → Prop
  | .closing _ | .lowering _ | .writing _ _ => True
  | _ => False

namespace PoolSystem

variable {ρ ε : Type} {p : BackendPool} {s : PoolSystem ρ ε} {clock : Nat → Seconds} {t : Nat}

/-! ## The tables -/

/-- What a step does to the tables of a pool. -/
inductive HealthStep (p : BackendPool) (s : PoolSystem ρ ε) : Action ρ ε → PoolHealth → Prop
  | kept {a : Action ρ ε} : HealthStep p s a s.health
  | looked {t : Nat} {clock : Nat → Seconds} :
      HealthStep p s (.choose t clock) (PoolHealth.scores clock p.entries s.health).2
  | failed {t bid : Nat} {attempted : List Nat} {lastError : Option (PoolFault ε)} {exn : ε}
      {now : Seconds} : s.calls t = .invoking bid attempted lastError →
      HealthStep p s (.answer t (.raises exn) now) (p.recordFailure s.health now bid)
  | succeeded {t bid : Nat} {attempted : List Nat} {lastError : Option (PoolFault ε)} {result : ρ}
      {now : Seconds} : s.calls t = .invoking bid attempted lastError →
      HealthStep p s (.answer t (.returns result) now) (s.health.recordSuccess bid)
  | checked {n : Nat} {now : Seconds} :
      HealthStep p s (.check n now) ((s.checks n).next s.health now).1

theorem health_step (p : BackendPool) (s : PoolSystem ρ ε) (a : Action ρ ε) :
    HealthStep p s a (s.step p a).health := by
  cases a with
  | call t | getHealth n =>
      simp only [step]
      split <;> exact .kept
  | choose t clock =>
      simp only [step]
      split
      · simp only [BackendPool.choose_snd]
        exact .looked
      all_goals exact .kept
  | answer t answer now =>
      simp only [step]
      split
      · rename_i bid attempted lastError hcall
        cases answer with
        | missing => exact .kept
        | raises exn => exact .failed hcall
        | returns result => exact .succeeded hcall
      all_goals exact .kept
  | check n now => exact .checked

/-! ## Circuits -/

/-- An action reads the clock at this time. -/
def Action.Reads (now : Seconds) : Action ρ ε → Prop
  | .call _ | .getHealth _ => False
  | .choose _ clock => ∃ i, clock i = now
  | .answer _ _ now' | .check _ now' => now' = now

/-- An answer of this backend with a result. -/
def Succeeds (bid : Nat) (s : PoolSystem ρ ε) : Action ρ ε → Prop
  | .answer t (.returns _) _ => ∃ attempted lastError, s.calls t = .invoking bid attempted lastError
  | _ => False

/-- A `_choose` of a thread at the head of its loop that gives this backend. -/
def Chooses (p : BackendPool) (bid : Nat) (s : PoolSystem ρ ε) : Action ρ ε → Prop
  | .choose _ clock => s.chosen p clock = some bid
  | _ => False

/-- The circuit of a backend is open until a time at least, and no thread inside `get_health` has read
that it is open for less. -/
structure Shut (bid : Nat) (until' : Seconds) (s : PoolSystem ρ ε) : Prop where
  opened : until' ≤ s.health.openUntil bid
  timing : ∀ n u rest, s.checks n = .timing bid u rest → until' ≤ u
  closing : ∀ n, s.checks n ≠ .closing bid

variable {bid : Nat} {until' now : Seconds} {h : PoolHealth}

theorem openUntil_halfOpened_ge (hopen : until' ≤ h.openUntil bid) (hnow : now < until') (b : Nat) :
    until' ≤ (h.halfOpened now b).openUntil bid := by
  rw [PoolHealth.openUntil_halfOpened, if_neg]
  · exact hopen
  · rintro ⟨rfl, helapsed⟩
    exact absurd helapsed.2 (not_le.2 (hnow.trans_le hopen))

/-- While the circuit of a backend is open, it has no score. -/
theorem score_of_open {clock : Nat → Seconds} (hpos : 0 < until') (hnow : ∀ i, clock i < until')
    {es : List PoolEntry} (hopen : until' ≤ h.openUntil bid) {x : WithTop ℚ × PoolEntry}
    (hx : x ∈ (PoolHealth.scores clock es h).1) (hbid : x.2.backend = bid) : x.1 = ⊤ := by
  induction es generalizing clock h with
  | nil => cases hx
  | cons e es ih =>
      rw [PoolHealth.scores_cons] at hx
      rcases List.mem_cons.1 hx with rfl | hx
      · rw [PoolHealth.score_eq]
        refine if_pos ?_
        rw [show e.backend = bid from hbid]
        exact ⟨hpos.trans_le hopen, (hnow 0).trans_le hopen⟩
      · exact ih (fun i => hnow (i + 1)) (openUntil_halfOpened_ge hopen (hnow 0) e.backend) hx

theorem not_chosen_of_open {clock : Nat → Seconds} (hpos : 0 < until') (hnow : ∀ i, clock i < until')
    (hopen : until' ≤ s.health.openUntil bid) : s.chosen p clock ≠ some bid := by
  intro hc
  obtain ⟨e, he, rfl⟩ := chosen_eq_some hc
  obtain ⟨score, front, back, hsplit, hne, -⟩ := BackendPool.choose_some he
  have hmem : (score, e) ∈ (PoolHealth.scores clock p.entries s.health).1 := by
    rw [hsplit]
    exact List.mem_append_right front List.mem_cons_self
  exact hne (score_of_open hpos hnow hopen hmem rfl)

theorem openUntil_next {c : PoolCheck} (hc : c ≠ .closing bid) :
    ((c.next h now).1).openUntil bid = h.openUntil bid := by
  cases c with
  | closing bid' =>
      have hb : bid ≠ bid' := by
        rintro rfl
        exact hc rfl
      exact Function.update_of_ne hb ..
  | looking rest =>
      cases rest <;> rfl
  | outside | timing _ _ _ | lowering _ | writing _ _ | answered _ => rfl

/-- An open circuit stays open, unless its backend answers or a `get_health` is about to close it. -/
theorem openUntil_step (hs : until' ≤ s.health.openUntil bid)
    (hcheck : ∀ n, s.checks n ≠ .closing bid) {a : Action ρ ε}
    (hclock : ∀ now, a.Reads now → now < until' ∧ until' ≤ now + p.cooldown)
    (hsuccess : ¬ Succeeds bid s a) : until' ≤ (s.step p a).health.openUntil bid := by
  have hstep := health_step p s a
  generalize (s.step p a).health = h at hstep ⊢
  cases hstep with
  | kept => exact hs
  | looked =>
      exact PoolHealth.scores_preserve (I := fun h => until' ≤ h.openUntil bid)
        (fun h i b hopen => openUntil_halfOpened_ge hopen (hclock _ ⟨i, rfl⟩).1 b) p.entries hs
  | failed hcall =>
      rw [PoolHealth.openUntil_recordFailure]
      split
      · exact (hclock _ rfl).2
      · exact hs
  | succeeded hcall =>
      rw [PoolHealth.openUntil_recordSuccess, if_neg]
      · exact hs
      · rintro rfl
        exact hsuccess ⟨_, _, hcall⟩
  | checked =>
      rw [openUntil_next (hcheck _)]
      exact hs

/-- Only a thread inside `get_health` changes where it stands. -/
theorem checks_step {a : Action ρ ε} (ha : ∀ n now, a ≠ .check n now) (n : Nat) :
    (s.step p a).checks n = s.checks n ∨ (s.step p a).checks n = .looking p.bids := by
  cases a with
  | check n now => exact absurd rfl (ha n now)
  | call t | choose t clock =>
      simp only [step]
      split <;> exact .inl rfl
  | answer t answer now =>
      simp only [step]
      split
      · cases answer <;> exact .inl rfl
      all_goals exact .inl rfl
  | getHealth m =>
      have hset : (Function.update s.checks m (.looking p.bids)) n = s.checks n ∨
          (Function.update s.checks m (.looking p.bids)) n = .looking p.bids := by
        by_cases hn : n = m
        · subst hn
          exact .inr (Function.update_self ..)
        · exact .inl (Function.update_of_ne hn ..)
      simp only [step]
      split
      · exact hset
      · exact hset
      all_goals exact .inl rfl

/-- Where a thread inside `get_health` gets to, at a time when a circuit is open. -/
theorem next_of_open (hopen : until' ≤ h.openUntil bid) (hnow : now < until') {c : PoolCheck}
    (htiming : ∀ u rest, c = .timing bid u rest → until' ≤ u) :
    (∀ u rest, (c.next h now).2 = .timing bid u rest → until' ≤ u) ∧
      ((c.next h now).2 = .closing bid → c = .closing bid) := by
  cases c with
  | looking rest =>
      cases rest with
      | nil => exact ⟨by simp [PoolCheck.next], by simp [PoolCheck.next]⟩
      | cons b rest =>
          simp only [PoolCheck.next]
          split
          · exact ⟨by simp, by simp⟩
          · refine ⟨fun u rest heq => ?_, by simp⟩
            cases heq
            exact hopen
  | timing b u rest =>
      simp only [PoolCheck.next]
      split
      · rename_i hle
        refine ⟨by simp, fun heq => ?_⟩
        cases heq
        exact absurd (htiming u rest rfl) (not_le.2 (hle.trans_lt hnow))
      · exact ⟨by simp, by simp⟩
  | outside | answered _ | closing _ | lowering _ | writing _ _ =>
      exact ⟨by simp [PoolCheck.next], by simp [PoolCheck.next]⟩

theorem Shut.step (hs : s.Shut bid until') {a : Action ρ ε}
    (hclock : ∀ now, a.Reads now → now < until' ∧ until' ≤ now + p.cooldown)
    (hsuccess : ¬ Succeeds bid s a) : (s.step p a).Shut bid until' := by
  have hopened := openUntil_step hs.opened hs.closing hclock hsuccess
  by_cases ha : ∃ n now, a = .check n now
  · obtain ⟨n, now, rfl⟩ := ha
    obtain ⟨htiming, hclosing⟩ := next_of_open hs.opened (hclock now rfl).1 (hs.timing n)
    refine ⟨hopened, fun m u rest hat => ?_, fun m hat => ?_⟩
    · by_cases hm : m = n
      · subst hm
        exact htiming u rest ((Function.update_self ..).symm.trans hat)
      · exact hs.timing m u rest ((Function.update_of_ne hm ..).symm.trans hat)
    · by_cases hm : m = n
      · subst hm
        exact hs.closing m (hclosing ((Function.update_self ..).symm.trans hat))
      · exact hs.closing m ((Function.update_of_ne hm ..).symm.trans hat)
  · have hchecks := checks_step (p := p) (s := s) fun n now heq => ha ⟨n, now, heq⟩
    refine ⟨hopened, fun n u rest hat => ?_, fun n hat => ?_⟩
    · rcases hchecks n with hsame | hlooking
      · exact hs.timing n u rest (hsame.symm.trans hat)
      · cases hlooking.symm.trans hat
    · rcases hchecks n with hsame | hlooking
      · exact hs.closing n (hsame.symm.trans hat)
      · cases hlooking.symm.trans hat

/-- A failure that opens the circuit of a backend keeps it from every caller until the cooldown
is over, whatever the other threads do, unless a call of it that was under way succeeds, or a
`get_health` that has read the end of an earlier cooldown clears it. -/
theorem circuit_isolates (p : BackendPool) (s : PoolSystem ρ ε) {bid : Nat}
    {attempted : List Nat} {lastError : Option (PoolFault ε)} {exn : ε} {at' : Seconds}
    (ht : s.calls t = .invoking bid attempted lastError)
    (hcount : p.maxFailures ≤ s.health.failures bid + 1) (hat : 0 ≤ at')
    (hchecks : ∀ n, ¬ (s.checks n).Holds bid) {as : List (Action ρ ε)}
    (hclock : ∀ a ∈ as, ∀ now, a.Reads now → at' ≤ now ∧ now < at' + p.cooldown)
    (hsuccess : Meets (step p) (fun s a => ¬ Succeeds bid s a)
      (s.step p (.answer t (.raises exn) at')) as) :
    Meets (step p) (fun s a => ¬ Chooses p bid s a)
      (s.step p (.answer t (.raises exn) at')) as := by
  have hshut : (s.step p (.answer t (.raises exn) at')).Shut bid (at' + p.cooldown) := by
    simp only [step, ht]
    refine ⟨?_, fun n u rest hn => ?_, fun n hn => ?_⟩
    · simp only [BackendPool.recordFailure, if_pos hcount, Function.update_self]
      exact le_refl _
    · exact absurd (show (s.checks n).Holds bid by rw [hn]; rfl) (hchecks n)
    · exact absurd (show (s.checks n).Holds bid by rw [hn]; rfl) (hchecks n)
  generalize s.step p (.answer t (.raises exn) at') = s' at hshut hsuccess
  induction as generalizing s' with
  | nil => trivial
  | cons a as ih =>
      rw [List.forall_mem_cons] at hclock
      obtain ⟨hnow, hrest⟩ := hclock
      refine ⟨?_, ih hrest _ ?_ hsuccess.2⟩
      · cases a with
        | choose t clock =>
            have hbound := fun i => hnow (clock i) ⟨i, rfl⟩
            refine not_chosen_of_open ?_ (fun i => (hbound i).2) hshut.opened
            exact hat.trans_lt ((hbound 0).1.trans_lt (hbound 0).2)
        | call _ | answer _ _ _ | getHealth _ | check _ _ => exact fun h => h
      · refine hshut.step (fun now ha => ?_) hsuccess.1
        obtain ⟨hle, hlt⟩ := hnow now ha
        exact ⟨hlt, add_le_add_left hle p.cooldown⟩

theorem circuit_isolates_pair :
    let s : PoolSystem Unit Unit :=
      ⟨⟨fun _ => 2, fun _ => 0, fun _ => 0⟩,
        fun t => if t = 0 then .invoking 0 [0] none else .choosing [] none, fun _ => .looking [0, 1]⟩
    Meets (step .pair) (fun s a => ¬ Chooses .pair 0 s a)
      (s.step .pair (.answer 0 (.raises ()) 1)) [.check 0 2, .choose 1 fun _ => 2] := by
  intro s
  refine circuit_isolates .pair s (t := 0) rfl (by decide) (by decide) (fun _ h => h) ?_
    ⟨fun h => h, fun h => h, trivial⟩
  intro a ha now hnow
  simp only [List.mem_cons, List.not_mem_nil, or_false] at ha
  rcases ha with rfl | rfl
  · cases hnow
    decide +kernel
  · obtain ⟨i, rfl⟩ := hnow
    show (1 : Seconds) ≤ 2 ∧ (2 : Seconds) < 1 + BackendPool.pair.cooldown
    decide +kernel

/-- An open circuit has counted as many failures as open it. -/
def Counted (p : BackendPool) (h : PoolHealth) : Prop :=
  ∀ bid, 0 < h.openUntil bid → p.maxFailures ≤ h.failures bid

theorem Counted.halfOpened (hc : Counted p h) (now : Seconds) (bid : Nat) :
    Counted p (h.halfOpened now bid) := by
  intro b hpos
  rw [PoolHealth.openUntil_halfOpened] at hpos
  split at hpos
  · exact absurd hpos (lt_irrefl 0)
  · rename_i hn
    rw [PoolHealth.failures_halfOpened, if_neg hn]
    exact hc b hpos

/-- A thread inside `get_health` finds a cooldown over. -/
def Clears (s : PoolSystem ρ ε) : Action ρ ε → Prop
  | .check n now => ∃ bid until' rest, s.checks n = .timing bid until' rest ∧ until' ≤ now
  | _ => False

/-- No thread inside `get_health` writes to the tables. -/
def Watching (s : PoolSystem ρ ε) : Prop := ∀ n, ¬ (s.checks n).Writes

theorem next_of_watching {c : PoolCheck} (hc : ¬ c.Writes)
    (hclears : ¬ ∃ bid until' rest, c = .timing bid until' rest ∧ until' ≤ now) :
    (c.next h now).1 = h ∧ ¬ (c.next h now).2.Writes := by
  cases c with
  | looking rest =>
      cases rest with
      | nil => exact ⟨rfl, hc⟩
      | cons b rest =>
          refine ⟨rfl, ?_⟩
          simp only [PoolCheck.next]
          split <;> exact hc
  | timing b u rest =>
      refine ⟨rfl, ?_⟩
      simp only [PoolCheck.next]
      split
      · rename_i hle
        exact absurd ⟨b, u, rest, rfl, hle⟩ hclears
      · exact hc
  | outside | answered _ => exact ⟨rfl, hc⟩
  | closing _ | lowering _ | writing _ _ => exact absurd trivial hc

theorem Watching.step (hs : s.Watching) {a : Action ρ ε} (ha : ¬ Clears s a) :
    (s.step p a).Watching := by
  intro m
  by_cases hcheck : ∃ n now, a = .check n now
  · obtain ⟨n, now, rfl⟩ := hcheck
    simp only [PoolSystem.step]
    by_cases hm : m = n
    · subst hm
      rw [Function.update_self]
      exact (next_of_watching (hs m) ha).2
    · rw [Function.update_of_ne hm]
      exact hs m
  · rcases checks_step (p := p) (s := s) (fun n now heq => hcheck ⟨n, now, heq⟩) m with hsame | hlooking
    · rw [hsame]
      exact hs m
    · rw [hlooking]
      exact fun hwrites => hwrites

/-- A `get_health` that finds no cooldown over changes nothing. -/
theorem health_check (hs : s.Watching) {n : Nat} (ha : ¬ Clears s (.check n now : Action ρ ε)) :
    (s.step p (.check n now)).health = s.health :=
  (next_of_watching (hs n) ha).1

theorem Counted.recordFailure (hc : Counted p h) (now : Seconds) (bid : Nat) :
    Counted p (p.recordFailure h now bid) := by
  intro b hpos
  rw [PoolHealth.failures_recordFailure]
  rw [PoolHealth.openUntil_recordFailure] at hpos
  split at hpos
  · rename_i hopened
    rw [if_pos hopened.1]
    exact hopened.2
  · have hb := hc b hpos
    split
    · exact hb.trans (Nat.le_succ _)
    · exact hb

theorem Counted.recordSuccess (hc : Counted p h) (bid : Nat) : Counted p (h.recordSuccess bid) := by
  intro b hpos
  rw [PoolHealth.openUntil_recordSuccess] at hpos
  split at hpos
  · exact absurd hpos (lt_irrefl 0)
  · rename_i hb
    rw [PoolHealth.failures_recordSuccess, if_neg hb]
    exact hc b hpos

theorem counted_step (hc : Counted p s.health) (hs : s.Watching) {a : Action ρ ε}
    (ha : ¬ Clears s a) : Counted p (s.step p a).health := by
  have hstep := health_step p s a
  generalize (s.step p a).health = h at hstep ⊢
  cases hstep with
  | kept => exact hc
  | looked => exact PoolHealth.scores_preserve (fun h i bid hc => hc.halfOpened _ bid) p.entries hc
  | failed hcall => exact hc.recordFailure _ _
  | succeeded hcall => exact hc.recordSuccess _
  | checked =>
      rw [(next_of_watching (hs _) ha).1]
      exact hc

/-! ## One call at a time -/

/-- Only this thread is inside `call`. -/
def By (t : Nat) : Action ρ ε → Prop
  | .call t' => t' = t
  | _ => True

/-- A circuit is open if and only if the failures that open it are counted, and more are never
counted. -/
structure Exact (p : BackendPool) (h : PoolHealth) : Prop where
  bound : ∀ bid, h.failures bid ≤ p.maxFailures
  opened : ∀ bid, 0 < h.openUntil bid ↔ h.failures bid = p.maxFailures

theorem Exact.halfOpened (he : Exact p h) (now : Seconds) (bid : Nat) :
    Exact p (h.halfOpened now bid) := by
  have hpos := p.maxFailures_pos
  refine ⟨fun b => (PoolHealth.failures_halfOpened_le b).trans (he.bound b), fun b => ?_⟩
  rw [PoolHealth.openUntil_halfOpened, PoolHealth.failures_halfOpened]
  split
  · rename_i hn
    obtain ⟨rfl, helapsed⟩ := hn
    have := (he.opened b).1 helapsed.1
    simp only [lt_irrefl, false_iff]
    omega
  · exact he.opened b

/-- A circuit that is not open when it is looked at is one failure short at least. -/
theorem Exact.failures_lt (he : Exact p h) (ho : ¬ h.Open now bid) :
    (h.halfOpened now bid).failures bid < p.maxFailures := by
  have hpos := p.maxFailures_pos
  have hb := he.bound bid
  rw [PoolHealth.failures_halfOpened]
  split
  · omega
  · rename_i hn
    refine lt_of_le_of_ne hb fun heq => ?_
    have hopen := (he.opened bid).2 heq
    exact ho ⟨hopen, not_le.1 fun hle => hn ⟨rfl, hopen, hle⟩⟩

/-- So is a backend that has a score, when the loop of `_choose` is through. -/
theorem Exact.scored (he : Exact p h) {es : List PoolEntry} {x : WithTop ℚ × PoolEntry}
    (hx : x ∈ (PoolHealth.scores clock es h).1) (hne : x.1 ≠ ⊤) :
    (PoolHealth.scores clock es h).2.failures x.2.backend < p.maxFailures := by
  induction es generalizing clock h with
  | nil => cases hx
  | cons e es ih =>
      rw [PoolHealth.scores_cons] at hx ⊢
      rcases List.mem_cons.1 hx with rfl | hx
      · rw [PoolHealth.score_eq] at hne
        have ho : ¬ h.Open (clock 0) e.backend := fun ho => hne (if_pos ho)
        exact PoolHealth.scores_preserve
          (I := fun h => h.failures e.backend < p.maxFailures)
          (fun h i bid hlt => (PoolHealth.failures_halfOpened_le e.backend).trans_lt hlt) es
          (he.failures_lt ho)
      · exact ih (he.halfOpened _ _) hx

theorem Exact.recordFailure (he : Exact p h) {bid : Nat} (hlt : h.failures bid < p.maxFailures)
    (hnow : 0 < now) : Exact p (p.recordFailure h now bid) := by
  refine ⟨fun b => ?_, fun b => ?_⟩
  · rw [PoolHealth.failures_recordFailure]
    split
    · rename_i hb
      subst hb
      exact hlt
    · exact he.bound b
  · rw [PoolHealth.openUntil_recordFailure, PoolHealth.failures_recordFailure]
    by_cases hb : b = bid
    · subst hb
      rw [if_pos rfl]
      split
      · rename_i hopened
        have hcool := p.cooldown_nonneg
        exact ⟨fun _ => le_antisymm hlt hopened.2, fun _ => by linarith⟩
      · rename_i hshort
        exact ⟨fun ho => absurd ((he.opened b).1 ho) hlt.ne, fun heq => absurd ⟨rfl, heq.ge⟩ hshort⟩
    · rw [if_neg hb, if_neg fun hopened => hb hopened.1]
      exact he.opened b

theorem Exact.recordSuccess (he : Exact p h) (bid : Nat) : Exact p (h.recordSuccess bid) := by
  have hpos := p.maxFailures_pos
  refine ⟨fun b => ?_, fun b => ?_⟩
  · rw [PoolHealth.failures_recordSuccess]
    split
    · exact Nat.zero_le _
    · exact he.bound b
  · rw [PoolHealth.openUntil_recordSuccess, PoolHealth.failures_recordSuccess]
    split
    · simp only [lt_irrefl, false_iff]
      omega
    · exact he.opened b

/-- What holds while one thread calls. -/
structure Lone (p : BackendPool) (t : Nat) (s : PoolSystem ρ ε) : Prop where
  others : ∀ t', t' ≠ t → s.calls t' = .outside
  health : Exact p s.health
  invoked : ∀ bid attempted lastError, s.calls t = .invoking bid attempted lastError →
    s.health.failures bid < p.maxFailures

theorem Lone.thread (hs : s.Lone p t) {t' : Nat} (h : s.calls t' ≠ .outside) : t' = t := by
  by_contra ht
  exact h (hs.others t' ht)

/-- The one thread goes on, with new tables. -/
theorem Lone.to (hs : s.Lone p t) {h : PoolHealth} (hh : Exact p h) {c : PoolCall ρ ε}
    (hc : ∀ bid attempted lastError, c = .invoking bid attempted lastError →
      h.failures bid < p.maxFailures) :
    (⟨h, Function.update s.calls t c, s.checks⟩ : PoolSystem ρ ε).Lone p t := by
  refine ⟨fun t' ht' => ?_, hh, fun bid attempted lastError hi => ?_⟩
  · exact (Function.update_of_ne ht' _ _).trans (hs.others t' ht')
  · exact hc bid attempted lastError ((Function.update_self t c s.calls).symm.trans hi)

theorem Lone.step (hs : s.Lone p t) (hwatching : s.Watching) {a : Action ρ ε} (ha : By t a)
    (hclears : ¬ Clears s a) (hclock : ∀ now, a.Reads now → 0 < now) : (s.step p a).Lone p t := by
  cases a with
  | call t' =>
      obtain rfl : t' = t := ha
      have hcall := hs.to hs.health (c := .choosing [] none) fun _ _ _ he => by cases he
      simp only [PoolSystem.step]
      split
      · exact hcall
      · exact hcall
      · exact hcall
      · exact hs
      · exact hs
  | choose t' clock =>
      simp only [PoolSystem.step]
      split
      · rename_i attempted lastError hat
        obtain rfl := hs.thread (show s.calls t' ≠ .outside by simp [hat])
        rw [BackendPool.choose_snd]
        refine hs.to (PoolHealth.scores_preserve (fun h i bid he => he.halfOpened (clock i) bid)
          p.entries hs.health) fun bid attempted' lastError' hi => ?_
        split at hi
        · rename_i bid' hc
          split at hi
          · cases hi
          · cases hi
            obtain ⟨e, he, rfl⟩ := chosen_eq_some hc
            obtain ⟨score, front, back, hsplit, hne, -⟩ := BackendPool.choose_some he
            have hmem : (score, e) ∈ (PoolHealth.scores clock p.entries s.health).1 := by
              rw [hsplit]
              exact List.mem_append_right front List.mem_cons_self
            exact hs.health.scored hmem hne
        · cases hi
      all_goals exact hs
  | answer t' answer now =>
      simp only [PoolSystem.step]
      split
      · rename_i bid attempted lastError hat
        obtain rfl := hs.thread (show s.calls t' ≠ .outside by simp [hat])
        have hlt := hs.invoked _ _ _ hat
        cases answer with
        | missing => exact hs.to hs.health fun _ _ _ he => by cases he
        | raises exn =>
            exact hs.to (hs.health.recordFailure hlt (hclock now rfl)) fun _ _ _ he => by cases he
        | returns result => exact hs.to (hs.health.recordSuccess bid) fun _ _ _ he => by cases he
      all_goals exact hs
  | getHealth n =>
      simp only [PoolSystem.step]
      split
      · exact ⟨hs.others, hs.health, hs.invoked⟩
      · exact ⟨hs.others, hs.health, hs.invoked⟩
      all_goals exact hs
  | check n now =>
      have hhealth := health_check (p := p) hwatching hclears
      refine ⟨hs.others, ?_, fun bid attempted lastError hi => ?_⟩
      · rw [hhealth]
        exact hs.health
      · rw [hhealth]
        exact hs.invoked bid attempted lastError hi

/-- As long as no `get_health` finds a cooldown over: whoever calls, a circuit that is open has counted
the failures that open it.  While one thread calls, it is open if and only if it has, no more failures
are ever counted, and the backend that is being called is at least one failure short of it. -/
theorem circuits_counted (p : BackendPool) (as : List (Action ρ ε))
    (hclears : Meets (step p) (fun s a => ¬ Clears s a) (new : PoolSystem ρ ε) as) :
    Counted p (run (step p) (new : PoolSystem ρ ε) as).health ∧
      ∀ t, (∀ a ∈ as, By t a ∧ ∀ now, a.Reads now → 0 < now) →
        (run (step p) (new : PoolSystem ρ ε) as).Lone p t := by
  have hpos := p.maxFailures_pos
  have hwatching : (new : PoolSystem ρ ε).Watching := fun _ hwrites => hwrites
  constructor
  · have hcounted : Counted p (new : PoolSystem ρ ε).health := fun bid hopen => absurd hopen (lt_irrefl 0)
    generalize (new : PoolSystem ρ ε) = s at hclears hwatching hcounted
    induction as generalizing s with
    | nil => exact hcounted
    | cons a as ih =>
        exact ih _ hclears.2 (hwatching.step hclears.1) (counted_step hcounted hwatching hclears.1)
  · intro t has
    have hnew : (new : PoolSystem ρ ε).Lone p t := by
      refine ⟨fun _ _ => rfl, ⟨fun _ => Nat.zero_le _, fun bid => ?_⟩, fun _ _ _ hi => by cases hi⟩
      simp only [new, PoolHealth.new, lt_irrefl, false_iff]
      omega
    generalize (new : PoolSystem ρ ε) = s at hclears hwatching hnew
    induction as generalizing s with
    | nil => exact hnew
    | cons a as ih =>
        rw [List.forall_mem_cons] at has
        exact ih has.2 _ hclears.2 (hwatching.step hclears.1)
          (hnew.step hwatching has.1.1 hclears.1 has.1.2)

theorem circuits_counted_pair :
    (run (step .pair) (new : PoolSystem Unit Unit)
      [.getHealth 1, .check 1 1, .call 0, .choose 0 fun _ => 1, .answer 0 (.raises ()) 1]).Lone .pair 0 := by
  have hclears : Meets (step .pair) (fun s a => ¬ Clears s a) (new : PoolSystem Unit Unit)
      [.getHealth 1, .check 1 1, .call 0, .choose 0 fun _ => 1, .answer 0 (.raises ()) 1] := by
    refine ⟨id, ?_, id, id, id, trivial⟩
    rintro ⟨bid, until', rest, hat, -⟩
    cases show PoolCheck.looking [0, 1] = .timing bid until' rest from hat
  refine (circuits_counted .pair _ hclears).2 0 ?_
  simp [By, Action.Reads]

end PoolSystem

end ShugoCore
