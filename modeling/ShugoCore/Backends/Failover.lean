import ShugoCore.Backends.Pool

/-!
# Failing over

Which backends one call of a pool tries, and when it gives up.  `call` goes on as long as the
best backend is one that it has not tried.  A failure counts against a backend, but the backend
may still be the best one, and the call ends there: `gives_up_iff`.  While no failure is counted,
a call that is alone tries all the backends in declared order.
-/

namespace ShugoCore

open Machine Py

/-- The first of the best: where it stands in the list. -/
theorem argmin_split {α β : Type} [LinearOrder β] {f : α → β} {xs : List α} {m : α}
    (h : xs.argmin f = some m) :
    ∃ front back, xs = front ++ m :: back ∧ (∀ x ∈ front, f m < f x) ∧ ∀ x ∈ back, f m ≤ f x := by
  induction xs generalizing m with
  | nil => cases h
  | cons x xs ih =>
      rw [List.argmin_cons] at h
      cases hrest : xs.argmin f with
      | none =>
          rw [hrest] at h
          cases h
          refine ⟨[], xs, rfl, fun y hy => (by cases hy), ?_⟩
          rw [List.argmin_eq_none.1 hrest]
          exact fun y hy => by cases hy
      | some c =>
          rw [hrest] at h
          obtain ⟨front, back, rfl, hfront, hback⟩ := ih hrest
          by_cases hlt : f c < f x
          · simp only [if_pos hlt] at h
            cases h
            refine ⟨x :: front, back, rfl, ?_, hback⟩
            rw [List.forall_mem_cons]
            exact ⟨hlt, hfront⟩
          · simp only [if_neg hlt] at h
            cases h
            have hle := not_lt.1 hlt
            refine ⟨[], front ++ c :: back, rfl, fun y hy => (by cases hy), fun y hy => ?_⟩
            rcases List.mem_append.1 hy with hy | hy
            · exact hle.trans (hfront y hy).le
            · rcases List.mem_cons.1 hy with rfl | hy
              · exact hle
              · exact hle.trans (hback y hy)

namespace BackendPool

variable {p : BackendPool} {h : PoolHealth} {clock : Nat → Seconds}

/-- The score that `_choose` gives the entry at an index. -/
def scoreAt (p : BackendPool) (h : PoolHealth) (clock : Nat → Seconds) (i : Nat) : WithTop ℚ :=
  ((PoolHealth.scores clock p.entries h).1.map Prod.fst).getD i ⊤

theorem choose_snd (p : BackendPool) (h : PoolHealth) (clock : Nat → Seconds) :
    (p.choose h clock).2 = (PoolHealth.scores clock p.entries h).2 := by
  simp only [choose]
  split <;> rfl

/-- The entry that `_choose` returns: it can be called, the ones before it score worse and the
ones after it no better. -/
theorem choose_some {e : PoolEntry} (hc : (p.choose h clock).1 = some e) :
    ∃ s front back, (PoolHealth.scores clock p.entries h).1 = front ++ (s, e) :: back ∧ s ≠ ⊤ ∧
      (∀ x ∈ front, s < x.1) ∧ ∀ x ∈ back, s ≤ x.1 := by
  simp only [choose] at hc
  split at hc
  · cases hc
  · rename_i s e₀ hmin
    obtain ⟨front, back, hsplit, hfront, hback⟩ := argmin_split hmin
    split at hc
    · cases hc
    · rename_i hne
      cases hc
      exact ⟨s, front, back, hsplit, hne, hfront, hback⟩

/-- `_choose` returns nothing only if no entry can be called. -/
theorem choose_none (hc : (p.choose h clock).1 = none) {x : WithTop ℚ × PoolEntry}
    (hx : x ∈ (PoolHealth.scores clock p.entries h).1) : x.1 = ⊤ := by
  simp only [choose] at hc
  split at hc
  · rename_i hmin
    rw [List.argmin_eq_none.1 hmin] at hx
    cases hx
  · rename_i s e₀ hmin
    split at hc
    · rename_i htop
      have hle := List.le_of_mem_argmin hx hmin
      exact top_le_iff.1 (htop ▸ hle)
    · cases hc

theorem chosen_mem {e : PoolEntry} (hc : (p.choose h clock).1 = some e) : e ∈ p.entries := by
  obtain ⟨s, front, back, hsplit, -⟩ := choose_some hc
  rw [← PoolHealth.scores_entries clock p.entries h, hsplit]
  simp

/-- The entries keep their places among the scores. -/
theorem getElem?_scores (p : BackendPool) (h : PoolHealth) (clock : Nat → Seconds)
    (i : Fin p.entries.length) :
    (PoolHealth.scores clock p.entries h).1[(i : Nat)]? =
      some (p.scoreAt h clock i, p.entries.get i) := by
  have hentries := PoolHealth.scores_entries clock p.entries h
  have hlength : (i : Nat) < (PoolHealth.scores clock p.entries h).1.length := by
    have hlen := congrArg List.length hentries
    rw [List.length_map] at hlen
    rw [hlen]
    exact i.2
  rw [List.getElem?_eq_getElem hlength, Option.some.injEq]
  refine Prod.ext ?_ ?_
  · simp [scoreAt, hlength]
  · have hget : ((PoolHealth.scores clock p.entries h).1.map Prod.snd)[(i : Nat)]? = p.entries[(i : Nat)]? :=
      congrArg (·[(i : Nat)]?) hentries
    simpa [hlength] using hget

end BackendPool

namespace PoolHealth

theorem closedScore_zero (priority : ℚ) : closedScore 0 priority = 0 := by
  have hnearest : PyFloat.nearest ((0 : Nat) : ℚ) = .finite 0 := by
    have hnot : ¬ (2 : ℚ) ^ 1024 ≤ 0 := not_le.2 (by positivity)
    have hnot' : ¬ (0 : ℚ) ≤ -2 ^ 1024 := not_le.2 (neg_lt_zero.2 (by positivity))
    have hround : roundHalfEven 0 = 0 := by exact_mod_cast roundHalfEven_intCast 0
    rw [Nat.cast_zero, PyFloat.nearest]
    simp only [zero_div, hround, Int.cast_zero, zero_mul, if_neg hnot, if_neg hnot']
  have hzero : PyFloat.nearest (0 / (1 ⊔ priority)) = .finite 0 := by
    rw [zero_div]
    exact_mod_cast hnearest
  rw [closedScore, hnearest, PyFloat.max_finite, PyFloat.div, hzero]
  rfl

/-- One failure is a score that is worse than none. -/
theorem closedScore_one_pos {priority : ℚ} (h : priority < 2 ^ 1024) : 0 < closedScore 1 priority := by
  have hone : PyFloat.nearest ((1 : Nat) : ℚ) = .finite 1 := by
    have hint := PyFloat.ofInt_two_pow 0
    rw [if_pos (by decide), pow_zero, pow_zero, PyFloat.ofInt, Int.cast_one] at hint
    rw [Nat.cast_one]
    cases hnearest : PyFloat.nearest 1 with
    | finite x =>
        rw [hnearest] at hint
        exact Except.ok.inj hint
    | nan | posInf | negInf =>
        rw [hnearest] at hint
        cases hint
  have hmax : (0 : ℚ) < 1 ⊔ priority := lt_max_of_lt_left one_pos
  have hlarge : (2 : ℚ) ^ (-1074 : Int) ≤ 1 / (1 ⊔ priority) := by
    calc (2 : ℚ) ^ (-1074 : Int) ≤ 2 ^ (-1024 : Int) := zpow_le_zpow_right₀ one_le_two (by decide)
      _ = 1 / 2 ^ (1024 : Nat) := by
        rw [zpow_neg, one_div]
        exact congrArg _ (zpow_natCast 2 1024)
      _ ≤ 1 / (1 ⊔ priority) :=
        one_div_le_one_div_of_le hmax (max_le (one_le_pow₀ one_le_two) h.le)
  rw [closedScore, hone, PyFloat.max_finite, PyFloat.div]
  cases hx : PyFloat.nearest (1 / (1 ⊔ priority)) with
  | finite x =>
      have hpos : 0 < x := PyFloat.nearest_pos hlarge hx
      exact WithTop.coe_pos.2 hpos
  | nan | posInf | negInf => exact WithTop.coe_lt_top 0

end PoolHealth

namespace PoolSystem

variable {ρ ε : Type} {p : BackendPool} {s : PoolSystem ρ ε} {clock : Nat → Seconds} {t : Nat}

theorem chosen_eq_some {bid : Nat} (hc : s.chosen p clock = some bid) :
    ∃ e, (p.choose s.health clock).1 = some e ∧ e.backend = bid := by
  simpa [chosen] using hc

/-! ## When a call gives up -/

/-- One entry comes before another for `_choose`: it scores better, or as well and it is declared
before it. -/
def Beats (p : BackendPool) (h : PoolHealth) (clock : Nat → Seconds) (i j : Fin p.entries.length) :
    Prop :=
  p.scoreAt h clock i < p.scoreAt h clock j ∨ p.scoreAt h clock i = p.scoreAt h clock j ∧ i < j

/-- An entry that can be called and that a call has not tried. -/
def Untried (p : BackendPool) (h : PoolHealth) (clock : Nat → Seconds) (attempted : List Nat)
    (i : Fin p.entries.length) : Prop :=
  p.scoreAt h clock i ≠ ⊤ ∧ (p.entries.get i).backend ∉ attempted

theorem chosen_beats {e : PoolEntry} {h : PoolHealth} (hc : (p.choose h clock).1 = some e) :
    ∃ i, p.entries.get i = e ∧ p.scoreAt h clock i ≠ ⊤ ∧ ∀ j, j ≠ i → Beats p h clock i j := by
  obtain ⟨s, front, back, hsplit, hne, hfront, hback⟩ := BackendPool.choose_some hc
  have hlen : front.length < p.entries.length := by
    rw [← PoolHealth.scores_entries clock p.entries h, hsplit]
    simp
  have hi := BackendPool.getElem?_scores p h clock ⟨front.length, hlen⟩
  rw [hsplit, List.getElem?_append_right (le_refl _), Nat.sub_self] at hi
  obtain ⟨hs, he⟩ := Prod.mk.inj (Option.some.inj hi)
  refine ⟨⟨front.length, hlen⟩, he.symm, hs ▸ hne, fun j hj => ?_⟩
  have hget := BackendPool.getElem?_scores p h clock j
  rw [hsplit] at hget
  rw [Beats, ← hs]
  rcases Nat.lt_or_gt_of_ne fun heq : (j : Nat) = front.length => hj (Fin.ext heq) with hlt | hgt
  · rw [List.getElem?_append_left hlt] at hget
    exact .inl (hfront _ (List.mem_of_getElem? hget))
  · have hindex : (j : Nat) - front.length = j - front.length - 1 + 1 := by omega
    rw [List.getElem?_append_right hgt.le, hindex, List.getElem?_cons_succ] at hget
    rcases lt_or_eq_of_le (hback _ (List.mem_of_getElem? hget)) with hlt | heq
    · exact .inl hlt
    · exact .inr ⟨heq, hgt⟩

theorem Beats.irrefl {h : PoolHealth} {i : Fin p.entries.length} : ¬ Beats p h clock i i := by
  rintro (hlt | ⟨-, hlt⟩)
  · exact lt_irrefl _ hlt
  · exact lt_irrefl _ hlt

theorem Beats.asymm {h : PoolHealth} {i j : Fin p.entries.length} (hij : Beats p h clock i j) :
    ¬ Beats p h clock j i := by
  rintro (hlt | ⟨heq, hlt⟩) <;> rcases hij with hlt' | ⟨heq', hlt'⟩
  · exact lt_asymm hlt hlt'
  · exact absurd heq' hlt.ne'
  · exact absurd heq hlt'.ne'
  · exact lt_asymm hlt hlt'

/-- A call gives up at a `_choose` if and only if every backend that it has not tried and could
call comes behind one that it has tried.  So it may give up with a healthy backend untried. -/
theorem gives_up_iff (p : BackendPool) (s : PoolSystem ρ ε) (clock : Nat → Seconds) {t : Nat}
    {attempted : List Nat} {lastError : Option (PoolFault ε)}
    (ht : s.calls t = .choosing attempted lastError) :
    (s.step p (.choose t clock)).calls t = .failed attempted (lastError.getD .noBackend) ↔
      ∀ i, Untried p s.health clock attempted i →
        ∃ j, (p.entries.get j).backend ∈ attempted ∧ Beats p s.health clock j i := by
  simp only [step, ht, Function.update_self]
  cases hc : s.chosen p clock with
  | none =>
      simp only [true_iff]
      intro i hi
      have hnone : (p.choose s.health clock).1 = none := by simpa [chosen] using hc
      have hmem := List.mem_of_getElem? (BackendPool.getElem?_scores p s.health clock i)
      exact absurd (BackendPool.choose_none hnone hmem) hi.1
  | some bid =>
      obtain ⟨e, he, rfl⟩ := chosen_eq_some hc
      obtain ⟨i, hi, hne, hbeats⟩ := chosen_beats he
      by_cases hmem : e.backend ∈ attempted
      · simp only [if_pos hmem, true_iff]
        intro j hj
        have hne : j ≠ i := by
          rintro rfl
          exact hj.2 (hi ▸ hmem)
        exact ⟨i, hi ▸ hmem, hbeats j hne⟩
      · simp only [if_neg hmem, reduceCtorEq, false_iff, not_forall, not_exists, not_and]
        refine ⟨i, ⟨hne, hi ▸ hmem⟩, fun j hj hb => ?_⟩
        by_cases hji : j = i
        · exact Beats.irrefl (hji ▸ hb)
        · exact hb.asymm (hbeats j hji)

theorem gives_up_iff_pair :
    let s : PoolSystem Unit Unit :=
      ⟨.new, fun _ => .choosing [0] (some (.raised ())), fun _ => .outside⟩
    (s.step .pair (.choose 0 fun _ => 0)).calls 0 = .failed [0] (.raised ()) ↔
      ∀ i, Untried .pair s.health (fun _ => 0) [0] i →
        ∃ j, (BackendPool.pair.entries.get j).backend ∈ [0] ∧
          Beats .pair s.health (fun _ => 0) j i :=
  gives_up_iff .pair ⟨.new, fun _ => .choosing [0] (some (.raised ())), fun _ => .outside⟩ _ rfl

instance (p : BackendPool) (h : PoolHealth) (clock : Nat → Seconds) (attempted : List Nat)
    (i : Fin p.entries.length) : Decidable (Untried p h clock attempted i) :=
  inferInstanceAs (Decidable (_ ∧ _))

/-- The first call finds both backends failing, the second one the first backend well.  In the third
one it fails again, and its one failure weighs less than the one of the other, which is not tried. -/
theorem gives_up_untried :
    let s := run (step .skewed) (new : PoolSystem Unit Unit)
      [.call 0, .choose 0 fun _ => 0, .answer 0 (.raises ()) 0, .choose 0 fun _ => 0,
        .answer 0 (.raises ()) 0, .choose 0 fun _ => 0, .call 0, .choose 0 fun _ => 0,
        .answer 0 (.returns ()) 0, .call 0, .choose 0 fun _ => 0, .answer 0 (.raises ()) 0]
    (s.step .skewed (.choose 0 fun _ => 0)).calls 0 = .failed [0] (.raised ()) ∧
      ∃ i, Untried .skewed s.health (fun _ => 0) [0] i := by
  decide +kernel

/-! ## One call -/

/-- What a call has tried, and the error it holds. -/
structure Tried (p : BackendPool) (attempted : List Nat) (lastError : Option (PoolFault ε)) :
    Prop where
  nodup : attempted.Nodup
  subset : attempted ⊆ p.bids
  /-- The error is there as soon as a backend was tried, and `noBackend` is none of them. -/
  error : lastError = none ↔ attempted = []
  fault : lastError ≠ some .noBackend

/-- The point of a call is in keeping with what it has tried. -/
def InOrder (p : BackendPool) : PoolCall ρ ε → Prop
  | .outside | .returned _ => True
  | .choosing attempted lastError => Tried p attempted lastError
  | .invoking bid attempted lastError =>
      ∃ earlier, attempted = earlier ++ [bid] ∧ bid ∉ earlier ∧ bid ∈ p.bids ∧
        Tried p earlier lastError
  | .failed attempted fault =>
      attempted.Nodup ∧ attempted ⊆ p.bids ∧ (fault = .noBackend ↔ attempted = [])

theorem Tried.failed {attempted : List Nat} {lastError : Option (PoolFault ε)}
    (h : Tried p attempted lastError) :
    InOrder p (.failed attempted (lastError.getD .noBackend) : PoolCall ρ ε) := by
  refine ⟨h.nodup, h.subset, ?_⟩
  cases lastError with
  | none => simpa using h.error
  | some fault =>
      have hne := h.fault
      have hempty := h.error
      simp only [reduceCtorEq, false_iff] at hempty
      simp only [Option.getD_some]
      exact ⟨fun hf => absurd (congrArg some hf) hne, fun he => absurd he hempty⟩

theorem Tried.snoc {earlier : List Nat} {bid : Nat} {lastError : Option (PoolFault ε)}
    (h : Tried p earlier lastError) (hmem : bid ∈ p.bids) (hnew : bid ∉ earlier)
    {fault : PoolFault ε} (hf : fault ≠ .noBackend) :
    Tried p (earlier ++ [bid]) (some fault) where
  nodup := by
    rw [List.nodup_append]
    exact ⟨h.nodup, List.nodup_singleton bid, fun b hb b' hb' => by
      rw [List.mem_singleton.1 hb']
      rintro rfl
      exact hnew hb⟩
  subset := List.append_subset.2 ⟨h.subset, by simpa using hmem⟩
  error := by simp
  fault := fun he => hf (Option.some.inj he)

theorem inOrder_step (hs : ∀ t, InOrder p (s.calls t)) (a : Action ρ ε) (t : Nat) :
    InOrder p ((s.step p a).calls t) := by
  have hset : ∀ {t' : Nat} {c : PoolCall ρ ε}, InOrder p c →
      InOrder p (Function.update s.calls t' c t) := by
    intro t' c hc
    by_cases ht : t = t'
    · subst ht
      rwa [Function.update_self]
    · rw [Function.update_of_ne ht]
      exact hs t
  have hempty : Tried p [] (none : Option (PoolFault ε)) :=
    ⟨List.nodup_nil, List.nil_subset _, by simp, by simp⟩
  cases a with
  | call t' =>
      simp only [step]
      split
      · exact hset hempty
      · exact hset hempty
      · exact hset hempty
      · exact hs t
      · exact hs t
  | choose t' clock =>
      simp only [step]
      split
      · rename_i attempted lastError hat
        have htried : Tried p attempted lastError := by
          have := hs t'
          rwa [hat] at this
        refine hset ?_
        split
        · rename_i bid hc
          obtain ⟨e, he, rfl⟩ := chosen_eq_some hc
          split
          · exact htried.failed
          · rename_i hnew
            exact ⟨attempted, rfl, hnew, List.mem_map_of_mem (BackendPool.chosen_mem he), htried⟩
        · exact htried.failed
      all_goals exact hs t
  | answer t' answer now =>
      simp only [step]
      split
      · rename_i bid attempted lastError hat
        have hinv : InOrder p (.invoking bid attempted lastError : PoolCall ρ ε) := by
          have := hs t'
          rwa [hat] at this
        obtain ⟨earlier, rfl, hnew, hmem, htried⟩ := hinv
        cases answer with
        | missing => exact hset (htried.snoc hmem hnew (by simp))
        | raises exn => exact hset (htried.snoc hmem hnew (by simp))
        | returns result => exact hset True.intro
      all_goals exact hs t
  | getHealth n =>
      simp only [step]
      split <;> exact hs t
  | check n now => exact hs t

theorem inOrder_run (p : BackendPool) (as : List (Action ρ ε)) (t : Nat) :
    InOrder p ((run (step p) (new : PoolSystem ρ ε) as).calls t) :=
  inv_run (I := fun s : PoolSystem ρ ε => ∀ t, InOrder p (s.calls t))
    (fun _ a hs => inOrder_step hs a)
    (fun _ => show InOrder p (.outside : PoolCall ρ ε) from True.intro) as t

/-- The backends that a call has tried. -/
def attempted : PoolCall ρ ε → List Nat
  | .outside | .returned _ => []
  | .choosing attempted _ | .invoking _ attempted _ | .failed attempted _ => attempted

/-- However many threads are inside `call`, none of them tries a backend twice, so that it tries
as many as there are in the pool at most.  It raises `BackendError` if and only if it tried none. -/
theorem call_tries_once (p : BackendPool) (as : List (Action ρ ε)) (t : Nat) :
    (attempted ((run (step p) (new : PoolSystem ρ ε) as).calls t)).Nodup ∧
      attempted ((run (step p) (new : PoolSystem ρ ε) as).calls t) ⊆ p.bids ∧
      (attempted ((run (step p) (new : PoolSystem ρ ε) as).calls t)).length ≤ p.entries.length ∧
      match (run (step p) (new : PoolSystem ρ ε) as).calls t with
      | .failed attempted fault => fault = .noBackend ↔ attempted = []
      | _ => True := by
  have h := inOrder_run p as t
  have hlength : ∀ {bids : List Nat}, bids.Nodup → bids ⊆ p.bids →
      bids.length ≤ p.entries.length := by
    intro bids hnodup hsub
    have := (hnodup.subperm hsub).length_le
    simpa [BackendPool.bids] using this
  cases hc : (run (step p) (new : PoolSystem ρ ε) as).calls t with
  | outside | returned result =>
      exact ⟨List.nodup_nil, List.nil_subset _, Nat.zero_le _, True.intro⟩
  | choosing bids lastError =>
      rw [hc] at h
      exact ⟨h.nodup, h.subset, hlength h.nodup h.subset, True.intro⟩
  | invoking bid bids lastError =>
      rw [hc] at h
      obtain ⟨earlier, rfl, hnew, hmem, htried⟩ := h
      have hsnoc := htried.snoc hmem hnew (by simp : (.noMethod bid : PoolFault ε) ≠ .noBackend)
      exact ⟨hsnoc.nodup, hsnoc.subset, hlength hsnoc.nodup hsnoc.subset, True.intro⟩
  | failed bids fault =>
      rw [hc] at h
      exact ⟨h.1, h.2.1, hlength h.1 h.2.1, h.2.2⟩

/-! ## A pool that has counted nothing -/

/-- A turn of the loop in which the backend raises. -/
def failing (t : Nat) (turn : (Nat → Seconds) × ε × Seconds) : List (Action ρ ε) :=
  [.choose t turn.1, .answer t (.raises turn.2.1) turn.2.2]

/-- No failure is counted, and no circuit is open. -/
structure Unfailed (h : PoolHealth) : Prop where
  closed : ∀ bid, h.openUntil bid = 0
  failures : ∀ bid, h.failures bid = 0

/-- The first backends have failed once, and no circuit is open. -/
structure FailedOnce (p : BackendPool) (t k : Nat) (lastError : Option (PoolFault ε))
    (s : PoolSystem ρ ε) : Prop where
  closed : ∀ bid, s.health.openUntil bid = 0
  failures : ∀ bid, s.health.failures bid = if bid ∈ p.bids.take k then 1 else 0
  call : s.calls t = .choosing (p.bids.take k) lastError

variable {k : Nat} {lastError : Option (PoolFault ε)}

theorem not_mem_take {bids : List Nat} (hnodup : bids.Nodup) (hk : k < bids.length) :
    bids[k] ∉ bids.take k := by
  have hall := hnodup.sublist (List.take_sublist (k + 1) bids)
  rw [List.take_succ_eq_append_getElem hk, List.nodup_append] at hall
  exact fun hmem => hall.2.2 _ hmem _ (List.mem_singleton_self _) rfl

theorem FailedOnce.scoreAt (h : s.FailedOnce p t k lastError) (clock : Nat → Seconds)
    (i : Fin p.entries.length) : p.scoreAt s.health clock i = PoolHealth.closedScore
      (if (p.entries.get i).backend ∈ p.bids.take k then 1 else 0) (p.entries.get i).priority := by
  rw [BackendPool.scoreAt, PoolHealth.scores_of_closed h.closed]
  simp [h.failures]

/-- The next backend in declared order is the best one. -/
theorem FailedOnce.chosen (h : s.FailedOnce p t k lastError) (hnodup : p.bids.Nodup)
    (hk : k < p.entries.length) (clock : Nat → Seconds) : s.chosen p clock = p.bids[k]? := by
  have hget : ∀ i : Fin p.entries.length, (p.entries.get i).backend ∈ p.bids.take k ↔ (i : Nat) < k := by
    intro i
    have hi : (i : Nat) < p.bids.length := by simp [BackendPool.bids]
    have hentry : (p.entries.get i).backend = p.bids[(i : Nat)] := by simp [BackendPool.bids]
    rw [hentry, List.mem_take_iff_getElem]
    constructor
    · rintro ⟨j, hj, heq⟩
      rw [hnodup.getElem_inj_iff] at heq
      omega
    · exact fun hlt => ⟨i, by omega, rfl⟩
  have hscore : ∀ i : Fin p.entries.length, p.scoreAt s.health clock i =
      PoolHealth.closedScore (if (i : Nat) < k then 1 else 0) (p.entries.get i).priority := by
    intro i
    rw [h.scoreAt]
    simp only [hget]
  have hfirst : p.scoreAt s.health clock k = 0 := by
    rw [hscore ⟨k, hk⟩, if_neg (lt_irrefl k), PoolHealth.closedScore_zero]
  have hbest : ∀ j : Fin p.entries.length, j ≠ ⟨k, hk⟩ → Beats p s.health clock ⟨k, hk⟩ j := by
    intro j hj
    rw [Beats, hfirst, hscore j]
    rcases Nat.lt_or_gt_of_ne (fun he : (j : Nat) = k => hj (Fin.ext he)) with hlt | hgt
    · rw [if_pos hlt]
      exact .inl (PoolHealth.closedScore_one_pos (p.entries.get j).priority_lt)
    · rw [if_neg (not_lt.2 hgt.le), PoolHealth.closedScore_zero]
      exact .inr ⟨rfl, hgt⟩
  cases hc : (p.choose s.health clock).1 with
  | none =>
      have hmem := List.mem_of_getElem? (BackendPool.getElem?_scores p s.health clock ⟨k, hk⟩)
      exact absurd (hfirst.symm.trans (BackendPool.choose_none hc hmem)) WithTop.zero_ne_top
  | some e =>
      obtain ⟨i, hi, -, hbeats⟩ := chosen_beats hc
      have hik : i = ⟨k, hk⟩ := by
        by_contra hne
        exact (hbest i hne).asymm (hbeats _ (Ne.symm hne))
      subst hik
      simp [PoolSystem.chosen, hc, ← hi, BackendPool.bids, hk]

theorem FailedOnce.turn (h : s.FailedOnce p t k lastError) (hnodup : p.bids.Nodup)
    (hmax : 2 ≤ p.maxFailures) (hk : k < p.entries.length)
    (turn : (Nat → Seconds) × ε × Seconds) :
    (run (step p) s (failing t turn)).FailedOnce p t (k + 1) (some (.raised turn.2.1)) := by
  have hkb : k < p.bids.length := by simpa [BackendPool.bids] using hk
  have hget : p.bids[k]? = some p.bids[k] := List.getElem?_eq_getElem hkb
  have htake : p.bids.take (k + 1) = p.bids.take k ++ [p.bids[k]] :=
    List.take_succ_eq_append_getElem hkb
  have hnew : p.bids[k] ∉ p.bids.take k := not_mem_take hnodup hkb
  have hchosen := h.chosen hnodup hk turn.1
  have hchoose : s.step p (.choose t turn.1) = ⟨s.health,
      Function.update s.calls t (.invoking p.bids[k] (p.bids.take (k + 1)) lastError), s.checks⟩ := by
    simp only [step, h.call, hchosen, hget, if_neg hnew, BackendPool.choose_snd,
      PoolHealth.scores_of_closed h.closed, htake]
  have hfailures : s.health.failures p.bids[k] = 0 := by rw [h.failures, if_neg hnew]
  have hshort : ∀ bid, ¬ (bid = p.bids[k] ∧ p.maxFailures ≤ s.health.failures bid + 1) := by
    rintro bid ⟨rfl, hle⟩
    rw [hfailures] at hle
    omega
  have hmem : ∀ bid, bid ∈ p.bids.take (k + 1) ↔ bid ∈ p.bids.take k ∨ bid = p.bids[k] := by
    intro bid
    rw [htake, List.mem_append, List.mem_singleton]
  rw [failing, run_cons, hchoose, run_cons, run_nil]
  simp only [step, Function.update_self]
  refine ⟨fun bid => ?_, fun bid => ?_, Function.update_self ..⟩
  · rw [PoolHealth.openUntil_recordFailure, if_neg (hshort bid)]
    exact h.closed bid
  · rw [PoolHealth.failures_recordFailure]
    by_cases hb : bid = p.bids[k]
    · rw [if_pos hb, if_pos ((hmem bid).2 (.inr hb)), hb, hfailures]
    · rw [if_neg hb, h.failures]
      simp only [hmem, hb, or_false]

theorem FailedOnce.turns (hnodup : p.bids.Nodup) (hmax : 2 ≤ p.maxFailures)
    (turns : List ((Nat → Seconds) × ε × Seconds)) (h : s.FailedOnce p t k lastError)
    (hlength : k + turns.length ≤ p.entries.length) :
    (run (step p) s (turns.flatMap (failing t))).FailedOnce p t (k + turns.length)
      ((turns.getLast?.map fun turn => .raised turn.2.1).or lastError) := by
  induction turns generalizing s k lastError with
  | nil => exact h
  | cons turn turns ih =>
      rw [List.length_cons] at hlength
      have hnext := ih (h.turn hnodup hmax (by omega) turn) (by omega)
      rw [List.flatMap_cons, run_append, List.length_cons, Nat.add_comm turns.length 1,
        ← Nat.add_assoc]
      cases turns with
      | nil => exact hnext
      | cons turn' turns =>
          rw [List.getLast?_cons_cons]
          have hsome : ((turn' :: turns).getLast?.map fun turn => PoolFault.raised turn.2.1).or
              (some (.raised turn.2.1)) =
              ((turn' :: turns).getLast?.map fun turn => PoolFault.raised turn.2.1).or lastError := by
            rw [List.getLast?_eq_some_getLast (List.cons_ne_nil turn' turns)]
            rfl
          rwa [hsome] at hnext

/-- What the call makes of the next `_choose`. -/
theorem FailedOnce.choose (h : s.FailedOnce p t k lastError) (hnodup : p.bids.Nodup)
    (clock : Nat → Seconds) :
    (s.step p (.choose t clock)).calls t =
      match p.bids[k]? with
      | some bid => .invoking bid (p.bids.take k ++ [bid]) lastError
      | none => .failed p.bids (lastError.getD .noBackend) := by
  by_cases hk : k < p.entries.length
  · have hkb : k < p.bids.length := by simpa [BackendPool.bids] using hk
    simp only [step, h.call, h.chosen hnodup hk clock, List.getElem?_eq_getElem hkb,
      if_neg (not_mem_take hnodup hkb), Function.update_self]
  · have hall : p.bids.length ≤ k := by simpa [BackendPool.bids] using hk
    have hcall := h.call
    rw [List.take_of_length_le hall] at hcall
    simp only [step, hcall, List.getElem?_eq_none hall, Function.update_self]
    cases hc : s.chosen p clock with
    | none => rfl
    | some bid =>
        obtain ⟨e, he, rfl⟩ := chosen_eq_some hc
        exact if_pos (List.mem_map_of_mem (BackendPool.chosen_mem he))

/-- A thread that is inside `call`. -/
def inside : PoolCall ρ ε → Bool
  | .choosing _ _ | .invoking _ _ _ => true
  | .outside | .returned _ | .failed _ _ => false

theorem step_call (h : inside (s.calls t) = false) :
    s.step p (.call t) = { s with calls := Function.update s.calls t (.choosing [] none) } := by
  cases hcall : s.calls t with
  | outside | returned result | failed attempted fault => simp only [step, hcall]
  | choosing attempted lastError | invoking bid attempted lastError =>
      rw [hcall] at h
      cases h

/-- In a pool that has counted no failure, with backends that are all different and none of them
one failure away from an open circuit, a call that is alone tries them in declared order, each
after the one before it has raised, and gives up when all have. -/
theorem fresh_call_tries_all (p : BackendPool) (hnodup : p.bids.Nodup) (hmax : 2 ≤ p.maxFailures)
    (s : PoolSystem ρ ε) (hs : Unfailed s.health) (t : Nat) (ht : inside (s.calls t) = false)
    (turns : List ((Nat → Seconds) × ε × Seconds)) (hlength : turns.length ≤ p.entries.length)
    (clock : Nat → Seconds) :
    (run (step p) s (.call t :: turns.flatMap (failing t) ++ [.choose t clock])).calls t =
      match p.bids[turns.length]? with
      | some bid => .invoking bid (p.bids.take turns.length ++ [bid])
          (turns.getLast?.map fun turn => .raised turn.2.1)
      | none => .failed p.bids ((turns.getLast?.map fun turn => .raised turn.2.1).getD .noBackend) := by
  have hstart : (s.step p (.call t)).FailedOnce p t 0 none := by
    rw [step_call ht]
    refine ⟨hs.closed, fun bid => (hs.failures bid).trans ?_, Function.update_self ..⟩
    rw [List.take_zero, if_neg List.not_mem_nil]
  have h := hstart.turns hnodup hmax turns (by rwa [Nat.zero_add])
  rw [Nat.zero_add, Option.or_none] at h
  rw [List.cons_append, run_cons, run_append, run_cons, run_nil]
  exact h.choose hnodup clock

theorem fresh_call_tries_all_pair :
    (run (step .pair) (new : PoolSystem Unit Unit)
        (.call 0 :: [(fun _ => 0, (), 0)].flatMap (failing 0) ++ [.choose 0 fun _ => 1])).calls 0 =
      .invoking 1 [0, 1] (some (.raised ())) :=
  fresh_call_tries_all .pair (by decide) (by decide) new ⟨fun _ => rfl, fun _ => rfl⟩ 0 rfl
    [(fun _ => 0, (), 0)] (by decide) fun _ => 1

end PoolSystem

end ShugoCore
