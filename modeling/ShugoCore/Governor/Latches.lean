import ShugoCore.Governor.Machine

/-!
# What a latch guarantees

The governor's two fields agree in one direction only.  `Coherent` is the
relation that every run keeps: a task in flight is in a transient state, a
paused or halted latch without a task is also the transient state, and a safe
mode is never the transient state unless it is latched.

What a latch is for depends on the gap that remains.  `_latch` guards the
halted mode by looking at the transient state, and `begin_task` looks at
nothing else.  So a halt taken during a task can be replaced by a later pause,
and a task that has stepped back to `IDLE` before its `end_task` opens the
governor under a pending latch.  The two main theorems say exactly which runs
reach the gap.
-/

namespace ShugoCore

open Machine

namespace ExecutionGovernor

/-- The relation between the latch and the transient state that every run keeps. -/
structure Coherent (g : ExecutionGovernor) : Prop where
  /-- A task in flight is in a transient state. -/
  transient : g.InFlight → g.state.Transient
  /-- Without a task, a paused or halted latch is also the transient state. -/
  settled : ¬ g.InFlight → ∀ m, g.latched = some m → m ≠ .safeState → g.state = m.state
  /-- A safe mode is the transient state only while it is latched. -/
  owned : ∀ m : Latch, g.state = m.state → g.latched = some m

theorem Latch.state_injective {m n : Latch} (h : m.state = n.state) : m = n := by
  cases m <;> cases n <;> first | rfl | cases h

theorem Latch.not_transient (m : Latch) : ¬ m.state.Transient := by
  cases m <;> decide

/-- A transient state is the state of no latch. -/
theorem ne_latch_of_transient {s : AgentState} (h : s.Transient) (m : Latch) : s ≠ m.state := by
  intro he
  exact Latch.not_transient m (he ▸ h)

theorem coherent_new (budget : Int) (deadline : Seconds) : (new budget deadline).Coherent where
  transient h := absurd rfl h
  settled _ _ h := by cases h
  owned m h := by cases m <;> cases h

/-! ## Every call keeps the relation -/

theorem Coherent.beginTask {g : ExecutionGovernor} (h : g.Coherent) (now : Seconds)
    (ref : Option String) : (g.beginTask now ref).2.Coherent := by
  rcases g.beginTask_cases now ref with ⟨-, he⟩ | ⟨-, he⟩
  · rw [he]; exact h
  · rw [he]
    refine ⟨fun _ => show AgentState.observing.Transient by decide,
      fun hn => absurd (by simp [InFlight]) hn, ?_⟩
    intro m hm
    cases m <;> cases hm

theorem Coherent.step {g : ExecutionGovernor} (h : g.Coherent) (now : Seconds)
    (next : AgentState) : (g.step now next).2.Coherent := by
  rcases g.step_cases now next with ⟨-, he⟩ | ⟨-, hn, he⟩
  · rw [he]; exact h
  · rw [he]
    have ht := AgentState.transient_of_allowed hn
    refine ⟨fun _ => ht, ?_, fun m hm => absurd hm (ne_latch_of_transient ht m)⟩
    intro hf m hl hm
    -- A settled pause or halt has an empty row in the matrix.
    have hs := h.settled hf m hl hm
    have hb : g.state = .paused ∨ g.state = .halted := by
      cases m with
      | paused => exact .inl hs
      | safeState => exact absurd rfl hm
      | halted => exact .inr hs
    exact absurd hn (AgentState.not_allowed_of_blocking hb)

theorem Coherent.consumeStep {g : ExecutionGovernor} (h : g.Coherent) (now : Seconds)
    (count : Int) : (g.consumeStep now count).2.Coherent := by
  obtain ⟨used, he⟩ := g.consumeStep_eq now count
  rw [he]
  exact ⟨h.transient, h.settled, h.owned⟩

theorem Coherent.endTask {g : ExecutionGovernor} (now : Seconds) : (g.endTask now).Coherent := by
  rcases g.endTask_state now with ⟨m, hl, hs⟩ | ⟨hl, hs⟩
  · refine ⟨fun hf => absurd hf (by simp), ?_, ?_⟩
    · intro _ n hn _
      rw [endTask_latched, hl] at hn
      cases hn
      exact hs
    · intro n hn
      rw [endTask_latched, hl, Latch.state_injective (hs.symm.trans hn)]
  · refine ⟨fun hf => absurd hf (by simp), ?_, ?_⟩
    · intro _ n hn _
      rw [endTask_latched, hl] at hn
      cases hn
    · intro n hn
      rw [hs] at hn
      cases n <;> cases hn

theorem Coherent.latch {g : ExecutionGovernor} (h : g.Coherent) (m : Latch) :
    (g.latch m).Coherent := by
  rcases g.latch_cases m with ⟨-, he⟩ | ⟨-, hf, he⟩ | ⟨-, hf, he⟩
  · rw [he]; exact h
  · rw [he]
    refine ⟨fun hf' => absurd hf' hf, ?_, ?_⟩
    · intro _ n hn _
      cases hn
      rfl
    · intro n hn
      rw [Latch.state_injective hn]
  · rw [he]
    have ht := h.transient hf
    exact ⟨fun _ => ht, fun hf' => absurd hf hf', fun n hn => absurd hn (ne_latch_of_transient ht n)⟩

theorem Coherent.resume {g : ExecutionGovernor} (h : g.Coherent) (now : Seconds) (by' : String) :
    (g.resume now by').2.Coherent := by
  rcases g.resume_cases now by' with ⟨-, he⟩ | ⟨-, hs, he⟩
  · rw [he]; exact h
  · rw [he]
    refine ⟨fun _ => show AgentState.idle.Transient by decide, ?_, ?_⟩
    · intro _ m hm
      cases hm
    · intro m hm
      cases m <;> cases hm

theorem Coherent.exec {g : ExecutionGovernor} (h : g.Coherent) (op : Op) :
    (g.exec op).Coherent := by
  cases op with
  | beginTask now ref => exact h.beginTask now ref
  | step now next => exact h.step now next
  | consumeStep now count => exact h.consumeStep now count
  | endTask now => exact .endTask now
  | pause => exact h.latch .paused
  | safeState => exact h.latch .safeState
  | halt => exact h.latch .halted
  | resume now by' => exact h.resume now by'

/-- Every state a run reaches is coherent. -/
theorem coherent_run (budget : Int) (deadline : Seconds) (ops : List Op) :
    (run exec (new budget deadline) ops).Coherent :=
  inv_run (I := Coherent) (fun _ op h => h.exec op) (coherent_new budget deadline) ops

/-! ## A halt is terminal while nothing latches over it -/

/-- What a halt promises: the latch stays, no operator can resume, and nothing
begins once no task is in flight. -/
structure HaltHolds (g : ExecutionGovernor) : Prop where
  latched : g.latched = some .halted
  resume : ∀ now by', Raises (g.resume now by').1
  beginTask : ¬ g.InFlight → ∀ now ref, Raises (g.beginTask now ref).1

/-- A `pause` or `safe_state` does not arrive while a task is still in flight
under a halted latch. -/
def KeepsHalt (g : ExecutionGovernor) : Op → Prop
  | .pause => ¬ (g.InFlight ∧ g.latched = some .halted)
  | .safeState => ¬ (g.InFlight ∧ g.latched = some .halted)
  | _ => True

instance (g : ExecutionGovernor) (op : Op) : Decidable (g.KeepsHalt op) := by
  cases op <;> simp only [KeepsHalt] <;> infer_instance

/-- In a coherent state the promise is the latch. -/
theorem Coherent.haltHolds_iff {g : ExecutionGovernor} (h : g.Coherent) :
    g.HaltHolds ↔ g.latched = some .halted := by
  refine ⟨HaltHolds.latched, fun hl => ⟨hl, ?_, ?_⟩⟩
  · -- A resumable state would own the latch, which is the halt.
    intro now by'
    apply resume_raises
    · intro hs
      have := h.owned .paused hs
      rw [hl] at this
      cases this
    · intro hs
      have := h.owned .safeState hs
      rw [hl] at this
      cases this
  · intro hf now ref
    have hs : g.state = .halted := h.settled hf .halted hl (by decide)
    rw [beginTask_raises_iff, hs]
    decide

theorem halt_latched {g : ExecutionGovernor} (h : g.Coherent) : g.halt.latched = some .halted := by
  by_cases hs : g.state = .halted
  · rw [halt, latch, if_pos hs]; exact h.owned .halted hs
  · exact latch_latched hs .halted

/-- A latch request over a halt keeps it exactly when no task is in flight. -/
theorem latch_keeps_halt_iff {g : ExecutionGovernor} (h : g.Coherent)
    (hl : g.latched = some .halted) {m : Latch} (hm : m ≠ .halted) :
    (g.latch m).latched = some .halted ↔ ¬ (g.InFlight ∧ g.latched = some .halted) := by
  rcases g.latch_cases m with ⟨hs, he⟩ | ⟨hs, hf, he⟩ | ⟨hs, hf, he⟩
  · rw [he]
    refine ⟨fun _ hc => ?_, fun _ => hl⟩
    exact ne_latch_of_transient (h.transient hc.1) .halted hs
  · exact absurd (h.settled hf .halted hl (by decide)) hs
  · rw [he]
    refine ⟨fun hc => ?_, fun hc => absurd ⟨hf, hl⟩ hc⟩
    exact absurd (Option.some.inj hc) hm

/-- One call keeps the halted latch exactly when it meets `KeepsHalt`. -/
theorem exec_keeps_halt_iff {g : ExecutionGovernor} (h : g.Coherent)
    (hl : g.latched = some .halted) (op : Op) :
    (g.exec op).latched = some .halted ↔ g.KeepsHalt op := by
  cases op with
  | beginTask now ref =>
      exact ⟨fun _ => trivial, fun _ => (g.latched_exec_task (.beginTask now ref)).trans hl⟩
  | step now next =>
      exact ⟨fun _ => trivial, fun _ => (g.latched_exec_task (.step now next)).trans hl⟩
  | consumeStep now count =>
      exact ⟨fun _ => trivial, fun _ => (g.latched_exec_task (.consumeStep now count)).trans hl⟩
  | endTask now => exact ⟨fun _ => trivial, fun _ => hl⟩
  | pause => exact latch_keeps_halt_iff h hl (by decide)
  | safeState => exact latch_keeps_halt_iff h hl (by decide)
  | halt => exact ⟨fun _ => trivial, fun _ => halt_latched h⟩
  | resume now by' =>
      refine ⟨fun _ => trivial, fun _ => ?_⟩
      rcases g.resume_cases now by' with ⟨-, he⟩ | ⟨hok, -, -⟩
      · rw [exec, call, he]; exact hl
      · have hr := (h.haltHolds_iff.2 hl).resume now by'
        rw [hok] at hr
        exact absurd hr (not_raises_ok _)

/-- After a `halt`, in whatever state it was called, the promise of a halt holds
for the rest of the run exactly when no `pause` and no `safe_state` arrives
while the task that was in flight has not ended. -/
theorem halt_terminal_iff (budget : Int) (deadline : Seconds) (before after : List Op) :
    Always exec HaltHolds (run exec (new budget deadline) before).halt after ↔
      Meets exec KeepsHalt (run exec (new budget deadline) before).halt after := by
  have hc : (run exec (new budget deadline) before).halt.Coherent :=
    (coherent_run budget deadline before).latch .halted
  have hl := halt_latched (coherent_run budget deadline before)
  refine always_iff_meets (I := Coherent) (fun _ op h => h.exec op) ?_ hc (hc.haltHolds_iff.2 hl)
  intro g op hg hh
  rw [(hg.exec op).haltHolds_iff]
  exact exec_keeps_halt_iff hg hh.latched op

/-- A halt taken during a task, then a pause, then the end of the task: the
latch is the pause, an operator resumes, and the next task begins. -/
theorem halt_replaced_by_pause :
    ¬ Always exec HaltHolds (run exec (new 50 120) [.beginTask 0 none]).halt
        [.pause, .endTask 1] ∧
      (run exec (new 50 120) [.beginTask 0 none, .halt, .pause, .endTask 1]).latched =
        some .paused ∧
      ((run exec (new 50 120) [.beginTask 0 none, .halt, .pause, .endTask 1]).resume
        2 "operator").1 = .ok () ∧
      ((run exec (new 50 120) [.beginTask 0 none, .halt, .pause, .endTask 1,
        .resume 2 "operator"]).beginTask 3 none).1 = .ok () := by
  refine ⟨?_, by decide, by decide, by decide⟩
  intro h
  exact absurd h.last.latched (by decide)

/-! ## When a latched governor admits nothing -/

/-- A latch that forbids every task. -/
def Blocking (s : AgentState) : Prop := s = .paused ∨ s = .halted

instance (s : AgentState) : Decidable (Blocking s) := inferInstanceAs (Decidable (_ ∨ _))

/-- A task in flight has stepped back to `IDLE` and not ended yet. -/
def SteppedBack (g : ExecutionGovernor) : Prop := g.InFlight ∧ g.state = .idle

instance (g : ExecutionGovernor) : Decidable g.SteppedBack := inferInstanceAs (Decidable (_ ∧ _))

/-- The step does not take a task in flight back to `IDLE`. -/
def StaysForward (g : ExecutionGovernor) : Op → Prop
  | .step _ next => ¬ (g.InFlight ∧ next = .idle)
  | _ => True

/-- In a coherent state the mode is blocking only through the latch. -/
theorem Coherent.latched_of_blocking {g : ExecutionGovernor} (h : g.Coherent)
    (hm : Blocking g.mode) : ∃ m, g.latched = some m ∧ m ≠ .safeState := by
  cases hl : g.latched with
  | none =>
      simp only [mode, hl] at hm
      rcases hm with hs | hs
      · have := h.owned .paused hs
        rw [hl] at this
        cases this
      · have := h.owned .halted hs
        rw [hl] at this
        cases this
  | some m =>
      refine ⟨m, rfl, ?_⟩
      rintro rfl
      simp only [mode, hl, Latch.state] at hm
      rcases hm with hs | hs <;> cases hs

/-- Under a blocking mode `begin_task` raises exactly when no task in flight has
stepped back to `IDLE`. -/
theorem Coherent.beginTask_raises_iff_of_blocking {g : ExecutionGovernor} (h : g.Coherent)
    (hm : Blocking g.mode) (now : Seconds) (ref : Option String) :
    Raises (g.beginTask now ref).1 ↔ ¬ g.SteppedBack := by
  rw [beginTask_raises_iff]
  by_cases hf : g.InFlight
  · have ht := h.transient hf
    exact ⟨fun hs hb => hs.1 hb.2, fun hb => ⟨fun hs => hb ⟨hf, hs⟩, ht.2.1⟩⟩
  · obtain ⟨m, hl, hsafe⟩ := h.latched_of_blocking hm
    have hs := h.settled hf m hl hsafe
    refine ⟨fun _ hb => hf hb.1, fun _ => ?_⟩
    rw [hs]
    cases m with
    | paused => decide
    | safeState => exact absurd rfl hsafe
    | halted => decide

/-- A latch request does not touch the state of a task in flight. -/
theorem notSteppedBack_latch {g : ExecutionGovernor} (h : ¬ g.SteppedBack) (m : Latch) :
    ¬ (g.latch m).SteppedBack := by
  rcases g.latch_cases m with ⟨-, he⟩ | ⟨-, hf, he⟩ | ⟨-, -, he⟩
  · rw [he]; exact h
  · rw [he]; exact fun hb => hf hb.1
  · rw [he]; exact h

/-- A call that steps no task back leaves no task stepped back. -/
theorem notSteppedBack_exec {g : ExecutionGovernor} (hc : g.Coherent) (h : ¬ g.SteppedBack)
    {op : Op} (hop : g.StaysForward op) : ¬ (g.exec op).SteppedBack := by
  cases op with
  | beginTask now ref =>
      rcases g.beginTask_cases now ref with ⟨-, he⟩ | ⟨-, he⟩
      · rw [exec, call, he]; exact h
      · rw [exec, call, he]
        rintro ⟨-, hs⟩
        cases hs
  | step now next =>
      rcases g.step_cases now next with ⟨-, he⟩ | ⟨-, -, he⟩
      · rw [exec, call, he]; exact h
      · rw [exec, call, he]; exact hop
  | consumeStep now count =>
      obtain ⟨used, he⟩ := g.consumeStep_eq now count
      rw [exec, call, he]
      exact h
  | endTask now => exact fun hb => endTask_not_inFlight g now hb.1
  | pause => exact notSteppedBack_latch h .paused
  | safeState => exact notSteppedBack_latch h .safeState
  | halt => exact notSteppedBack_latch h .halted
  | resume now by' =>
      rcases g.resume_cases now by' with ⟨-, he⟩ | ⟨-, hs, he⟩
      · rw [exec, call, he]; exact h
      · -- Only a state without a task can be resumed.
        rw [exec, call, he]
        rintro ⟨hf, -⟩
        have ht := hc.transient hf
        rcases hs with hs | hs
        · exact ht.1 hs
        · exact ht.2.1 hs

/-- In every state a run reaches, a paused or halted mode refuses `begin_task`
exactly when no task in flight has stepped back to `IDLE`, and along a run that
steps no task in flight back to `IDLE` it refuses every one. -/
theorem latched_admits_nothing_iff (budget : Int) (deadline : Seconds) (ops : List Op) :
    (Blocking (run exec (new budget deadline) ops).mode → ∀ now ref,
      (Raises ((run exec (new budget deadline) ops).beginTask now ref).1 ↔
        ¬ (run exec (new budget deadline) ops).SteppedBack)) ∧
    (Meets exec StaysForward (new budget deadline) ops →
      Always exec (fun g => Blocking g.mode → ∀ now ref, Raises (g.beginTask now ref).1)
        (new budget deadline) ops) := by
  refine ⟨fun hm now ref => ?_, fun hok => ?_⟩
  · exact (coherent_run budget deadline ops).beginTask_raises_iff_of_blocking hm now ref
  · have hinv : Always exec (fun g => g.Coherent ∧ ¬ g.SteppedBack) (new budget deadline) ops := by
      refine Always.of_inv ?_ ⟨coherent_new budget deadline, fun hb => hb.1 rfl⟩ hok
      rintro g op ⟨hc, hb⟩ hop
      exact ⟨hc.exec op, notSteppedBack_exec hc hb hop⟩
    refine hinv.mono ?_
    rintro g ⟨hc, hb⟩ hm now ref
    exact (hc.beginTask_raises_iff_of_blocking hm now ref).2 hb

/-- A pause during a task that then steps back to `IDLE`: the mode is `PAUSED`
and the next `begin_task` succeeds. -/
theorem paused_admits_after_step_back :
    Blocking (run exec (new 50 120) [.beginTask 0 none, .pause, .step 1 .idle]).mode ∧
      ¬ Raises ((run exec (new 50 120) [.beginTask 0 none, .pause, .step 1 .idle]).beginTask
        2 none).1 := by
  decide +kernel

/-- A run that meets the condition and ends paused: a task, a pause during it,
and its end.  The next `begin_task` raises. -/
theorem paused_refuses_after_end :
    Meets exec StaysForward (new 50 120) [.beginTask 0 none, .pause, .endTask 1] ∧
      Blocking (run exec (new 50 120) [.beginTask 0 none, .pause, .endTask 1]).mode ∧
      Raises ((run exec (new 50 120) [.beginTask 0 none, .pause, .endTask 1]).beginTask
        2 none).1 := by
  have hok : Meets exec StaysForward (new 50 120) [.beginTask 0 none, .pause, .endTask 1] := by
    simp [Meets, StaysForward]
  have hm : Blocking (run exec (new 50 120) [.beginTask 0 none, .pause, .endTask 1]).mode := by
    decide
  exact ⟨hok, hm, ((latched_admits_nothing_iff 50 120 _).2 hok).last hm 2 none⟩

end ExecutionGovernor

end ShugoCore
