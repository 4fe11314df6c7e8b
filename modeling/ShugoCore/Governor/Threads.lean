import ShugoCore.Governor.Latches

/-!
# Tasks on several threads

`DecisionEngine.execute_task` brackets a task between a `begin_task` and the
`end_task` of its `finally` block, and on its refusal paths steps the governor
to `IDLE` in between.  Here any number of activations of `execute_task` share
one governor, and the fallback controller and the operator latch and resume it
at any time.  An activation is between its own successful `begin_task` and its
`end_task` while it is in `running`.  A call that an activation cannot make at
that point of its program leaves the system as it is.

The re-entrancy guard of `begin_task` tests the transient state.  So it keeps
activations apart exactly as long as none of them begins in the window between
another's step back to `IDLE` and its `end_task`.
-/

namespace ShugoCore

open Machine ExecutionGovernor

/-- The governor with the activations that have begun a task and not ended it. -/
structure Engines where
  governor : ExecutionGovernor
  running : List Nat
deriving DecidableEq, Repr

namespace Engines

/-- One atomic step of the system. -/
inductive Action where
  | task (activation : Nat) (c : TaskCall)
  | latch (m : Latch)
  | resume (now : Seconds) (resumedBy : String)
deriving DecidableEq, Repr

/-- No activation is running. -/
def new (budget : Int) (deadline : Seconds) : Engines :=
  ⟨ExecutionGovernor.new budget deadline, []⟩

/-- A call of one activation.  The first call of an activation is `begin_task`;
the others are made by running activations only. -/
def taskCall (s : Engines) (t : Nat) : TaskCall → Engines
  | .beginTask now ref =>
      if t ∈ s.running then s
      else
        match (s.governor.beginTask now ref).1 with
        | .ok _ => ⟨(s.governor.beginTask now ref).2, t :: s.running⟩
        | .error _ => ⟨(s.governor.beginTask now ref).2, s.running⟩
  | .step now next =>
      if t ∈ s.running then ⟨(s.governor.step now next).2, s.running⟩ else s
  | .consumeStep now count =>
      if t ∈ s.running then ⟨(s.governor.consumeStep now count).2, s.running⟩ else s
  | .endTask now =>
      if t ∈ s.running then ⟨s.governor.endTask now, s.running.erase t⟩ else s

def exec (s : Engines) : Action → Engines
  | .task t c => s.taskCall t c
  | .latch m => ⟨s.governor.latch m, s.running⟩
  | .resume now by' => ⟨(s.governor.resume now by').2, s.running⟩

/-- A `begin_task` that succeeds does so while no other activation is running. -/
def BeginsAlone (s : Engines) : Action → Prop
  | .task t (.beginTask now ref) =>
      t ∉ s.running → (s.governor.beginTask now ref).1 = .ok () → s.running = []
  | _ => True

/-- A `begin_task` is not called while an unfinished task has the governor back
at `IDLE`. -/
def OutsideWindow (s : Engines) : Action → Prop
  | .task t (.beginTask _ _) =>
      t ∉ s.running → ¬ (s.running ≠ [] ∧ s.governor.state = .idle)
  | _ => True

/-- No activation steps the governor back to `IDLE` before its `end_task`. -/
def NoStepBack (s : Engines) : Action → Prop
  | .task t (.step _ next) => t ∈ s.running → next ≠ .idle
  | _ => True

/-- At most one activation runs, it is the task in flight, and nothing is in
flight without it. -/
structure Exclusive (s : Engines) : Prop where
  coherent : s.governor.Coherent
  single : s.running = [] ∨ ∃ t, s.running = [t]
  inFlight : s.running ≠ [] → s.governor.InFlight

theorem exclusive_new (budget : Int) (deadline : Seconds) : (new budget deadline).Exclusive where
  coherent := coherent_new budget deadline
  single := .inl rfl
  inFlight h := absurd rfl h

/-! ## One step -/

/-- With one activation running, the guard admits a second one exactly at `IDLE`. -/
theorem Exclusive.beginTask_ok_iff {s : Engines} (h : s.Exclusive) (hr : s.running ≠ [])
    (now : Seconds) (ref : Option String) :
    (s.governor.beginTask now ref).1 = .ok () ↔ s.governor.state = .idle := by
  rw [ExecutionGovernor.beginTask_ok_iff]
  have ht := h.coherent.transient (h.inFlight hr)
  exact ⟨fun hs => hs.resolve_right ht.2.1, .inl⟩

/-- On an exclusive system, beginning alone and staying outside the window are
the same condition on the next action. -/
theorem Exclusive.beginsAlone_iff {s : Engines} (h : s.Exclusive) (a : Action) :
    s.BeginsAlone a ↔ s.OutsideWindow a := by
  match a with
  | .task t (.beginTask now ref) =>
      constructor
      · rintro hb ht ⟨hr, hs⟩
        exact hr (hb ht ((h.beginTask_ok_iff hr now ref).2 hs))
      · intro hw ht hok
        by_contra hr
        exact hw ht ⟨hr, (h.beginTask_ok_iff hr now ref).1 hok⟩
  | .task _ (.step _ _) | .task _ (.consumeStep _ _) | .task _ (.endTask _) =>
      exact Iff.rfl
  | .latch _ | .resume _ _ => exact Iff.rfl

theorem Exclusive.beginTask {s : Engines} (h : s.Exclusive) {t : Nat} {now : Seconds}
    {ref : Option String} (ha : s.BeginsAlone (.task t (.beginTask now ref))) :
    (s.taskCall t (.beginTask now ref)).Exclusive := by
  simp only [taskCall]
  split
  · exact h
  · rename_i ht
    split
    · rename_i hok
      rw [ha ht hok]
      refine ⟨h.coherent.beginTask now ref, .inr ⟨t, rfl⟩, fun _ => ?_⟩
      rcases s.governor.beginTask_cases now ref with ⟨hr, -⟩ | ⟨-, he⟩
      · rw [hok] at hr
        exact absurd hr (not_raises_ok _)
      · simp [he, InFlight]
    · rename_i e herr
      refine ⟨h.coherent.beginTask now ref, h.single, fun hr => ?_⟩
      rcases s.governor.beginTask_cases now ref with ⟨-, he⟩ | ⟨hs, -⟩
      · simpa [he] using h.inFlight hr
      · rw [ExecutionGovernor.beginTask_ok_iff.2 hs] at herr
        cases herr

theorem Exclusive.endTask {s : Engines} (h : s.Exclusive) (t : Nat) (now : Seconds) :
    (s.taskCall t (.endTask now)).Exclusive := by
  simp only [taskCall]
  split
  · rename_i ht
    have he : s.running.erase t = [] := by
      rcases h.single with hr | ⟨u, hr⟩
      · rw [hr] at ht
        cases ht
      · rw [hr] at ht ⊢
        rw [List.mem_singleton.1 ht]
        simp
    rw [he]
    exact ⟨.endTask now, .inl rfl, fun hr => absurd rfl hr⟩
  · exact h

/-- A step on which every successful begin is alone keeps the system exclusive. -/
theorem Exclusive.exec {s : Engines} (h : s.Exclusive) {a : Action} (ha : s.BeginsAlone a) :
    (s.exec a).Exclusive := by
  match a with
  | .task t (.beginTask now ref) => exact h.beginTask ha
  | .task t (.step now next) =>
      simp only [Engines.exec, taskCall]
      split
      · exact ⟨h.coherent.step now next, h.single, fun hr => (inFlight_step now next).2 (h.inFlight hr)⟩
      · exact h
  | .task t (.consumeStep now count) =>
      simp only [Engines.exec, taskCall]
      split
      · exact ⟨h.coherent.consumeStep now count, h.single,
          fun hr => (inFlight_consumeStep now count).2 (h.inFlight hr)⟩
      · exact h
  | .task t (.endTask now) => exact h.endTask t now
  | .latch m =>
      exact ⟨h.coherent.latch m, h.single, fun hr => (inFlight_latch m).2 (h.inFlight hr)⟩
  | .resume now by' =>
      exact ⟨h.coherent.resume now by', h.single,
        fun hr => (inFlight_resume now by').2 (h.inFlight hr)⟩

/-- The running activation keeps the governor off `IDLE` while it does not step back. -/
theorem Exclusive.busy_exec {s : Engines} (h : s.Exclusive)
    (hbusy : s.running ≠ [] → s.governor.state ≠ .idle) {a : Action} (ha : s.NoStepBack a) :
    (s.exec a).running ≠ [] → (s.exec a).governor.state ≠ .idle := by
  match a with
  | .task t (.beginTask now ref) =>
      simp only [Engines.exec, taskCall]
      split
      · exact hbusy
      · split
        · rename_i hok
          intro _
          rcases s.governor.beginTask_cases now ref with ⟨hr, -⟩ | ⟨-, he⟩
          · rw [hok] at hr
            exact absurd hr (not_raises_ok _)
          · rw [he]
            exact fun hs => by cases hs
        · rename_i e herr
          intro hr
          rcases s.governor.beginTask_cases now ref with ⟨-, he⟩ | ⟨hs, -⟩
          · rw [he]; exact hbusy hr
          · rw [ExecutionGovernor.beginTask_ok_iff.2 hs] at herr
            cases herr
  | .task t (.step now next) =>
      simp only [Engines.exec, taskCall]
      split
      · rename_i ht
        intro hr
        rcases s.governor.step_cases now next with ⟨-, he⟩ | ⟨-, -, he⟩
        · rw [he]; exact hbusy hr
        · rw [he]; exact ha ht
      · exact hbusy
  | .task t (.consumeStep now count) =>
      simp only [Engines.exec, taskCall]
      split
      · obtain ⟨used, he⟩ := s.governor.consumeStep_eq now count
        rw [he]
        exact hbusy
      · exact hbusy
  | .task t (.endTask now) =>
      simp only [Engines.exec, taskCall]
      split
      · rename_i ht
        intro hr
        rcases h.single with hn | ⟨u, hu⟩
        · rw [hn] at ht
          cases ht
        · rw [hu] at ht hr
          rw [List.mem_singleton.1 ht] at hr
          simp at hr
      · exact hbusy
  | .latch m =>
      intro hr
      rcases s.governor.latch_cases m with ⟨-, he⟩ | ⟨-, hf, -⟩ | ⟨-, -, he⟩
      · rw [Engines.exec, he]; exact hbusy hr
      · exact absurd (h.inFlight hr) hf
      · rw [Engines.exec, he]; exact hbusy hr
  | .resume now by' =>
      intro hr
      rcases s.governor.resume_cases now by' with ⟨-, he⟩ | ⟨-, hs, -⟩
      · rw [Engines.exec, he]; exact hbusy hr
      · have ht := h.coherent.transient (h.inFlight hr)
        rcases hs with hs | hs
        · exact absurd hs ht.1
        · exact absurd hs ht.2.1

/-! ## Runs -/

/-- Along every interleaving each successful `begin_task` finds no other
activation between its own `begin_task` and `end_task`, exactly when none is
called in the window between an unfinished task's step back to `IDLE` and its
`end_task`.  Interleavings in which no activation steps back have no window. -/
theorem mutual_exclusion_iff (budget : Int) (deadline : Seconds) (as : List Action) :
    (Meets exec BeginsAlone (new budget deadline) as ↔
      Meets exec OutsideWindow (new budget deadline) as) ∧
    (Meets exec NoStepBack (new budget deadline) as →
      Meets exec BeginsAlone (new budget deadline) as) := by
  constructor
  · exact meets_congr (fun _ _ h ha => h.exec ha) (fun _ a h => h.beginsAlone_iff a)
      (exclusive_new budget deadline)
  · -- Without a step back the running activation keeps the governor off `IDLE`.
    have alone : ∀ (s : Engines) (a : Action), s.Exclusive →
        (s.running ≠ [] → s.governor.state ≠ .idle) → s.BeginsAlone a := by
      intro s a h hbusy
      rw [h.beginsAlone_iff]
      match a with
      | .task t (.beginTask now ref) => exact fun _ hw => hbusy hw.1 hw.2
      | .task _ (.step _ _) | .task _ (.consumeStep _ _) | .task _ (.endTask _) => trivial
      | .latch _ | .resume _ _ => trivial
    refine Meets.imp (I := fun s => s.Exclusive ∧ (s.running ≠ [] → s.governor.state ≠ .idle))
      ?_ ?_ ⟨exclusive_new budget deadline, fun h => absurd rfl h⟩
    · rintro s a ⟨h, hbusy⟩ ha
      exact ⟨h.exec (alone s a h hbusy), h.busy_exec hbusy ha⟩
    · rintro s a ⟨h, hbusy⟩ _
      exact alone s a h hbusy

/-- Two activations.  The first begins, is refused by the policy gate and steps
back to `IDLE`; before its `end_task` the second begins. -/
theorem second_task_begins_in_window :
    ¬ Meets exec BeginsAlone (new 50 120)
        [.task 0 (.beginTask 0 none), .task 0 (.step 1 .gating), .task 0 (.step 2 .idle),
          .task 1 (.beginTask 3 none)] := by
  intro h
  have hrun := h.2.2.2.1
  exact absurd (hrun (by decide +kernel) (by decide +kernel)) (by decide +kernel)

/-- An interleaving without a step back: the second activation is refused while
the first runs and begins after it has ended. -/
theorem second_task_waits_without_step_back :
    Meets exec NoStepBack (new 50 120)
        [.task 0 (.beginTask 0 none), .task 0 (.step 1 .gating), .task 1 (.beginTask 2 none),
          .task 0 (.endTask 3), .task 1 (.beginTask 4 none)] ∧
      Meets exec BeginsAlone (new 50 120)
        [.task 0 (.beginTask 0 none), .task 0 (.step 1 .gating), .task 1 (.beginTask 2 none),
          .task 0 (.endTask 3), .task 1 (.beginTask 4 none)] := by
  have hok : Meets exec NoStepBack (new 50 120)
      [.task 0 (.beginTask 0 none), .task 0 (.step 1 .gating), .task 1 (.beginTask 2 none),
        .task 0 (.endTask 3), .task 1 (.beginTask 4 none)] := by
    simp [Meets, NoStepBack]
  exact ⟨hok, (mutual_exclusion_iff 50 120 _).2 hok⟩

end Engines

end ShugoCore
