import ShugoCore.Engine.Unattended

/-!
# Idle time and the stall trigger

`evaluate` fires `task_stalled` when the governor's last progress is longer ago than
`stall_seconds`.  `execute_task` calls it before `begin_task`, so what it measures there is
the time since the last task ended, or since the operator resumed: `end_task` and `resume`
stamp progress as `begin_task` and `step` do, and `evaluate` does not ask whether a task is
in flight.

* `evaluateFires` is the list of the triggers that one `evaluate` fires.
* A `Session` is an engine with the moment since which it is idle.  One step is a task from
  begin to end, or a resume.
* `Stamped`: between tasks the last progress is that moment.  Whatever a task does, its
  `end_task` restores this.
* `idle_not_stalled_iff`: no task of a run meets the trigger exactly if none comes later
  than `stall_seconds` after that moment.
-/

namespace ShugoCore

open Py Prog Machine

/-! ## What one `evaluate` fires -/

namespace FallbackController

/-- The triggers that `_fire` is called with: in order, up to the first that halts. -/
def fired (c : FallbackController) : List (String × String) → List (String × String)
  | [] => []
  | t :: ts => if c.severityOf t.1 = .halt then [t] else t :: c.fired ts

/-- What `evaluate` fires. -/
def evaluateFires (c : FallbackController) (now : Seconds) (breakers : Nat)
    (backlog : Option Nat) : List (String × String) :=
  if c.mode = .normal then c.fired (c.triggers now breakers backlog) else []

theorem fired_congr {c c' : FallbackController} (h : ∀ kind, c.severityOf kind = c'.severityOf kind)
    (ts : List (String × String)) : c.fired ts = c'.fired ts := by
  induction ts with
  | nil => rfl
  | cons t ts ih => rw [fired, fired, h, ih]

/-- The controller after `evaluate` is what the fired triggers make of it, one by one. -/
theorem evaluate_snd_eq_foldl (c : FallbackController) (now : Seconds) (breakers : Nat)
    (backlog : Option Nat) :
    (c.evaluate now breakers backlog).2 =
      (c.evaluateFires now breakers backlog).foldl (fun c t => (c.fire t.1 t.2).2) c := by
  have hall : ∀ (ts : List (String × String)) (c : FallbackController),
      (c.fireAll ts).2 = (c.fired ts).foldl (fun c t => (c.fire t.1 t.2).2) c := by
    intro ts
    induction ts with
    | nil => intro c; rfl
    | cons t ts ih =>
        intro c
        rw [fireAll_cons, fired]
        split
        · rfl
        · rw [ih, fired_congr (severityOf_fire c t.1 t.2), List.foldl_cons]
  rw [evaluate_snd, evaluateFires]
  split
  · exact hall _ c
  · rfl

/-- The triggers that `evaluate` looks for before the stall. -/
def earlierTriggers (c : FallbackController) (breakers : Nat) (backlog : Option Nat) :
    List (String × String) :=
  (if c.thresholds.breakersOpen ≤ breakers then
    [("circuit_breakers_open", toString breakers ++ " open circuit(s)")] else []) ++
  (match backlog with
    | some n => if c.thresholds.episodicBacklog ≤ n then
        [("episodic_backlog", toString n ++ " unconsumed Tier 1 events")] else []
    | none => [])

/-- `evaluate` fires `task_stalled`. -/
def StallFires (c : FallbackController) (now : Seconds) (breakers : Nat)
    (backlog : Option Nat) : Prop :=
  "task_stalled" ∈ (c.evaluateFires now breakers backlog).map Prod.fst

instance (c : FallbackController) (now : Seconds) (breakers : Nat) (backlog : Option Nat) :
    Decidable (c.StallFires now breakers backlog) := inferInstanceAs (Decidable (_ ∈ _))

/-- The stall trigger is looked at: the controller is in its normal mode, and no trigger
before it halts. -/
def LooksAtStall (c : FallbackController) (breakers : Nat) (backlog : Option Nat) : Prop :=
  c.mode = .normal ∧ ∀ t ∈ c.earlierTriggers breakers backlog, c.severityOf t.1 ≠ .halt

theorem kind_earlierTriggers {c : FallbackController} {breakers : Nat} {backlog : Option Nat}
    {t : String × String} (h : t ∈ c.earlierTriggers breakers backlog) : t.1 ≠ "task_stalled" := by
  unfold earlierTriggers at h
  rcases List.mem_append.1 h with h | h
  · split at h
    · rw [List.mem_singleton.1 h]
      exact ne_of_beq_false rfl
    · cases h
  · split at h
    · split at h
      · rw [List.mem_singleton.1 h]
        exact ne_of_beq_false rfl
      · cases h
    · cases h

theorem mem_fired_append {c : FallbackController} {kind : String} {ts us : List (String × String)}
    (h : ∀ t ∈ ts, t.1 ≠ kind) :
    kind ∈ (c.fired (ts ++ us)).map Prod.fst ↔
      (∀ t ∈ ts, c.severityOf t.1 ≠ .halt) ∧ kind ∈ (c.fired us).map Prod.fst := by
  induction ts with
  | nil => simp
  | cons t ts ih =>
      have hne : kind ≠ t.1 := (h t List.mem_cons_self).symm
      have ih := ih fun u hu => h u (List.mem_cons_of_mem _ hu)
      rw [List.cons_append, fired, List.forall_mem_cons]
      split
      · rename_i hhalt
        simp [hne, hhalt]
      · rename_i hgo
        rw [List.map_cons, List.mem_cons, ih]
        simp [hne, hgo]

theorem stallFires_iff (c : FallbackController) (now : Seconds) (breakers : Nat)
    (backlog : Option Nat) :
    c.StallFires now breakers backlog ↔ c.LooksAtStall breakers backlog ∧
      ∃ t ∈ c.governor.lastProgressAt, c.thresholds.stallSeconds < now - t := by
  have hsplit : c.triggers now breakers backlog = c.earlierTriggers breakers backlog ++
      (c.governor.secondsSinceProgress now).elim [] fun stalled =>
        if c.thresholds.stallSeconds < stalled then
          [("task_stalled", "no progress for " ++ formatTenths stalled ++ "s")] else [] := by
    simp only [triggers, earlierTriggers]
    cases c.governor.secondsSinceProgress now with
    | none => rfl
    | some stalled => rfl
  simp only [StallFires, evaluateFires, LooksAtStall]
  by_cases hmode : c.mode = .normal
  · rw [if_pos hmode, hsplit, mem_fired_append fun t ht => kind_earlierTriggers ht, and_assoc]
    simp only [hmode, true_and]
    refine and_congr_right fun _ => ?_
    rw [ExecutionGovernor.secondsSinceProgress]
    cases c.governor.lastProgressAt with
    | none => simp [fired]
    | some t =>
        dsimp only [Option.map_some, Option.elim_some]
        split
        · rename_i hlate
          simp [fired, hlate]
        · rename_i hearly
          simp [fired, not_lt.1 hearly]
  · simp [hmode]

end FallbackController

namespace Engine

variable {σ φ : Type} [Builtins φ]

/-! ## Sessions -/

/-- An engine, and the moment since which it is idle: the end of its last task, or the
last resume. -/
structure Session (σ : Type) where
  world : World σ
  idleSince : Option Seconds := none

/-- What happens to an engine: a task is executed, in some environment whose other threads
leave the governor's progress alone, or the operator resumes. -/
inductive Turn (σ φ : Type) where
  | task (env : Env σ φ)
      (alone : ∀ w, (env.interfere w).governor.lastProgressAt = w.governor.lastProgressAt)
      (task : Obj φ)
  | resume (now : Seconds) (resumedBy : String)

/-- The call is `end_task`. -/
def Call.isEnd : Call φ → Bool
  | .endTask => true
  | _ => false

/-- When a task ended, by its last `end_task`. -/
def endedAt (events : List (Event σ φ)) : Option Seconds :=
  events.foldl (fun t e => if e.call.isEnd then some e.world.monotonic else t) none

namespace Session

/-- The session after a turn. -/
def step (s : Session σ) : Turn σ φ → Session σ
  | .task env _ task =>
      let r := (executeTask env task ⟨s.world, []⟩).2
      ⟨r.world, (endedAt r.events).or s.idleSince⟩
  | .resume now resumedBy =>
      let r := s.world.fallbacks.resume now resumedBy
      ⟨{ s.world with fallbacks := r.2 }, match r.1 with
        | .ok _ => some now
        | .error _ => s.idleSince⟩

/-- The `evaluate` at the top of the task does not fire `task_stalled`. -/
def NotStalled (s : Session σ) : Turn σ φ → Prop
  | .task env _ _ =>
      let w := env.interfere s.world
      ¬ w.fallbacks.StallFires w.monotonic w.breakers w.backlog
  | .resume _ _ => True

/-- The task is not late: `stall_seconds` have not passed since the engine became idle, or
the stall trigger is not looked at. -/
def InTime (s : Session σ) : Turn σ φ → Prop
  | .task env _ _ =>
      let w := env.interfere s.world
      w.fallbacks.LooksAtStall w.breakers w.backlog →
        ∀ t ∈ s.idleSince, w.monotonic - t ≤ w.fallbacks.thresholds.stallSeconds
  | .resume _ _ => True

/-- Between tasks, the last progress is when the engine became idle. -/
def Stamped (s : Session σ) : Prop := s.world.governor.lastProgressAt = s.idleSince

/-- A fresh engine, with any configuration. -/
def Fresh (s : Session σ) : Prop :=
  s.idleSince = none ∧ ∃ budget deadline thresholds severities,
    s.world.fallbacks = .new budget deadline thresholds severities

end Session

/-! ## What a task leaves of the progress stamp -/

omit [Builtins φ] in
theorem endedAt_concat (events : List (Event σ φ)) (e : Event σ φ) :
    endedAt (events ++ [e]) =
      if e.call.isEnd then some e.world.monotonic else endedAt events := by
  rw [endedAt, List.foldl_append]
  rfl

/-- The progress stamp is the end of the last task so far, or else the one from before. -/
def StampedSince (since : Option Seconds) (s : Run σ φ) : Prop :=
  s.world.governor.lastProgressAt = (endedAt s.events).or since

theorem lastProgressAt_latch (g : ExecutionGovernor) (m : Latch) :
    (g.latch m).lastProgressAt = g.lastProgressAt := by
  simp only [ExecutionGovernor.latch]
  split
  · rfl
  · split <;> rfl

theorem lastProgressAt_evaluate (c : FallbackController) (now : Seconds) (breakers : Nat)
    (backlog : Option Nat) :
    (c.evaluate now breakers backlog).2.governor.lastProgressAt = c.governor.lastProgressAt := by
  rw [FallbackController.evaluate_snd_eq_foldl]
  induction c.evaluateFires now breakers backlog generalizing c with
  | nil => rfl
  | cons t ts ih =>
      rw [List.foldl_cons, ih, FallbackController.fire_snd]
      exact lastProgressAt_latch _ _

theorem lastProgressAt_reportViolation (c : FallbackController) (kind detail : String) :
    (c.reportViolation kind detail).2.governor.lastProgressAt = c.governor.lastProgressAt := by
  rw [FallbackController.reportViolation_snd]
  split
  · exact lastProgressAt_latch _ _
  · rfl

section

variable {env : Env σ φ} {since : Option Seconds}
  (alone : ∀ w, (env.interfere w).governor.lastProgressAt = w.governor.lastProgressAt)

include alone

/-- A call outside the task does not stamp progress. -/
theorem stamped_ask {c : Call φ} (hc : c.onTask = false) :
    Moves (Stays (StampedSince since)) (env.ask c) := by
  have hend : c.isEnd = false := by cases c <;> first | rfl | cases hc
  have hanswer : ∀ w, (env.answer w c).2.governor.lastProgressAt = w.governor.lastProgressAt := by
    intro w
    cases c with
    | evaluate => exact lastProgressAt_evaluate _ _ _ _
    | reportViolation kind detail => exact lastProgressAt_reportViolation _ _ _
    | beginTask _ | step _ | consumeStep _ | endTask => cases hc
    | _ => rfl
  refine moves_ask fun s hs => ?_
  simp only [StampedSince] at hs ⊢
  have hevents : (env.ask c s).2.events =
    s.events ++ [⟨env.interfere s.world, c, (env.answer (env.interfere s.world) c).1⟩] := rfl
  rw [hevents, endedAt_concat, if_neg (by simp [hend]), ← hs]
  exact (hanswer _).trans (alone _)

/-- A refused `begin_task` leaves the governor as it was. -/
theorem wp_ask_beginTask {ref : Option String} {s : Run σ φ} (hs : StampedSince since s) :
    wp (env.ask (.beginTask ref)) (fun _ _ => True)
      (fun e t => (∃ g, e = .governor g) ∧ StampedSince since t) s := by
  let w := env.interfere s.world
  show Ends _ _ ((w.governor.beginTask w.monotonic ref).1.mapError Raised.governor, _)
  rcases w.governor.beginTask_cases w.monotonic ref with ⟨⟨e, he⟩, hkept⟩ | ⟨hstate, -⟩
  · rw [he]
    refine ⟨⟨e, rfl⟩, ?_⟩
    simp only [StampedSince] at hs ⊢
    show (w.governor.beginTask w.monotonic ref).2.lastProgressAt = (endedAt (s.events ++ [_])).or _
    rw [hkept, endedAt_concat, alone, hs]
    rfl
  · rw [ExecutionGovernor.beginTask_ok_iff.2 hstate]
    exact True.intro

omit alone in
/-- Whatever happened before it, `end_task` stamps. -/
theorem stamped_endTask (s : Run σ φ) : Reaches (StampedSince since) (env.ask .endTask) s := by
  show some _ = (endedAt (s.events ++ [_])).or since
  rw [endedAt_concat]
  rfl

/-- A task leaves the moment it ended as the last progress. -/
theorem stamped_executeTask (task : Obj φ) {s : Run σ φ} (hs : StampedSince since s) :
    StampedSince since (executeTask env task s).2 :=
  (restores_executeTask (stamped_ask alone) (wp_ask_beginTask alone) stamped_endTask task hs).final

end

/-! ## Runs of tasks -/

namespace Session

theorem stamped_step {s : Session σ} (h : Stamped s) (turn : Turn σ φ) : Stamped (s.step turn) := by
  cases turn with
  | task env alone task =>
      exact stamped_executeTask alone task (s := ⟨s.world, []⟩) h
  | resume now resumedBy =>
      rcases s.world.fallbacks.resume_cases now resumedBy with
        ⟨⟨e, he⟩, hkept⟩ | ⟨hok, -, -, -, hstamp⟩
      · simp only [Stamped, step]
        dsimp only [World.governor]
        rw [he, hkept]
        exact h
      · simp only [Stamped, step]
        dsimp only [World.governor]
        rw [hok, hstamp]

omit [Builtins φ] in
/-- What `evaluate` fires is decided by the idle time. -/
theorem notStalled_iff {s : Session σ} (h : Stamped s) (turn : Turn σ φ) :
    s.NotStalled turn ↔ s.InTime turn := by
  cases turn with
  | resume now resumedBy => exact Iff.rfl
  | task env alone task =>
      unfold NotStalled InTime
      dsimp only
      rw [FallbackController.stallFires_iff, alone, h, not_and]
      refine imp_congr_right fun _ => ?_
      simp only [not_exists, not_and, not_lt]

/-- For every run of tasks and resumes, whatever the tasks do: `evaluate` never fires
`task_stalled` exactly if no task comes later than `stall_seconds` after the engine became
idle, unless the stall trigger is not looked at. -/
theorem idle_not_stalled_iff {s : Session σ} (h : Fresh s) (turns : List (Turn σ φ)) :
    Meets step NotStalled s turns ↔ Meets step InTime s turns := by
  have hstart : Stamped s := by
    obtain ⟨hsince, budget, deadline, thresholds, severities, hnew⟩ := h
    rw [Stamped, hsince, World.governor, hnew]
    rfl
  exact meets_congr (fun _ turn hs _ => stamped_step hs turn) (fun _ turn hs => notStalled_iff hs turn)
    hstart

/-- A fresh engine with the default thresholds. -/
def rested : Session Unit := ⟨consenting ⟨false, false, false, false⟩ 1, none⟩

/-- A task for which the models propose no action, at a reading of the clock. -/
def quietTask (now : Seconds) : Turn Unit WholeFloat :=
  .task { obliging ⟨false, false, false, false⟩ [] with
    interfere := fun w => { w with monotonic := now } } (fun _ => rfl) []

/-- Two tasks one second apart. -/
theorem idle_not_stalled_second :
    Fresh rested ∧ Meets step NotStalled rested [quietTask 0, quietTask 1] := by
  have hfresh : Fresh rested := ⟨rfl, 1, 0, {}, [], rfl⟩
  have hended : (rested.step (quietTask 0)).idleSince = some 0 := by decide +kernel
  refine ⟨hfresh, (idle_not_stalled_iff hfresh _).2 ⟨fun _ => nofun, fun _ t ht => ?_, True.intro⟩⟩
  obtain rfl := Option.some.inj (hended.symm.trans ht)
  decide +kernel

/-- A task that starts 121 seconds after the last one ended meets the stall trigger, and
the engine is in SAFE_STATE. -/
theorem idle_gap_is_a_stall :
    ¬ Meets step NotStalled rested [quietTask 0, quietTask 121] ∧
      (run step rested [quietTask 0, quietTask 121]).world.fallbacks.mode = .safeState := by
  constructor
  · rintro ⟨-, h, -⟩
    exact h (by decide +kernel)
  · decide +kernel

end Session

end Engine

end ShugoCore
