import ShugoCore.Clock
import ShugoCore.Lib.Run

/-!
# The execution governor

`state_machine.py`.  The governor holds a transient state, which follows the
task in flight through the transition matrix, and a latch, which the fallback
controller sets.  `mode` reports the latch first.  The two are separate fields:
a latch set while a task is in flight leaves the transient state alone, and
`end_task` copies it over.

Every call takes the reading of `time.monotonic()` it makes, where it makes one.
The readings of a run are arbitrary, so a deadline check that races with another
thread is a check with another reading.  A call that raises returns the
exception together with the state it leaves behind, since `consume_step` charges
the budget before it raises.  The audit entries the governor writes are best
effort, cannot fail a call, and are not part of its state.
-/

namespace ShugoCore

/-- `AgentState`. -/
inductive AgentState where
  | idle | observing | gating | deciding | executing | evaluating | consolidating
  | planning | physicalExecuting | emergencyStop | paused | safeState | halted
deriving DecidableEq, Repr

namespace AgentState

/-- The value of the enumeration member, as error texts show it. -/
def value : AgentState → String
  | idle => "idle"
  | observing => "observing"
  | gating => "gating"
  | deciding => "deciding"
  | executing => "executing"
  | evaluating => "evaluating"
  | consolidating => "consolidating"
  | planning => "planning"
  | physicalExecuting => "physical_executing"
  | emergencyStop => "emergency_stop"
  | paused => "paused"
  | safeState => "safe_state"
  | halted => "halted"

/-- The row of `_ALLOWED` for a state. -/
def allowed : AgentState → List AgentState
  | idle => [observing]
  | observing => [gating, idle]
  | gating => [deciding, idle]
  | deciding => [executing, planning, idle]
  | planning => [physicalExecuting, idle, emergencyStop]
  | physicalExecuting => [evaluating, idle, emergencyStop]
  | executing => [evaluating, idle, emergencyStop]
  | evaluating => [idle]
  | consolidating => [idle]
  | emergencyStop => [idle]
  | safeState => [observing]
  | paused => []
  | halted => []

/-- A state a task in flight can be in: none of the three safe modes. -/
def Transient (s : AgentState) : Prop := s ≠ paused ∧ s ≠ safeState ∧ s ≠ halted

instance (s : AgentState) : Decidable s.Transient :=
  inferInstanceAs (Decidable (_ ∧ _ ∧ _))

/-- The matrix never leads into a safe mode. -/
theorem transient_of_allowed {s next : AgentState} (h : next ∈ s.allowed) : next.Transient := by
  cases s <;> simp only [allowed, List.mem_cons, List.not_mem_nil, or_false] at h <;>
    rcases h with rfl | rfl | rfl <;> decide

/-- A paused or halted governor has no way out through the matrix. -/
theorem not_allowed_of_blocking {s next : AgentState} (h : s = paused ∨ s = halted) :
    next ∉ s.allowed := by
  rcases h with rfl | rfl <;> simp [allowed]

end AgentState

/-- The three modes `_latch` is called with. -/
inductive Latch where
  | paused | safeState | halted
deriving DecidableEq, Repr

/-- The agent state a latch stands for. -/
def Latch.state : Latch → AgentState
  | paused => .paused
  | safeState => .safeState
  | halted => .halted

/-- `GovernorError`, one constructor for each place that raises it. -/
inductive GovernorError where
  | paused
  | halted
  | reentrant (state : AgentState)
  | illegalTransition (source target : AgentState)
  | budgetExhausted (used budget : Nat)
  | deadlineExceeded
  | unattributed
  | cannotResume (state : AgentState)
deriving DecidableEq, Repr

/-- The text of the exception. -/
def GovernorError.message : GovernorError → String
  | paused => "execution is paused by the fallback controller"
  | halted => "execution is halted; process restart required"
  | reentrant s => "re-entrant execution blocked (state=" ++ s.value ++ ")"
  | illegalTransition s t => "illegal transition " ++ s.value ++ " -> " ++ t.value
  | budgetExhausted used budget =>
      "step budget exhausted (" ++ toString used ++ " > " ++ toString budget ++ ")"
  | deadlineExceeded => "task deadline exceeded"
  | unattributed => "resume requires operator attribution ('resumed_by')"
  | cannotResume s => "cannot resume from state=" ++ s.value

/-- A call raised. -/
def Raises {ε α : Type} (r : Except ε α) : Prop := ∃ e, r = .error e

instance {ε α : Type} (r : Except ε α) : Decidable (Raises r) :=
  match r with
  | .error e => isTrue ⟨e, rfl⟩
  | .ok _ => isFalse (by rintro ⟨_, h⟩; cases h)

@[simp] theorem raises_error {ε α : Type} (e : ε) : Raises (.error e : Except ε α) := ⟨e, rfl⟩

@[simp] theorem not_raises_ok {ε α : Type} (a : α) : ¬ Raises (.ok a : Except ε α) := by
  rintro ⟨_, h⟩
  cases h

/-- The fields of `ExecutionGovernor`. -/
structure ExecutionGovernor where
  stepBudget : Nat
  taskDeadlineSeconds : Seconds
  state : AgentState := .idle
  latched : Option Latch := none
  taskStartedAt : Option Seconds := none
  stepsUsed : Nat := 0
  lastProgressAt : Option Seconds := none
  currentTask : Option String := none
deriving DecidableEq, Repr

namespace ExecutionGovernor

/-- `__init__`, with its clamps. -/
def new (stepBudget : Int) (taskDeadlineSeconds : Seconds) : ExecutionGovernor where
  stepBudget := (max 1 stepBudget).toNat
  taskDeadlineSeconds := max 0 taskDeadlineSeconds

/-- A call on the governor: what it returns or raises, and the state after it. -/
abbrev Result := Except GovernorError Unit × ExecutionGovernor

/-- A task is in flight. -/
def InFlight (g : ExecutionGovernor) : Prop := g.taskStartedAt ≠ none

instance (g : ExecutionGovernor) : Decidable g.InFlight :=
  inferInstanceAs (Decidable (_ ≠ _))

def mode (g : ExecutionGovernor) : AgentState :=
  match g.latched with
  | some m => m.state
  | none => g.state

def secondsSinceProgress (g : ExecutionGovernor) (now : Seconds) : Option Seconds :=
  g.lastProgressAt.map (now - ·)

/-! ## The task lifecycle -/

def beginTask (g : ExecutionGovernor) (now : Seconds) (taskRef : Option String) : Result :=
  if g.state = .paused then (.error .paused, g)
  else if g.state = .halted then (.error .halted, g)
  else if g.state ≠ .idle ∧ g.state ≠ .safeState then (.error (.reentrant g.state), g)
  else
    (.ok (), { g with
      state := .observing
      taskStartedAt := some now
      stepsUsed := 0
      lastProgressAt := some now
      currentTask := taskRef })

/-- The test of `_check_deadline`.  A deadline of zero is no deadline. -/
def deadlinePassed (g : ExecutionGovernor) (now : Seconds) : Bool :=
  match g.taskStartedAt with
  | none => false
  | some started => g.taskDeadlineSeconds ≠ 0 && now - started > g.taskDeadlineSeconds

def step (g : ExecutionGovernor) (now : Seconds) (next : AgentState) : Result :=
  if g.deadlinePassed now then (.error .deadlineExceeded, g)
  else if next ∉ g.state.allowed then (.error (.illegalTransition g.state next), g)
  else (.ok (), { g with state := next, lastProgressAt := some now })

def consumeStep (g : ExecutionGovernor) (now : Seconds) (count : Int) : Result :=
  if g.deadlinePassed now then (.error .deadlineExceeded, g)
  else
    match g.taskStartedAt with
    | none => (.ok (), g)
    | some _ =>
        let used := g.stepsUsed + (max 1 count).toNat
        -- The charge stays on the task even when it exceeds the budget.
        if used > g.stepBudget then
          (.error (.budgetExhausted used g.stepBudget), { g with stepsUsed := used })
        else (.ok (), { g with stepsUsed := used })

def endTask (g : ExecutionGovernor) (now : Seconds) : ExecutionGovernor :=
  { g with
    state := match g.latched with
      | some m => m.state
      | none => .idle
    taskStartedAt := none
    stepsUsed := 0
    currentTask := none
    lastProgressAt := some now }

/-! ## The latched modes -/

/-- `_latch`.  A halted transient state ignores the request, and a task in
flight keeps its transient state. -/
def latch (g : ExecutionGovernor) (m : Latch) : ExecutionGovernor :=
  if g.state = .halted then g
  else
    match g.taskStartedAt with
    | none => { g with latched := some m, state := m.state }
    | some _ => { g with latched := some m }

def pause (g : ExecutionGovernor) : ExecutionGovernor := g.latch .paused

def safeState (g : ExecutionGovernor) : ExecutionGovernor := g.latch .safeState

def halt (g : ExecutionGovernor) : ExecutionGovernor := g.latch .halted

def resume (g : ExecutionGovernor) (now : Seconds) (resumedBy : String) : Result :=
  if resumedBy = "" then (.error .unattributed, g)
  else if g.state ≠ .paused ∧ g.state ≠ .safeState then (.error (.cannotResume g.state), g)
  else (.ok (), { g with latched := none, state := .idle, lastProgressAt := some now })

/-! ## Runs -/

/-- A call on the governor, with the clock reading it makes. -/
inductive Op where
  | beginTask (now : Seconds) (taskRef : Option String)
  | step (now : Seconds) (next : AgentState)
  | consumeStep (now : Seconds) (count : Int)
  | endTask (now : Seconds)
  | pause
  | safeState
  | halt
  | resume (now : Seconds) (resumedBy : String)
deriving DecidableEq, Repr

/-- What a call returns or raises, and the state after it. -/
def call (g : ExecutionGovernor) : Op → Result
  | .beginTask now ref => g.beginTask now ref
  | .step now next => g.step now next
  | .consumeStep now count => g.consumeStep now count
  | .endTask now => (.ok (), g.endTask now)
  | .pause => (.ok (), g.pause)
  | .safeState => (.ok (), g.safeState)
  | .halt => (.ok (), g.halt)
  | .resume now by' => g.resume now by'

/-- The state after a call. -/
def exec (g : ExecutionGovernor) (op : Op) : ExecutionGovernor := (g.call op).2

/-- The calls a task makes.  The others belong to the fallback controller and
the operator. -/
inductive TaskCall where
  | beginTask (now : Seconds) (taskRef : Option String)
  | step (now : Seconds) (next : AgentState)
  | consumeStep (now : Seconds) (count : Int)
  | endTask (now : Seconds)
deriving DecidableEq, Repr

def TaskCall.op : TaskCall → Op
  | beginTask now ref => .beginTask now ref
  | step now next => .step now next
  | consumeStep now count => .consumeStep now count
  | endTask now => .endTask now

/-! ## What each call can do

One lemma for each call.  They say when it succeeds and which fields it
changes, and the proofs about runs use them instead of the definitions. -/

/-- `begin_task` succeeds exactly from `IDLE` and `SAFE_STATE`. -/
theorem beginTask_ok_iff {g : ExecutionGovernor} {now : Seconds} {ref : Option String} :
    (g.beginTask now ref).1 = .ok () ↔ g.state = .idle ∨ g.state = .safeState := by
  simp only [beginTask]
  cases hs : g.state <;> simp

theorem beginTask_raises_iff {g : ExecutionGovernor} {now : Seconds} {ref : Option String} :
    Raises (g.beginTask now ref).1 ↔ g.state ≠ .idle ∧ g.state ≠ .safeState := by
  simp only [beginTask]
  cases hs : g.state <;> simp

/-- A `begin_task` either raises and changes nothing, or starts a task. -/
theorem beginTask_cases (g : ExecutionGovernor) (now : Seconds) (ref : Option String) :
    (Raises (g.beginTask now ref).1 ∧ (g.beginTask now ref).2 = g) ∨
    ((g.state = .idle ∨ g.state = .safeState) ∧ (g.beginTask now ref).2 =
      { g with
        state := .observing
        taskStartedAt := some now
        stepsUsed := 0
        lastProgressAt := some now
        currentTask := ref }) := by
  simp only [beginTask]
  cases hs : g.state <;> simp

/-- A `step` either raises and changes nothing, or follows the matrix. -/
theorem step_cases (g : ExecutionGovernor) (now : Seconds) (next : AgentState) :
    (Raises (g.step now next).1 ∧ (g.step now next).2 = g) ∨
    ((g.step now next).1 = .ok () ∧ next ∈ g.state.allowed ∧
      (g.step now next).2 = { g with state := next, lastProgressAt := some now }) := by
  simp only [step]
  split
  · exact .inl ⟨raises_error _, rfl⟩
  · split
    · exact .inl ⟨raises_error _, rfl⟩
    · rename_i hn
      exact .inr ⟨rfl, by simpa using hn, rfl⟩

/-- `consume_step` changes the charge and nothing else. -/
theorem consumeStep_eq (g : ExecutionGovernor) (now : Seconds) (count : Int) :
    ∃ used, (g.consumeStep now count).2 = { g with stepsUsed := used } := by
  unfold consumeStep
  split
  · exact ⟨g.stepsUsed, rfl⟩
  · split
    · exact ⟨g.stepsUsed, rfl⟩
    · dsimp only
      split
      · exact ⟨_, rfl⟩
      · exact ⟨_, rfl⟩

/-- A latch request either meets a halted state and is dropped, or is recorded,
and reaches the transient state when no task is in flight. -/
theorem latch_cases (g : ExecutionGovernor) (m : Latch) :
    (g.state = .halted ∧ g.latch m = g) ∨
    (g.state ≠ .halted ∧ ¬ g.InFlight ∧ g.latch m = { g with latched := some m, state := m.state }) ∨
    (g.state ≠ .halted ∧ g.InFlight ∧ g.latch m = { g with latched := some m }) := by
  simp only [latch, InFlight]
  split
  · exact .inl ⟨‹_›, rfl⟩
  · split
    · exact .inr (.inl ⟨‹_›, by simp [*], rfl⟩)
    · exact .inr (.inr ⟨‹_›, by simp [*], rfl⟩)

/-- A `resume` either raises and changes nothing, or lifts a pause or a safe state. -/
theorem resume_cases (g : ExecutionGovernor) (now : Seconds) (by' : String) :
    (Raises (g.resume now by').1 ∧ (g.resume now by').2 = g) ∨
    ((g.resume now by').1 = .ok () ∧ (g.state = .paused ∨ g.state = .safeState) ∧
      (g.resume now by').2 =
        { g with latched := none, state := .idle, lastProgressAt := some now }) := by
  simp only [resume]
  split
  · exact .inl ⟨raises_error _, rfl⟩
  · split
    · exact .inl ⟨raises_error _, rfl⟩
    · rename_i hs
      refine .inr ⟨rfl, ?_, rfl⟩
      by_cases hp : g.state = .paused
      · exact .inl hp
      · exact .inr (by_contra fun h => hs ⟨hp, h⟩)

/-- `resume` raises in every state that is neither paused nor safe. -/
theorem resume_raises {g : ExecutionGovernor} {now : Seconds} {by' : String}
    (hp : g.state ≠ .paused) (hs : g.state ≠ .safeState) : Raises (g.resume now by').1 := by
  rcases g.resume_cases now by' with ⟨h, -⟩ | ⟨-, h | h, -⟩
  · exact h
  · exact absurd h hp
  · exact absurd h hs

/-- The calls of a task leave the latch alone. -/
@[simp] theorem latched_exec_task (g : ExecutionGovernor) (t : TaskCall) :
    (g.exec t.op).latched = g.latched := by
  cases t with
  | beginTask now ref =>
      rcases g.beginTask_cases now ref with ⟨-, he⟩ | ⟨-, he⟩
      · rw [TaskCall.op, exec, call, he]
      · rw [TaskCall.op, exec, call, he]
  | step now next =>
      rcases g.step_cases now next with ⟨-, he⟩ | ⟨-, -, he⟩
      · rw [TaskCall.op, exec, call, he]
      · rw [TaskCall.op, exec, call, he]
  | consumeStep now count =>
      obtain ⟨used, he⟩ := g.consumeStep_eq now count
      rw [TaskCall.op, exec, call, he]
  | endTask now => rfl

@[simp] theorem endTask_latched (g : ExecutionGovernor) (now : Seconds) :
    (g.endTask now).latched = g.latched := rfl

/-- Outside the halted state a latch request is recorded. -/
theorem latch_latched {g : ExecutionGovernor} (h : g.state ≠ .halted) (m : Latch) :
    (g.latch m).latched = some m := by
  rcases g.latch_cases m with ⟨hs, -⟩ | ⟨-, -, he⟩ | ⟨-, -, he⟩
  · exact absurd hs h
  · rw [he]
  · rw [he]

@[simp] theorem endTask_not_inFlight (g : ExecutionGovernor) (now : Seconds) :
    ¬ (g.endTask now).InFlight := by
  simp [endTask, InFlight]

/-! Only `begin_task` and `end_task` change whether a task is in flight. -/

theorem inFlight_latch {g : ExecutionGovernor} (m : Latch) :
    (g.latch m).InFlight ↔ g.InFlight := by
  rcases g.latch_cases m with ⟨-, he⟩ | ⟨-, -, he⟩ | ⟨-, -, he⟩
  · rw [he]
  · rw [he]; rfl
  · rw [he]; rfl

theorem inFlight_resume {g : ExecutionGovernor} (now : Seconds) (by' : String) :
    (g.resume now by').2.InFlight ↔ g.InFlight := by
  rcases g.resume_cases now by' with ⟨-, he⟩ | ⟨-, -, he⟩
  · rw [he]
  · rw [he]; rfl

theorem inFlight_step {g : ExecutionGovernor} (now : Seconds) (next : AgentState) :
    (g.step now next).2.InFlight ↔ g.InFlight := by
  rcases g.step_cases now next with ⟨-, he⟩ | ⟨-, -, he⟩
  · rw [he]
  · rw [he]; rfl

theorem inFlight_consumeStep {g : ExecutionGovernor} (now : Seconds) (count : Int) :
    (g.consumeStep now count).2.InFlight ↔ g.InFlight := by
  obtain ⟨used, he⟩ := g.consumeStep_eq now count
  rw [he]
  rfl

/-- After `end_task` the transient state is the latch, or `IDLE`. -/
theorem endTask_state (g : ExecutionGovernor) (now : Seconds) :
    (∃ m, g.latched = some m ∧ (g.endTask now).state = m.state) ∨
      (g.latched = none ∧ (g.endTask now).state = .idle) := by
  cases hl : g.latched with
  | none => exact .inr ⟨rfl, by simp [endTask, hl]⟩
  | some m => exact .inl ⟨m, rfl, by simp [endTask, hl]⟩

end ExecutionGovernor

end ShugoCore
