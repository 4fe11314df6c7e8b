import ShugoCore.Lib.PyBuiltins
import ShugoCore.Lib.Run
import ShugoCore.Security

/-!
# Results of compute requests

`MobileComputeBroker` of `mobile_nodes.py`.  `request_compute` publishes a request under a fresh id and
polls for the result until a deadline, and `_on_result` keeps whatever message comes in under the id
that the message names.  Calls wait at the same time, each in its thread, and what happens to them comes
in any order.

`_on_result` does not ask whether anyone waits for the id, and a call that gives up leaves behind what
came in since it last looked.  So what is kept is for waiting calls, and new to them, if and only if
every message is for a call that waits, no call gives up with a result kept for it, and no id is given
out under which one is kept (`sound_iff`).
-/

namespace ShugoCore

open Py Machine

variable {φ : Type} [Builtins φ]

/-! ## Requests that are refused -/

/-- `KNOWN_WORKLOADS`. -/
def knownWorkloads : List Str := [lit "nrr_render", lit "vision"]

/-- `node_supports_workload`. -/
def nodeSupportsWorkload (manifest : Obj φ) (workload : Str) : Bool :=
  match fetch (lit "compute_caps") manifest with
  | .dict caps =>
      match fetch (lit "workloads") caps with
      | .list workloads => workloads.any fun w =>
          match w with
          | .str s => s = sanitizeText workload 32
          | _ => false
      | _ => false
  | _ => false

/-- What the registry says about a device. -/
structure ComputeNode (φ : Type) where
  paired : Bool
  alive : Bool
  manifest : Obj φ

/-- Why a request is refused, if it is. -/
def computeRefusal (deviceId workload : Str) (node : ComputeNode φ) : Option Str :=
  let workloadName := sanitizeText workload 32
  if workloadName ∉ knownWorkloads then
    some (lit "unknown workload '" ++ workloadName ++ lit "'")
  else if !node.paired then some (lit "device not paired")
  else if !node.alive then some (lit "device heartbeat lost")
  else if !nodeSupportsWorkload node.manifest workloadName then
    some (lit "device '" ++ sanitizeText deviceId 48 ++ lit "' does not advertise workload '" ++
      workloadName ++ lit "'")
  else none

/-! ## The broker -/

/-- The id that a message is for.  What is no dictionary, or names none, is dropped. -/
def resultId : PyVal φ → Option Str
  | .dict message =>
      let requestId := strOf (getOr "request_id" (.str []) message)
      if requestId = [] then none else some requestId
  | _ => none

/-- A result that is kept, and when it came in. -/
structure KeptResult (φ : Type) where
  message : PyVal φ
  deliveredAt : Nat

/-- A call of `request_compute` that waits, and when it was issued. -/
structure WaitingCall where
  requestId : Str
  issuedAt : Nat
deriving DecidableEq, Repr

/-- `MobileComputeBroker`: the results that it keeps, the calls that wait, and how many steps there
have been. -/
structure ComputeBroker (φ : Type) where
  results : Dict Str (KeptResult φ)
  waiting : List WaitingCall
  steps : Nat

/-- Why a call gives up. -/
inductive GiveUp where
  | publishFailed
  | timeout

/-- One thing that happens: a call begins, with the id that it draws; a message comes in; a call that
waits looks for its result, or gives up. -/
inductive BrokerAction (φ : Type) where
  | request (deviceId workload : Str) (node : ComputeNode φ) (requestId : Str)
  | onResult (message : PyVal φ)
  | poll (i : Nat)
  | giveUp (i : Nat) (why : GiveUp)

namespace ComputeBroker

/-- `__init__`. -/
def new : ComputeBroker φ := ⟨[], [], 0⟩

/-- `request_compute`, up to the publishing. -/
def request (b : ComputeBroker φ) (deviceId workload : Str) (node : ComputeNode φ) (requestId : Str) :
    ComputeBroker φ :=
  match computeRefusal deviceId workload node with
  | some _ => b
  | none => { b with waiting := b.waiting ++ [⟨requestId, b.steps⟩] }

/-- `_on_result`. -/
def onResult (b : ComputeBroker φ) (message : PyVal φ) : ComputeBroker φ :=
  match resultId message with
  | some requestId => { b with results := Dict.set b.results requestId ⟨message, b.steps⟩ }
  | none => b

/-- The result that a call finds when it looks. -/
def found (b : ComputeBroker φ) (i : Nat) : Option (KeptResult φ) :=
  b.waiting[i]?.bind fun call => Dict.get? b.results call.requestId

/-- One round of the loop: a call that finds its result takes it and returns. -/
def poll (b : ComputeBroker φ) (i : Nat) : ComputeBroker φ :=
  match b.waiting[i]?, b.found i with
  | some call, some _ =>
      { b with results := Dict.remove b.results call.requestId, waiting := b.waiting.eraseIdx i }
  | _, _ => b

/-- The publishing fails, or the deadline is over: the call returns an error. -/
def giveUp (b : ComputeBroker φ) (i : Nat) : ComputeBroker φ :=
  { b with waiting := b.waiting.eraseIdx i }

/-- What happens to the broker. -/
def act (b : ComputeBroker φ) : BrokerAction φ → ComputeBroker φ
  | .request deviceId workload node requestId => b.request deviceId workload node requestId
  | .onResult message => b.onResult message
  | .poll i => b.poll i
  | .giveUp i _ => b.giveUp i

/-- One step. -/
def step (b : ComputeBroker φ) (a : BrokerAction φ) : ComputeBroker φ :=
  { b.act a with steps := b.steps + 1 }

/-! ## What is asked of the broker -/

/-- A call waits with this id. -/
def Awaited (b : ComputeBroker φ) (requestId : Str) : Prop :=
  requestId ∈ b.waiting.map WaitingCall.requestId

/-- Something is kept under this id. -/
def Keeps (b : ComputeBroker φ) (requestId : Str) : Prop := requestId ∈ b.results.map Prod.fst

/-- A result is kept only while a call with its id waits, and what a waiting call would take is for its
own id and came in after it was issued. -/
structure Sound (b : ComputeBroker φ) : Prop where
  kept : ∀ requestId, b.Keeps requestId → b.Awaited requestId
  accepted : ∀ call ∈ b.waiting, ∀ result, Dict.get? b.results call.requestId = some result →
    resultId result.message = some call.requestId ∧ call.issuedAt < result.deliveredAt

/-- A message is for a call that waits, a call that gives up leaves no result without a call that waits
for it, and no result is kept under an id that is given out. -/
def Orderly (b : ComputeBroker φ) : BrokerAction φ → Prop
  | .request deviceId workload node requestId =>
      computeRefusal deviceId workload node = none → ¬ b.Keeps requestId
  | .onResult message => ∀ requestId ∈ resultId message, b.Awaited requestId
  | .poll _ => True
  | .giveUp i _ => ∀ call ∈ b.waiting[i]?, b.Keeps call.requestId →
      call.requestId ∈ (b.waiting.eraseIdx i).map WaitingCall.requestId

/-- What has happened was earlier, and each result is kept under the id that it names. -/
structure Dated (b : ComputeBroker φ) : Prop where
  issued : ∀ call ∈ b.waiting, call.issuedAt < b.steps
  delivered : ∀ item ∈ b.results, item.2.deliveredAt < b.steps ∧ resultId item.2.message = some item.1

theorem dated_new : (new : ComputeBroker φ).Dated := by
  constructor
  · intro call hcall
    cases hcall
  · intro item hitem
    cases hitem

theorem sound_new : (new : ComputeBroker φ).Sound := by
  constructor
  · intro requestId hkept
    cases hkept
  · intro call hcall
    cases hcall

/-! ## One step -/

section

variable {b : ComputeBroker φ}

/-- What happens to the broker, by cases.  Where nothing changes, the step is orderly. -/
theorem act_cases (b : ComputeBroker φ) (a : BrokerAction φ) :
    b.act a = b ∧ b.Orderly a ∨
    (∃ deviceId workload node requestId, a = .request deviceId workload node requestId ∧
      computeRefusal deviceId workload node = none ∧
      b.act a = { b with waiting := b.waiting ++ [⟨requestId, b.steps⟩] }) ∨
    (∃ message requestId, a = .onResult message ∧ resultId message = some requestId ∧
      b.act a = { b with results := Dict.set b.results requestId ⟨message, b.steps⟩ }) ∨
    (∃ i call result, a = .poll i ∧ b.waiting[i]? = some call ∧
      Dict.get? b.results call.requestId = some result ∧
      b.act a = { b with
        results := Dict.remove b.results call.requestId
        waiting := b.waiting.eraseIdx i }) ∨
    ∃ i why, a = .giveUp i why ∧ b.act a = { b with waiting := b.waiting.eraseIdx i } := by
  cases a with
  | request deviceId workload node requestId =>
      cases hrefusal : computeRefusal deviceId workload node with
      | some reason =>
          refine .inl ⟨?_, ?_⟩
          · rw [act, request, hrefusal]
          · intro hnone
            rw [hrefusal] at hnone
            cases hnone
      | none =>
          refine .inr (.inl ⟨deviceId, workload, node, requestId, rfl, hrefusal, ?_⟩)
          rw [act, request, hrefusal]
  | onResult message =>
      cases hid : resultId message with
      | none =>
          refine .inl ⟨?_, ?_⟩
          · rw [act, onResult, hid]
          · intro requestId hrequest
            rw [hid] at hrequest
            cases hrequest
      | some requestId =>
          refine .inr (.inr (.inl ⟨message, requestId, rfl, hid, ?_⟩))
          rw [act, onResult, hid]
  | poll i =>
      cases hcall : b.waiting[i]? with
      | none =>
          refine .inl ⟨?_, True.intro⟩
          rw [act, poll, hcall]
      | some call =>
          have hfound : b.found i = Dict.get? b.results call.requestId := by
            rw [found, hcall, Option.bind_some]
          cases hresult : Dict.get? b.results call.requestId with
          | none =>
              refine .inl ⟨?_, True.intro⟩
              rw [act, poll, hcall, hfound, hresult]
          | some result =>
              refine .inr (.inr (.inr (.inl ⟨i, call, result, rfl, hcall, hresult, ?_⟩)))
              rw [act, poll, hcall, hfound, hresult]
  | giveUp i why => exact .inr (.inr (.inr (.inr ⟨i, why, rfl, rfl⟩)))

theorem Dated.step (h : b.Dated) (a : BrokerAction φ) : (b.step a).Dated := by
  have hissued : ∀ call ∈ b.waiting, call.issuedAt < b.steps + 1 := fun call hcall =>
    Nat.lt_succ_of_lt (h.issued call hcall)
  have hdelivered : ∀ item ∈ b.results,
      item.2.deliveredAt < b.steps + 1 ∧ resultId item.2.message = some item.1 := fun item hitem =>
    ⟨Nat.lt_succ_of_lt (h.delivered item hitem).1, (h.delivered item hitem).2⟩
  rw [ComputeBroker.step]
  rcases b.act_cases a with ⟨hact, -⟩ | ⟨deviceId, workload, node, requestId, -, -, hact⟩ |
    ⟨message, requestId, -, hid, hact⟩ | ⟨i, call, result, -, -, -, hact⟩ | ⟨i, why, -, hact⟩
  · rw [hact]
    exact ⟨hissued, hdelivered⟩
  · rw [hact]
    refine ⟨?_, hdelivered⟩
    intro call hcall
    rcases List.mem_append.1 hcall with hcall | hcall
    · exact hissued call hcall
    · rw [List.mem_singleton.1 hcall]
      exact Nat.lt_succ_self _
  · rw [hact]
    refine ⟨hissued, ?_⟩
    intro item hitem
    rcases Dict.mem_set hitem with hitem | rfl
    · exact hdelivered item hitem
    · exact ⟨Nat.lt_succ_self _, hid⟩
  · rw [hact]
    constructor
    · intro call hcall
      exact hissued call (List.mem_of_mem_eraseIdx hcall)
    · intro item hitem
      exact hdelivered item (List.mem_of_mem_filter hitem)
  · rw [hact]
    refine ⟨?_, hdelivered⟩
    intro call hcall
    exact hissued call (List.mem_of_mem_eraseIdx hcall)

omit [Builtins φ] in
theorem keeps_iff {requestId : Str} :
    b.Keeps requestId ↔ ∃ result, Dict.get? b.results requestId = some result := by
  constructor
  · exact Dict.get?_of_mem_keys
  · rintro ⟨result, hresult⟩
    exact List.mem_map_of_mem (f := Prod.fst) (Dict.mem_of_get? hresult)

omit [Builtins φ] in
/-- A call that another one's end leaves. -/
theorem mem_eraseIdx_of_ne {i : Nat} {call other : WaitingCall} (hcall : b.waiting[i]? = some call)
    (h : other ∈ b.waiting) (hne : other.requestId ≠ call.requestId) :
    other ∈ b.waiting.eraseIdx i := by
  obtain ⟨j, hj⟩ := List.mem_iff_getElem?.1 h
  refine List.mem_eraseIdx_iff_getElem?.2 ⟨j, ?_, hj⟩
  rintro rfl
  rw [hcall] at hj
  cases hj
  exact hne rfl

/-- A call begins. -/
theorem Sound.append_iff (hdated : b.Dated) (h : b.Sound) {requestId : Str} :
    ({ b with waiting := b.waiting ++ [⟨requestId, b.steps⟩] } : ComputeBroker φ).Sound ↔
      ¬ b.Keeps requestId := by
  constructor
  · intro hsound hkept
    obtain ⟨result, hresult⟩ := keeps_iff.1 hkept
    have hlater := (hsound.accepted ⟨requestId, b.steps⟩
      (List.mem_append_right _ (List.mem_singleton_self _)) result hresult).2
    exact Nat.lt_asymm hlater (hdated.delivered _ (Dict.mem_of_get? hresult)).1
  · intro hnew
    constructor
    · intro other hkept
      obtain ⟨call, hcall, rfl⟩ := List.mem_map.1 (h.kept other hkept)
      exact List.mem_map_of_mem (List.mem_append_left _ hcall)
    · intro call hcall result hresult
      rcases List.mem_append.1 hcall with hcall | hcall
      · exact h.accepted call hcall result hresult
      · rw [List.mem_singleton.1 hcall] at hresult
        exact absurd (keeps_iff.2 ⟨result, hresult⟩) hnew

/-- A message comes in. -/
theorem Sound.set_iff (hdated : b.Dated) (h : b.Sound) {message : PyVal φ} {requestId : Str}
    (hid : resultId message = some requestId) :
    ({ b with results := Dict.set b.results requestId ⟨message, b.steps⟩ } : ComputeBroker φ).Sound ↔
      b.Awaited requestId := by
  constructor
  · intro hsound
    exact hsound.kept requestId (keeps_iff.2 ⟨_, Dict.get?_set_self _ _ _⟩)
  · intro hawaited
    constructor
    · intro other hkept
      obtain ⟨result, hresult⟩ := keeps_iff.1 hkept
      by_cases hother : requestId = other
      · rw [← hother]
        exact hawaited
      · rw [Dict.get?_set_of_ne _ hother] at hresult
        exact h.kept other (keeps_iff.2 ⟨result, hresult⟩)
    · intro call hcall result hresult
      by_cases hother : requestId = call.requestId
      · rw [hother, Dict.get?_set_self] at hresult
        cases hresult
        exact ⟨by rw [hid, hother], hdated.issued call hcall⟩
      · rw [Dict.get?_set_of_ne _ hother] at hresult
        exact h.accepted call hcall result hresult

/-- A call takes its result. -/
theorem Sound.take (h : b.Sound) {i : Nat} {call : WaitingCall} (hcall : b.waiting[i]? = some call) :
    ({ b with
        results := Dict.remove b.results call.requestId
        waiting := b.waiting.eraseIdx i } : ComputeBroker φ).Sound := by
  have hold : ∀ {requestId : Str} {result : KeptResult φ},
      Dict.get? (Dict.remove b.results call.requestId) requestId = some result →
      requestId ≠ call.requestId ∧ Dict.get? b.results requestId = some result := by
    intro requestId result hresult
    by_cases hother : call.requestId = requestId
    · rw [hother, Dict.get?_remove_self] at hresult
      cases hresult
    · rw [Dict.get?_remove_of_ne _ hother] at hresult
      exact ⟨Ne.symm hother, hresult⟩
  constructor
  · intro other hkept
    obtain ⟨result, hresult⟩ := keeps_iff.1 hkept
    obtain ⟨hne, hresult⟩ := hold hresult
    obtain ⟨waiter, hwaiter, rfl⟩ := List.mem_map.1 (h.kept other (keeps_iff.2 ⟨result, hresult⟩))
    exact List.mem_map_of_mem (mem_eraseIdx_of_ne hcall hwaiter hne)
  · intro waiter hwaiter result hresult
    exact h.accepted waiter (List.mem_of_mem_eraseIdx hwaiter) result (hold hresult).2

/-- A call gives up. -/
theorem Sound.erase_iff (h : b.Sound) {i : Nat} :
    ({ b with waiting := b.waiting.eraseIdx i } : ComputeBroker φ).Sound ↔
      ∀ call ∈ b.waiting[i]?, b.Keeps call.requestId →
        call.requestId ∈ (b.waiting.eraseIdx i).map WaitingCall.requestId := by
  constructor
  · intro hsound call _ hkept
    exact hsound.kept call.requestId hkept
  · intro hleft
    constructor
    · intro other hkept
      obtain ⟨waiter, hwaiter, rfl⟩ := List.mem_map.1 (h.kept other hkept)
      obtain ⟨j, hj⟩ := List.mem_iff_getElem?.1 hwaiter
      by_cases hji : j = i
      · rw [hji] at hj
        exact hleft waiter hj hkept
      · exact List.mem_map_of_mem (List.mem_eraseIdx_iff_getElem?.2 ⟨j, hji, hj⟩)
    · intro waiter hwaiter result hresult
      exact h.accepted waiter (List.mem_of_mem_eraseIdx hwaiter) result hresult

/-- A step keeps the broker sound if and only if it is orderly. -/
theorem Sound.step_iff (hdated : b.Dated) (h : b.Sound) (a : BrokerAction φ) :
    (b.step a).Sound ↔ b.Orderly a := by
  have hsteps : (b.step a).Sound ↔ (b.act a).Sound :=
    ⟨fun h => ⟨h.kept, h.accepted⟩, fun h => ⟨h.kept, h.accepted⟩⟩
  rw [hsteps]
  rcases b.act_cases a with ⟨hact, horderly⟩ | ⟨deviceId, workload, node, requestId, rfl, hrefusal, hact⟩ |
    ⟨message, requestId, rfl, hid, hact⟩ | ⟨i, call, result, rfl, hcall, -, hact⟩ | ⟨i, why, rfl, hact⟩
  · rw [hact]
    exact iff_of_true h horderly
  · rw [hact, h.append_iff hdated]
    exact ⟨fun hnew _ => hnew, fun hnew => hnew hrefusal⟩
  · rw [hact, h.set_iff hdated hid]
    constructor
    · intro hawaited requestId' hid'
      rw [hid] at hid'
      cases hid'
      exact hawaited
    · intro horderly
      exact horderly requestId hid
  · rw [hact]
    exact iff_of_true (h.take hcall) True.intro
  · rw [hact]
    exact h.erase_iff

end

/-- For every sequence of calls, messages, rounds of the loops and ends of calls: what is kept is for
waiting calls and new to them throughout, if and only if every step is orderly. -/
theorem sound_iff (actions : List (BrokerAction φ)) :
    Always step Sound (new : ComputeBroker φ) actions ↔ Meets step Orderly new actions :=
  always_iff_meets (fun _ a hdated => Dated.step hdated a)
    (fun _ a hdated h => Sound.step_iff hdated h a) dated_new sound_new

/-- A phone that is paired, alive and offers to render. -/
def renderingPhone : ComputeNode WholeFloat :=
  ⟨true, true, [(.str (lit "compute_caps"),
    .dict [(.str (lit "workloads"), .list [.str (lit "nrr_render")])])]⟩

/-- A result that comes in when the call has given up. -/
def lateResult : List (BrokerAction WholeFloat) :=
  [.request (lit "phone") (lit "nrr_render") renderingPhone (lit "8f14e45fceea167a"),
    .giveUp 0 .timeout,
    .onResult (.dict [(.str (lit "request_id"), .str (lit "8f14e45fceea167a"))])]

/-- It is kept, and nobody waits for it. -/
theorem lateResult_kept :
    (run step new lateResult).Keeps (lit "8f14e45fceea167a") ∧
      (run step new lateResult).waiting = [] ∧ ¬ Always step Sound new lateResult := by
  have hkeys : (run step new lateResult).results.map Prod.fst = [lit "8f14e45fceea167a"] := by
    decide +kernel
  have hkept : (run step new lateResult).Keeps (lit "8f14e45fceea167a") := by
    rw [Keeps, hkeys]
    exact List.mem_singleton_self _
  have hwaiting : (run step new lateResult).waiting = [] := by decide +kernel
  refine ⟨hkept, hwaiting, ?_⟩
  intro h
  have hawaited := h.last.kept _ hkept
  rw [Awaited, hwaiting] at hawaited
  cases hawaited

end ComputeBroker

end ShugoCore
