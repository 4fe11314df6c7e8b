import ShugoCore.Mesh.Turns

/-!
# The hand-off of turns

A node without the lease, the origin, sends its turns to the primary and waits for the
report on each.  If there is none in time, or if it does not say that the turn was
answered, the origin answers itself.  The reply of the primary comes as a delegated
action of its own, with nothing in it that names the turn, so the origin cannot tell a
reply to a turn that it has answered already.

Frames between the two nodes are in flight until they come in, in any order, or are
lost.  A frame that could not be sent is not in flight: `sendall` has not got its last
byte through.  The origin has any number of turns under way, and so has the primary.
What the primary delegates goes through `Delegator`, with its retries, and it delegates
words of its own to the origin as well.

Each turn has a number here, its place among the calls of `_forward_turn`, which frames
and delegations carry along.  The code has only the id of the payload, and two turns may
have the same.
-/

namespace ShugoCore

open Py Machine

/-! ## What is sent -/

/-- A turn that the origin forwards. -/
structure TurnInput (φ : Type) where
  /-- The clock in milliseconds, and the tick count. -/
  millis : Int
  tick : Int
  transcript : Str
  source : Str
  /-- The deterministic answer of the origin, or an empty text. -/
  localText : Str
  answerTo : Str
  facts : Obj φ
  canSpeak : Bool
  priority : Int

/-- The id of a turn. -/
def TurnInput.id {φ : Type} (t : TurnInput φ) : Str :=
  lit "turn-" ++ (Literal.ofInt t.millis).text ++ lit "-" ++ (Literal.ofInt t.tick).text

/-- The payload of a turn. -/
def TurnInput.payload {φ : Type} (nodeId : Str) (t : TurnInput φ) : Obj φ :=
  obj [("id", .str t.id), ("transcript", .str (t.transcript.take 400)),
    ("source", .str (t.source.take 32)), ("reply_to", .str nodeId),
    ("proposed_text", .str (t.localText.take 400)), ("answer_to", .str (t.answerTo.take 200)),
    ("facts", .dict t.facts), ("can_speak", .bool t.canSpeak),
    ("priority", .int (if t.priority = 0 then 500 else t.priority))]

/-- A frame in flight between the origin and the primary.  The payload of a delegation is
the turn it answers, if it answers one. -/
inductive Frame (φ : Type) where
  | turn (of : Nat) (payload : Obj φ)
  | turnResult (payload : Obj φ)
  | delegate (item : Delegated (Option Nat))
  | delegateResult (item : Delegated (Option Nat)) (payload : Obj φ)

/-- Where a call of `_forward_turn` is. -/
inductive ForwardPhase where
  | sending
  | waiting
  /-- It returned false.  This node answers the turn next. -/
  | answering
  | done
deriving DecidableEq, Repr

/-- A call of `_forward_turn`, with its event. -/
structure Forward (φ : Type) where
  input : TurnInput φ
  woken : Bool
  phase : ForwardPhase

/-- Where the thread of a forwarded turn is. -/
inductive WorkerPhase (φ : Type) where
  | deciding (of : Nat) (payload : Obj φ)
  | reporting (reply : Obj φ)
  | done

/-- The thread reports next, if it has a reply. -/
def WorkerPhase.after {φ : Type} : Option (Obj φ) → WorkerPhase φ
  | some reply => .reporting reply
  | none => .done

/-- The origin, the primary and the frames between them. -/
structure Hive (φ : Type) where
  forwards : List (Forward φ)
  /-- The call that waits for the report with an id, and the status of the report. -/
  waiters : Dict Str Nat
  results : Dict Str Str
  frames : List (Frame φ)
  workers : List (WorkerPhase φ)
  /-- The delegations of the primary. -/
  delegator : Delegator φ (Option Nat)
  /-- For each text that the listener of the origin was given, the turn it answers. -/
  spoken : List (Option Nat)

namespace Hive

variable {φ : Type} [Builtins φ]

/-- What can happen next. -/
inductive Action (φ : Type) where
  /-- The origin forwards a turn. -/
  | forward (input : TurnInput φ)
  /-- It sends the frame of a turn. -/
  | send (turn : Nat) (outcome : SendOutcome)
  /-- Its wait ends, with a report or without one. -/
  | wake (turn : Nat)
  | timeout (turn : Nat)
  /-- It answers a turn itself. -/
  | answer (turn : Nat) (env : TurnEnv φ)
  /-- A frame is lost. -/
  | lose (frame : Nat)
  /-- The primary is sent a turn.  `primary` is its `_turn_primary()`. -/
  | takeTurn (frame : Nat) (primary : Option NodeName)
  /-- A thread of the primary decides on its turn. -/
  | decide (worker : Nat) (env : TurnEnv φ)
  /-- It reports on it. -/
  | report (worker : Nat)
  /-- The origin is sent the report. -/
  | takeTurnResult (frame : Nat)
  /-- The origin is sent a delegated action, with this payload. -/
  | takeDelegate (frame : Nat) (env : SpeechEnv φ) (other : Except Exn (Obj φ))
      (primary : Option NodeName) (payload : Obj φ)
  /-- The primary is sent the result. -/
  | takeDelegateResult (frame : Nat)
  /-- The primary delegates words of its own. -/
  | delegate (peer : Str)
  /-- A call of `_mesh_delegate`, or a retry, takes its next step. -/
  | advance (call : Nat) (outcome : SendOutcome)
  /-- The primary is sent a result by another node. -/
  | otherResult (peer : Str) (payload : PyVal φ) (of : Nat)

/-- No turn was forwarded yet. -/
def start : Hive φ where
  forwards := []
  waiters := []
  results := []
  frames := []
  workers := []
  delegator := .start
  spoken := []

/-! ## The origin -/

/-- A call of `_forward_turn` moves on. -/
def goto (s : Hive φ) (i : Nat) (f : Forward φ) (phase : ForwardPhase) : Hive φ :=
  { s with forwards := s.forwards.set i { f with phase := phase } }

/-- The `finally` of `_forward_turn`. -/
def collect (s : Hive φ) (id : Str) : Hive φ :=
  { s with waiters := Dict.remove s.waiters id, results := Dict.remove s.results id }

/-- `runtime.send` of a turn. -/
def sendTurn (origin : Str) (s : Hive φ) (i : Nat) (f : Forward φ) (outcome : SendOutcome) :
    Hive φ :=
  match outcome with
  | .success => { s with frames := s.frames ++ [Frame.turn i (f.input.payload origin)] }.goto i f .waiting
  | .noRuntime | .raised | .refused => (s.collect f.input.id).goto i f .answering

/-- The wait ends with the event set. -/
def wake (s : Hive φ) (i : Nat) (f : Forward φ) : Hive φ :=
  if Dict.get? s.results f.input.id = some (lit "answered") then
    (s.collect f.input.id).goto i f .done
  else (s.collect f.input.id).goto i f .answering

/-- The origin answers the turn itself, with the text it has. -/
def answer (s : Hive φ) (i : Nat) (f : Forward φ) (env : TurnEnv φ) : Hive φ :=
  let turned := conversationalTurn { env with prepared := .ok f.input.localText } [] []
  { s with spoken := s.spoken ++ List.replicate turned.spoken.length (some i) }.goto i f .done

/-- `_record_turn_result`. -/
def recordTurnResult (s : Hive φ) (payload : Obj φ) : Hive φ :=
  let id := strOf (orElse (fetch (lit "id") payload) (.str []))
  let status := strOf (orElse (fetch (lit "status") payload) (.str []))
  match Dict.get? s.waiters id with
  | some i =>
      if id = [] then s
      else
        { s with
          results := Dict.set s.results id status
          forwards := s.forwards.modify i fun f => { f with woken := true } }
  | none => s

/-- `_handle_delegated_action`, with the reply to the primary. -/
def runDelegated (hub : Str) (s : Hive φ) (item : Delegated (Option Nat)) (env : SpeechEnv φ)
    (other : Except Exn (Obj φ)) (primary : Option NodeName) (payload : Obj φ) : Hive φ :=
  let handled := handleDelegatedAction env other primary hub (.dict payload)
  { s with
    spoken := s.spoken ++ List.replicate handled.spoken.length item.payload
    frames := s.frames ++ handled.reply.toList.map (.delegateResult item) }

/-! ## The primary -/

/-- A frame with a delegation is sent, if it is for the origin. -/
def emit (origin : Str) (s : Hive φ) (peer : Str) (item : Delegated (Option Nat)) : Hive φ :=
  if peer = origin then { s with frames := s.frames ++ [.delegate item] } else s

/-- `_mesh_delegate` has sent the reply to a turn.  It has yet to keep the payload. -/
def handOver (origin : Str) (of : Nat) (s : Hive φ) (peer : Str) : Hive φ :=
  let item : Delegated (Option Nat) := ⟨s.delegator.next, some of⟩
  let d := s.delegator.step (.delegate peer (some of))
  { s with delegator := d.step (.advance s.delegator.calls.length .success) }.emit origin peer item

/-- `_handle_forwarded_turn`. -/
def takeTurn (s : Hive φ) (of : Nat) (payload : Obj φ) (primary : Option NodeName) : Hive φ :=
  match primary with
  | some p => { s with frames := s.frames ++ [.turnResult (notMyTurn p payload)] }
  | none => { s with workers := s.workers ++ [.deciding of payload] }

/-- `_answer_forwarded_turn`, up to the report. -/
def decideTurn (origin : Str) (s : Hive φ) (j of : Nat) (payload : Obj φ) (env : TurnEnv φ) :
    Hive φ :=
  let outcome := answerForwardedTurn env origin payload
  outcome.sentTo.foldl (handOver origin of)
    { s with workers := s.workers.set j (.after outcome.reply) }

/-- A call of the delegator takes its next step, and its frame is in flight if it was
sent. -/
def advanceCall (origin : Str) (s : Hive φ) (i : Nat) (outcome : SendOutcome) : Hive φ :=
  let s' := { s with delegator := s.delegator.step (.advance i outcome) }
  match s.delegator.calls[i]?, outcome with
  | some (.sending peer item), .success => s'.emit origin peer item
  | _, _ => s'

/-- A frame comes in or is lost. -/
def drop (s : Hive φ) (k : Nat) : Hive φ := { s with frames := s.frames.eraseIdx k }

/-- One step of a run of the two nodes. -/
def step (origin hub : Str) (s : Hive φ) : Action φ → Hive φ
  | .forward input =>
      { s with
        forwards := s.forwards ++ [⟨input, false, .sending⟩]
        waiters := Dict.set s.waiters input.id s.forwards.length }
  | .send i outcome =>
      match s.forwards[i]? with
      | some f => if f.phase = .sending then s.sendTurn origin i f outcome else s
      | none => s
  | .wake i =>
      match s.forwards[i]? with
      | some f => if f.phase = .waiting ∧ f.woken then s.wake i f else s
      | none => s
  | .timeout i =>
      match s.forwards[i]? with
      | some f =>
          if f.phase = .waiting ∧ ¬ f.woken then (s.collect f.input.id).goto i f .answering else s
      | none => s
  | .answer i env =>
      match s.forwards[i]? with
      | some f => if f.phase = .answering then s.answer i f env else s
      | none => s
  | .lose k => s.drop k
  | .takeTurn k primary =>
      match s.frames[k]? with
      | some (.turn of payload) => (s.drop k).takeTurn of payload primary
      | _ => s
  | .decide j env =>
      match s.workers[j]? with
      | some (.deciding of payload) => s.decideTurn origin j of payload env
      | _ => s
  | .report j =>
      match s.workers[j]? with
      | some (.reporting reply) =>
          { s with workers := s.workers.set j .done, frames := s.frames ++ [.turnResult reply] }
      | _ => s
  | .takeTurnResult k =>
      match s.frames[k]? with
      | some (.turnResult payload) => (s.drop k).recordTurnResult payload
      | _ => s
  | .takeDelegate k env other primary payload =>
      match s.frames[k]? with
      | some (.delegate item) => (s.drop k).runDelegated hub item env other primary payload
      | _ => s
  | .takeDelegateResult k =>
      match s.frames[k]? with
      | some (.delegateResult item payload) =>
          { s.drop k with delegator := s.delegator.step (.result origin (.dict payload) item.id) }
      | _ => s
  | .delegate peer => { s with delegator := s.delegator.step (.delegate peer none) }
  | .advance i outcome => s.advanceCall origin i outcome
  | .otherResult peer payload of =>
      if peer = origin then s else { s with delegator := s.delegator.step (.result peer payload of) }

/-! ## One mouth -/

/-- The origin was given at most one reply to each turn. -/
def OneMouth (s : Hive φ) : Prop := ∀ i, s.spoken.count (some i) ≤ 1

/-- The frame leads to a reply to the turn: it is the turn, or a delegated reply, or the
refusal of one that the primary sends again. -/
def carries (i : Nat) : Frame φ → Bool
  | .turn of _ => of = i
  | .turnResult _ => false
  | .delegate item => item.payload = some i
  | .delegateResult item payload =>
      item.payload = some i && Delegator.notThePrimary (fetch (lit "reason") payload)

/-- The thread has yet to decide on the turn. -/
def decides (i : Nat) : WorkerPhase φ → Bool
  | .deciding of _ => of = i
  | _ => false

/-- The call has yet to send a reply to the turn to the origin. -/
def resends (origin : Str) (i : Nat) : DelegatePhase (Option Nat) → Bool
  | .sending peer item => peer = origin && item.payload = some i
  | _ => false

/-- What is under way for a turn, and may end in a reply at the origin. -/
def underWay (origin : Str) (s : Hive φ) (i : Nat) : Nat :=
  s.frames.countP (carries i) + s.workers.countP (decides i) +
    s.delegator.calls.countP (resends origin i)

/-- The turn is over for the primary: nothing is under way for it, and no reply to it was
given to the listener of the origin. -/
def Over (origin : Str) (s : Hive φ) (i : Nat) : Prop :=
  s.underWay origin i = 0 ∧ s.spoken.count (some i) = 0

/-- A listener that raises does not say that somebody is not the primary. -/
def PlainFailure (env : SpeechEnv φ) : Prop :=
  ∀ name message, env.listener = .raised name message →
    Delegator.notThePrimary (.str name : PyVal φ) = false ∧
      Delegator.notThePrimary (.str (listenerFailed name message) : PyVal φ) = false

/-- A refusal that the primary answers with a retry is of a reply to the same turn as the
reply that it keeps for the origin. -/
def Matches (origin : Str) (s : Hive φ) : Frame φ → Prop
  | .delegateResult item payload =>
      Delegator.notThePrimary (fetch (lit "reason") payload) = true →
        ∀ entry ∈ s.delegator.pendingOf origin, entry.attempt < 2 →
          ∀ i ∈ entry.item.payload, item.payload = some i
  | _ => True

/-- The origin answers a turn itself only when it is over for the primary, and the
primary sends a delegated reply again only when that reply was refused. -/
def Careful (origin : Str) (s : Hive φ) : Action φ → Prop
  | .answer i env => s.Over origin i ∧ ∀ f ∈ s.forwards[i]?, OneText f.input.localText env
  | .takeDelegate _ env _ _ _ => PlainFailure env
  | .takeDelegateResult k => ∀ frame ∈ s.frames[k]?, s.Matches origin frame
  | _ => True

instance (origin : Str) (s : Hive φ) (i : Nat) : Decidable (s.Over origin i) :=
  inferInstanceAs (Decidable (s.underWay origin i = 0 ∧ s.spoken.count (some i) = 0))

instance (env : SpeechEnv φ) : Decidable (PlainFailure env) :=
  match h : env.listener with
  | .delivered _ => .isTrue fun _ _ h' => by
      rw [h] at h'
      cases h'
  | .raised name message =>
      decidable_of_iff (Delegator.notThePrimary (.str name : PyVal φ) = false ∧
          Delegator.notThePrimary (.str (listenerFailed name message) : PyVal φ) = false) <| by
        constructor
        · intro hplain name' message' h'
          rw [h] at h'
          cases h'
          exact hplain
        · exact fun hplain => hplain name message h

instance (origin : Str) (s : Hive φ) : (frame : Frame φ) → Decidable (s.Matches origin frame)
  | .turn _ _ | .turnResult _ | .delegate _ => inferInstanceAs (Decidable True)
  | .delegateResult item payload =>
      inferInstanceAs (Decidable (Delegator.notThePrimary (fetch (lit "reason") payload) = true →
        ∀ entry ∈ s.delegator.pendingOf origin, entry.attempt < 2 →
          ∀ i ∈ entry.item.payload, item.payload = some i))

instance (origin : Str) (s : Hive φ) : (a : Action φ) → Decidable (s.Careful origin a)
  | .answer i env =>
      inferInstanceAs (Decidable (s.Over origin i ∧
        ∀ f ∈ s.forwards[i]?, OneText f.input.localText env))
  | .takeDelegate _ env _ _ _ => inferInstanceAs (Decidable (PlainFailure env))
  | .takeDelegateResult k =>
      inferInstanceAs (Decidable (∀ frame ∈ s.frames[k]?, s.Matches origin frame))
  | .forward _ | .send _ _ | .wake _ | .timeout _ | .lose _ | .takeTurn _ _ | .decide _ _ | .report _
  | .takeTurnResult _ | .delegate _ | .advance _ _ | .otherResult _ _ _ =>
      inferInstanceAs (Decidable True)

/-! ### The replies of the origin -/

section Replies

open Delegator

theorem notThePrimary_str (s : Str) :
    notThePrimary (.str s : PyVal φ) = decide (lit "not the primary" <:+: lowerLetters s) := by
  rw [notThePrimary, strOf_orElse_str]

theorem notThePrimary_none : notThePrimary (.none : PyVal φ) = false := by
  have : strOf (orElse .none (.str []) : PyVal φ) = [] := rfl
  rw [notThePrimary, this]
  decide

/-- The reason of a result, as it is reported. -/
def reasonOf (result : Obj φ) : PyVal φ :=
  orElse (fetch (lit "reason") result) (fetch (lit "message") result)

theorem reasonOf_of_reason {result : Obj φ} {s : Str} (h : fetch (lit "reason") result = .str s)
    (hs : s ≠ []) : reasonOf result = .str s := by
  rw [reasonOf, h, orElse, if_pos]
  cases s with
  | nil => exact absurd rfl hs
  | cons c s => rfl

theorem reasonOf_of_message {result : Obj φ} (h : fetch (lit "reason") result = .none) :
    reasonOf result = fetch (lit "message") result := by
  rw [reasonOf, h]
  rfl

/-- A node that has said a delegated text does not reply that the sender is not the
primary. -/
def Plain (o : Speech φ) : Prop :=
  o.spoken = [] ∨ notThePrimary (reasonOf (resultOf o.result)) = false

/-- The words were said and recorded, or the recording raised. -/
theorem plain_noted (env : SpeechEnv φ) {result : Obj φ} (h : notThePrimary (reasonOf result) = false)
    (text : Str) : Plain (⟨env.noted.map fun _ => result, [text], []⟩ : Speech φ) := by
  refine .inr ?_
  cases env.noted with
  | ok u => exact h
  | error exn =>
      show notThePrimary (reasonOf (obj [("status", textVal "error"), ("message", .str exn.name)])) = false
      rw [reasonOf_of_message (by simp [fetch])]
      have hmessage : fetch (lit "message") (obj [("status", textVal "error"), ("message", .str exn.name)]) =
          (.str exn.name : PyVal φ) := by simp [fetch]
      rw [hmessage, notThePrimary_str]
      cases exn <;> decide

theorem plain_speakHere {env : SpeechEnv φ} (h : PlainFailure env) (text : Str) :
    Plain (speakHere env text) := by
  rw [speakHere]
  split
  · split
    · rename_i name message hl
      refine .inr ?_
      have hne : listenerFailed name message ≠ [] := by simp [listenerFailed, lit]
      rw [resultOf, reasonOf_of_reason (by simp [fetch]) hne]
      exact (h name message hl).2
    · refine .inr ?_
      rw [resultOf, reasonOf_of_reason (s := lit "speak_listener_returned_false")
        (by simp [fetch, textVal]) (by decide), notThePrimary_str]
      decide
    · refine plain_noted env ?_ text
      rw [reasonOf_of_message (by simp [fetch])]
      simpa [fetch] using notThePrimary_none
  · exact .inl rfl

theorem plain_askHere {env : SpeechEnv φ} (h : PlainFailure env) (text : Str) :
    Plain (askHere env text) := by
  rw [askHere]
  split
  · split
    · rename_i name message hl
      refine .inr ?_
      rw [resultOf, reasonOf_of_message (by simp [fetch])]
      simpa [fetch] using (h name message hl).1
    · refine plain_noted env ?_ text
      rw [reasonOf_of_message (by simp [fetch])]
      simpa [fetch] using notThePrimary_none
  · exact .inl rfl

/-- The executor of a delegated action runs one of the two speech actions, or says
nothing. -/
theorem executor_cases (env : SpeechEnv φ) (other : Except Exn (Obj φ)) (actionType : Str)
    (params : Obj φ) :
    (∃ action : Usable φ, executor env other actionType params = action.execute env) ∨
      executor env other actionType params = ⟨other, [], []⟩ := by
  rw [executor]
  split
  · exact .inl ⟨.speak params, rfl⟩
  · split
    · exact .inl ⟨.askUser params, rfl⟩
    · exact .inr rfl

theorem fetch_reportOf (payload : Obj φ) (actionType : Str) (result : Obj φ) :
    fetch (lit "reason") (reportOf payload actionType result) = reasonOf result := by
  simp [reportOf, fetch, reasonOf]

/-- A delegated action gives the listener one text at most, and none if it is refused as
that of a node that is not the primary. -/
theorem handleDelegatedAction_spoken {env : SpeechEnv φ} (h : PlainFailure env)
    (other : Except Exn (Obj φ)) (primary : Option NodeName) (peer : Str) (payload : Obj φ) :
    let handled := handleDelegatedAction env other primary peer (.dict payload)
    handled.spoken.length ≤ 1 ∧ (handled.spoken = [] ∨ ∀ reply ∈ handled.reply,
      notThePrimary (fetch (lit "reason") reply) = false) := by
  rw [handleDelegatedAction]
  split
  · split
    · dsimp only
      rcases executor_cases env other (actionTypeOf payload) (paramsOf payload) with ⟨action, he⟩ | he
      · rw [he]
        have hsingle := Usable.execute_single env action
        have hplain : Plain (action.execute env) :=
          Usable.execute_induction (P := Plain) (fun _ => .inl rfl) (fun _ => .inl rfl)
            (fun _ => .inl rfl) (plain_speakHere h) (plain_askHere h) action
        refine ⟨by omega, hplain.imp_right fun hreason reply hreply => ?_⟩
        cases hreply
        rw [fetch_reportOf]
        exact hreason
      · rw [he]
        exact ⟨Nat.zero_le 1, .inl rfl⟩
    · exact ⟨Nat.zero_le 1, .inl rfl⟩
  · exact ⟨Nat.zero_le 1, .inl rfl⟩

end Replies

/-! ### What is under way -/

/-- The turn has yet to be sent. -/
def unsent (s : Hive φ) (i : Nat) : Nat :=
  if s.forwards[i]?.map Forward.phase = some .sending then 1 else 0

/-- The replies to a turn that the origin was given, and those that it may still be given
by the primary. -/
def load (origin : Str) (s : Hive φ) (i : Nat) : Nat :=
  s.unsent i + s.underWay origin i + s.spoken.count (some i)

/-- There is one reply at most to each turn, whatever happens next at the primary. -/
def Bounded (origin : Str) (s : Hive φ) : Prop :=
  ∀ i, s.load origin i ≤ if i < s.forwards.length then 1 else 0

theorem bounded_start (origin : Str) : Bounded origin (start : Hive φ) := fun _ => Nat.zero_le _

theorem Bounded.oneMouth {origin : Str} {s : Hive φ} (h : Bounded origin s) : OneMouth s := by
  intro i
  have hi := h i
  rw [load] at hi
  split at hi <;> omega

/-- A step that adds no reply and no turn. -/
theorem Bounded.of_le {origin : Str} {s s' : Hive φ} (h : Bounded origin s)
    (hlen : s'.forwards.length = s.forwards.length)
    (hle : ∀ i, s'.load origin i ≤ s.load origin i) : Bounded origin s' := by
  intro i
  rw [hlen]
  exact (hle i).trans (h i)

omit [Builtins φ] in
theorem unsent_goto {s : Hive φ} {i : Nat} {f : Forward φ} (hi : s.forwards[i]? = some f)
    {phase : ForwardPhase} (hphase : phase ≠ .sending) (j : Nat) :
    (s.goto i f phase).unsent j + (if i = j ∧ f.phase = .sending then 1 else 0) = s.unsent j := by
  obtain ⟨hlt, -⟩ := List.getElem?_eq_some_iff.1 hi
  by_cases hij : i = j
  · subst hij
    have hnew : (s.goto i f phase).forwards[i]? = some { f with phase := phase } :=
      List.getElem?_set_self hlt
    simp only [unsent, hnew, hi, Option.map_some, Option.some.injEq, hphase, if_false, true_and,
      Nat.zero_add]
  · have hold : (s.goto i f phase).forwards[j]? = s.forwards[j]? := List.getElem?_set_ne hij
    simp only [unsent, hold, hij, false_and, if_false, Nat.add_zero]

omit [Builtins φ] in
theorem length_goto (s : Hive φ) (i : Nat) (f : Forward φ) (phase : ForwardPhase) :
    (s.goto i f phase).forwards.length = s.forwards.length := List.length_set

/-- A call of `_forward_turn` that has sent its frame moves on. -/
theorem Bounded.goto {origin : Str} {s : Hive φ} (h : Bounded origin s) {i : Nat} {f : Forward φ}
    (hi : s.forwards[i]? = some f) {phase : ForwardPhase} (hphase : phase ≠ .sending) :
    Bounded origin (s.goto i f phase) := by
  refine h.of_le (length_goto s i f phase) fun j => ?_
  have hunsent := unsent_goto hi hphase j
  have hunder : (s.goto i f phase).underWay origin j = s.underWay origin j := rfl
  have hspoken : (s.goto i f phase).spoken = s.spoken := rfl
  rw [load, load, hunder, hspoken]
  omega

omit [Builtins φ] in
theorem unsent_concat {s s' : Hive φ} {f : Forward φ} (h : s'.forwards = s.forwards ++ [f])
    (hphase : f.phase = .sending) (j : Nat) :
    s'.unsent j = if j = s.forwards.length then 1 else s.unsent j := by
  by_cases hj : j = s.forwards.length
  · rw [if_pos hj, unsent, h, hj, List.getElem?_concat_length, Option.map_some, hphase, if_pos rfl]
  · rw [if_neg hj, unsent, h, getElem?_concat_of_ne s.forwards f hj, unsent]

/-- A turn is forwarded. -/
theorem Bounded.forward {origin hub : Str} {s : Hive φ} (h : Bounded origin s) (input : TurnInput φ) :
    Bounded origin (s.step origin hub (.forward input)) := by
  intro j
  have hj := h j
  have hunsent : (s.step origin hub (.forward input)).unsent j =
      if j = s.forwards.length then 1 else s.unsent j := unsent_concat rfl rfl j
  have hunder : (s.step origin hub (.forward input)).underWay origin j = s.underWay origin j := rfl
  have hspoken : (s.step origin hub (.forward input)).spoken = s.spoken := rfl
  have hlen : (s.step origin hub (.forward input)).forwards.length = s.forwards.length + 1 :=
    List.length_append
  rw [load] at hj ⊢
  rw [hunsent, hunder, hspoken, hlen]
  by_cases hnew : j = s.forwards.length
  · rw [if_neg (by omega)] at hj
    rw [if_pos hnew, if_pos (by omega)]
    omega
  · rw [if_neg hnew]
    split at hj
    · rw [if_pos (by omega)]
      exact hj
    · rw [if_neg (by omega)]
      exact hj

/-- The frame of a turn is sent, or the origin is to answer it. -/
theorem Bounded.sendTurn {origin : Str} {s : Hive φ} (h : Bounded origin s) {i : Nat} {f : Forward φ}
    (hi : s.forwards[i]? = some f) (hphase : f.phase = .sending) (outcome : SendOutcome) :
    Bounded origin (s.sendTurn origin i f outcome) := by
  have hcollect : Bounded origin (s.collect f.input.id) := h
  cases outcome with
  | noRuntime | raised | refused => exact hcollect.goto hi (by decide)
  | success =>
      refine h.of_le (length_goto _ i f .waiting) fun j => ?_
      have hunsent : (s.goto i f .waiting).unsent j + (if i = j ∧ f.phase = .sending then 1 else 0) =
          s.unsent j := unsent_goto hi (by decide) j
      have hframes := Calls.countP_concat (p := carries j) s.frames (.turn i (f.input.payload origin))
      change (s.goto i f .waiting).unsent j +
        ((s.frames ++ [Frame.turn i (f.input.payload origin)]).countP (carries j) +
          s.workers.countP (decides j) + s.delegator.calls.countP (resends origin j)) +
        s.spoken.count (some j) ≤ s.load origin j
      simp only [carries, decide_eq_true_eq] at hframes
      simp only [hphase, and_true] at hunsent
      rw [load, underWay]
      omega

/-- The origin answers a turn that is over for the primary. -/
theorem Bounded.answer {origin : Str} {s : Hive φ} (h : Bounded origin s) {i : Nat} {f : Forward φ}
    (hi : s.forwards[i]? = some f) {env : TurnEnv φ} (hover : s.Over origin i)
    (hone : OneText f.input.localText env) : Bounded origin (s.answer i f env) := by
  have hsaid : (conversationalTurn { env with prepared := .ok f.input.localText } [] []).spoken.length ≤ 1 :=
    conversationalTurn_spoken_le rfl
      (show OneText f.input.localText { env with prepared := .ok f.input.localText } from hone) [] []
  intro j
  have hj := h j
  have hunsent : (s.goto i f .done).unsent j + (if i = j ∧ f.phase = .sending then 1 else 0) =
      s.unsent j := unsent_goto hi (by decide) j
  obtain ⟨hlt, -⟩ := List.getElem?_eq_some_iff.1 hi
  have hlen : (s.answer i f env).forwards.length = s.forwards.length := List.length_set
  rw [hlen]
  change (s.goto i f .done).unsent j + s.underWay origin j + (s.spoken ++ List.replicate
    (conversationalTurn { env with prepared := .ok f.input.localText } [] []).spoken.length
      (some i)).count (some j) ≤ _
  rw [List.count_append, List.count_replicate]
  rw [load] at hj
  by_cases hij : i = j
  · subst hij
    have hdone : (s.goto i f .done).unsent i = 0 := by
      have hnew : (s.goto i f .done).forwards[i]? = some { f with phase := .done } :=
        List.getElem?_set_self hlt
      simp [unsent, hnew]
    obtain ⟨hunder, hcount⟩ := hover
    rw [if_pos hlt, if_pos (by simp)]
    omega
  · rw [if_neg (by simpa using hij)]
    omega

/-- A frame comes in or is lost. -/
theorem Bounded.drop {origin : Str} {s : Hive φ} (h : Bounded origin s) (k : Nat) :
    Bounded origin (s.drop k) := by
  refine h.of_le rfl fun j => ?_
  have hframes : (s.frames.eraseIdx k).countP (carries j) ≤ s.frames.countP (carries j) :=
    (List.eraseIdx_sublist s.frames k).countP_le
  change s.unsent j + ((s.frames.eraseIdx k).countP (carries j) + s.workers.countP (decides j) +
    s.delegator.calls.countP (resends origin j)) + s.spoken.count (some j) ≤ s.load origin j
  rw [load, underWay]
  omega

/-- The primary is sent a turn. -/
theorem Bounded.takeTurn {origin : Str} {s : Hive φ} (h : Bounded origin s) {k of : Nat}
    {payload : Obj φ} (hk : s.frames[k]? = some (.turn of payload)) (primary : Option NodeName) :
    Bounded origin ((s.drop k).takeTurn of payload primary) := by
  cases primary with
  | some p =>
      refine (h.drop k).of_le rfl fun j => ?_
      change s.unsent j + ((s.frames.eraseIdx k ++ [Frame.turnResult (notMyTurn p payload)]).countP
        (carries j) + s.workers.countP (decides j) + s.delegator.calls.countP (resends origin j)) +
          s.spoken.count (some j) ≤ s.unsent j + ((s.frames.eraseIdx k).countP (carries j) +
            s.workers.countP (decides j) + s.delegator.calls.countP (resends origin j)) +
          s.spoken.count (some j)
      rw [Calls.countP_concat]
      exact Nat.le_refl _
  | none =>
      refine h.of_le rfl fun j => ?_
      have hframes := Calls.countP_eraseIdx_add (p := carries j) hk
      change s.unsent j + ((s.frames.eraseIdx k).countP (carries j) +
        (s.workers ++ [WorkerPhase.deciding of payload]).countP (decides j) +
          s.delegator.calls.countP (resends origin j)) + s.spoken.count (some j) ≤ s.load origin j
      rw [Calls.countP_concat, load, underWay]
      simp only [carries, decides, decide_eq_true_eq] at hframes ⊢
      omega

theorem step_advance {d : Delegator φ (Option Nat)} {k : Nat} {phase : DelegatePhase (Option Nat)}
    (hk : d.calls[k]? = some phase) (outcome : SendOutcome) :
    d.step (.advance k outcome) = d.advance k outcome phase := by
  simp only [Delegator.step, hk]

/-- The delegator has sent the reply and has yet to keep it. -/
theorem calls_handOver (d : Delegator φ (Option Nat)) (peer : Str) (words : Option Nat) :
    ((d.step (.delegate peer words)).step (.advance d.calls.length .success)).calls =
      d.calls ++ [.sent peer ⟨d.next, words⟩] := by
  have hcall : (d.step (.delegate peer words)).calls[d.calls.length]? =
      some (.sending peer ⟨d.next, words⟩) := by
    simp [Delegator.step]
  rw [step_advance hcall]
  simp [Delegator.advance, Delegator.goto, Delegator.step]

/-- A reply is sent in place of what is counted for it elsewhere. -/
theorem load_handOver (origin : Str) (of : Nat) (s : Hive φ) (peer : Str) (j : Nat) :
    (s.handOver origin of peer).load origin j ≤ s.load origin j + (if of = j then 1 else 0) := by
  have hcalls := calls_handOver s.delegator peer (some of)
  rw [handOver, emit]
  split
  · change s.unsent j + ((s.frames ++ [Frame.delegate ⟨s.delegator.next, some of⟩]).countP (carries j) +
      s.workers.countP (decides j) + ((s.delegator.step (.delegate peer (some of))).step
        (.advance s.delegator.calls.length .success)).calls.countP (resends origin j)) +
      s.spoken.count (some j) ≤ _
    rw [hcalls, Calls.countP_concat, Calls.countP_concat, load, underWay]
    simp only [carries, resends, Option.some.injEq, decide_eq_true_eq, Bool.false_eq_true, if_false]
    omega
  · change s.unsent j + (s.frames.countP (carries j) +
      s.workers.countP (decides j) + ((s.delegator.step (.delegate peer (some of))).step
        (.advance s.delegator.calls.length .success)).calls.countP (resends origin j)) +
      s.spoken.count (some j) ≤ _
    rw [hcalls, Calls.countP_concat, load, underWay]
    simp only [resends, Bool.false_eq_true, if_false]
    omega

omit [Builtins φ] in
theorem forwards_emit (origin : Str) (s : Hive φ) (peer : Str) (item : Delegated (Option Nat)) :
    (s.emit origin peer item).forwards = s.forwards := by
  rw [emit]
  split <;> rfl

/-- A thread decides on its turn. -/
theorem Bounded.decideTurn {origin : Str} {s : Hive φ} (h : Bounded origin s) {j of : Nat}
    {payload : Obj φ} (hj : s.workers[j]? = some (.deciding of payload)) (env : TurnEnv φ) :
    Bounded origin (s.decideTurn origin j of payload env) := by
  have hle := answerForwardedTurn_sentTo_le env origin payload
  -- the thread no longer decides, so that the reply may take its place
  have hdecided : ∀ next : WorkerPhase φ, (∀ i, decides i next = false) → ∀ i,
      ({ s with workers := s.workers.set j next } : Hive φ).load origin i + (if of = i then 1 else 0) =
        s.load origin i := by
    intro next hnext i
    have hset := Calls.countP_set_add (p := decides i) (b := next) hj
    rw [hnext i] at hset
    simp only [decides, decide_eq_true_eq, Bool.false_eq_true, if_false] at hset
    change s.unsent i + (s.frames.countP (carries i) + (s.workers.set j next).countP (decides i) +
      s.delegator.calls.countP (resends origin i)) + s.spoken.count (some i) + _ = s.load origin i
    rw [load, underWay]
    omega
  have hnext : ∀ i, decides i (.after (answerForwardedTurn env origin payload).reply) = false := by
    intro i
    cases (answerForwardedTurn env origin payload).reply <;> rfl
  have hload := hdecided _ hnext
  rw [Hive.decideTurn]
  match hsent : (answerForwardedTurn env origin payload).sentTo with
  | [] =>
      refine h.of_le rfl fun i => ?_
      rw [← hload i]
      exact Nat.le_add_right _ _
  | [peer] =>
      refine h.of_le (congrArg List.length (forwards_emit origin _ peer _)) fun i => ?_
      rw [← hload i]
      exact load_handOver origin of _ peer i
  | _ :: _ :: _ =>
      rw [hsent] at hle
      simp at hle

/-- A thread reports on its turn. -/
theorem Bounded.report {origin : Str} {s : Hive φ} (h : Bounded origin s) {j : Nat} {reply : Obj φ}
    (hj : s.workers[j]? = some (.reporting reply)) :
    Bounded origin { s with
      workers := s.workers.set j .done
      frames := s.frames ++ [.turnResult reply] } := by
  refine h.of_le rfl fun i => ?_
  have hset := Calls.countP_set_add (p := decides i) (b := WorkerPhase.done) hj
  simp only [decides, Bool.false_eq_true, if_false] at hset
  change s.unsent i + ((s.frames ++ [Frame.turnResult reply]).countP (carries i) +
    (s.workers.set j .done).countP (decides i) + s.delegator.calls.countP (resends origin i)) +
      s.spoken.count (some i) ≤ s.load origin i
  rw [Calls.countP_concat, load, underWay]
  simp only [carries, Bool.false_eq_true, if_false]
  omega

/-- The origin is sent a report. -/
theorem Bounded.recordTurnResult {origin : Str} {s : Hive φ} (h : Bounded origin s)
    (payload : Obj φ) : Bounded origin (s.recordTurnResult payload) := by
  rw [Hive.recordTurnResult]
  split
  · rename_i i _
    split
    · exact h
    · refine h.of_le (List.length_modify ..) fun j => ?_
      have hphase : (s.forwards.modify i fun f => { f with woken := true })[j]?.map Forward.phase =
          s.forwards[j]?.map Forward.phase := by
        rw [List.getElem?_modify]
        cases s.forwards[j]? with
        | none => rfl
        | some f => by_cases hij : i = j <;> simp [hij]
      change (if (s.forwards.modify i fun f => { f with woken := true })[j]?.map Forward.phase =
        some .sending then 1 else 0) + s.underWay origin j + s.spoken.count (some j) ≤ s.load origin j
      rw [hphase]
      exact Nat.le_refl _
  · exact h

/-- The origin runs a delegated action. -/
theorem Bounded.runDelegated {origin hub : Str} {s : Hive φ} (h : Bounded origin s) {k : Nat}
    {item : Delegated (Option Nat)} (hk : s.frames[k]? = some (.delegate item)) {env : SpeechEnv φ}
    (hplain : PlainFailure env) (other : Except Exn (Obj φ)) (primary : Option NodeName)
    (payload : Obj φ) :
    Bounded origin ((s.drop k).runDelegated hub item env other primary payload) := by
  obtain ⟨hone, hquiet⟩ := handleDelegatedAction_spoken hplain other primary hub payload
  refine h.of_le rfl fun i => ?_
  have hframes := Calls.countP_eraseIdx_add (p := carries i) hk
  simp only [carries, decide_eq_true_eq] at hframes
  change s.unsent i + ((s.frames.eraseIdx k ++
      (handleDelegatedAction env other primary hub (.dict payload)).reply.toList.map
        (Frame.delegateResult item)).countP (carries i) + s.workers.countP (decides i) +
      s.delegator.calls.countP (resends origin i)) + (s.spoken ++ List.replicate
      (handleDelegatedAction env other primary hub (.dict payload)).spoken.length
        item.payload).count (some i) ≤ s.load origin i
  generalize handleDelegatedAction env other primary hub (.dict payload) = handled at hone hquiet ⊢
  rw [List.countP_append, List.count_append, List.count_replicate, load, underWay]
  by_cases hitem : item.payload = some i
  · -- the delegation is replaced by the text, or by a refusal that the primary may answer
    have hreply : (handled.reply.toList.map (Frame.delegateResult item)).countP (carries i) +
        handled.spoken.length ≤ 1 := by
      cases hr : handled.reply with
      | none => simpa using hone
      | some reply =>
          rcases hquiet with hsilent | hstale
          · rw [hsilent, List.length_nil, Nat.add_zero]
            exact List.countP_le_length
          · have hcarries : carries i (Frame.delegateResult item reply) = false := by
              rw [carries, hstale reply hr, Bool.and_false]
            simpa [hcarries] using hone
    rw [if_pos hitem] at hframes
    rw [if_pos (by simpa using hitem)]
    omega
  · have hreply : (handled.reply.toList.map (Frame.delegateResult item)).countP (carries i) = 0 := by
      cases handled.reply with
      | none => rfl
      | some reply => simp [carries, hitem]
    rw [if_neg hitem] at hframes
    rw [if_neg (by simpa using hitem)]
    omega

/-! ### The delegations of the primary -/

omit [Builtins φ] in
/-- A call that takes a step has nothing more to send. -/
theorem calls_advance {d : Delegator φ (Option Nat)} {k : Nat} {phase : DelegatePhase (Option Nat)}
    (hk : d.calls[k]? = some phase) (outcome : SendOutcome) :
    ∃ phase', (∀ origin i, resends origin i phase' = false) ∧
      (d.advance k outcome phase).calls = d.calls.set k phase' := by
  cases phase with
  | sending peer item =>
      cases outcome with
      | noRuntime | raised | refused => exact ⟨.done, fun _ _ => rfl, rfl⟩
      | success => exact ⟨.sent peer item, fun _ _ => rfl, rfl⟩
  | sent peer item =>
      rw [Delegator.advance]
      split
      · exact ⟨.creating peer item, fun _ _ => rfl, rfl⟩
      · exact ⟨.holding peer item d.version, fun _ _ => rfl, rfl⟩
  | creating peer item => exact ⟨.holding peer item (d.version + 1), fun _ _ => rfl, rfl⟩
  | holding peer item version =>
      rw [Delegator.advance]
      split <;> exact ⟨.done, fun _ _ => rfl, rfl⟩
  | done =>
      obtain ⟨hlt, hget⟩ := List.getElem?_eq_some_iff.1 hk
      refine ⟨.done, fun _ _ => rfl, ?_⟩
      show d.calls = d.calls.set k .done
      rw [← hget, List.set_getElem_self]

omit [Builtins φ] in
theorem calls_retryIfStale (d : Delegator φ (Option Nat)) (peer : Str) (of : Nat) :
    (d.retryIfStale peer of).calls = d.calls ∨
      ∃ entry ∈ d.pendingOf peer, entry.attempt < 2 ∧
        (d.retryIfStale peer of).calls = d.calls ++ [.sending peer entry.item] := by
  rw [Delegator.retryIfStale]
  cases hentry : d.pendingOf peer with
  | none => exact .inl rfl
  | some entry =>
      by_cases hattempt : 2 ≤ entry.attempt
      · simp only [if_pos hattempt]
        exact .inl trivial
      · simp only [if_neg hattempt]
        exact .inr ⟨entry, rfl, by omega, rfl⟩

/-- A result starts a retry or no call at all, and a retry only if it is a refusal. -/
theorem calls_result (d : Delegator φ (Option Nat)) (peer : Str) (payload : PyVal φ) (of : Nat) :
    (d.step (.result peer payload of)).calls = d.calls ∨
      (Delegator.isRefusal payload = true ∧ ∃ entry ∈ d.pendingOf peer, entry.attempt < 2 ∧
        (d.step (.result peer payload of)).calls = d.calls ++ [.sending peer entry.item]) := by
  cases payload with
  | dict items =>
      by_cases hr : Delegator.notThePrimary (fetch (lit "reason") items) = true
      · have hstep := calls_retryIfStale { d with
          results := (d.results ++ [Delegator.recordOf peer items]).drop
            ((d.results ++ [Delegator.recordOf peer items]).length - 16)
          refused := d.refused ++ [of] } peer of
        rw [Delegator.step, Delegator.recordDelegatedResult]
        simp only [if_pos hr]
        exact hstep.imp_right fun h => ⟨hr, h⟩
      · refine .inl ?_
        rw [Delegator.step, Delegator.recordDelegatedResult]
        simp only [if_neg hr]
  | none | bool _ | int _ | float _ | str _ | list _ => exact .inl rfl

/-- The delegator changes, and has no more replies to send than before. -/
theorem Bounded.delegator {origin : Str} {s : Hive φ} (h : Bounded origin s)
    {d : Delegator φ (Option Nat)}
    (hd : ∀ i, d.calls.countP (resends origin i) ≤ s.delegator.calls.countP (resends origin i)) :
    Bounded origin { s with delegator := d } := by
  refine h.of_le rfl fun i => ?_
  have hi := hd i
  change s.unsent i + (s.frames.countP (carries i) + s.workers.countP (decides i) +
    d.calls.countP (resends origin i)) + s.spoken.count (some i) ≤ s.load origin i
  rw [load, underWay]
  omega

/-- A call of the delegator takes its next step. -/
theorem Bounded.advanceCall {origin : Str} {s : Hive φ} (h : Bounded origin s) (k : Nat)
    (outcome : SendOutcome) : Bounded origin (s.advanceCall origin k outcome) := by
  cases hk : s.delegator.calls[k]? with
  | none =>
      have hsame : s.advanceCall origin k outcome = s := by
        simp only [Hive.advanceCall, Delegator.step, hk]
      rw [hsame]
      exact h
  | some phase =>
      obtain ⟨phase', hphase', hcalls⟩ := calls_advance hk outcome
      have hcount : ∀ i, (s.delegator.step (.advance k outcome)).calls.countP (resends origin i) +
          (if resends origin i phase then 1 else 0) =
            s.delegator.calls.countP (resends origin i) := by
        intro i
        have hset := Calls.countP_set_add (p := resends origin i) (b := phase') hk
        rw [hphase' origin i, if_neg Bool.false_ne_true, Nat.add_zero] at hset
        rw [step_advance hk, hcalls]
        exact hset
      have hquiet : Bounded origin { s with delegator := s.delegator.step (.advance k outcome) } :=
        h.delegator fun i => by
          have := hcount i
          omega
      by_cases hsent : ∃ peer item, phase = .sending peer item ∧ peer = origin ∧ outcome = .success
      · obtain ⟨peer, item, rfl, rfl, rfl⟩ := hsent
        -- the frame takes the place of the call
        refine h.of_le (congrArg List.length (by simp only [Hive.advanceCall, hk, forwards_emit]))
          fun i => ?_
        have hi := hcount i
        simp only [Hive.advanceCall, hk, emit, if_true]
        change s.unsent i + ((s.frames ++ [Frame.delegate item]).countP (carries i) +
          s.workers.countP (decides i) + (s.delegator.step (.advance k .success)).calls.countP
            (resends peer i)) + s.spoken.count (some i) ≤ s.load peer i
        rw [Calls.countP_concat, load, underWay]
        simp only [resends, carries, decide_true, Bool.true_and, decide_eq_true_eq] at hi ⊢
        omega
      · have hsame : s.advanceCall origin k outcome =
            { s with delegator := s.delegator.step (.advance k outcome) } := by
          simp only [Hive.advanceCall, hk]
          cases phase with
          | sending peer item =>
              cases outcome with
              | success => exact if_neg fun hpeer => hsent ⟨peer, item, rfl, hpeer, rfl⟩
              | noRuntime | raised | refused => rfl
          | sent _ _ | creating _ _ | holding _ _ _ | done => rfl
        rw [hsame]
        exact hquiet

/-- The primary is sent the result of a delegation. -/
theorem Bounded.takeDelegateResult {origin : Str} {s : Hive φ} (h : Bounded origin s) {k : Nat}
    {item : Delegated (Option Nat)} {payload : Obj φ}
    (hk : s.frames[k]? = some (.delegateResult item payload))
    (hmatch : s.Matches origin (.delegateResult item payload)) :
    Bounded origin { s.drop k with
      delegator := s.delegator.step (.result origin (.dict payload) item.id) } := by
  rcases calls_result s.delegator origin (.dict payload) item.id with
    hcalls | ⟨hr, entry, hentry, hattempt, hcalls⟩
  · exact (h.drop k).delegator fun i => Nat.le_of_eq (by rw [hcalls]; rfl)
  · refine h.of_le rfl fun i => ?_
    have hframes := Calls.countP_eraseIdx_add (p := carries i) hk
    change s.unsent i + ((s.frames.eraseIdx k).countP (carries i) + s.workers.countP (decides i) +
      (s.delegator.step (.result origin (.dict payload) item.id)).calls.countP (resends origin i)) +
        s.spoken.count (some i) ≤ s.load origin i
    rw [hcalls, Calls.countP_concat, load, underWay]
    have hresend : (if resends origin i (.sending origin entry.item) then 1 else 0) ≤
        (if carries i (Frame.delegateResult item payload) then 1 else 0) := by
      by_cases hi : entry.item.payload = some i
      · have hitem := hmatch hr entry hentry hattempt i hi
        have hstale : Delegator.notThePrimary (fetch (lit "reason") payload) = true := hr
        simp [resends, carries, hi, hitem, hstale]
      · simp [resends, hi]
    omega

/-! ### Runs -/

theorem Bounded.step {origin hub : Str} {s : Hive φ} (h : Bounded origin s) {a : Action φ}
    (ha : s.Careful origin a) : Bounded origin (s.step origin hub a) := by
  cases a with
  | forward input => exact h.forward input
  | send i outcome =>
      simp only [Hive.step]
      split
      · rename_i f hi
        split
        · rename_i hphase
          exact h.sendTurn hi hphase outcome
        · exact h
      · exact h
  | wake i =>
      simp only [Hive.step]
      split
      · rename_i f hi
        have hcollect : Bounded origin (s.collect f.input.id) := h
        split
        · rw [Hive.wake]
          split <;> exact hcollect.goto hi (by decide)
        · exact h
      · exact h
  | timeout i =>
      simp only [Hive.step]
      split
      · rename_i f hi
        have hcollect : Bounded origin (s.collect f.input.id) := h
        split
        · exact hcollect.goto hi (by decide)
        · exact h
      · exact h
  | answer i env =>
      simp only [Hive.step]
      split
      · rename_i f hi
        split
        · exact h.answer hi ha.1 (ha.2 f hi)
        · exact h
      · exact h
  | lose k => exact h.drop k
  | takeTurn k primary =>
      simp only [Hive.step]
      split
      · rename_i hk
        exact h.takeTurn hk primary
      · exact h
  | decide j env =>
      simp only [Hive.step]
      split
      · rename_i hj
        exact h.decideTurn hj env
      · exact h
  | report j =>
      simp only [Hive.step]
      split
      · rename_i hj
        exact h.report hj
      · exact h
  | takeTurnResult k =>
      simp only [Hive.step]
      split
      · exact (h.drop k).recordTurnResult _
      · exact h
  | takeDelegate k env other primary payload =>
      simp only [Hive.step]
      split
      · rename_i hk
        exact h.runDelegated hk ha other primary payload
      · exact h
  | takeDelegateResult k =>
      simp only [Hive.step]
      split
      · rename_i item payload hk
        exact h.takeDelegateResult hk (ha _ hk)
      · exact h
  | delegate peer =>
      refine h.delegator fun i => Nat.le_of_eq ?_
      simp [Delegator.step, resends]
  | advance k outcome => exact h.advanceCall k outcome
  | otherResult peer payload of =>
      simp only [Hive.step]
      split
      · exact h
      · rename_i hpeer
        refine h.delegator fun i => Nat.le_of_eq ?_
        rcases calls_result s.delegator peer payload of with hcalls | ⟨-, entry, -, -, hcalls⟩
        · rw [hcalls]
        · rw [hcalls, Calls.countP_concat]
          simp [resends, hpeer]

end Hive

open Hive in
/-- In every run in which the origin answers a turn itself only when it is over for the
primary, and the primary sends a delegated reply again only when that reply was refused,
the listener of the origin is given at most one reply to each turn. -/
theorem one_mouth_per_turn {φ : Type} [Builtins φ] (origin hub : Str) (as : List (Action φ))
    (h : Meets (step origin hub) (Careful origin) start as) :
    Always (step origin hub) OneMouth start as :=
  (Always.of_inv (fun _ _ hb ha => hb.step ha) (bounded_start origin) h).mono fun _ hb => hb.oneMouth

/-! ## A reply that comes late -/

/-- A turn of the phone, with the answer that only the phone can give. -/
def batteryTurn (millis : Int) : TurnInput WholeFloat where
  millis := millis
  tick := 7
  transcript := lit "how is your battery"
  source := lit "local"
  localText := lit "Battery is at 80%."
  answerTo := []
  facts := []
  canSpeak := true
  priority := 500

/-- What the phone meets when it answers. -/
def phoneTurnEnv : TurnEnv WholeFloat := { hubEnv with speech := phoneEnv .refused }

/-- The phone runs the reply that the hub delegates. -/
def phoneRuns (frame : Nat) : Hive.Action WholeFloat :=
  .takeDelegate frame (phoneEnv .refused) (.ok []) (some ⟨lit "hub", hub_ne_nil⟩)
    (obj [("action_type", textVal "speak"),
      ("params", .dict (obj [("text", textVal "Battery is at 80%.")]))])

/-- The hub is slow: the phone answers, and then the reply of the hub comes in. -/
def lateReply : List (Hive.Action WholeFloat) :=
  [.forward (batteryTurn 1000), .send 0 .success, .takeTurn 0 none, .timeout 0,
    .answer 0 phoneTurnEnv, .decide 0 hubEnv, phoneRuns 0]

open Hive in
/-- The listener of the phone is given two replies to one turn. -/
theorem late_reply_spoken_twice :
    (run (step (lit "phone") (lit "hub")) start lateReply).spoken = [some 0, some 0] ∧
      ¬ OneMouth (run (step (lit "phone") (lit "hub")) start lateReply) := by
  have htwo : (run (step (lit "phone") (lit "hub")) start lateReply).spoken = [some 0, some 0] := by
    decide +kernel
  refine ⟨htwo, fun hone => ?_⟩
  have hcount := hone 0
  rw [htwo] at hcount
  exact absurd hcount (by decide)

/-- The hub answers the first turn, and the frame of the second is lost. -/
def replyAndLoss : List (Hive.Action WholeFloat) :=
  [.forward (batteryTurn 1000), .send 0 .success, .takeTurn 0 none, .decide 0 hubEnv, .report 0,
    phoneRuns 0, .takeTurnResult 0, .wake 0,
    .forward (batteryTurn 9000), .send 1 .success, .lose 1, .timeout 1, .answer 1 phoneTurnEnv]

open Hive in
/-- Each of the two turns has one reply. -/
theorem reply_and_loss_spoken_once :
    Meets (step (lit "phone") (lit "hub")) (Careful (lit "phone")) start replyAndLoss ∧
      (run (step (lit "phone") (lit "hub")) start replyAndLoss).spoken = [some 0, some 1] ∧
      OneMouth (run (step (lit "phone") (lit "hub")) start replyAndLoss) := by
  have hmeets : Meets (step (lit "phone") (lit "hub")) (Careful (lit "phone")) start replyAndLoss := by
    decide +kernel
  exact ⟨hmeets, by decide +kernel, (one_mouth_per_turn _ _ _ hmeets).last⟩

end ShugoCore
