import ShugoCore.Clock
import ShugoCore.Lib.PyBuiltins

/-!
# The interaction bus

`InteractionBus` of `human_interaction.py`.  Providers publish what they observe of a human,
and the agent records what it says.  The bus stamps the ids of the causal chain, pairs
answers with questions, and keeps track of whether somebody is present.

Every observation implies presence, apart from the two that deny it.  A change of presence
is looked at last in a call, when the ids are stamped already.  When the user comes back,
the conversation gets a new id and the turn is closed.

An id from `uuid` and the readings of the clock are inputs of a call.
-/

namespace ShugoCore

open Py

/-! ## Observations -/

/-- `OBSERVATION_TYPES`. -/
def observationTypes : List Str :=
  [lit "visual", lit "speech", lit "presence", lit "gesture", lit "interaction", lit "sound"]

/-- `RESPONSE_TYPES`. -/
def responseTypes : List Str :=
  [lit "speech", lit "visual", lit "action", lit "acknowledgement"]

/-- `PRIVACY_SCOPES`. -/
def privacyScopes : List Str := [lit "local", lit "ephemeral"]

/-- A `HumanObservation`, once it is built. -/
structure HumanObservation (φ : Type) where
  type : Str
  source : Str
  payload : Obj φ
  /-- `none` is a confidence that is no number. -/
  confidence : Option ℚ
  timestamp : Seconds
  privacyScope : Str

/-- Why an observation or a response is rejected. -/
inductive Rejection where
  | notAnInstance
  | unknownType
  | emptySource
  | confidenceOutOfRange
  | unknownPrivacyScope
  | emptyContent
  | priorityOutOfRange
deriving DecidableEq, Repr

variable {φ : Type}

/-- `HumanObservation.validate`. -/
def HumanObservation.validate (o : HumanObservation φ) : Option Rejection :=
  if o.type ∉ observationTypes then some .unknownType
  else if o.source = [] then some .emptySource
  else if ¬ ∃ c ∈ o.confidence, 0 ≤ c ∧ c ≤ 1 then some .confidenceOutOfRange
  else if o.privacyScope ∉ privacyScopes then some .unknownPrivacyScope
  else none

/-- An `AgentResponse`, before the bus gives it its ids. -/
structure AgentResponse where
  type : Str
  content : Str
  target : Str
  priority : ℚ
  expectsAnswer : Bool

/-- `AgentResponse.validate`. -/
def AgentResponse.validate (r : AgentResponse) : Option Rejection :=
  if r.type ∉ responseTypes then some .unknownType
  else if r.content = [] then some .emptyContent
  else if ¬ (0 ≤ r.priority ∧ r.priority ≤ 1) then some .priorityOutOfRange
  else none

/-! ## The bus -/

/-- The presence lifecycle events. -/
inductive PresenceEvent where
  | userPresent
  | userLeft
  | userReturned
deriving DecidableEq, Repr

/-- The presence state. -/
inductive Presence where
  | absent
  | present
deriving DecidableEq, Repr

namespace InteractionBus

/-- An entry of the buffer: an observation with its ids. -/
structure Entry (φ : Type) where
  observation : HumanObservation φ
  observationId : Str
  conversationId : Str
  turnId : Option Str
  seq : Nat
  presenceEvent : Option PresenceEvent

/-- Who said something. -/
inductive Role where
  | human
  | agent
deriving DecidableEq, Repr

/-- A record of `_conversation`. -/
structure Turn where
  role : Role
  text : Str
  ts : Seconds
  /-- In a turn of the agent. -/
  responseId : Option Str
  conversationId : Str

/-- A record of `_conversation_events`: a question that was answered. -/
structure RoundTrip where
  question : Str
  answer : Str
  /-- Not rounded here. -/
  roundTripS : Seconds
  ts : Seconds
  conversationId : Str
  turnId : Option Str
  observationId : Str

/-- A response that was recorded. -/
structure Response where
  response : AgentResponse
  responseId : Str
  inResponseTo : Option Str

end InteractionBus

/-- `InteractionBus`. -/
structure InteractionBus (φ : Type) where
  capacity : Nat
  buffer : List (InteractionBus.Entry φ)
  presence : Presence
  hasBeenPresent : Bool
  presenceChangedAt : Seconds
  rejected : Nat
  seq : Nat
  conversationId : Str
  obsSeq : Nat
  rspSeq : Nat
  turnSeq : Nat
  currentTurnId : Option Str
  lastResponse : Option InteractionBus.Response
  conversation : List InteractionBus.Turn
  lastQuestion : Option Str
  lastAnswer : Option Str
  /-- The text of a question and when it was asked. -/
  pendingQuestion : Option (Str × Seconds)
  conversationEvents : List InteractionBus.RoundTrip

/-- `deque.append` with a `maxlen`. -/
def pushBounded {α : Type} (bound : Nat) (l : List α) (a : α) : List α :=
  (l ++ [a]).drop ((l ++ [a]).length - bound)

/-- An id with its number. -/
def numbered (kind : String) (n : Nat) : Str := lit kind ++ (Literal.ofInt n).text

/-- `"conv-" + uuid`. -/
def conversationOf (uuid : Str) : Str := lit "conv-" ++ uuid

namespace InteractionBus

/-- `InteractionBus.__init__`. -/
def new (capacity : Int) (uuid : Str) : InteractionBus φ where
  capacity := (max 16 capacity).toNat
  buffer := []
  presence := .absent
  hasBeenPresent := false
  presenceChangedAt := 0
  rejected := 0
  seq := 0
  conversationId := conversationOf uuid
  obsSeq := 0
  rspSeq := 0
  turnSeq := 0
  currentTurnId := none
  lastResponse := none
  conversation := []
  lastQuestion := none
  lastAnswer := none
  pendingQuestion := none
  conversationEvents := []

/-- A rejected call. -/
def reject (b : InteractionBus φ) : InteractionBus φ := { b with rejected := b.rejected + 1 }

/-! ### Presence -/

/-- `present_implied`. -/
def presentImplied (o : HumanObservation φ) : Bool :=
  let denies (key : String) : Bool :=
    match getKey (lit key) o.payload with
    | some (.bool false) => true
    | _ => false
  !((o.type = lit "presence" && denies "present") ||
    (o.type = lit "visual" && denies "person_present"))

/-- `_DEBOUNCE_S`. -/
def debounce : Seconds := 3 / 2

/-- The change of presence that an observation brings about, if any. -/
def presenceChange (b : InteractionBus φ) (now : Seconds) (implied : Bool) :
    Option PresenceEvent :=
  if debounce ≤ |now - b.presenceChangedAt| then
    match implied, b.presence with
    | true, .absent => some (if b.hasBeenPresent then .userReturned else .userPresent)
    | false, .present => some .userLeft
    | _, _ => none
  else none

/-- What a change of presence does to the bus. -/
def changePresence (b : InteractionBus φ) (now : Seconds) (uuid : Str) :
    PresenceEvent → InteractionBus φ
  | .userPresent =>
      { b with presence := .present, presenceChangedAt := now, hasBeenPresent := true }
  | .userReturned =>
      { b with
        presence := .present
        presenceChangedAt := now
        hasBeenPresent := true
        conversationId := conversationOf uuid
        turnSeq := 0
        currentTurnId := none }
  | .userLeft => { b with presence := .absent, presenceChangedAt := now }

/-! ### Publishing -/

/-- `_ANSWER_TTL_S`. -/
def answerTtl : Seconds := 120

variable [Builtins φ]

/-- The words of a speech observation. -/
def transcriptOf (o : HumanObservation φ) : Str :=
  if o.type = lit "speech" then
    strip (strOf (orElse (fetch (lit "transcript") o.payload) (.str [])))
  else []

/-- The turn that words belong to, with the number of the last turn. -/
def turnFor (b : InteractionBus φ) : Str × Nat :=
  match b.currentTurnId with
  | some turn => (turn, b.turnSeq)
  | none => (numbered "turn-" (b.turnSeq + 1), b.turnSeq + 1)

/-- The question that words at this time are the answer to. -/
def answered? (b : InteractionBus φ) (now : Seconds) : Option (Str × Seconds) :=
  b.pendingQuestion.filter fun q => now - q.2 ≤ answerTtl

/-- What the bus keeps of an observation with words in it. -/
structure Heard (φ : Type) where
  entry : Entry φ
  turn : Turn
  event : Option RoundTrip

/-- The records of words that are heard. -/
def hear (b : InteractionBus φ) (o : HumanObservation φ) (now : Seconds)
    (change : Option PresenceEvent) : Heard φ :=
  let transcript := transcriptOf o
  let observationId := numbered "obs-" (b.obsSeq + 1)
  let payload := match b.answered? now with
    | some q => setKey (lit "answer_to") (.str q.1) o.payload
    | none => o.payload
  { entry :=
      { observation := { o with payload := payload }
        observationId := observationId
        conversationId := b.conversationId
        turnId := some b.turnFor.1
        seq := b.seq + 1
        presenceEvent := change }
    turn := ⟨.human, transcript, o.timestamp, none, b.conversationId⟩
    event := (b.answered? now).map fun q =>
      { question := q.1
        answer := transcript
        roundTripS := now - q.2
        ts := o.timestamp
        conversationId := b.conversationId
        turnId := some b.turnFor.1
        observationId := observationId } }

/-- The bus after words that are heard, before the change of presence. -/
def afterWords (b : InteractionBus φ) (h : Heard φ) : InteractionBus φ :=
  { b with
    seq := b.seq + 1
    obsSeq := b.obsSeq + 1
    turnSeq := b.turnFor.2
    currentTurnId := some b.turnFor.1
    lastAnswer := match h.event with
      | some e => some e.answer
      | none => b.lastAnswer
    conversationEvents := match h.event with
      | some e => pushBounded 8 b.conversationEvents e
      | none => b.conversationEvents
    pendingQuestion := none
    conversation := pushBounded 12 b.conversation h.turn
    buffer := pushBounded b.capacity b.buffer h.entry }

/-- The entry of an observation without words. -/
def silentEntry (b : InteractionBus φ) (o : HumanObservation φ) (change : Option PresenceEvent) :
    Entry φ where
  observation := o
  observationId := numbered "obs-" (b.obsSeq + 1)
  conversationId := b.conversationId
  turnId := none
  seq := b.seq + 1
  presenceEvent := change

/-- The bus after an observation without words. -/
def afterSilence (b : InteractionBus φ) (e : Entry φ) : InteractionBus φ :=
  { b with
    seq := b.seq + 1
    obsSeq := b.obsSeq + 1
    buffer := pushBounded b.capacity b.buffer e }

/-- What comes of a call of `publish`. -/
inductive Published (φ : Type) where
  | rejected (reason : Rejection)
  /-- An observation without words. -/
  | silent (entry : Entry φ)
  | heard (heard : Heard φ)

/-- `publish`.  `none` is no `HumanObservation`. -/
def publish (b : InteractionBus φ) (o : Option (HumanObservation φ)) (now : Seconds) (uuid : Str) :
    Published φ × InteractionBus φ :=
  match o with
  | none => (.rejected .notAnInstance, b.reject)
  | some o =>
      match o.validate with
      | some reason => (.rejected reason, b.reject)
      | none =>
          let change := b.presenceChange now (presentImplied o)
          let finish (b : InteractionBus φ) : InteractionBus φ :=
            match change with
            | some event => b.changePresence now uuid event
            | none => b
          if transcriptOf o = [] then
            let entry := b.silentEntry o change
            (.silent entry, finish (b.afterSilence entry))
          else
            let heard := b.hear o now change
            (.heard heard, finish (b.afterWords heard))

/-! ### Responding -/

/-- What comes of a call of `record_agent_response`. -/
inductive Recorded where
  | rejected (reason : Rejection)
  /-- A response that is no speech. -/
  | shown (response : Response)
  | said (response : Response) (turn : Turn)

omit [Builtins φ] in
/-- `record_agent_response`.  `spokenAt` and `askedAt` are the later readings of the clock.
A response that was accepted has content. -/
def recordAgentResponse (b : InteractionBus φ) (r : Option AgentResponse)
    (spokenAt askedAt : Seconds) : Recorded × InteractionBus φ :=
  match r with
  | none => (.rejected .notAnInstance, b.reject)
  | some r =>
      match r.validate with
      | some reason => (.rejected reason, b.reject)
      | none =>
          let responseId := numbered "rsp-" (b.rspSeq + 1)
          let response : Response := ⟨r, responseId, b.currentTurnId⟩
          let b := { b with rspSeq := b.rspSeq + 1, lastResponse := some response }
          if r.type = lit "speech" then
            let turn : Turn := ⟨.agent, r.content, spokenAt, some responseId, b.conversationId⟩
            (.said response turn,
              { b with
                conversation := pushBounded 12 b.conversation turn
                currentTurnId := none
                lastQuestion := if r.expectsAnswer then some r.content else b.lastQuestion
                pendingQuestion :=
                  if r.expectsAnswer then some (r.content, askedAt) else b.pendingQuestion })
          else (.shown response, b)

/-- The calls on a bus. -/
inductive Op (φ : Type) where
  | publish (observation : Option (HumanObservation φ)) (now : Seconds) (uuid : Str)
  | respond (response : Option AgentResponse) (spokenAt askedAt : Seconds)

/-- One call. -/
def step (b : InteractionBus φ) : Op φ → InteractionBus φ
  | .publish o now uuid => (b.publish o now uuid).2
  | .respond r spokenAt askedAt => (b.recordAgentResponse r spokenAt askedAt).2

end InteractionBus

end ShugoCore
