import ShugoCore.Mesh.Speech

/-!
# Forwarded turns

A node without the lease sends what the operator said to the primary.  The primary says
the text that came with the turn, or decides on one, and reports a status.  The node that
took the turn is silent if the status is `answered`, and answers itself otherwise.

The status of a decided turn says only that nothing was raised: the executors return
their refusals as results, and `_conversational_turn` drops them.

The work before the answer, the prompt, the decision, and what the conversation and the
listener do, are inputs.  So is the pattern of a measurement, for which any test of a
text may stand.
-/

namespace ShugoCore

open Py

/-- An exception with its message. -/
structure Failure where
  name : Str
  message : Str
deriving DecidableEq, Repr

/-- What a call of `_speak_turn` meets. -/
structure Voice where
  /-- `conversation.on_speak_begin`. -/
  begins : Except Failure Unit
  /-- `_mesh_may_act("speak_direct") or _turn_fallback_ok(self)`. -/
  mayAct : Bool
  listener : ListenerReply
  /-- `interaction.record_agent_response`. -/
  noted : Except Failure Unit
  /-- `conversation.on_speak_end`. -/
  ends : Except Failure Unit

/-- What a primary meets when it answers a turn. -/
structure TurnEnv (φ : Type) where
  speech : SpeechEnv φ
  /-- The one `_speak_turn` of the turn, if it comes to that. -/
  voice : Voice
  /-- The work before the answer, with the text of a deterministic one, or an empty text. -/
  prepared : Except Failure Str
  /-- The prompt and the task. -/
  prompted : Except Failure Unit
  /-- `make_decision(task) or {}`. -/
  decision : Except Exn (Obj φ)
  /-- `conversation.on_speak_begin` for the words of the decision. -/
  begins : Except Exn Unit
  /-- `_MEASUREMENT_CLAIM_RE.search`. -/
  claimsMeasurement : Str → Bool
  /-- The message of an exception. -/
  message : Exn → Str

/-- What came of a turn: the texts the listener was given, and the peers a delegation was
sent to. -/
structure Turned where
  result : Except Failure Unit
  spoken : List Str
  sentTo : List Str

/-- What came of a forwarded turn, with the report to the node that took it. -/
structure TurnOutcome (φ : Type) where
  reply : Option (Obj φ)
  spoken : List Str
  sentTo : List Str

variable {φ : Type}

/-! ## Speaking without a decision -/

/-- `_speak_direct`: whether it was delivered, and what the listener was given. -/
def speakDirect (env : TurnEnv φ) (text : Str) : Except Failure Bool × List Str :=
  if env.voice.mayAct && env.speech.view.hasListener then
    match env.voice.listener with
    | .raised _ _ => (.ok false, [sanitizeText text 400])
    | .delivered held => (env.voice.noted.map fun _ => held, [sanitizeText text 400])
  else (.ok false, [])

/-- `_speak_turn`, for a text that is not empty. -/
def speakTurn (env : TurnEnv φ) (text : Str) : Except Failure Bool × List Str :=
  match env.voice.begins with
  | .error failure => (.error failure, [])
  | .ok _ =>
      let (delivered, spoken) := speakDirect env text
      (do
        let held ← delivered
        env.voice.ends
        return held, spoken)

/-- The line of `_speak_fallback`. -/
def fallbackLine : Str := lit "I couldn't put that together just now — could you ask me again?"

/-- `_speak_fallback`.  What is raised in it is swallowed. -/
def speakFallback (env : TurnEnv φ) : Turned := ⟨.ok (), (speakTurn env fallbackLine).2, []⟩

/-! ## Decided turns -/

variable [Builtins φ]

/-- `_with_reply_prefer`. -/
def withReplyPrefer (decision : Obj φ) (replyPrefer : Str) (replyOrigin : Obj φ) :
    Except Exn (Obj φ) := do
  let params ← factsOf (fetch (lit "params") decision)
  return setKey (lit "params") (.dict (setKey (lit "reply_origin") (.dict replyOrigin)
    (setKey (lit "reply_prefer") (.str replyPrefer) params))) decision

/-- `_decision_text`. -/
def decisionText (decision : Obj φ) (key : Str) : Except Exn Str :=
  match orElse (fetch (lit "params") decision) (.dict []) with
  | .dict params =>
      match [key, lit "text", lit "utterance", lit "question"].find? fun k =>
          truthy (fetch k params) with
      | some k => return strOf (fetch k params)
      | none => return strOf (orElse (fetch (lit "text") decision) (.str []))
  | _ => throw .attributeError

/-- `_MEASUREMENT_REFUSAL`. -/
def measurementRefusal : Str :=
  lit "I can't measure that here — I have no weather service and no ambient sensor, so I won't guess a number."

/-- `_guard_fabricated_measurement`. -/
def guardFabricatedMeasurement (env : TurnEnv φ) (text : Str) : Str :=
  if strip text = [] then []
  else if env.claimsMeasurement (strip text) then measurementRefusal
  else strip text

/-- The parameters for the executor of `speak`, or none if there is nothing to say. -/
def speakParams (env : TurnEnv φ) (decision : Obj φ) : Except Exn (Option (Obj φ)) := do
  let text ← decisionText decision (lit "text")
  let spoken := guardFabricatedMeasurement env text
  if spoken = [] then return none
  else
    env.begins
    let params := dictOrEmpty (fetch (lit "params") decision)
    return some (if spoken = text then params else setKey (lit "text") (.str spoken) params)

/-- The parameters for the executor of `ask_user`. -/
def askParams (env : TurnEnv φ) (decision : Obj φ) : Except Exn (Obj φ) := do
  let asked ← decisionText decision (lit "question")
  if asked = [] then return dictOrEmpty (fetch (lit "params") decision)
  else
    env.begins
    return dictOrEmpty (fetch (lit "params") decision)

/-- What a decision has the primary do. -/
inductive Usable (φ : Type) where
  | speak (params : Obj φ)
  | askUser (params : Obj φ)

/-- The action of the decision with what its executor is given, or none if the decision is
of no use. -/
def usable (env : TurnEnv φ) (replyPrefer : Str) (replyOrigin : Obj φ) :
    Except Exn (Option (Usable φ)) := do
  let decision ← env.decision
  let decision ← if replyPrefer = [] then .ok decision
    else withReplyPrefer decision replyPrefer replyOrigin
  let actionType := fetch (lit "action_type") decision
  if isText (lit "speak") actionType then
    let params ← speakParams env decision
    return params.map .speak
  else if isText (lit "ask_user") actionType then
    let params ← askParams env decision
    return some (.askUser params)
  else return none

/-- Run the executor. -/
def Usable.execute (env : SpeechEnv φ) : Usable φ → Speech φ
  | .speak params => executeSpeak env params
  | .askUser params => executeAskUser env params

/-- What comes of the turn once the executor has returned or raised.  Its result is
dropped, and the fallback line is said after an exception. -/
def turnedOf (env : TurnEnv φ) (speech : Speech φ) : Turned :=
  match speech.result with
  | .ok _ => ⟨.ok (), speech.spoken, speech.sentTo⟩
  | .error _ => ⟨.ok (), speech.spoken ++ (speakFallback env).spoken, speech.sentTo⟩

/-- The part of `_conversational_turn` inside the `try`. -/
def decidedTurn (env : TurnEnv φ) (replyPrefer : Str) (replyOrigin : Obj φ) : Turned :=
  match usable env replyPrefer replyOrigin with
  | .error _ | .ok none => speakFallback env
  | .ok (some action) => turnedOf env (action.execute env.speech)

/-- `_conversational_turn` of a forwarded turn. -/
def conversationalTurn (env : TurnEnv φ) (replyPrefer : Str) (replyOrigin : Obj φ) : Turned :=
  match env.prepared with
  | .error failure => ⟨.error failure, [], []⟩
  | .ok localText =>
      if localText = [] then
        match env.prompted with
        | .error failure => ⟨.error failure, [], []⟩
        | .ok _ => decidedTurn env replyPrefer replyOrigin
      else
        let (delivered, spoken) := speakTurn env localText
        ⟨delivered.map fun _ => (), spoken, []⟩

/-! ## The primary -/

/-- `_deliver_forwarded_reply`: the reason why the origin will not hear it, or an empty
text, and the peer the frame was sent to. -/
def deliverForwardedReply (env : SpeechEnv φ) (replyTo : Str) (origin : Obj φ) :
    Except Exn (Str × List Str) := do
  match ← routeResponse env replyTo (some origin) with
  | none => return (lit "the origin was not a reachable mouth and no device was chosen", [])
  | some (peer, route) =>
      let sent := if statusOf route = lit "delegated" then [peer] else []
      if statusOf route = lit "delegated" ∧
          strOf (orElse (fetch (lit "delegated_to") route) (.str [])) = replyTo then
        return ([], sent)
      else
        return (lit "routed to " ++ strOf (orElse (fetch (lit "delegated_to") route) (textVal "nobody")) ++
          lit " (" ++ strOf (orElse (fetch (lit "status") route) (textVal "unknown")) ++
          lit "), not the origin", sent)

/-- The node that a turn is to be answered at. -/
def replyToOf (peer : Str) (payload : Obj φ) : Str :=
  let replyTo := strip (strOf (orElse (fetch (lit "reply_to") payload) (.str peer)))
  if replyTo = [] then peer else replyTo

/-- A text of the payload, without blanks around it. -/
def textOf (key : String) (payload : Obj φ) : Str :=
  strip (strOf (orElse (fetch (lit key) payload) (.str [])))

/-- What the turn says about the node it was taken at. -/
def turnOrigin (peer : Str) (payload : Obj φ) : Except Exn (Obj φ) := do
  let priority ← priorityOf (getOr "priority" (.int 500) payload)
  return obj [("device_id", .str (replyToOf peer payload)),
    ("facts", .dict (dictOrEmpty (fetch (lit "facts") payload))),
    ("can_speak", .bool (truthy (getOr "can_speak" (.bool true) payload))),
    ("priority", .int priority)]

/-- The report on a turn. -/
def turnReply (peer : Str) (payload : Obj φ) (status : String) (detail : Str) : Obj φ :=
  obj [("id", fetch (lit "id") payload), ("status", textVal status), ("detail", .str detail),
    ("reply_to", .str (replyToOf peer payload))]

/-- The detail for an exception. -/
def Failure.detail (failure : Failure) : Str :=
  (failure.name ++ lit ": " ++ failure.message).take 120

/-- `_answer_forwarded_turn`.  If the priority is no number, the thread ends without a
report. -/
def answerForwardedTurn (env : TurnEnv φ) (peer : Str) (payload : Obj φ) : TurnOutcome φ :=
  match turnOrigin peer payload with
  | .error _ => ⟨none, [], []⟩
  | .ok origin =>
      if textOf "transcript" payload = [] then
        ⟨some (turnReply peer payload "refused" (lit "empty transcript")), [], []⟩
      else if textOf "proposed_text" payload = [] then
        let turned := conversationalTurn env (replyToOf peer payload) origin
        match turned.result with
        | .ok _ =>
            ⟨some (turnReply peer payload "answered" (lit "decided and routed")),
              turned.spoken, turned.sentTo⟩
        | .error failure =>
            ⟨some (turnReply peer payload "error" failure.detail), turned.spoken, turned.sentTo⟩
      else
        match deliverForwardedReply env.speech (replyToOf peer payload) origin with
        | .error exn =>
            ⟨some (turnReply peer payload "error" (Failure.detail ⟨exn.name, env.message exn⟩)), [], []⟩
        | .ok (reason, sent) =>
            if reason = [] then
              ⟨some (turnReply peer payload "answered" (lit "proposed text relayed to the origin")),
                [], sent⟩
            else
              ⟨some (turnReply peer payload "error" (lit "not delivered: " ++ reason)), [], sent⟩

/-- The refusal of a node that does not have the lease. -/
def notMyTurn (primary : NodeName) (payload : Obj φ) : Obj φ :=
  obj [("id", fetch (lit "id") payload), ("status", textVal "refused"),
    ("reason", .str (lit "not the primary (" ++ primary.val ++ lit ")"))]

/-- `_handle_forwarded_turn`.  `primary` is `_turn_primary()`: another node that has the
lease. -/
def handleForwardedTurn (env : TurnEnv φ) (primary : Option NodeName) (peer : Str)
    (payload : PyVal φ) : TurnOutcome φ :=
  match payload with
  | .dict d =>
      match primary with
      | some p => ⟨some (notMyTurn p d), [], []⟩
      | none => answerForwardedTurn env peer d
  | _ => ⟨none, [], []⟩

/-! ## Answered turns -/

/-- Somebody was given the words: the listener of this node, or a device that took the
delegation. -/
def Given (accepts : Str → Prop) (spoken sentTo : List Str) : Prop :=
  spoken ≠ [] ∨ ∃ peer ∈ sentTo, accepts peer

/-- A turn that is reported as answered was said to somebody. -/
def AnsweredIsGiven (accepts : Str → Prop) (o : TurnOutcome φ) : Prop :=
  (∃ reply ∈ o.reply, statusOf reply = lit "answered") → Given accepts o.spoken o.sentTo

/-- This node can say a text without a decision. -/
def Voiced (env : TurnEnv φ) : Prop :=
  env.voice.mayAct = true ∧ env.speech.view.hasListener = true

/-- The fallback line is said. -/
def FallsBack (env : TurnEnv φ) : Prop := env.voice.begins = .ok () ∧ Voiced env

/-- The words of an action find somebody: the device that is chosen for them, or this node
if it is the closest, or if the frame cannot be sent. -/
def Placed (env : TurnEnv φ) (accepts : Str → Prop) (params : Obj φ) : Prop :=
  match selectResponseNode env.speech.view (preferOf params) (originOf params) with
  | .error _ => FallsBack env
  | .ok none => env.speech.view.hasListener = true
  | .ok (some chosen) =>
      if chosen.isSelf = false ∧ env.speech.send = .success then accepts chosen.deviceId
      else env.speech.view.hasListener = true

/-- The words of an action, as its executor reads them. -/
def Usable.text : Usable φ → Str
  | .speak params => speakText params
  | .askUser params => askText params

/-- The parameters of an action. -/
def Usable.params : Usable φ → Obj φ
  | .speak params | .askUser params => params

/-- A decided turn is said to somebody: the executor may act, it finds words in the decision, and
these are placed.  Without a decision of use it is the fallback line that is said. -/
def Decided (env : TurnEnv φ) (accepts : Str → Prop) (replyTo : Str) (origin : Obj φ) : Prop :=
  match usable env replyTo origin with
  | .error _ | .ok none => FallsBack env
  | .ok (some action) =>
      env.speech.mayAct = true ∧ action.text ≠ [] ∧ Placed env accepts action.params

/-- A turn that is not proposed ends in an exception, or is said to somebody. -/
def Answerable (env : TurnEnv φ) (accepts : Str → Prop) (replyTo : Str) (origin : Obj φ) : Prop :=
  ∀ localText, env.prepared = .ok localText →
    if localText = [] then env.prompted = .ok () → Decided env accepts replyTo origin
    else env.voice.begins = .ok () → env.voice.ends = .ok () → Voiced env

/-- The origin takes a proposal that is sent to it. -/
def Relayed (env : TurnEnv φ) (accepts : Str → Prop) (replyTo : Str) (origin : Obj φ) : Prop :=
  env.speech.send = .success →
    selectResponseNode env.speech.view replyTo (some origin) = .ok (some ⟨replyTo, false⟩) →
    accepts replyTo

/-- What has to be so for the report on a turn to be true. -/
def Truthful (env : TurnEnv φ) (accepts : Str → Prop) (peer : Str) (payload : Obj φ) : Prop :=
  ∀ origin, turnOrigin peer payload = .ok origin → textOf "transcript" payload ≠ [] →
    if textOf "proposed_text" payload = [] then
      Answerable env accepts (replyToOf peer payload) origin
    else Relayed env accepts (replyToOf peer payload) origin

theorem given_nil {accepts : Str → Prop} : ¬ Given accepts [] [] := by
  rintro (h | ⟨peer, hmem, -⟩)
  · exact h rfl
  · cases hmem

theorem given_spoken_iff {accepts : Str → Prop} {spoken : List Str} :
    Given accepts spoken [] ↔ spoken ≠ [] := by
  simp [Given]

theorem given_sent_iff {accepts : Str → Prop} {peer : Str} :
    Given accepts [] [peer] ↔ accepts peer := by
  simp [Given]

/-! ### The fallback line -/

section

omit [Builtins φ]

theorem speakDirect_spoken (env : TurnEnv φ) (text : Str) :
    (speakDirect env text).2 ≠ [] ↔ Voiced env := by
  rw [speakDirect, Voiced, ← Bool.and_eq_true]
  by_cases h : (env.voice.mayAct && env.speech.view.hasListener) = true
  · rw [if_pos h]
    cases env.voice.listener <;> simp [h]
  · rw [if_neg h]
    simp [h]

theorem speakTurn_spoken (env : TurnEnv φ) (text : Str) :
    (speakTurn env text).2 ≠ [] ↔ FallsBack env := by
  rw [speakTurn, FallsBack]
  cases hb : env.voice.begins with
  | error failure => simp
  | ok u => simp [speakDirect_spoken]

theorem speakTurn_begins {env : TurnEnv φ} {text : Str} {held : Bool}
    (h : (speakTurn env text).1 = .ok held) : env.voice.begins = .ok () := by
  rw [speakTurn] at h
  cases hb : env.voice.begins with
  | error failure =>
      rw [hb] at h
      cases h
  | ok u => rfl

/-- Without a listener, or without the right to speak, only the brackets of the turn can
raise. -/
theorem speakTurn_silent_ok {env : TurnEnv φ} (h : ¬ Voiced env) (text : Str) :
    (∃ held, (speakTurn env text).1 = .ok held) ↔
      env.voice.begins = .ok () ∧ env.voice.ends = .ok () := by
  have hdirect : speakDirect env text = (.ok false, []) := by
    rw [Voiced, ← Bool.and_eq_true] at h
    rw [speakDirect, if_neg h]
  rw [speakTurn]
  cases env.voice.begins with
  | error failure => simp
  | ok u =>
      simp only [hdirect]
      cases env.voice.ends with
      | error failure => simp [bind, Except.bind]
      | ok u' => simp [bind, Except.bind, pure, Except.pure]

end

/-! ### Decided turns -/

/-- The words are left to the listener of this node, and if there is none, that is no
exception. -/
structure LeftHere (env : SpeechEnv φ) (here : Speech φ) : Prop where
  notSent : here.sentTo = []
  heard : env.view.hasListener = true → here.spoken ≠ []
  silent : env.view.hasListener = false → here = .silent noOutput

section

omit [Builtins φ]

theorem leftHere_of {env : SpeechEnv φ} {heard : Speech φ} (hspoken : heard.spoken ≠ [])
    (hsent : heard.sentTo = []) :
    LeftHere env (if env.view.hasListener then heard else .silent noOutput) := by
  cases h : env.view.hasListener with
  | false => exact ⟨rfl, fun h' => Bool.noConfusion (h.symm.trans h'), fun _ => rfl⟩
  | true => exact ⟨hsent, fun _ => hspoken, fun h' => Bool.noConfusion (h.symm.trans h')⟩

theorem leftHere_speakHere (env : SpeechEnv φ) (text : Str) : LeftHere env (speakHere env text) := by
  apply leftHere_of
  · split <;> exact List.cons_ne_nil _ _
  · split <;> rfl

theorem leftHere_askHere (env : SpeechEnv φ) (text : Str) : LeftHere env (askHere env text) := by
  apply leftHere_of
  · split <;> exact List.cons_ne_nil _ _
  · split <;> rfl

theorem given_silent (env : TurnEnv φ) (accepts : Str → Prop) (result : Obj φ) :
    ¬ Given accepts (turnedOf env (.silent result)).spoken (turnedOf env (.silent result)).sentTo :=
  given_nil

theorem given_leftHere_iff {env : TurnEnv φ} {accepts : Str → Prop} {here : Speech φ}
    (h : LeftHere env.speech here) :
    Given accepts (turnedOf env here).spoken (turnedOf env here).sentTo ↔
      env.speech.view.hasListener = true := by
  cases hl : env.speech.view.hasListener with
  | false =>
      rw [h.silent hl]
      simp only [Bool.false_eq_true, iff_false]
      exact given_silent env accepts noOutput
  | true =>
      refine ⟨fun _ => rfl, fun _ => .inl ?_⟩
      rw [turnedOf]
      cases here.result with
      | ok r => exact h.heard hl
      | error exn => exact fun hnil => h.heard hl (List.append_eq_nil_iff.1 hnil).1

end

theorem given_routed_iff {env : TurnEnv φ} {accepts : Str → Prop} {params : Obj φ} {here : Speech φ}
    (h : LeftHere env.speech here) :
    Given accepts (turnedOf env (routed env.speech params here)).spoken
        (turnedOf env (routed env.speech params here)).sentTo ↔ Placed env accepts params := by
  rw [routed_eq, Placed]
  cases selectResponseNode env.speech.view (preferOf params) (originOf params) with
  | error exn =>
      have hspoken : (turnedOf env (⟨.error exn, [], []⟩ : Speech φ)).spoken =
          (speakTurn env fallbackLine).2 := rfl
      rw [hspoken, show (turnedOf env (⟨.error exn, [], []⟩ : Speech φ)).sentTo = [] from rfl,
        given_spoken_iff, speakTurn_spoken]
  | ok chosen =>
      cases chosen with
      | none => exact given_leftHere_iff h
      | some chosen =>
          by_cases hsent : chosen.isSelf = false ∧ env.speech.send = .success
          · simp only [if_pos hsent]
            exact given_sent_iff
          · simp only [if_neg hsent]
            exact given_leftHere_iff h

theorem given_guarded_iff {env : TurnEnv φ} {accepts : Str → Prop} {text : Str} {reason : String}
    {params : Obj φ} {here : Speech φ} (h : LeftHere env.speech here) :
    Given accepts (turnedOf env (guarded env.speech text reason params here)).spoken
        (turnedOf env (guarded env.speech text reason params here)).sentTo ↔
      env.speech.mayAct = true ∧ text ≠ [] ∧ Placed env accepts params := by
  rw [guarded]
  by_cases hact : env.speech.mayAct = true
  · rw [if_pos hact]
    by_cases htext : text = []
    · rw [if_pos htext]
      exact iff_of_false (given_silent env accepts _) fun h => h.2.1 htext
    · rw [if_neg htext, given_routed_iff h]
      exact ⟨fun h => ⟨hact, htext, h⟩, fun h => h.2.2⟩
  · rw [if_neg hact]
    exact iff_of_false (given_silent env accepts _) fun h => hact h.1

/-- The words of an action are given to somebody exactly if its executor may act, finds
them, and places them. -/
theorem given_execute_iff (env : TurnEnv φ) (accepts : Str → Prop) (action : Usable φ) :
    Given accepts (turnedOf env (action.execute env.speech)).spoken
        (turnedOf env (action.execute env.speech)).sentTo ↔
      env.speech.mayAct = true ∧ action.text ≠ [] ∧ Placed env accepts action.params := by
  cases action with
  | speak params =>
      rw [Usable.execute, executeSpeak_eq, given_guarded_iff (leftHere_speakHere env.speech _)]
      rfl
  | askUser params =>
      rw [Usable.execute, executeAskUser_eq, given_guarded_iff (leftHere_askHere env.speech _)]
      rfl

theorem given_decidedTurn_iff (env : TurnEnv φ) (accepts : Str → Prop) (replyTo : Str)
    (origin : Obj φ) :
    Given accepts (decidedTurn env replyTo origin).spoken (decidedTurn env replyTo origin).sentTo ↔
      Decided env accepts replyTo origin := by
  have hfallback : Given accepts (speakFallback env).spoken (speakFallback env).sentTo ↔
      FallsBack env := by
    rw [speakFallback, given_spoken_iff, speakTurn_spoken]
  rw [decidedTurn, Decided]
  cases usable env replyTo origin with
  | error exn => exact hfallback
  | ok action =>
      cases action with
      | none => exact hfallback
      | some action => exact given_execute_iff env accepts action

/-- Nothing is raised out of a decided turn. -/
theorem decidedTurn_result (env : TurnEnv φ) (replyTo : Str) (origin : Obj φ) :
    (decidedTurn env replyTo origin).result = .ok () := by
  rw [decidedTurn]
  cases usable env replyTo origin with
  | error exn => rfl
  | ok action =>
      cases action with
      | none => rfl
      | some action =>
          simp only [turnedOf]
          cases (action.execute env.speech).result <;> rfl

/-- A turn that returns is said to somebody exactly if it is answerable. -/
theorem given_conversationalTurn_iff (env : TurnEnv φ) (accepts : Str → Prop) (replyTo : Str)
    (origin : Obj φ) :
    ((conversationalTurn env replyTo origin).result = .ok () →
        Given accepts (conversationalTurn env replyTo origin).spoken
          (conversationalTurn env replyTo origin).sentTo) ↔
      Answerable env accepts replyTo origin := by
  rw [conversationalTurn, Answerable]
  cases env.prepared with
  | error failure => simp
  | ok localText =>
      simp only [Except.ok.injEq, forall_eq']
      by_cases htext : localText = []
      · simp only [if_pos htext]
        cases env.prompted with
        | error failure => simp
        | ok u =>
            simp only [decidedTurn_result, given_decidedTurn_iff, forall_const]
      · simp only [if_neg htext, given_spoken_iff, speakTurn_spoken]
        have hmap : ((speakTurn env localText).1.map fun _ => ()) = .ok () ↔
            ∃ held, (speakTurn env localText).1 = .ok held := by
          cases (speakTurn env localText).1 <;> simp [Except.map]
        rw [hmap]
        by_cases hv : Voiced env
        · refine iff_of_true ?_ fun _ _ => hv
          rintro ⟨held, hheld⟩
          exact ⟨speakTurn_begins hheld, hv⟩
        · rw [speakTurn_silent_ok hv]
          exact ⟨fun h hb he => absurd (h ⟨hb, he⟩).2 hv, fun h hbe => absurd (h hbe.1 hbe.2) hv⟩

/-! ### The report -/

theorem strOf_orElse_str (s : Str) : strOf (orElse (.str s) (.str []) : PyVal φ) = s := by
  rw [orElse_str, strOf]

theorem fetch_routeTo (env : SpeechEnv φ) (peer : Str) :
    fetch (lit "delegated_to") (routeTo env peer) = .str peer := by
  simp [fetch, routeTo]

/-- A proposal is relayed exactly if the origin is chosen and the frame to it is sent, and
otherwise there is a reason why not. -/
theorem deliverForwardedReply_cases (env : SpeechEnv φ) (replyTo : Str) (origin : Obj φ) :
    ((env.send = .success ∧
        selectResponseNode env.view replyTo (some origin) = .ok (some ⟨replyTo, false⟩)) ∧
      deliverForwardedReply env replyTo origin = .ok ([], [replyTo])) ∨
    (¬ (env.send = .success ∧
        selectResponseNode env.view replyTo (some origin) = .ok (some ⟨replyTo, false⟩)) ∧
      ∀ reason sent, deliverForwardedReply env replyTo origin = .ok (reason, sent) → reason ≠ []) := by
  rw [deliverForwardedReply, routeResponse_eq]
  cases selectResponseNode env.view replyTo (some origin) with
  | error exn => exact .inr ⟨fun h => (by cases h.2), fun reason sent h => by cases h⟩
  | ok chosen =>
      cases chosen with
      | none =>
          refine .inr ⟨fun h => (by cases h.2), fun reason sent h => ?_⟩
          cases h
          decide
      | some chosen =>
          obtain ⟨device, self⟩ := chosen
          cases self with
          | true =>
              refine .inr ⟨fun h => (by cases h.2), fun reason sent h => ?_⟩
              cases h
              decide
          | false =>
              simp only [Except.map, Option.bind_some, Bool.false_eq_true, if_false, bind, Except.bind,
                fetch_routeTo, strOf_orElse_str]
              rw [routeTo, statusOf_route]
              by_cases h : env.send = .success ∧ device = replyTo
              · obtain ⟨hsend, rfl⟩ := h
                refine .inl ⟨⟨hsend, rfl⟩, ?_⟩
                rw [if_pos hsend, if_pos ⟨rfl, rfl⟩, if_pos rfl]
                rfl
              · refine .inr ⟨fun h' => h ⟨h'.1, ?_⟩, ?_⟩
                · cases h'.2
                  rfl
                · rw [if_neg]
                  · intro reason sent h'
                    cases h'
                    simp [lit]
                  · rintro ⟨hs, hd⟩
                    refine h ⟨?_, hd⟩
                    by_contra hsend
                    rw [if_neg hsend, lit_inj] at hs
                    exact absurd hs (by decide)

theorem statusOf_turnReply (peer : Str) (payload : Obj φ) (status : String) (detail : Str) :
    statusOf (turnReply peer payload status detail) = lit status := by
  simp [statusOf, fetch, turnReply]

theorem answeredIsGiven_of_status {accepts : Str → Prop} {reply : Obj φ} {spoken sentTo : List Str}
    (h : statusOf reply ≠ lit "answered") :
    AnsweredIsGiven accepts ⟨some reply, spoken, sentTo⟩ := by
  rintro ⟨reply', hmem, hstatus⟩
  cases hmem
  exact absurd hstatus h

theorem answeredIsGiven_turnReply {accepts : Str → Prop} {peer : Str} {payload : Obj φ}
    {status : String} {detail : Str} {spoken sentTo : List Str} (h : status ≠ "answered") :
    AnsweredIsGiven accepts ⟨some (turnReply peer payload status detail), spoken, sentTo⟩ := by
  apply answeredIsGiven_of_status
  rw [statusOf_turnReply, Ne, lit_inj]
  exact h

theorem answeredIsGiven_answered_iff {accepts : Str → Prop} {peer : Str} {payload : Obj φ}
    {detail : Str} {spoken sentTo : List Str} :
    AnsweredIsGiven accepts ⟨some (turnReply peer payload "answered" detail), spoken, sentTo⟩ ↔
      Given accepts spoken sentTo :=
  ⟨fun h => h ⟨_, rfl, statusOf_turnReply ..⟩, fun h _ => h⟩

theorem answeredIsGiven_answerForwardedTurn_iff (env : TurnEnv φ) (accepts : Str → Prop) (peer : Str)
    (payload : Obj φ) :
    AnsweredIsGiven accepts (answerForwardedTurn env peer payload) ↔ Truthful env accepts peer payload := by
  rw [answerForwardedTurn, Truthful]
  cases turnOrigin peer payload with
  | error exn =>
      refine iff_of_true ?_ fun origin h => by cases h
      rintro ⟨reply, hmem, -⟩
      cases hmem
  | ok origin =>
      simp only [Except.ok.injEq, forall_eq']
      by_cases htranscript : textOf "transcript" payload = []
      · simp only [if_pos htranscript]
        exact iff_of_true (answeredIsGiven_turnReply (by decide)) fun h => absurd htranscript h
      · simp only [if_neg htranscript]
        by_cases hproposed : textOf "proposed_text" payload = []
        · simp only [if_pos hproposed]
          rw [← given_conversationalTurn_iff]
          cases (conversationalTurn env (replyToOf peer payload) origin).result with
          | error failure =>
              exact iff_of_true (answeredIsGiven_turnReply (by decide)) fun _ h => by cases h
          | ok u =>
              rw [answeredIsGiven_answered_iff]
              exact ⟨fun h _ _ => h, fun h => h htranscript rfl⟩
        · simp only [if_neg hproposed]
          rcases deliverForwardedReply_cases env.speech (replyToOf peer payload) origin with
            ⟨hsent, hdeliver⟩ | ⟨hnot, hreason⟩
          · simp only [hdeliver, if_true]
            rw [answeredIsGiven_answered_iff, given_sent_iff]
            exact ⟨fun h _ _ _ => h, fun h => h htranscript hsent.1 hsent.2⟩
          · refine iff_of_true ?_ fun _ hsend hchosen => absurd ⟨hsend, hchosen⟩ hnot
            cases hdeliver : deliverForwardedReply env.speech (replyToOf peer payload) origin with
            | error exn => exact answeredIsGiven_turnReply (by decide)
            | ok delivered =>
                obtain ⟨reason, sent⟩ := delivered
                simp only [if_neg (hreason reason sent hdeliver)]
                exact answeredIsGiven_turnReply (by decide)

/-- A forwarded turn that is reported as answered was said to somebody exactly if the
report is bound to be true: for a turn that this node takes and decides, the words it
comes to find a listener, or a device that takes them. -/
theorem answered_is_given_iff (env : TurnEnv φ) (accepts : Str → Prop) (primary : Option NodeName)
    (peer : Str) (payload : PyVal φ) :
    AnsweredIsGiven accepts (handleForwardedTurn env primary peer payload) ↔
      ∀ d, payload = .dict d → primary = none → Truthful env accepts peer d := by
  cases payload with
  | dict d =>
      simp only [PyVal.dict.injEq, forall_eq']
      cases primary with
      | some p =>
          refine iff_of_true (answeredIsGiven_of_status ?_) fun h => by cases h
          simp [statusOf, fetch, notMyTurn]
      | none =>
          rw [← answeredIsGiven_answerForwardedTurn_iff]
          exact ⟨fun h _ => h, fun h => h rfl⟩
  | none | bool _ | int _ | float _ | str _ | list _ =>
      refine iff_of_true ?_ fun d h => by cases h
      rintro ⟨reply, hmem, -⟩
      cases hmem

/-! ## How much is said -/

/-- What holds of each way an executor can end holds of the executor. -/
theorem Usable.execute_induction {env : SpeechEnv φ} {P : Speech φ → Prop}
    (silent : ∀ result, P (.silent result)) (raised : ∀ exn, P ⟨.error exn, [], []⟩)
    (sent : ∀ peer, P ⟨.ok (routeTo env peer), [], [peer]⟩) (spoken : ∀ text, P (speakHere env text))
    (asked : ∀ text, P (askHere env text)) (action : Usable φ) : P (action.execute env) := by
  have hrouted : ∀ params here, P here → P (routed env params here) := by
    intro params here h
    rw [routed_eq]
    split
    · exact raised _
    · exact h
    · split
      · exact sent _
      · exact h
  have hguarded : ∀ text reason params here, P here → P (guarded env text reason params here) := by
    intro text reason params here h
    rw [guarded]
    split
    · split
      · exact silent _
      · exact hrouted params here h
    · exact silent _
  cases action with
  | speak params => exact hguarded _ _ params _ (spoken _)
  | askUser params => exact hguarded _ _ params _ (asked _)

/-- An executor gives its words to the listener or to one device, and not to both. -/
theorem Usable.execute_single (env : SpeechEnv φ) (action : Usable φ) :
    (action.execute env).spoken.length + (action.execute env).sentTo.length ≤ 1 := by
  refine Usable.execute_induction (P := fun o => o.spoken.length + o.sentTo.length ≤ 1)
    (fun _ => Nat.zero_le 1) (fun _ => Nat.zero_le 1) (fun _ => Nat.le_refl 1) ?_ ?_ action
  · intro text
    rw [speakHere]
    split
    · split <;> exact Nat.le_refl 1
    · exact Nat.zero_le 1
  · intro text
    rw [askHere]
    split
    · split <;> exact Nat.le_refl 1
    · exact Nat.zero_le 1

/-- An executor that has spoken raises only if the recording of the speech does. -/
theorem Usable.execute_raised {env : SpeechEnv φ} (hnoted : env.noted = .ok ()) {action : Usable φ}
    {exn : Exn} (h : (action.execute env).result = .error exn) : (action.execute env).spoken = [] := by
  revert h
  refine Usable.execute_induction (P := fun o => o.result = .error exn → o.spoken = [])
    (fun _ _ => rfl) (fun _ _ => rfl) (fun _ _ => rfl) ?_ ?_ action
  · intro text h
    rw [speakHere] at h ⊢
    rw [hnoted] at h
    split at h
    · split at h <;> cases h
    · cases h
  · intro text h
    rw [askHere] at h ⊢
    rw [hnoted] at h
    split at h
    · split at h <;> cases h
    · cases h

omit [Builtins φ] in
/-- `_speak_turn` says one text at most, and none if the fallback line cannot be said. -/
theorem speakTurn_spoken_le (env : TurnEnv φ) (text : Str) :
    (speakTurn env text).2.length ≤ 1 ∧ (¬ FallsBack env → (speakTurn env text).2 = []) := by
  refine ⟨?_, fun h => not_not.1 fun hne => h ((speakTurn_spoken env text).1 hne)⟩
  rw [speakTurn]
  split
  · exact Nat.zero_le 1
  · show (speakDirect env text).2.length ≤ 1
    rw [speakDirect]
    split
    · split <;> exact Nat.le_refl 1
    · exact Nat.zero_le 1

/-- An answer of the origin is one text: the fallback line does not follow words whose
recording raised. -/
def OneText (localText : Str) (env : TurnEnv φ) : Prop :=
  localText = [] → env.speech.noted = .ok () ∨ ¬ FallsBack env

instance (env : TurnEnv φ) : Decidable (FallsBack env) :=
  inferInstanceAs (Decidable (env.voice.begins = .ok () ∧ env.voice.mayAct = true ∧
    env.speech.view.hasListener = true))

instance (localText : Str) (env : TurnEnv φ) : Decidable (OneText localText env) :=
  inferInstanceAs (Decidable (localText = [] → env.speech.noted = .ok () ∨ ¬ FallsBack env))

omit [Builtins φ] in
theorem turnedOf_sentTo (env : TurnEnv φ) (speech : Speech φ) :
    (turnedOf env speech).sentTo = speech.sentTo := by
  rw [turnedOf]
  split <;> rfl

/-- A turn gives the listener one text at most. -/
theorem conversationalTurn_spoken_le {env : TurnEnv φ} {localText : Str}
    (hlocal : env.prepared = .ok localText) (h : OneText localText env) (replyPrefer : Str)
    (replyOrigin : Obj φ) :
    (conversationalTurn env replyPrefer replyOrigin).spoken.length ≤ 1 := by
  rw [conversationalTurn, hlocal]
  by_cases htext : localText = []
  · simp only [if_pos htext]
    split
    · exact Nat.zero_le 1
    · have hfallback := speakTurn_spoken_le env fallbackLine
      rw [decidedTurn]
      split
      · exact hfallback.1
      · exact hfallback.1
      · rename_i action _
        have hsingle := Usable.execute_single env.speech action
        rw [turnedOf]
        split
        · show (action.execute env.speech).spoken.length ≤ 1
          omega
        · rename_i exn hexn
          show ((action.execute env.speech).spoken ++ (speakTurn env fallbackLine).2).length ≤ 1
          rw [List.length_append]
          rcases h htext with hnoted | hno
          · rw [Usable.execute_raised hnoted hexn, List.length_nil, Nat.zero_add]
            exact hfallback.1
          · rw [hfallback.2 hno, List.length_nil]
            omega
  · simp only [if_neg htext]
    exact (speakTurn_spoken_le env localText).1

theorem deliverForwardedReply_sent_le {env : SpeechEnv φ} {replyTo : Str} {origin : Obj φ}
    {reason : Str} {sent : List Str}
    (h : deliverForwardedReply env replyTo origin = .ok (reason, sent)) : sent.length ≤ 1 := by
  rw [deliverForwardedReply] at h
  cases hroute : routeResponse env replyTo (some origin) with
  | error exn =>
      rw [hroute] at h
      cases h
  | ok route =>
      rw [hroute] at h
      cases route with
      | none =>
          cases h
          exact Nat.zero_le 1
      | some route =>
          have hsent : sent = [route.1] ∨ sent = [] := by
            simp only [bind, Except.bind, pure, Except.pure] at h
            split at h <;> cases h <;> split <;> simp
          rcases hsent with rfl | rfl
          · exact Nat.le_refl 1
          · exact Nat.zero_le 1

/-- The reply to a forwarded turn is sent to one device at most. -/
theorem answerForwardedTurn_sentTo_le (env : TurnEnv φ) (peer : Str) (payload : Obj φ) :
    (answerForwardedTurn env peer payload).sentTo.length ≤ 1 := by
  have hturn : ∀ replyTo origin, (conversationalTurn env replyTo origin).sentTo.length ≤ 1 := by
    intro replyTo origin
    rw [conversationalTurn]
    split
    · exact Nat.zero_le 1
    · split
      · split
        · exact Nat.zero_le 1
        · rw [decidedTurn]
          split
          · exact Nat.zero_le 1
          · exact Nat.zero_le 1
          · rename_i action _
            have hsingle := Usable.execute_single env.speech action
            rw [turnedOf_sentTo]
            omega
      · exact Nat.zero_le 1
  rw [answerForwardedTurn]
  split
  · exact Nat.zero_le 1
  · rename_i origin _
    split
    · exact Nat.zero_le 1
    · split
      · dsimp only
        split <;> exact hturn _ origin
      · split
        · exact Nat.zero_le 1
        · rename_i hdeliver
          have hsent := deliverForwardedReply_sent_le hdeliver
          split <;> exact hsent

/-! ## A silent answer -/

/-- A hub that has the lease and no listener.  It decides to say hello. -/
def hubEnv : TurnEnv WholeFloat where
  speech :=
    { view :=
        { nodeId := lit "hub"
          priority := 10
          lastObservation := .dict []
          telemetry := .dict []
          policy := .dict []
          terminalRecent := false
          attention := none
          peerTts := []
          hasListener := false
          wallTime := 0 }
      mayAct := true
      primary := textVal "hub"
      send := .success
      sendMessage := .none
      listener := .delivered true
      noted := .ok ()
      questionTtl := .int 120 }
  voice := ⟨.ok (), true, .delivered true, .ok (), .ok ()⟩
  prepared := .ok []
  prompted := .ok ()
  decision := .ok (obj [("action_type", textVal "speak"),
    ("params", .dict (obj [("text", textVal "hello")]))])
  begins := .ok ()
  claimsMeasurement := fun _ => false
  message := fun _ => []

/-- What the hub makes of a turn of a terminal, which cannot speak either. -/
def terminalTurn : TurnOutcome WholeFloat :=
  handleForwardedTurn hubEnv none (lit "terminal") (.dict (obj [("id", textVal "turn-1"),
    ("transcript", textVal "are you there"), ("reply_to", textVal "terminal"),
    ("can_speak", .bool false)]))

/-- The turn is reported as answered, and no listener and no device was given a word. -/
theorem silent_turn_reported_answered :
    terminalTurn.reply.map statusOf = some (lit "answered") ∧ terminalTurn.spoken = [] ∧
      terminalTurn.sentTo = [] ∧ ¬ AnsweredIsGiven (fun _ => True) terminalTurn := by
  have hstatus : terminalTurn.reply.map statusOf = some (lit "answered") := by decide +kernel
  have hspoken : terminalTurn.spoken = [] := by decide +kernel
  have hsent : terminalTurn.sentTo = [] := by decide +kernel
  refine ⟨hstatus, hspoken, hsent, fun h => ?_⟩
  obtain ⟨reply, hreply, hanswered⟩ := Option.map_eq_some_iff.1 hstatus
  have hgiven := h ⟨reply, hreply, hanswered⟩
  rw [hspoken, hsent] at hgiven
  exact given_nil hgiven

end ShugoCore
