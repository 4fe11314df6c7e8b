import ShugoCore.Mesh.Authority
import ShugoCore.Mesh.Delegation
import ShugoCore.Mesh.Routing
import ShugoCore.Security

/-!
# Speech and who it goes to

The executors of `speak` and `ask_user`, and `_handle_delegated_action`, which runs them
for the primary.  Both send the words to the device that is closest to the operator, and
to the listener of this node if there is none or if the frame cannot be sent.  That
is so for a delegated action too, although the primary has chosen this node already.

What happens outside is an input: the guard, the send of the frame, what the listener
does, and whether the recording of the speech raises.
-/

namespace ShugoCore

open Py

/-! ## The words -/

/-- Where a text is cut off: after the last end of a sentence in the second half. -/
def sentenceEnd (limit : Nat) (cut : Str) : Option Nat :=
  [". ", "! ", "? ", ".", "!", "?"].findSome? fun sep =>
    (rfind (lit sep) cut).filter fun pos => limit / 2 < pos

/-- `truncate_sentence`. -/
def truncateSentence (text : Str) (limit : Nat) : Str :=
  let cleaned := sanitizeText text (limit * 2)
  if cleaned.length ≤ limit then cleaned
  else
    let cut := cleaned.take limit
    match sentenceEnd limit cut with
    | some pos => rstrip (cut.take (pos + 1))
    | none =>
        match (rfind [32] cut).filter fun pos => limit / 2 < pos with
        | some pos => rstrip (cut.take pos)
        | none => rstrip cut

/-- What `listener.speak` does: it says whether it has the text, or it raises. -/
inductive ListenerReply where
  | delivered (held : Bool)
  | raised (name message : Str)
deriving DecidableEq, Repr

/-- A node that is about to speak. -/
structure SpeechEnv (φ : Type) where
  view : RouterView φ
  /-- `_mesh_may_act(...) or _turn_fallback_ok(self)`. -/
  mayAct : Bool
  /-- `mesh_election.primary()`, for the refusal. -/
  primary : PyVal φ
  /-- What `runtime.send` does with a delegation, and the message if it fails. -/
  send : SendOutcome
  sendMessage : PyVal φ
  /-- What the listener does, if there is one. -/
  listener : ListenerReply
  /-- The interaction bus, the memory and the conversation take note of the speech. -/
  noted : Except Exn Unit
  questionTtl : PyVal φ

/-- What an executor did: its result, the texts the listener was given, and the peers a
delegation was sent to. -/
structure Speech (φ : Type) where
  result : Except Exn (Obj φ)
  spoken : List Str
  sentTo : List Str

variable {φ : Type} [Builtins φ]

/-- A text as a value. -/
def textVal (s : String) : PyVal φ := .str (lit s)

/-- Nothing was said and nothing was sent. -/
def Speech.silent (result : Obj φ) : Speech φ := ⟨.ok result, [], []⟩

/-- The refusal of the guard. -/
def refusedFollower (env : SpeechEnv φ) : Obj φ :=
  obj [("status", textVal "refused"), ("reason", textVal "mesh_follower"), ("primary", env.primary)]

/-- There is no listener. -/
def noOutput : Obj φ :=
  obj [("status", textVal "no_output"),
    ("reason", textVal "no speech provider attached; actions are never simulated")]

/-- The reason that is reported for a listener that raised. -/
def listenerFailed (name message : Str) : Str :=
  (lit "speak_listener_failed: " ++ name ++ lit ": " ++ message).take 200

/-- The last part of `_execute_speak`: the listener of this node. -/
def speakHere (env : SpeechEnv φ) (text : Str) : Speech φ :=
  if env.view.hasListener then
    match env.listener with
    | .raised name message =>
        ⟨.ok (obj [("status", textVal "error"), ("message", .str name),
          ("reason", .str (listenerFailed name message))]),
          [text], []⟩
    | .delivered false =>
        ⟨.ok (obj [("status", textVal "error"), ("spoken", .str text), ("delivered", .bool false),
          ("reason", textVal "speak_listener_returned_false")]), [text], []⟩
    | .delivered true =>
        ⟨env.noted.map fun _ => obj [("status", textVal "success"), ("spoken", .str text),
          ("delivered", .bool true)], [text], []⟩
  else .silent noOutput

/-- The last part of `_execute_ask_user`.  A listener that does not hold the text is no
error here. -/
def askHere (env : SpeechEnv φ) (text : Str) : Speech φ :=
  if env.view.hasListener then
    match env.listener with
    | .raised name _ =>
        ⟨.ok (obj [("status", textVal "error"), ("message", .str name)]), [text], []⟩
    | .delivered held =>
        ⟨env.noted.map fun _ => obj [("status", textVal "success"), ("asked", .str text),
          ("delivered", .bool held), ("awaiting_answer", .bool true),
          ("answer_ttl_s", env.questionTtl)], [text], []⟩
  else .silent noOutput

/-- `_mesh_delegate`, as the executors see it. -/
def meshDelegate (env : SpeechEnv φ) (peer : Str) : Obj φ :=
  match env.send with
  | .noRuntime => obj [("status", textVal "error"), ("message", textVal "no mesh runtime")]
  | .raised => obj [("status", textVal "error"), ("message", env.sendMessage)]
  | .refused =>
      obj [("status", textVal "error"),
        ("message", orElse env.sendMessage (textVal "delegate send failed"))]
  | .success => obj [("status", textVal "delegated"), ("peer", .str peer)]

/-- `_route_response`: the device that was chosen with the outcome of the delegation, or
none if this node answers. -/
def routeResponse (env : SpeechEnv φ) (prefer : Str) (origin : Option (Obj φ)) :
    Except Exn (Option (Str × Obj φ)) := do
  match ← selectResponseNode env.view prefer origin with
  | none => return none
  | some chosen =>
      if chosen.isSelf then return none
      else return some (chosen.deviceId,
        setKey (lit "delegated_to") (.str chosen.deviceId) (meshDelegate env chosen.deviceId))

/-- The status of a result, as a text. -/
def statusOf (result : Obj φ) : Str := strOf (fetch (lit "status") result)

@[simp] theorem statusOf_obj (v : PyVal φ) (items : List (String × PyVal φ)) :
    statusOf (obj (("status", v) :: items)) = strOf v := by
  simp [statusOf, fetch]

@[simp] theorem strOf_textVal (s : String) : strOf (textVal s : PyVal φ) = lit s := rfl

/-- `reply_prefer` of the parameters. -/
def preferOf (params : Obj φ) : Str := strOf (orElse (fetch (lit "reply_prefer") params) (.str []))

/-- `reply_origin` of the parameters, if it is a dictionary. -/
def originOf (params : Obj φ) : Option (Obj φ) :=
  match fetch (lit "reply_origin") params with
  | .dict d => some d
  | _ => none

/-- The common part of the executors: to the closest device, or else here. -/
def routed (env : SpeechEnv φ) (params : Obj φ) (here : Speech φ) : Speech φ :=
  match routeResponse env (preferOf params) (originOf params) with
  | .error exn => ⟨.error exn, [], []⟩
  | .ok none => here
  | .ok (some (peer, route)) =>
      if statusOf route ∈ [lit "delegated", lit "success"] then ⟨.ok route, [], [peer]⟩ else here

/-- The text of a `speak`. -/
def speakText (params : Obj φ) : Str :=
  truncateSentence (strOf (orElse (orElse (fetch (lit "text") params)
    (fetch (lit "utterance") params)) (.str []))) 400

/-- The text of an `ask_user`. -/
def askText (params : Obj φ) : Str :=
  truncateSentence (strOf (orElse (orElse (orElse (fetch (lit "question") params)
    (fetch (lit "text") params)) (fetch (lit "utterance") params)) (.str []))) 400

/-- `_execute_speak`. -/
def executeSpeak (env : SpeechEnv φ) (params : Obj φ) : Speech φ :=
  if env.mayAct then
    if speakText params = [] then
      .silent (obj [("status", textVal "refused"), ("reason", textVal "empty speech content")])
    else routed env params (speakHere env (speakText params))
  else .silent (refusedFollower env)

/-- `_execute_ask_user`. -/
def executeAskUser (env : SpeechEnv φ) (params : Obj φ) : Speech φ :=
  if env.mayAct then
    if askText params = [] then
      .silent (obj [("status", textVal "refused"), ("reason", textVal "empty question")])
    else routed env params (askHere env (askText params))
  else .silent (refusedFollower env)

/-! ## Delegated actions -/

/-- `DELEGATABLE_ACTIONS`. -/
def delegatableActions : List Str := [lit "speak", lit "ask_user", lit "mesh_rpc", lit "dev_task"]

/-- What `_handle_delegated_action` did: its reply, if it sent one, and what the executor
did. -/
structure Handled (φ : Type) where
  reply : Option (Obj φ)
  spoken : List Str
  sentTo : List Str

/-- The refusal of a sender that is not the primary. -/
def notPrimaryReason (primary : Option NodeName) (peer : Str) : Str :=
  lit "sender is not the primary (mine is " ++
    (match primary with
      | some p => p.val
      | none => lit "unknown") ++ lit ", sender " ++ peer ++ lit ")"

/-- The result that is reported for what an executor returned or raised. -/
def resultOf (result : Except Exn (Obj φ)) : Obj φ :=
  match result with
  | .ok r => r
  | .error exn => obj [("status", textVal "error"), ("message", .str exn.name)]

/-- The reply that reports a result. -/
def reportOf (payload : Obj φ) (actionType : Str) (result : Obj φ) : Obj φ :=
  obj [("id", fetch (lit "id") payload), ("status", fetch (lit "status") result),
    ("action_type", .str actionType), ("delivered", fetch (lit "delivered") result),
    ("reason", orElse (fetch (lit "reason") result) (fetch (lit "message") result))]

/-- `params` of a payload, if it is a dictionary. -/
def paramsOf (payload : Obj φ) : Obj φ := dictOrEmpty (fetch (lit "params") payload)

/-- `action_type` of a payload. -/
def actionTypeOf (payload : Obj φ) : Str :=
  strOf (orElse (fetch (lit "action_type") payload) (.str []))

/-- The executor of an action.  `other` is what those of `mesh_rpc` and `dev_task` do. -/
def executor (env : SpeechEnv φ) (other : Except Exn (Obj φ)) (actionType : Str) (params : Obj φ) :
    Speech φ :=
  if actionType = lit "speak" then executeSpeak env params
  else if actionType = lit "ask_user" then executeAskUser env params
  else ⟨other, [], []⟩

/-- `_handle_delegated_action`, with the primary that the election names. -/
def handleDelegatedAction (env : SpeechEnv φ) (other : Except Exn (Obj φ))
    (primary : Option NodeName) (peer : Str) (payload : PyVal φ) : Handled φ :=
  match payload with
  | .dict d =>
      if (primary.map Subtype.val) = some peer then
        if actionTypeOf d ∈ delegatableActions then
          let speech := executor env other (actionTypeOf d) (paramsOf d)
          ⟨some (reportOf d (actionTypeOf d) (resultOf speech.result)), speech.spoken, speech.sentTo⟩
        else
          ⟨some (obj [("id", fetch (lit "id") d), ("status", textVal "refused"),
            ("reason", .str (lit "action '" ++ actionTypeOf d ++ lit "' is not delegatable"))]), [], []⟩
      else
        ⟨some (obj [("id", fetch (lit "id") d), ("status", textVal "refused"),
          ("reason", .str (notPrimaryReason primary peer))]), [], []⟩
  | v =>
      -- `(payload or {}).get("id")` of the refusal raises for a value that is true
      if (primary.map Subtype.val) = some peer ∨ truthy v then ⟨none, [], []⟩
      else
        ⟨some (obj [("id", .none), ("status", textVal "refused"),
          ("reason", .str (notPrimaryReason primary peer))]), [], []⟩

/-! ## Where delegated speech ends -/

/-- A delegated utterance ends at its addressee: it is sent on to nobody, and either the
listener of this node is given the text, or the reply reports neither success nor a
delegation. -/
def EndsHere (text : Str) (h : Handled φ) : Prop :=
  h.sentTo = [] ∧ (h.spoken = [text] ∨
    ∀ reply ∈ h.reply, statusOf reply ≠ lit "success" ∧ statusOf reply ≠ lit "delegated")

/-- The text of a delegated utterance. -/
def utterance (actionType : Str) (params : Obj φ) : Str :=
  if actionType = lit "speak" then speakText params else askText params

/-- The candidates for an answer: this node, the peers that it knows and the node that took the turn. -/
def answerCandidates (view : RouterView φ) (params : Obj φ) : Except Exn (List (Candidate φ)) := do
  withOrigin (← responseCandidates view) (strip (preferOf params)) (originOf params)

/-- The `response_target` of the policy. -/
def responseTarget (view : RouterView φ) : PyVal φ :=
  orElse (fetch (lit "response_target") (dictOrEmpty view.policy)) (.str (lit "auto"))

/-- The target is a device. -/
def Targets (target : PyVal φ) : Prop :=
  truthy target = true ∧ strip (strOf target) ≠ [] ∧ strip (strOf target) ≠ lit "auto"

instance (target : PyVal φ) : Decidable (Targets target) := inferInstanceAs (Decidable (_ ∧ _))

/-- Of the candidates another device is the one to speak: the preferred one, if that can speak.
Otherwise the target, if it is a device, and else the first one that can speak in the order of
`rank`, if its score is high enough. -/
def BestElsewhere (candidates : List (Candidate φ)) (preferred : Str) (target : PyVal φ) : Prop :=
  match (candidates.find? fun c => preferred ≠ [] ∧ c.deviceId = preferred).filter Candidate.canSpeak with
  | some c => c.isSelf = false
  | none => ∃ ranked, rank candidates = .ok ranked ∧ ∃ best,
      best.canSpeak = true ∧ best.isSelf = false ∧
        if Targets target then ranked.find? (fun c => c.deviceId = strip (strOf target)) = some best
        else ranked.find? Scored.canSpeak = some best ∧ 1 / 5 ≤ best.score

/-- The guards let the words through, another device is the one to speak, and the frame to it is
sent. -/
def PassesOn (env : SpeechEnv φ) (actionType : Str) (params : Obj φ) : Prop :=
  env.mayAct = true ∧ utterance actionType params ≠ [] ∧ env.send = .success ∧
    ∃ candidates, answerCandidates env.view params = .ok candidates ∧
      BestElsewhere candidates (strip (preferOf params)) (responseTarget env.view)

omit [Builtins φ] in
theorem chosen_filter_iff {found : Option Scored} {p : Scored → Bool} :
    (∃ chosen, (found.filter p).map (fun c => (⟨c.deviceId, c.isSelf⟩ : Chosen)) = some chosen ∧
      chosen.isSelf = false) ↔ ∃ best, p best = true ∧ best.isSelf = false ∧ found = some best := by
  cases found with
  | none => simp
  | some best =>
      rw [Option.filter_some]
      split
      · rename_i hp
        simp [hp]
      · rename_i hp
        simp [hp]

/-- The router chooses another device if and only if that is the one to speak. -/
theorem chosen_elsewhere_iff (view : RouterView φ) (params : Obj φ) :
    (∃ chosen, selectResponseNode view (preferOf params) (originOf params) = .ok (some chosen) ∧
        chosen.isSelf = false) ↔
      ∃ candidates, answerCandidates view params = .ok candidates ∧
        BestElsewhere candidates (strip (preferOf params)) (responseTarget view) := by
  have hselect : selectResponseNode view (preferOf params) (originOf params) =
      answerCandidates view params >>= fun candidates =>
        match (candidates.find? fun c => strip (preferOf params) ≠ [] ∧
            c.deviceId = strip (preferOf params)).filter Candidate.canSpeak with
        | some c => .ok (some ⟨c.deviceId, c.isSelf⟩)
        | none => (select candidates (responseTarget view)).map fun best =>
            best.map fun c => ⟨c.deviceId, c.isSelf⟩ := by
    rw [selectResponseNode, answerCandidates]
    cases responseCandidates view <;> rfl
  rw [hselect]
  cases answerCandidates view params with
  | error exn => simp [bind, Except.bind]
  | ok candidates =>
      simp only [bind, Except.bind, Except.ok.injEq, exists_eq_left', BestElsewhere]
      split
      · simp
      · rw [select]
        cases rank candidates with
        | error exn => simp [bind, Except.bind, Except.map]
        | ok ranked =>
            simp only [bind, Except.bind, Except.ok.injEq, exists_eq_left']
            by_cases htarget : Targets (responseTarget view)
            · rw [if_pos (show truthy _ = true ∧ _ ∧ _ from htarget)]
              simp only [if_pos htarget, Except.map, pure, Except.pure, Except.ok.injEq]
              exact chosen_filter_iff
            · rw [if_neg (show ¬ (truthy _ = true ∧ _ ∧ _) from htarget)]
              simp only [if_neg htarget, Except.map, pure, Except.pure, Except.ok.injEq]
              rw [chosen_filter_iff]
              constructor
              · rintro ⟨best, hscore, hself, hfound⟩
                exact ⟨best, List.find?_some hfound, hself, hfound, by simpa using hscore⟩
              · rintro ⟨best, -, hself, hfound, hscore⟩
                exact ⟨best, by simpa using hscore, hself, hfound⟩

theorem statusOf_route (env : SpeechEnv φ) (peer : Str) :
    statusOf (setKey (lit "delegated_to") (.str peer) (meshDelegate env peer)) =
      if env.send = .success then lit "delegated" else lit "error" := by
  have hne : lit "delegated_to" ≠ lit "status" := by decide
  have hkeep : statusOf (setKey (lit "delegated_to") (.str peer) (meshDelegate env peer)) =
      statusOf (meshDelegate env peer) := by
    rw [statusOf, statusOf, fetch, fetch, getKey_setKey_of_ne hne]
  rw [hkeep, meshDelegate]
  cases env.send <;> simp

/-- The route to a device that was chosen. -/
def routeTo (env : SpeechEnv φ) (peer : Str) : Obj φ :=
  setKey (lit "delegated_to") (.str peer) (meshDelegate env peer)

theorem routeResponse_eq (env : SpeechEnv φ) (prefer : Str) (origin : Option (Obj φ)) :
    routeResponse env prefer origin = (selectResponseNode env.view prefer origin).map fun chosen =>
      chosen.bind fun c => if c.isSelf then none else some (c.deviceId, routeTo env c.deviceId) := by
  rw [routeResponse]
  cases selectResponseNode env.view prefer origin with
  | error exn => rfl
  | ok chosen =>
      cases chosen with
      | none => rfl
      | some chosen =>
          simp only [bind, Except.bind, Except.map, Option.bind_some]
          split
          · rfl
          · rfl

/-- Where the words go: to the device that is chosen if the frame to it is sent, and to
this node otherwise. -/
theorem routed_eq (env : SpeechEnv φ) (params : Obj φ) (here : Speech φ) :
    routed env params here =
      match selectResponseNode env.view (preferOf params) (originOf params) with
      | .error exn => ⟨.error exn, [], []⟩
      | .ok none => here
      | .ok (some chosen) =>
          if chosen.isSelf = false ∧ env.send = .success then
            ⟨.ok (routeTo env chosen.deviceId), [], [chosen.deviceId]⟩
          else here := by
  rw [routed, routeResponse_eq]
  cases selectResponseNode env.view (preferOf params) (originOf params) with
  | error exn => rfl
  | ok chosen =>
      cases chosen with
      | none => rfl
      | some chosen =>
          cases hself : chosen.isSelf with
          | true => simp [Except.map, hself]
          | false =>
              simp only [Except.map, Option.bind_some, hself, Bool.false_eq_true, if_false,
                true_and]
              rw [routeTo, statusOf_route]
              by_cases hsend : env.send = .success
              · rw [if_pos hsend, if_pos hsend, if_pos (by decide)]
              · rw [if_neg hsend, if_neg hsend, if_neg (by decide)]

/-- The common part of the executors sends the words on, or fails, or goes on here. -/
theorem routed_cases (env : SpeechEnv φ) (params : Obj φ) (here : Speech φ) :
    ((env.send = .success ∧ ∃ chosen,
        selectResponseNode env.view (preferOf params) (originOf params) = .ok (some chosen) ∧
          chosen.isSelf = false) ∧ (routed env params here).sentTo ≠ []) ∨
      (¬ (env.send = .success ∧ ∃ chosen,
        selectResponseNode env.view (preferOf params) (originOf params) = .ok (some chosen) ∧
          chosen.isSelf = false) ∧
        (routed env params here = here ∨ ∃ exn, routed env params here = ⟨.error exn, [], []⟩)) := by
  rw [routed_eq]
  cases selectResponseNode env.view (preferOf params) (originOf params) with
  | error exn =>
      refine .inr ⟨?_, .inr ⟨exn, rfl⟩⟩
      rintro ⟨-, chosen, hc, -⟩
      cases hc
  | ok chosen =>
      cases chosen with
      | none =>
          refine .inr ⟨?_, .inl rfl⟩
          rintro ⟨-, chosen, hc, -⟩
          cases hc
      | some chosen =>
          by_cases h : chosen.isSelf = false ∧ env.send = .success
          · exact .inl ⟨⟨h.2, chosen, rfl, h.1⟩, by simp [h]⟩
          · refine .inr ⟨?_, .inl (if_neg h)⟩
            rintro ⟨hsend, chosen', hc, hself⟩
            cases hc
            exact h ⟨hself, hsend⟩

/-- The listener of this node was given the text, or the result is no success. -/
def HeardOrFailed (text : Str) (o : Speech φ) : Prop :=
  o.sentTo = [] ∧ (o.spoken = [text] ∨
    statusOf (resultOf o.result) ≠ lit "success" ∧ statusOf (resultOf o.result) ≠ lit "delegated")

theorem heardOrFailed_silent {text : Str} {result : Obj φ} (hs : statusOf result ≠ lit "success")
    (hd : statusOf result ≠ lit "delegated") : HeardOrFailed text (.silent result) :=
  ⟨rfl, .inr ⟨hs, hd⟩⟩

theorem heardOrFailed_error (text : Str) (exn : Exn) :
    HeardOrFailed text (⟨.error exn, [], []⟩ : Speech φ) := by
  refine ⟨rfl, .inr ?_⟩
  simp [resultOf]

theorem heardOrFailed_noOutput (text : Str) : HeardOrFailed text (.silent (noOutput : Obj φ)) :=
  heardOrFailed_silent (by simp [noOutput]) (by simp [noOutput])

theorem heardOrFailed_speakHere (env : SpeechEnv φ) (text : Str) :
    HeardOrFailed text (speakHere env text) := by
  rw [speakHere]
  split
  · split <;> exact ⟨rfl, .inl rfl⟩
  · exact heardOrFailed_noOutput text

theorem heardOrFailed_askHere (env : SpeechEnv φ) (text : Str) :
    HeardOrFailed text (askHere env text) := by
  rw [askHere]
  split
  · split <;> exact ⟨rfl, .inl rfl⟩
  · exact heardOrFailed_noOutput text

/-- What the router does with words that end here if it does not send them on. -/
theorem heardOrFailed_routed_iff {env : SpeechEnv φ} {params : Obj φ} {text : Str} {here : Speech φ}
    (hhere : HeardOrFailed text here) :
    HeardOrFailed text (routed env params here) ↔
      ¬ (env.send = .success ∧ ∃ chosen,
        selectResponseNode env.view (preferOf params) (originOf params) = .ok (some chosen) ∧
          chosen.isSelf = false) := by
  rcases routed_cases env params here with ⟨hpass, hsent⟩ | ⟨hno, hhere' | ⟨exn, herr⟩⟩
  · exact ⟨fun h => absurd h.1 hsent, fun h => absurd hpass h⟩
  · rw [hhere']
    exact ⟨fun _ => hno, fun _ => hhere⟩
  · rw [herr]
    exact ⟨fun _ => hno, fun _ => heardOrFailed_error text exn⟩

/-- The guards that the executors share: this node may act, and there are words. -/
def guarded (env : SpeechEnv φ) (text : Str) (reason : String) (params : Obj φ) (here : Speech φ) :
    Speech φ :=
  if env.mayAct then
    if text = [] then .silent (obj [("status", textVal "refused"), ("reason", textVal reason)])
    else routed env params here
  else .silent (refusedFollower env)

theorem executeSpeak_eq (env : SpeechEnv φ) (params : Obj φ) :
    executeSpeak env params =
      guarded env (speakText params) "empty speech content" params (speakHere env (speakText params)) :=
  rfl

theorem executeAskUser_eq (env : SpeechEnv φ) (params : Obj φ) :
    executeAskUser env params =
      guarded env (askText params) "empty question" params (askHere env (askText params)) :=
  rfl

theorem heardOrFailed_guarded_iff {env : SpeechEnv φ} {text : Str} {reason : String} {params : Obj φ}
    {here : Speech φ} (hhere : HeardOrFailed text here) :
    HeardOrFailed text (guarded env text reason params here) ↔
      ¬ (env.mayAct = true ∧ text ≠ [] ∧ env.send = .success ∧ ∃ chosen,
        selectResponseNode env.view (preferOf params) (originOf params) = .ok (some chosen) ∧
          chosen.isSelf = false) := by
  rw [guarded]
  split
  · rename_i hact
    split
    · rename_i hempty
      refine ⟨fun _ h => h.2.1 hempty, fun _ => heardOrFailed_silent ?_ ?_⟩
      · simp
      · simp
    · rename_i htext
      rw [heardOrFailed_routed_iff hhere]
      simp [hact, htext]
  · rename_i hact
    refine ⟨fun _ h => hact h.1, fun _ => heardOrFailed_silent ?_ ?_⟩
    · simp [refusedFollower]
    · simp [refusedFollower]

theorem heardOrFailed_executeSpeak_iff (env : SpeechEnv φ) (params : Obj φ) :
    HeardOrFailed (speakText params) (executeSpeak env params) ↔ ¬ PassesOn env (lit "speak") params := by
  rw [executeSpeak_eq, heardOrFailed_guarded_iff (heardOrFailed_speakHere env _), PassesOn, utterance,
    if_pos rfl, chosen_elsewhere_iff]

theorem heardOrFailed_executeAskUser_iff (env : SpeechEnv φ) (params : Obj φ) :
    HeardOrFailed (askText params) (executeAskUser env params) ↔
      ¬ PassesOn env (lit "ask_user") params := by
  have hne : lit "ask_user" ≠ lit "speak" := by decide
  rw [executeAskUser_eq, heardOrFailed_guarded_iff (heardOrFailed_askHere env _), PassesOn, utterance,
    if_neg hne, chosen_elsewhere_iff]

/-- The reply reports the status of the result. -/
theorem statusOf_reportOf (payload : Obj φ) (actionType : Str) (result : Obj φ) :
    statusOf (reportOf payload actionType result) = statusOf result := by
  simp [statusOf, fetch, reportOf]

/-- When this node accepts a `speak` or an `ask_user` from the primary, the utterance ends
here exactly if the guards stop it, no other device is the one to speak or the frame to that
device is not sent. -/
theorem delegated_speech_ends_here_iff (env : SpeechEnv φ) (other : Except Exn (Obj φ))
    (primary : NodeName) {d : Obj φ}
    (h : actionTypeOf d = lit "speak" ∨ actionTypeOf d = lit "ask_user") :
    EndsHere (utterance (actionTypeOf d) (paramsOf d))
        (handleDelegatedAction env other (some primary) primary.val (.dict d)) ↔
      ¬ PassesOn env (actionTypeOf d) (paramsOf d) := by
  have hmem : actionTypeOf d ∈ delegatableActions := by
    rcases h with h | h <;> simp [h, delegatableActions]
  have hheard : EndsHere (utterance (actionTypeOf d) (paramsOf d))
        (handleDelegatedAction env other (some primary) primary.val (.dict d)) ↔
      HeardOrFailed (utterance (actionTypeOf d) (paramsOf d))
        (executor env other (actionTypeOf d) (paramsOf d)) := by
    simp [EndsHere, HeardOrFailed, handleDelegatedAction, hmem, statusOf_reportOf]
  rw [hheard]
  rcases h with h | h
  · have hexec : executor env other (actionTypeOf d) (paramsOf d) = executeSpeak env (paramsOf d) := by
      rw [executor, if_pos h]
    have htext : utterance (lit "speak") (paramsOf d) = speakText (paramsOf d) := by
      rw [utterance, if_pos rfl]
    rw [hexec, h, htext]
    exact heardOrFailed_executeSpeak_iff env (paramsOf d)
  · have hne : lit "ask_user" ≠ lit "speak" := by decide
    have hexec : executor env other (actionTypeOf d) (paramsOf d) = executeAskUser env (paramsOf d) := by
      rw [executor, h, if_neg hne, if_pos rfl]
    have htext : utterance (lit "ask_user") (paramsOf d) = askText (paramsOf d) := by
      rw [utterance, if_neg hne]
    rw [hexec, h, htext]
    exact heardOrFailed_executeAskUser_iff env (paramsOf d)

/-! ## Words that are passed on -/

/-- A phone that sees nobody, and has heard of a tablet that sees a face.  The frame to
the tablet meets `send`. -/
def phoneEnv (send : SendOutcome) : SpeechEnv WholeFloat where
  view :=
    { nodeId := lit "phone"
      priority := 100
      lastObservation := .dict []
      telemetry := .dict (obj [("mesh_peers", .list [.dict (obj [("device_id", textVal "tablet"),
        ("can_speak", .bool true), ("remote_face_present", .bool true)])])])
      policy := .dict []
      terminalRecent := false
      attention := none
      peerTts := []
      hasListener := true
      wallTime := 0 }
  mayAct := true
  primary := textVal "hub"
  send := send
  sendMessage := .none
  listener := .delivered true
  noted := .ok ()
  questionTtl := .int 120

/-- The primary delegates an utterance to the phone. -/
def hubSays : Obj WholeFloat :=
  obj [("action_type", textVal "speak"), ("params", .dict (obj [("text", textVal "dinner is ready")]))]

theorem hub_ne_nil : lit "hub" ≠ [] := by decide

/-- What the phone does with it. -/
def phoneHandles (send : SendOutcome) : Handled WholeFloat :=
  handleDelegatedAction (phoneEnv send) (.ok []) (some ⟨lit "hub", hub_ne_nil⟩) (lit "hub")
    (.dict hubSays)

/-- The phone sends the utterance on to the tablet, says nothing, and reports a
delegation. -/
theorem utterance_passed_on :
    (phoneHandles .success).sentTo = [lit "tablet"] ∧ (phoneHandles .success).spoken = [] ∧
      (phoneHandles .success).reply.map statusOf = some (lit "delegated") ∧
      ¬ EndsHere (lit "dinner is ready") (phoneHandles .success) := by
  have hsent : (phoneHandles .success).sentTo = [lit "tablet"] := by decide +kernel
  refine ⟨hsent, by decide +kernel, by decide +kernel, fun h => ?_⟩
  have hnone : (phoneHandles .success).sentTo = [] := h.1
  rw [hsent] at hnone
  cases hnone

/-- If the frame is refused, the phone says it. -/
theorem utterance_said_here :
    (phoneHandles .refused).spoken = [lit "dinner is ready"] ∧
      EndsHere (utterance (actionTypeOf hubSays) (paramsOf hubSays)) (phoneHandles .refused) := by
  refine ⟨by decide +kernel, ?_⟩
  refine (delegated_speech_ends_here_iff (phoneEnv .refused) (.ok []) ⟨lit "hub", by decide⟩
    (.inl (by decide +kernel))).2 ?_
  rintro ⟨-, -, hsend, -⟩
  cases hsend

end ShugoCore
