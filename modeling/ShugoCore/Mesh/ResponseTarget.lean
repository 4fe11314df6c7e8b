import Mathlib.Data.List.ReduceOption
import ShugoCore.Mesh.Speech

/-!
# The device that the operator wants

The policy may name the device that answers.  `select` honours it, but `select_response_node`
looks at the node that took the turn before it calls `select`, so that node is given the
words if it can speak, whatever the policy says.  The docstring there says that `prefer` is not a
policy override.

The words go to the device of the policy exactly if no other device both took the turn and
can speak, or this node is the device of the policy and the delegation fails
(`pin_honoured_iff`).
-/

namespace ShugoCore

open Py

variable {φ : Type} [Builtins φ]

/-! ## The choice -/

/-- `policy.get("response_target") or "auto"`. -/
def forcedOf (view : RouterView φ) : PyVal φ :=
  orElse (fetch (lit "response_target") (dictOrEmpty view.policy)) (textVal "auto")

/-- The candidates for the answer to a turn. -/
def placed (view : RouterView φ) (params : Obj φ) : Except Exn (List (Candidate φ)) := do
  let candidates ← responseCandidates view
  withOrigin candidates (strip (preferOf params)) (originOf params)

/-- The candidate that took the turn, if it can speak. -/
def askedAt (params : Obj φ) (candidates : List (Candidate φ)) : Option (Candidate φ) :=
  (candidates.find? fun c => strip (preferOf params) ≠ [] ∧ c.deviceId = strip (preferOf params)).filter
    Candidate.canSpeak

/-- The node that took the turn comes before the device of the policy. -/
theorem selectResponseNode_eq {view : RouterView φ} {params : Obj φ} {cs : List (Candidate φ)}
    (h : placed view params = .ok cs) :
    selectResponseNode view (preferOf params) (originOf params) =
      match askedAt params cs with
      | some c => .ok (some ⟨c.deviceId, c.isSelf⟩)
      | none => (select cs (forcedOf view)).map fun best => best.map fun c => ⟨c.deviceId, c.isSelf⟩ := by
  simp only [placed, bind, Except.bind] at h
  simp only [selectResponseNode, bind, Except.bind]
  cases hcs : responseCandidates view with
  | error e => rw [hcs] at h; cases h
  | ok candidates =>
      rw [hcs] at h
      simp only [h]
      cases hturn : askedAt params cs with
      | some c =>
          simp only [askedAt] at hturn
          rw [hturn]
          rfl
      | none =>
          simp only [askedAt] at hturn
          rw [hturn]
          simp only [forcedOf, textVal]
          cases select cs _ with
          | error e => rfl
          | ok best => rfl

/-- A device that the policy names is chosen whatever its score. -/
theorem select_forced {cs : List (Candidate φ)} {view : RouterView φ} {d : Str}
    (hforced : strip (strOf (forcedOf view)) = d) (hd : d ≠ []) (hauto : d ≠ lit "auto") :
    select cs (forcedOf view) = (rank cs).map fun ranked =>
      (ranked.find? fun c => c.deviceId = d).filter Scored.canSpeak := by
  have htruthy : truthy (forcedOf view) = true := by
    simp only [forcedOf, orElse]
    split
    · assumption
    · rfl
  simp only [select, hforced, htruthy, hd, hauto, ne_eq, not_false_eq_true, and_self, if_true]
  cases rank cs with
  | error e => rfl
  | ok ranked => rfl

/-! ## This node among the candidates -/

theorem peerCandidate_not_self {view : RouterView φ} {peer : PyVal φ} {c : Candidate φ}
    (h : peerCandidate view peer = .ok (some c)) : c.isSelf = false := by
  cases peer with
  | dict peer =>
      simp only [peerCandidate] at h
      split at h
      · cases h
      · obtain ⟨age, -, h⟩ := ok_of_bind h
        obtain ⟨priority, -, h⟩ := ok_of_bind h
        cases h
        rfl
  | _ => cases h

/-- Only a node that is not this one is added for the turn. -/
theorem mem_withOrigin {candidates cs : List (Candidate φ)} {preferred : Str} {origin : Option (Obj φ)}
    (h : withOrigin candidates preferred origin = .ok cs) {c : Candidate φ} (hc : c ∈ cs) :
    c ∈ candidates ∨ c.isSelf = false := by
  cases origin with
  | none =>
      cases h
      exact .inl hc
  | some origin =>
      simp only [withOrigin] at h
      split at h
      · obtain ⟨facts, -, h⟩ := ok_of_bind h
        obtain ⟨priority, -, h⟩ := ok_of_bind h
        cases h
        rcases List.mem_append.1 hc with hc | hc
        · exact .inl hc
        · rw [List.mem_singleton.1 hc]
          exact .inr rfl
      · cases h
        exact .inl hc

/-- A candidate that is this node goes by its id. -/
theorem deviceId_of_isSelf {view : RouterView φ} {params : Obj φ} {cs : List (Candidate φ)}
    (h : placed view params = .ok cs) {c : Candidate φ} (hc : c ∈ cs) (hself : c.isSelf = true) :
    c.deviceId = view.nodeId := by
  obtain ⟨candidates, hcandidates, horigin⟩ := ok_of_bind h
  have hmem : c ∈ candidates := by
    rcases mem_withOrigin horigin hc with hmem | hnot
    · exact hmem
    · rw [hself] at hnot
      cases hnot
  obtain ⟨facts, -, hrest⟩ := ok_of_bind hcandidates
  obtain ⟨peers, hpeers, hcs⟩ := ok_of_bind hrest
  cases hcs
  rcases List.mem_cons.1 hmem with rfl | hmem
  · rfl
  · obtain ⟨peer, -, hpeer⟩ := mem_of_mapM hpeers (List.reduceOption_mem_iff.1 hmem)
    rw [peerCandidate_not_self hpeer] at hself
    cases hself

/-- A ranked device is a candidate. -/
theorem mem_rank {cs : List (Candidate φ)} {ranked : List Scored} (h : rank cs = .ok ranked) {s : Scored}
    (hs : s ∈ ranked) : ∃ c ∈ cs, s.deviceId = strip c.deviceId ∧ s.isSelf = c.isSelf := by
  obtain ⟨all, hall, hranked⟩ := ok_of_bind h
  cases hranked
  rw [List.mem_insertionSort, List.reduceOption_mem_iff] at hs
  obtain ⟨c, hc, hscored⟩ := mem_of_mapM hall hs
  simp only [scored] at hscored
  split at hscored
  · cases hscored
  · obtain ⟨score, -, hscored⟩ := ok_of_bind hscored
    cases hscored
    exact ⟨c, hc, rfl, rfl⟩

/-! ## Where the words go -/

/-- The policy names a device, which is among the candidates and can speak. -/
structure Pinned (view : RouterView φ) (params : Obj φ) (d : Str) : Prop where
  forced : strip (strOf (forcedOf view)) = d
  named : d ≠ []
  notAuto : d ≠ lit "auto"
  speaks : ∃ cs, placed view params = .ok cs ∧ ∃ c ∈ cs, strip c.deviceId = d ∧ c.canSpeak = true

/-- What an executor does with the words when it keeps them. -/
def spokenHere (env : SpeechEnv φ) (actionType : Str) (params : Obj φ) : Speech φ :=
  if actionType = lit "speak" then speakHere env (speakText params) else askHere env (askText params)

/-- The words, if there are any, go to the device, or stay here because this is the device or
because it was asked in vain. -/
def Honoured (env : SpeechEnv φ) (params : Obj φ) (d text : Str) (here o : Speech φ) : Prop :=
  if text = [] then o.spoken = [] ∧ o.sentTo = []
  else o.spoken = [] ∧ o.sentTo = [d] ∨
    o = here ∧ (d = strip env.view.nodeId ∨
      ∃ route, routeResponse env (preferOf params) (originOf params) = .ok (some (d, route)) ∧
        statusOf route ∉ [lit "delegated", lit "success"])

/-- No other device took the turn and can speak, unless this is the device and the delegation fails.
Without such a one the scores can be had, and the best entry of the device can speak. -/
def PinKept (env : SpeechEnv φ) (params : Obj φ) (d : Str) : Prop :=
  ∀ cs, placed env.view params = .ok cs →
    match askedAt params cs with
    | some c => c.deviceId = d ∨ d = strip env.view.nodeId ∧ env.send ≠ .success
    | none => ∃ ranked, rank cs = .ok ranked ∧
        (d = strip env.view.nodeId ∨ ∃ best ∈ ranked.find? fun c => c.deviceId = d, best.canSpeak = true)

/-- What the last part of an executor does is not what the router does. -/
structure StaysHere (here : Speech φ) : Prop where
  sentTo : here.sentTo = []
  ne_error : ∀ exn, here ≠ ⟨.error exn, [], []⟩

theorem staysHere (env : SpeechEnv φ) (actionType : Str) (params : Obj φ) :
    StaysHere (spokenHere env actionType params) := by
  simp only [spokenHere]
  split
  · simp only [speakHere]
    split
    · cases env.listener with
      | raised name message => exact ⟨rfl, by simp⟩
      | delivered held => cases held <;> exact ⟨rfl, by simp⟩
    · exact ⟨rfl, by simp [Speech.silent]⟩
  · simp only [askHere]
    split
    · cases env.listener with
      | raised name message => exact ⟨rfl, by simp⟩
      | delivered held => exact ⟨rfl, by simp⟩
    · exact ⟨rfl, by simp [Speech.silent]⟩

/-- Words that were routed to a device, or kept after it was asked in vain. -/
theorem honoured_chosen {env : SpeechEnv φ} {params : Obj φ} {d text : Str} {kept : Speech φ}
    (hkept : StaysHere kept) (htext : text ≠ []) {chosen : Chosen}
    (hselect : selectResponseNode env.view (preferOf params) (originOf params) = .ok (some chosen))
    (hself : chosen.isSelf = true → chosen.deviceId = strip env.view.nodeId) :
    Honoured env params d text kept (routed env params kept) ↔
      chosen.deviceId = d ∨
        d = strip env.view.nodeId ∧ (chosen.isSelf = true ∨ env.send ≠ .success) := by
  have hsent := hkept.sentTo
  simp only [Honoured, htext, if_false, routed_eq, routeResponse_eq, hselect, Except.map,
    Option.bind_some]
  cases hchosen : chosen.isSelf with
  | true =>
      rw [hself hchosen]
      simp [hsent, eq_comm]
  | false =>
      by_cases hsend : env.send = .success
      · have hne : (⟨.ok (routeTo env chosen.deviceId), [], [chosen.deviceId]⟩ : Speech φ) ≠ kept := by
          rintro rfl
          cases hsent
        simp [hsend, hne]
      · have hfailed : statusOf (routeTo env chosen.deviceId) ∉ [lit "delegated", lit "success"] := by
          rw [routeTo, statusOf_route, if_neg hsend]
          decide
        have hnil : ([] : List Str) ≠ [d] := by simp
        simp only [hsend, and_false, if_false, hsent, hnil, Bool.false_eq_true, false_or, true_and,
          ne_eq, not_false_eq_true, or_true, and_true]
        constructor
        · rintro (hd | ⟨route, hroute, -⟩)
          · exact .inr hd
          · cases hroute
            exact .inl rfl
        · rintro (rfl | hd)
          · exact .inr ⟨_, rfl, hfailed⟩
          · exact .inl hd

/-- Words that nobody was chosen for stay here. -/
theorem honoured_unchosen {env : SpeechEnv φ} {params : Obj φ} {d text : Str} {kept : Speech φ}
    (hkept : StaysHere kept) (htext : text ≠ [])
    (hselect : selectResponseNode env.view (preferOf params) (originOf params) = .ok none) :
    Honoured env params d text kept (routed env params kept) ↔ d = strip env.view.nodeId := by
  simp [Honoured, htext, routed_eq, routeResponse_eq, hselect, Except.map, hkept.sentTo]

/-- If the choice raises, so does the executor. -/
theorem not_honoured_error {env : SpeechEnv φ} {params : Obj φ} {d text : Str} {kept : Speech φ}
    (hkept : StaysHere kept) (htext : text ≠ []) {exn : Exn}
    (hselect : selectResponseNode env.view (preferOf params) (originOf params) = .error exn) :
    ¬ Honoured env params d text kept (routed env params kept) := by
  have hne := (hkept.ne_error exn).symm
  simp [Honoured, htext, routed_eq, hselect, hne]

/-- Another node took the turn: the device of the policy is right if it is that node, or is this one
and the delegation fails. -/
theorem honoured_asked {env : SpeechEnv φ} {params : Obj φ} {d text : Str} {kept : Speech φ}
    (hkept : StaysHere kept) (htext : text ≠ []) {cs : List (Candidate φ)}
    (hcs : placed env.view params = .ok cs) {c : Candidate φ} (hturn : askedAt params cs = some c) :
    Honoured env params d text kept (routed env params kept) ↔
      c.deviceId = d ∨ d = strip env.view.nodeId ∧ env.send ≠ .success := by
  have hselect := selectResponseNode_eq hcs
  rw [hturn] at hselect
  obtain ⟨hfind, -⟩ := Option.filter_eq_some_iff.1 hturn
  have hname := List.find?_some hfind
  rw [decide_eq_true_eq] at hname
  have hself : c.isSelf = true → c.deviceId = strip env.view.nodeId := by
    intro hself
    rw [← deviceId_of_isSelf hcs (List.mem_of_find?_eq_some hfind) hself, hname.2, strip_strip]
  rw [honoured_chosen hkept htext hselect hself]
  constructor
  · rintro (hd | ⟨hd, hc | hsend⟩)
    · exact .inl hd
    · exact .inl ((hself hc).trans hd.symm)
    · exact .inr ⟨hd, hsend⟩
  · rintro (hd | ⟨hd, hsend⟩)
    · exact .inl hd
    · exact .inr ⟨hd, .inr hsend⟩

/-- Nobody else took the turn: the device of the policy is right if the scores can be had, and it is
this node or its best entry can speak. -/
theorem honoured_forced {env : SpeechEnv φ} {params : Obj φ} {d text : Str} {kept : Speech φ}
    (hkept : StaysHere kept) (htext : text ≠ []) (hpin : Pinned env.view params d)
    {cs : List (Candidate φ)} (hcs : placed env.view params = .ok cs)
    (hturn : askedAt params cs = none) :
    Honoured env params d text kept (routed env params kept) ↔
      ∃ ranked, rank cs = .ok ranked ∧
        (d = strip env.view.nodeId ∨ ∃ best ∈ ranked.find? fun c => c.deviceId = d, best.canSpeak = true) := by
  have hselect := selectResponseNode_eq hcs
  rw [hturn, select_forced hpin.forced hpin.named hpin.notAuto] at hselect
  cases hrank : rank cs with
  | error exn =>
      rw [hrank] at hselect
      simp [not_honoured_error hkept htext hselect]
  | ok ranked =>
      rw [hrank] at hselect
      simp only [Except.ok.injEq, exists_eq_left']
      cases hbest : ranked.find? fun c => c.deviceId = d with
      | none =>
          rw [honoured_unchosen hkept htext (by simpa [hbest, Except.map] using hselect)]
          simp
      | some best =>
          have hname := List.find?_some hbest
          rw [decide_eq_true_eq] at hname
          cases hspeak : best.canSpeak with
          | false =>
              have hnone : Option.filter Scored.canSpeak (some best) = none := by
                simp [Option.filter, hspeak]
              rw [honoured_unchosen hkept htext (by simpa [hbest, hnone, Except.map] using hselect)]
              simp [hspeak]
          | true =>
              have hsome : Option.filter Scored.canSpeak (some best) = some best := by
                simp [Option.filter, hspeak]
              have hself : best.isSelf = true → best.deviceId = strip env.view.nodeId := by
                intro hself
                obtain ⟨c, hc, hid, hcself⟩ := mem_rank hrank (List.mem_of_find?_eq_some hbest)
                rw [hid, deviceId_of_isSelf hcs hc (hcself ▸ hself)]
              have hchosen : selectResponseNode env.view (preferOf params) (originOf params) =
                  .ok (some ⟨best.deviceId, best.isSelf⟩) := by
                simpa [hbest, hsome, Except.map] using hselect
              rw [honoured_chosen hkept htext hchosen hself]
              simp [hname, hspeak]

/-- Both executors guard the words in one way. -/
theorem executor_eq_guarded (env : SpeechEnv φ) (other : Except Exn (Obj φ)) {actionType : Str}
    (htype : actionType = lit "speak" ∨ actionType = lit "ask_user") (params : Obj φ) :
    ∃ reason, executor env other actionType params =
      guarded env (utterance actionType params) reason params (spokenHere env actionType params) := by
  rcases htype with rfl | rfl
  · refine ⟨"empty speech content", ?_⟩
    rw [executor, if_pos rfl, executeSpeak_eq, utterance, if_pos rfl, spokenHere, if_pos rfl]
  · have hne : lit "ask_user" ≠ lit "speak" := by decide
    refine ⟨"empty question", ?_⟩
    rw [executor, if_neg hne, if_pos rfl, executeAskUser_eq, utterance, if_neg hne, spokenHere, if_neg hne]

/-- For every fleet, every policy that names a candidate that can speak, and every `speak` or
`ask_user` with any turn behind it, the words go to that device, or stay here for want of it, if
and only if there are none or the device of the policy is kept. -/
theorem pin_honoured_iff {env : SpeechEnv φ} {params : Obj φ} {d actionType : Str}
    (hact : env.mayAct = true) (hpin : Pinned env.view params d)
    (htype : actionType = lit "speak" ∨ actionType = lit "ask_user") (other : Except Exn (Obj φ)) :
    Honoured env params d (utterance actionType params) (spokenHere env actionType params)
        (executor env other actionType params) ↔
      utterance actionType params = [] ∨ PinKept env params d := by
  have hkept := staysHere env actionType params
  obtain ⟨reason, hexec⟩ := executor_eq_guarded env other htype params
  rw [hexec, guarded, if_pos hact]
  by_cases htext : utterance actionType params = []
  · simp [htext, Honoured, Speech.silent]
  rw [if_neg htext]
  simp only [htext, false_or]
  obtain ⟨cs, hcs, -⟩ := hpin.speaks
  simp only [PinKept, hcs, Except.ok.injEq, forall_eq']
  cases hturn : askedAt params cs with
  | some c => exact honoured_asked hkept htext hcs hturn
  | none => exact honoured_forced hkept htext hpin hcs hturn

/-- A phone with a tablet and a watch about.  The operator wants to be answered by the tablet. -/
def tabletWanted : SpeechEnv WholeFloat where
  view :=
    { nodeId := lit "phone"
      priority := 100
      lastObservation := .dict []
      telemetry := .dict (obj [("mesh_peers", .list [.dict (obj [("device_id", textVal "tablet")]),
        .dict (obj [("device_id", textVal "watch")])])])
      policy := .dict (obj [("response_target", textVal "tablet")])
      terminalRecent := false
      attention := none
      peerTts := []
      hasListener := true
      wallTime := 0 }
  mayAct := true
  primary := textVal "phone"
  send := .success
  sendMessage := .none
  listener := .delivered true
  noted := .ok ()
  questionTtl := .int 120

/-- Something to say. -/
def dinner : Obj WholeFloat := obj [("text", textVal "dinner is ready")]

/-- Something to say to whoever spoke to the watch. -/
def dinnerByWatch : Obj WholeFloat := dinner ++ obj [("reply_prefer", textVal "watch")]

theorem pinned_tablet (params : Obj WholeFloat) (h : originOf params = none) :
    Pinned tabletWanted.view params (lit "tablet") where
  forced := by decide +kernel
  named := by decide
  notAuto := by decide
  speaks := by
    have hplaced : placed tabletWanted.view params = responseCandidates tabletWanted.view := by
      simp only [placed, h, withOrigin]
      cases responseCandidates tabletWanted.view <;> rfl
    rw [hplaced]
    exact ⟨_, rfl, _, List.mem_cons_of_mem _ List.mem_cons_self, by decide +kernel, by decide +kernel⟩

/-- Words that come from no turn go to the tablet. -/
theorem dinner_on_tablet :
    Honoured tabletWanted dinner (lit "tablet") (utterance (lit "speak") dinner)
      (spokenHere tabletWanted (lit "speak") dinner) (executor tabletWanted (.ok []) (lit "speak") dinner) := by
  refine (pin_honoured_iff rfl (pinned_tablet dinner rfl) (.inl rfl) (.ok [])).2 (.inr ?_)
  intro cs hcs
  obtain ⟨cs', hcs', hturn, hbest⟩ : ∃ cs', placed tabletWanted.view dinner = .ok cs' ∧
      (askedAt dinner cs').isNone = true ∧
      ((rank cs').toOption.bind fun ranked => ranked.find? fun c => c.deviceId = lit "tablet").any
        Scored.canSpeak = true := ⟨_, rfl, by decide +kernel, by decide +kernel⟩
  cases hcs.symm.trans hcs'
  rw [Option.isNone_iff_eq_none.1 hturn]
  cases hrank : rank cs with
  | error exn => rw [hrank] at hbest; cases hbest
  | ok ranked =>
      rw [hrank, Except.toOption, Option.bind_some, Option.any_eq_true] at hbest
      obtain ⟨best, hmem, hspeak⟩ := hbest
      exact ⟨ranked, rfl, .inr ⟨best, hmem, hspeak⟩⟩

/-- Words for a turn that the watch took go to the watch, although the operator wants the tablet. -/
theorem dinner_on_watch :
    Pinned tabletWanted.view dinnerByWatch (lit "tablet") ∧
      (executor tabletWanted (.ok []) (lit "speak") dinnerByWatch).sentTo = [lit "watch"] ∧
      ¬ Honoured tabletWanted dinnerByWatch (lit "tablet") (utterance (lit "speak") dinnerByWatch)
        (spokenHere tabletWanted (lit "speak") dinnerByWatch)
        (executor tabletWanted (.ok []) (lit "speak") dinnerByWatch) := by
  have hsent : (executor tabletWanted (.ok []) (lit "speak") dinnerByWatch).sentTo = [lit "watch"] := by
    decide +kernel
  have htext : utterance (lit "speak") dinnerByWatch ≠ [] := by decide +kernel
  refine ⟨pinned_tablet dinnerByWatch rfl, hsent, ?_⟩
  rw [Honoured, if_neg htext]
  rintro (⟨-, htablet⟩ | ⟨hhere, -⟩)
  · rw [hsent] at htablet
    revert htablet
    decide
  · rw [hhere, (staysHere tabletWanted (lit "speak") dinnerByWatch).sentTo] at hsent
    cases hsent

end ShugoCore
