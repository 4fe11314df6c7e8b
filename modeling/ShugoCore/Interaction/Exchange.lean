import ShugoCore.Interaction.Bus
import ShugoCore.Lib.Run

/-!
# Responses and what they respond to

An exchange is what the human has said since the agent last spoke.  The agent's next words
belong to it: they are to name its turn and to carry its conversation id.  `Exchange` keeps
the records of the exchange beside the bus, and `Faithful` says that words of the agent at
this point would belong to it.

When the user comes back, `publish` starts a new conversation and closes the turn, after it
has stamped the observation with the old ids.  So an exchange that is open at that point is
cut off from its response, also one that the observation itself has begun.  The runs that
stay faithful are the runs in which the user never comes back to an open exchange
(`causal_chain_iff`).
-/

namespace ShugoCore

open Py Machine

namespace InteractionBus

variable {φ : Type} [Builtins φ]

/-- A bus, and what it heard since the agent last spoke. -/
structure Exchange (φ : Type) where
  bus : InteractionBus φ
  heard : List (Heard φ)

namespace Exchange

/-- A new bus. -/
def new (capacity : Int) (uuid : Str) : Exchange φ := ⟨.new capacity uuid, []⟩

/-- One call. -/
def step (x : Exchange φ) : Op φ → Exchange φ
  | .publish o now uuid =>
      let out := x.bus.publish o now uuid
      match out.1 with
      | .heard h => ⟨out.2, x.heard ++ [h]⟩
      | .silent _ | .rejected _ => ⟨out.2, x.heard⟩
  | .respond r spokenAt askedAt =>
      let out := x.bus.recordAgentResponse r spokenAt askedAt
      match out.1 with
      | .said _ _ => ⟨out.2, []⟩
      | .shown _ | .rejected _ => ⟨out.2, x.heard⟩

/-- Everything that is kept of some words is in one conversation. -/
def In (conversation : Str) (h : Heard φ) : Prop :=
  h.entry.conversationId = conversation ∧ h.turn.conversationId = conversation ∧
    ∀ e ∈ h.event, e.conversationId = conversation

/-- Words that the agent says now are a response to the last words of the exchange, and are
in the conversation of all of them. -/
def Faithful (x : Exchange φ) : Prop :=
  ∀ (r : AgentResponse) (spokenAt askedAt : Seconds) (response : Response) (turn : Turn),
    (x.bus.recordAgentResponse (some r) spokenAt askedAt).1 = .said response turn →
      response.inResponseTo = x.heard.getLast?.bind (fun h => h.entry.turnId) ∧
        ∀ h ∈ x.heard, In turn.conversationId h

/-- The user comes back with this observation. -/
def ComesBack (b : InteractionBus φ) (o : HumanObservation φ) (now : Seconds) : Prop :=
  o.validate = none ∧ b.presenceChange now (presentImplied o) = some .userReturned

/-- The user does not come back to an open exchange, nor with words. -/
def Settled (x : Exchange φ) : Op φ → Prop
  | .publish (some o) now _ => ComesBack x.bus o now → x.heard = [] ∧ transcriptOf o = []
  | _ => True

/-! ## What a call does to the ids -/

omit [Builtins φ] in
/-- A change of presence ends the turn if the user comes back, and is of no account otherwise. -/
theorem ids_changePresence (b : InteractionBus φ) (now : Seconds) (uuid : Str) (e : PresenceEvent) :
    (e = .userReturned ∧ (b.changePresence now uuid e).currentTurnId = none) ∨
      (e ≠ .userReturned ∧ (b.changePresence now uuid e).currentTurnId = b.currentTurnId ∧
        (b.changePresence now uuid e).conversationId = b.conversationId) := by
  cases e with
  | userPresent => exact .inr ⟨nofun, rfl, rfl⟩
  | userLeft => exact .inr ⟨nofun, rfl, rfl⟩
  | userReturned => exact .inl ⟨rfl, rfl⟩

/-- The bus once an observation that was accepted has had its effect on presence. -/
def finish (b out : InteractionBus φ) (o : HumanObservation φ) (now : Seconds) (uuid : Str) :
    InteractionBus φ :=
  match b.presenceChange now (presentImplied o) with
  | some event => out.changePresence now uuid event
  | none => out

omit [Builtins φ] in
/-- The ids after an observation that was accepted. -/
theorem ids_finish (b out : InteractionBus φ) {o : HumanObservation φ} (hvalid : o.validate = none)
    (now : Seconds) (uuid : Str) :
    (ComesBack b o now ∧ (finish b out o now uuid).currentTurnId = none) ∨
      (¬ ComesBack b o now ∧ (finish b out o now uuid).currentTurnId = out.currentTurnId ∧
        (finish b out o now uuid).conversationId = out.conversationId) := by
  unfold ComesBack finish
  cases b.presenceChange now (presentImplied o) with
  | none => exact .inr ⟨nofun, rfl, rfl⟩
  | some e =>
      rcases ids_changePresence out now uuid e with ⟨rfl, hturn⟩ | ⟨hne, hturn, hconv⟩
      · exact .inl ⟨⟨hvalid, rfl⟩, hturn⟩
      · exact .inr ⟨fun h => hne (Option.some.inj h.2), hturn, hconv⟩

/-- What comes of an observation. -/
theorem publish_cases (b : InteractionBus φ) (o : Option (HumanObservation φ)) (now : Seconds)
    (uuid : Str) :
    (∃ reason, b.publish o now uuid = (.rejected reason, b.reject) ∧
        ∀ o', o = some o' → o'.validate ≠ none) ∨
      ∃ o', o = some o' ∧ o'.validate = none ∧
        ((transcriptOf o' = [] ∧ ∃ entry, b.publish o now uuid =
            (.silent entry, finish b (b.afterSilence entry) o' now uuid)) ∨
          (transcriptOf o' ≠ [] ∧ ∃ h, b.publish o now uuid =
              (.heard h, finish b (b.afterWords h) o' now uuid) ∧
            h.entry.turnId = some b.turnFor.1 ∧ In b.conversationId h)) := by
  cases o with
  | none => exact .inl ⟨_, rfl, nofun⟩
  | some o =>
      cases hvalid : o.validate with
      | some reason =>
          refine .inl ⟨reason, by simp only [publish, hvalid], ?_⟩
          rintro o' ⟨⟩ hnone
          rw [hvalid] at hnone
          cases hnone
      | none =>
          refine .inr ⟨o, rfl, hvalid, ?_⟩
          by_cases hsilent : transcriptOf o = []
          · refine .inl ⟨hsilent, b.silentEntry o (b.presenceChange now (presentImplied o)), ?_⟩
            simp only [publish, hvalid]
            rw [if_pos hsilent]
            rfl
          · refine .inr ⟨hsilent, b.hear o now (b.presenceChange now (presentImplied o)), ?_, rfl,
              rfl, rfl, fun e he => ?_⟩
            · simp only [publish, hvalid]
              rw [if_neg hsilent]
              rfl
            · obtain ⟨q, -, rfl⟩ := Option.map_eq_some_iff.1 he
              rfl

/-! ## One call and the exchange -/

/-- The ids that the agent's next words would get are those of the exchange. -/
def Linked (x : Exchange φ) : Prop :=
  x.bus.currentTurnId = x.heard.getLast?.bind (fun h => h.entry.turnId) ∧
    ∀ h ∈ x.heard, In x.bus.conversationId h

/-- Words that are heard are given a turn. -/
def Turned (x : Exchange φ) : Prop := ∀ h ∈ x.heard, h.entry.turnId ≠ none

/-- Some words that the bus accepts. -/
def someWords : AgentResponse := ⟨lit "speech", lit "Yes.", [], 0, false⟩

omit [Builtins φ] in
theorem recordAgentResponse_someWords (b : InteractionBus φ) (spokenAt askedAt : Seconds) :
    (b.recordAgentResponse (some someWords) spokenAt askedAt).1 =
      .said ⟨someWords, numbered "rsp-" (b.rspSeq + 1), b.currentTurnId⟩
        ⟨.agent, someWords.content, spokenAt, some (numbered "rsp-" (b.rspSeq + 1)),
          b.conversationId⟩ := by
  have hvalid : someWords.validate = none := by decide +kernel
  have hspeech : someWords.type = lit "speech" := rfl
  simp only [recordAgentResponse, hvalid, hspeech, if_true]

omit [Builtins φ] in
theorem faithful_iff_linked (x : Exchange φ) : Faithful x ↔ Linked x := by
  constructor
  · intro h
    exact h someWords 0 0 _ _ (recordAgentResponse_someWords x.bus 0 0)
  · intro h r spokenAt askedAt response turn hsaid
    simp only [recordAgentResponse] at hsaid
    split at hsaid
    · cases hsaid
    · split at hsaid
      · cases hsaid
        exact h
      · cases hsaid

omit [Builtins φ] in
/-- An exchange without words is linked if no turn is open. -/
theorem linked_nil (b : InteractionBus φ) : Linked ⟨b, []⟩ ↔ b.currentTurnId = none :=
  ⟨fun h => h.1, fun h => ⟨h, fun _ hh => absurd hh List.not_mem_nil⟩⟩

/-- What a response does to the exchange: the agent's words end it. -/
theorem step_respond_cases (x : Exchange φ) (r : Option AgentResponse) (spokenAt askedAt : Seconds) :
    ((x.step (.respond r spokenAt askedAt)).heard = x.heard ∧
        (x.step (.respond r spokenAt askedAt)).bus.currentTurnId = x.bus.currentTurnId ∧
        (x.step (.respond r spokenAt askedAt)).bus.conversationId = x.bus.conversationId) ∨
      ((x.step (.respond r spokenAt askedAt)).heard = [] ∧
        (x.step (.respond r spokenAt askedAt)).bus.currentTurnId = none) := by
  cases r with
  | none => exact .inl ⟨rfl, rfl, rfl⟩
  | some r =>
      simp only [step, recordAgentResponse]
      cases r.validate with
      | some reason => exact .inl ⟨rfl, rfl, rfl⟩
      | none =>
          by_cases hspeech : r.type = lit "speech"
          · right
            simp only [hspeech, if_true, and_self]
          · left
            simp only [hspeech, if_false, and_self]

omit [Builtins φ] in
/-- Only the ids and the words matter. -/
theorem Linked.of_eq {x y : Exchange φ} (h : Linked x) (hheard : y.heard = x.heard)
    (hturn : y.bus.currentTurnId = x.bus.currentTurnId)
    (hconv : y.bus.conversationId = x.bus.conversationId) : Linked y := by
  simp only [Linked]
  rw [hheard, hturn, hconv]
  exact h

omit [Builtins φ] in
/-- The last words that were heard have a turn. -/
theorem Turned.last_ne {x : Exchange φ} (h : Turned x) (hne : x.heard ≠ []) :
    x.heard.getLast?.bind (fun h => h.entry.turnId) ≠ none := by
  rw [List.getLast?_eq_some_getLast hne]
  exact h _ (List.getLast_mem hne)

theorem Turned.step {x : Exchange φ} (h : Turned x) (op : Op φ) : Turned (x.step op) := by
  cases op with
  | respond r spokenAt askedAt =>
      rcases x.step_respond_cases r spokenAt askedAt with ⟨hheard, -, -⟩ | ⟨hheard, -⟩
      · simp only [Turned]
        rw [hheard]
        exact h
      · simp only [Turned]
        rw [hheard]
        exact fun _ hh => absurd hh List.not_mem_nil
  | publish o now uuid =>
      rcases publish_cases x.bus o now uuid with ⟨reason, hout, -⟩ |
        ⟨o', rfl, -, ⟨-, entry, hout⟩ | ⟨-, heard, hout, hturn, -⟩⟩
      · simp only [Exchange.step, hout]
        exact h
      · simp only [Exchange.step, hout]
        exact h
      · simp only [Exchange.step, hout]
        intro g hg
        rcases List.mem_append.1 hg with hg | hg
        · exact h g hg
        · rw [List.mem_singleton.1 hg, hturn]
          exact nofun

/-- The exchange stays linked exactly if the user does not come back to it. -/
theorem Linked.step_iff {x : Exchange φ} (h : Linked x) (hturned : Turned x) (op : Op φ) :
    Linked (x.step op) ↔ Settled x op := by
  cases op with
  | respond r spokenAt askedAt =>
      refine ⟨fun _ => trivial, fun _ => ?_⟩
      rcases x.step_respond_cases r spokenAt askedAt with ⟨hheard, hturn, hconv⟩ | ⟨hheard, hturn⟩
      · exact h.of_eq hheard hturn hconv
      · refine ⟨?_, ?_⟩
        · rw [hheard, hturn]
          rfl
        · rw [hheard]
          exact fun _ hh => absurd hh List.not_mem_nil
  | publish o now uuid =>
      rcases publish_cases x.bus o now uuid with ⟨reason, hout, hinvalid⟩ |
        ⟨o', rfl, hvalid, ⟨hsilent, entry, hout⟩ | ⟨hwords, heard, hout, hturnId, hin⟩⟩
      · have hsettled : Settled x (.publish o now uuid) := by
          cases o with
          | none => trivial
          | some o' => exact fun hback => absurd hback.1 (hinvalid o' rfl)
        simp only [Exchange.step, hout]
        exact ⟨fun _ => hsettled, fun _ => h⟩
      · simp only [Exchange.step, hout, Settled]
        rcases ids_finish x.bus (x.bus.afterSilence entry) hvalid now uuid with
          ⟨hback, hturn⟩ | ⟨hstays, hturn, hconv⟩
        · constructor
          · intro hlinked _
            refine ⟨?_, hsilent⟩
            by_contra hne
            exact hturned.last_ne hne (hlinked.1.symm.trans hturn)
          · intro hsettled
            rw [(hsettled hback).1, linked_nil]
            exact hturn
        · exact ⟨fun _ hback => absurd hback hstays, fun _ => h.of_eq rfl hturn hconv⟩
      · simp only [Exchange.step, hout, Settled]
        have hlast : (x.heard ++ [heard]).getLast?.bind (fun h => h.entry.turnId) =
            some x.bus.turnFor.1 := by
          rw [List.getLast?_concat]
          exact hturnId
        rcases ids_finish x.bus (x.bus.afterWords heard) hvalid now uuid with
          ⟨hback, hturn⟩ | ⟨hstays, hturn, hconv⟩
        · constructor
          · intro hlinked
            have hopen := hturn.symm.trans (hlinked.1.trans hlast)
            cases hopen
          · exact fun hsettled => absurd (hsettled hback).2 hwords
        · refine ⟨fun _ hback => absurd hback hstays, fun _ => ⟨hturn.trans hlast.symm, ?_⟩⟩
          intro g hg
          rw [hconv]
          rcases List.mem_append.1 hg with hg | hg
          · exact h.2 g hg
          · rw [List.mem_singleton.1 hg]
            exact hin

/-! ## Runs -/

/-- The runs in which the agent's words always belong to what they respond to are those in
which the user never comes back to an open exchange, nor with words. -/
theorem causal_chain_iff (capacity : Int) (uuid : Str) (ops : List (Op φ)) :
    Always step Faithful (new capacity uuid : Exchange φ) ops ↔
      Meets step Settled (new capacity uuid : Exchange φ) ops := by
  have hstart : Turned (new capacity uuid : Exchange φ) := fun _ hh => absurd hh List.not_mem_nil
  refine always_iff_meets (I := Turned) (fun _ op h => h.step op) (fun x op hturned h => ?_)
    hstart ?_
  · rw [faithful_iff_linked] at h ⊢
    exact h.step_iff hturned op
  · rw [faithful_iff_linked]
    exact (linked_nil _).2 rfl

/-- Somebody comes by, leaves, and is back with a word. -/
def backWithWords : List (Op WholeFloat) :=
  let seen (type : String) (payload : Obj WholeFloat) : Option (HumanObservation WholeFloat) :=
    some ⟨lit type, lit "camera", payload, some 1, 0, lit "local"⟩
  [.publish (seen "gesture" []) 2 (lit "a"),
    .publish (seen "presence" (obj [("present", .bool false)])) 4 (lit "b"),
    .publish (seen "speech" (obj [("transcript", .str (lit "Hello."))])) 6 (lit "c")]

/-- The word is in `turn-1` of the first conversation, and the answer to it is in the second
conversation and a response to nothing. -/
theorem backWithWords_unlinked :
    let x := run step (new 16 (lit "z") : Exchange WholeFloat) backWithWords
    let out := x.bus.recordAgentResponse (some someWords) 7 7
    x.heard.map (fun h => (h.entry.turnId, h.entry.conversationId)) =
        [(some (lit "turn-1"), lit "conv-z")] ∧
      (∃ response turn, out.1 = .said response turn ∧ response.inResponseTo = none ∧
        turn.conversationId = lit "conv-c") ∧
      ¬ Faithful x := by
  intro x out
  have hheard : x.heard.map (fun h => (h.entry.turnId, h.entry.conversationId)) =
      [(some (lit "turn-1"), lit "conv-z")] := by decide +kernel
  have hturn : x.bus.currentTurnId = none := by decide +kernel
  refine ⟨hheard, ⟨_, _, recordAgentResponse_someWords x.bus 7 7, hturn, ?_⟩, fun h => ?_⟩
  · decide +kernel
  · have hlinked := ((faithful_iff_linked x).1 h).1
    rw [hturn] at hlinked
    revert hlinked
    decide +kernel

end Exchange

end InteractionBus

end ShugoCore
