import ShugoCore.Lib.Calls
import ShugoCore.Lib.PyText
import ShugoCore.Lib.Run

/-!
# The authority of a delegated action

A follower acts for the primary and not on its own.  `_handle_delegated_action` notes
the sender in `_delegated_from`, runs the action and clears the note, and the guard
`_mesh_may_act` of every action reads it.  The note is one field of the agent, and the
mesh threads and the agent loop share it.

A call takes one step at a time here: it asks the election, sets the note, reads it, or
clears it.  The election is outside, and answers each `tick` with whatever primary it
has at that moment.  The id of a primary is never empty, because `observe_heartbeat`
takes no record without one.

The guard is right as long as no other call gets between a delegated call and the note
it set, and no self-initiated action looks at the note of the primary.  `Apart` says
that of a step.
-/

namespace ShugoCore

open Py Machine

/-- The id of a node. -/
abbrev NodeName := { id : Str // id ≠ [] }

/-- What `election.tick()` answers: it raises, or it names a primary or none. -/
inductive TickAnswer where
  | raised
  | primary (p : Option NodeName)
deriving DecidableEq, Repr

/-- Where a call is. -/
inductive GuardPhase where
  /-- `_handle_delegated_action` was called by a peer.  It asks the election next. -/
  | arriving (peer : Str)
  /-- The peer is the primary.  The note is set next. -/
  | accepted (peer : Str)
  /-- The executor runs.  Its guard asks the election next. -/
  | marked (peer : Str)
  /-- The guard reads the note next. -/
  | judging (peer : Str) (answer : TickAnswer)
  /-- The executor goes on or has been refused.  The note is cleared at the end. -/
  | closing (peer : Str)
  /-- A self-initiated action.  Its guard asks the election next. -/
  | trying
  /-- The guard reads the note next. -/
  | tried (answer : TickAnswer)
  | done
deriving DecidableEq, Repr

/-- A guard's verdict, with the sender of the action if it is a delegated one. -/
structure GuardVerdict where
  origin : Option Str
  answer : TickAnswer
  passed : Bool
deriving DecidableEq, Repr

/-- A node with its actions in progress. -/
structure Follower where
  /-- The `node_id` of the election. -/
  nodeId : Str
  /-- `_delegated_from`. -/
  delegatedFrom : Option Str
  calls : List GuardPhase
  /-- The verdicts of the guard so far. -/
  verdicts : List GuardVerdict

namespace Follower

/-- What can happen next. -/
inductive Action where
  /-- A delegated action comes in. -/
  | delegated (peer : Str)
  /-- The node starts an action of its own. -/
  | selfInitiated
  /-- A call takes its next step, with the answer of the election if it asks. -/
  | advance (call : Nat) (answer : TickAnswer)

/-- No action was started yet. -/
def start (nodeId : Str) : Follower := ⟨nodeId, none, [], []⟩

/-- `_mesh_may_act`, after the answer of the election and the reading of the note. -/
def mayAct (nodeId : Str) (answer : TickAnswer) (sender : Option Str) : Bool :=
  match answer with
  | .raised => true
  | .primary none => true
  | .primary (some p) => p.val = nodeId || (sender ≠ some [] && sender = some p.val)

/-- A call moves on. -/
def goto (s : Follower) (i : Nat) (phase : GuardPhase) : Follower :=
  { s with calls := s.calls.set i phase }

/-- The guard gives its verdict. -/
def judge (s : Follower) (origin : Option Str) (answer : TickAnswer) : Follower :=
  { s with verdicts := s.verdicts ++ [⟨origin, answer, mayAct s.nodeId answer s.delegatedFrom⟩] }

/-- The next step of a call. -/
def advance (s : Follower) (i : Nat) (answer : TickAnswer) : GuardPhase → Follower
  | .arriving peer =>
      match answer with
      | .primary (some p) => if p.val = peer then s.goto i (.accepted peer) else s.goto i .done
      | _ => s.goto i .done
  | .accepted peer => { s with delegatedFrom := some peer }.goto i (.marked peer)
  | .marked peer => s.goto i (.judging peer answer)
  | .judging peer answer => (s.judge (some peer) answer).goto i (.closing peer)
  | .closing _ => { s with delegatedFrom := none }.goto i .done
  | .trying => s.goto i (.tried answer)
  | .tried answer => (s.judge none answer).goto i .done
  | .done => s

/-- One step of a run. -/
def step (s : Follower) : Action → Follower
  | .delegated peer => { s with calls := s.calls ++ [.arriving peer] }
  | .selfInitiated => { s with calls := s.calls ++ [.trying] }
  | .advance i answer =>
      match s.calls[i]? with
      | some phase => s.advance i answer phase
      | none => s

/-! ## What the guard owes -/

/-- A verdict of a follower: an action of its own is refused, and an action that the
current primary delegated passes. -/
def Owed (nodeId : Str) (v : GuardVerdict) : Prop :=
  ∀ p, v.answer = .primary (some p) → p.val ≠ nodeId →
    (v.origin = none → v.passed = false) ∧ (v.origin = some p.val → v.passed = true)

/-- Every verdict so far was as it should be. -/
def Guarded (s : Follower) : Prop := ∀ v ∈ s.verdicts, Owed s.nodeId v

/-- The sender of a delegated action whose guard has still to read the note. -/
def awaiting? : GuardPhase → Option Str
  | .marked peer | .judging peer _ => some peer
  | _ => none

/-- The sender of a delegated action that has set the note and not cleared it. -/
def window? : GuardPhase → Option Str
  | .marked peer | .judging peer _ | .closing peer => some peer
  | _ => none

/-- The next step of a call keeps apart what shares the note.  No note is set over
another one, and none is cleared, while a delegated action waits for its guard.  No
self-initiated action reads the note while an action of the primary has it. -/
def ApartAt (s : Follower) : GuardPhase → Prop
  | .accepted peer => ∀ c ∈ s.calls, ∀ q ∈ awaiting? c, q = peer
  | .closing _ => ∀ c ∈ s.calls, awaiting? c = none
  | .tried (.primary (some p)) => p.val ≠ s.nodeId → ∀ c ∈ s.calls, window? c ≠ some p.val
  | _ => True

/-- Every step keeps them apart. -/
def Apart (s : Follower) : Action → Prop
  | .advance i _ => ∀ phase ∈ s.calls[i]?, s.ApartAt phase
  | _ => True

instance (s : Follower) : (phase : GuardPhase) → Decidable (s.ApartAt phase)
  | .accepted peer => inferInstanceAs (Decidable (∀ c ∈ s.calls, ∀ q ∈ awaiting? c, q = peer))
  | .closing _ => inferInstanceAs (Decidable (∀ c ∈ s.calls, awaiting? c = none))
  | .tried (.primary (some p)) =>
      inferInstanceAs (Decidable (p.val ≠ s.nodeId → ∀ c ∈ s.calls, window? c ≠ some p.val))
  | .tried (.primary none) | .tried .raised | .arriving _ | .marked _ | .judging _ _ | .trying
  | .done => inferInstanceAs (Decidable True)

instance (s : Follower) : (a : Action) → Decidable (s.Apart a)
  | .advance i _ => inferInstanceAs (Decidable (∀ phase ∈ s.calls[i]?, s.ApartAt phase))
  | .delegated _ | .selfInitiated => inferInstanceAs (Decidable True)

/-- The note is that of every delegated action that waits for its guard, and it is the
note of an action that has not cleared it. -/
structure Noted (s : Follower) : Prop where
  awaiting : ∀ c ∈ s.calls, ∀ q ∈ awaiting? c, s.delegatedFrom = some q
  window : ∀ q ∈ s.delegatedFrom, ∃ c ∈ s.calls, window? c = some q
  guarded : Guarded s

theorem noted_start (nodeId : Str) : Noted (start nodeId) where
  awaiting c hc := by cases hc
  window q hq := by cases hq
  guarded v hv := by cases hv

/-- An action begins. -/
theorem Noted.concat {s : Follower} (h : Noted s) {phase : GuardPhase}
    (hphase : awaiting? phase = none) : Noted { s with calls := s.calls ++ [phase] } where
  awaiting c hc q hq := by
    rcases List.mem_append.1 hc with hc | hc
    · exact h.awaiting c hc q hq
    · rw [List.mem_singleton.1 hc, hphase] at hq
      cases hq
  window q hq := by
    obtain ⟨c, hc, hw⟩ := h.window q hq
    exact ⟨c, List.mem_append_left _ hc, hw⟩
  guarded := h.guarded

/-- A call moves on and leaves the note.  It may begin to wait for its guard only if the
note is its own, and it does not leave its window. -/
theorem Noted.goto {s : Follower} (h : Noted s) {i : Nat} {phase : GuardPhase}
    (hi : s.calls[i]? = some phase) {phase' : GuardPhase}
    (hawaiting : ∀ q ∈ awaiting? phase', s.delegatedFrom = some q)
    (hwindow : ∀ q, window? phase = some q → window? phase' = some q) : Noted (s.goto i phase') where
  awaiting c hc q hq := by
    rcases List.mem_or_eq_of_mem_set hc with hc | rfl
    · exact h.awaiting c hc q hq
    · exact hawaiting q hq
  window q hq := by
    obtain ⟨c, hc, hw⟩ := h.window q hq
    rcases Calls.mem_set_or_eq (b := phase') hi hc with hc | rfl
    · exact ⟨c, hc, hw⟩
    · exact ⟨phase', Calls.mem_set_self phase' hi, hwindow q hw⟩
  guarded := h.guarded

/-- The guard gives a verdict as it should. -/
theorem Noted.judge {s : Follower} (h : Noted s) {origin : Option Str} {answer : TickAnswer}
    (howed : Owed s.nodeId ⟨origin, answer, mayAct s.nodeId answer s.delegatedFrom⟩) :
    Noted (s.judge origin answer) where
  awaiting := h.awaiting
  window := h.window
  guarded v hv := by
    rcases List.mem_append.1 hv with hv | hv
    · exact h.guarded v hv
    · rw [List.mem_singleton.1 hv]
      exact howed

/-- The guard of a delegated action finds the note of its sender. -/
theorem owed_of_note {nodeId peer : Str} (answer : TickAnswer) :
    Owed nodeId ⟨some peer, answer, mayAct nodeId answer (some peer)⟩ := by
  rintro p rfl hp
  refine ⟨nofun, fun horigin => ?_⟩
  cases horigin
  simp [mayAct, p.property]

/-- The guard of a self-initiated action does not find the note of the primary. -/
theorem owed_of_other {nodeId : Str} {answer : TickAnswer} {note : Option Str}
    (h : ∀ p, answer = .primary (some p) → p.val ≠ nodeId → note ≠ some p.val) :
    Owed nodeId ⟨none, answer, mayAct nodeId answer note⟩ := by
  rintro p rfl hp
  refine ⟨fun _ => ?_, nofun⟩
  simp [mayAct, hp, h p rfl hp]

theorem Noted.advance {s : Follower} (h : Noted s) {i : Nat} {answer : TickAnswer}
    {phase : GuardPhase} (hi : s.calls[i]? = some phase) (ha : s.ApartAt phase) :
    Noted (s.advance i answer phase) := by
  cases phase with
  | arriving peer =>
      have hout {phase' : GuardPhase} (hphase : awaiting? phase' = none) : Noted (s.goto i phase') :=
        h.goto hi (fun _ hq => by rw [hphase] at hq; cases hq) nofun
      match answer with
      | .raised | .primary none => exact hout rfl
      | .primary (some p) =>
          rw [Follower.advance]
          split
          · exact hout rfl
          · exact hout rfl
  | accepted peer =>
      refine ⟨fun c hc q hq => ?_, fun q hq => ?_, h.guarded⟩
      · rcases List.mem_or_eq_of_mem_set hc with hc | rfl
        · exact congrArg some (ha c hc q hq).symm
        · exact hq
      · exact ⟨.marked peer, Calls.mem_set_self _ hi, hq⟩
  | marked peer =>
      have hnote := h.awaiting _ (List.mem_of_getElem? hi) peer rfl
      exact h.goto hi (fun q hq => hnote.trans hq) fun _ hw => hw
  | judging peer answer' =>
      have hnote := h.awaiting _ (List.mem_of_getElem? hi) peer rfl
      have hjudged : Noted (s.judge (some peer) answer') := by
        refine h.judge ?_
        rw [hnote]
        exact owed_of_note answer'
      exact hjudged.goto hi (fun _ hq => by cases hq) fun _ hw => hw
  | closing peer =>
      refine ⟨fun c hc q hq => ?_, fun q hq => (by cases hq), h.guarded⟩
      rcases List.mem_or_eq_of_mem_set hc with hc | rfl
      · rw [ha c hc] at hq
        cases hq
      · cases hq
  | trying => exact h.goto hi (fun _ hq => by cases hq) nofun
  | tried answer' =>
      have hjudged : Noted (s.judge none answer') := by
        refine h.judge (owed_of_other ?_)
        rintro p rfl hp hnote
        obtain ⟨c, hc, hw⟩ := h.window p.val hnote
        exact ha hp c hc hw
      exact hjudged.goto hi (fun _ hq => by cases hq) nofun
  | done => exact h

theorem Noted.step {s : Follower} (h : Noted s) {a : Action} (ha : s.Apart a) : Noted (s.step a) := by
  cases a with
  | delegated peer => exact h.concat rfl
  | selfInitiated => exact h.concat rfl
  | advance i answer =>
      rw [Follower.step]
      split
      · rename_i phase hi
        exact h.advance hi (ha phase hi)
      · exact h

end Follower

open Follower in
/-- In every run whose steps keep delegated actions and the node's own apart, the guard
refuses every action of the node's own and passes every action that the current primary
delegated. -/
theorem guard_holds (nodeId : Str) (as : List Action) (h : Meets step Apart (start nodeId) as) :
    Always step Guarded (start nodeId) as :=
  (Always.of_inv (fun _ _ hn ha => hn.step ha) (noted_start nodeId) h).mono fun _ hn => hn.guarded

/-! ## Overlaps -/

/-- The primary of the hive. -/
def hubPrimary : TickAnswer := .primary (some ⟨lit "hub", by decide⟩)

/-- A step of a call while the hub leads. -/
def hubStep (call : Nat) : Follower.Action := .advance call hubPrimary

/-- The node starts an action of its own while it runs one of the hub. -/
def ownDuringDelegated : List Follower.Action :=
  .delegated (lit "hub") :: List.replicate 2 (hubStep 0) ++ .selfInitiated :: List.replicate 2 (hubStep 1)

/-- Two actions of the hub overlap, and the first ends before the guard of the second. -/
def twoDelegated : List Follower.Action :=
  .delegated (lit "hub") :: List.replicate 4 (hubStep 0) ++ .delegated (lit "hub") ::
    List.replicate 3 (hubStep 1) ++ [hubStep 0, hubStep 1]

open Follower in
/-- The action of the node's own passes, and the second action of the hub is refused. -/
theorem overlapping_guards_fail :
    (run step (start (lit "phone")) ownDuringDelegated).verdicts = [⟨none, hubPrimary, true⟩] ∧
      ¬ Guarded (run step (start (lit "phone")) ownDuringDelegated) ∧
      (run step (start (lit "phone")) twoDelegated).verdicts =
        [⟨some (lit "hub"), hubPrimary, true⟩, ⟨some (lit "hub"), hubPrimary, false⟩] ∧
      ¬ Guarded (run step (start (lit "phone")) twoDelegated) := by
  have hown : (run step (start (lit "phone")) ownDuringDelegated).verdicts =
      [⟨none, hubPrimary, true⟩] := by decide
  have htwo : (run step (start (lit "phone")) twoDelegated).verdicts =
      [⟨some (lit "hub"), hubPrimary, true⟩, ⟨some (lit "hub"), hubPrimary, false⟩] := by decide
  refine ⟨hown, fun hguarded => ?_, htwo, fun hguarded => ?_⟩
  · have howed := hguarded ⟨none, hubPrimary, true⟩ (by rw [hown]; exact List.mem_singleton_self _)
    exact absurd ((howed _ rfl (by decide)).1 rfl) (by decide)
  · have howed := hguarded ⟨some (lit "hub"), hubPrimary, false⟩ (by rw [htwo]; simp)
    exact absurd ((howed _ rfl (by decide)).2 rfl) (by decide)

/-- The node starts an action of its own after one of the hub has ended. -/
def ownAfterDelegated : List Follower.Action :=
  .delegated (lit "hub") :: List.replicate 5 (hubStep 0) ++ .selfInitiated :: List.replicate 2 (hubStep 1)

open Follower in
/-- The action of the hub passes, and the one of the node's own is refused. -/
theorem guards_hold_in_turn :
    Meets step Apart (start (lit "phone")) ownAfterDelegated ∧
      (run step (start (lit "phone")) ownAfterDelegated).verdicts =
        [⟨some (lit "hub"), hubPrimary, true⟩, ⟨none, hubPrimary, false⟩] ∧
      Guarded (run step (start (lit "phone")) ownAfterDelegated) := by
  have hmeets : Meets step Apart (start (lit "phone")) ownAfterDelegated := by decide
  exact ⟨hmeets, by decide, (guard_holds (lit "phone") _ hmeets).last⟩

end ShugoCore
