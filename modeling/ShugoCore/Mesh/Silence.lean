import ShugoCore.Mesh.Heartbeats

/-!
# Peers that fall silent

A node that is no longer heard should drop out of the candidates once its last
heartbeat is older than `heartbeat_timeout_s`.  The copies in the cache have no age:
every `_mesh_heartbeat_tick` hands them to the election with the same sequence
number, and the election renews the lease with the time of the tick.  So a record is
as old as the last advertisement only if no copy was fed since.  `Traced` says where
the time in a record comes from, and `silent_excluded_iff` says that a silent peer is
left out by every vote exactly if no vote finds it renewed from the cache.
-/

namespace ShugoCore

open Py Machine

namespace MeshNode

variable {φ : Type} [Builtins φ]

/-- Every heartbeat that was received from `p` is older than the timeout. -/
def Silent (s : MeshNode φ) (now : Seconds) (p : Str) : Prop :=
  ∀ t, (p, t) ∈ s.received → s.election.heartbeatTimeoutS < now - t

/-- A vote leaves out the peers that are silent when it reads the clock. -/
def SilentExcluded (s : MeshNode φ) : Action φ → Prop
  | .advance i _ => ∀ now left, s.calls[i]? = some (.electing now left) →
      ∀ p, p ≠ s.election.nodeId → s.Silent now p →
        p ∉ (s.election.verdict now).candidates ∧ (s.election.verdict now).primary ≠ some p
  | _ => True

/-- A vote finds no silent peer that is eligible and whose record was last written
from the cache within the timeout. -/
def NotRenewed (s : MeshNode φ) : Action φ → Prop
  | .advance i _ => ∀ now left, s.calls[i]? = some (.electing now left) →
      ∀ p r t, p ≠ s.election.nodeId → s.Silent now p → Dict.get? s.election.nodes p = some r →
        Dict.get? s.fedAt p = some t → s.election.heartbeatTimeoutS < now - t ∨ ineligible r ≠ none
  | _ => True

/-- Where the times in the records come from: from an advertisement, or from the copy
in the cache that was fed last. -/
structure Traced (s : MeshNode φ) : Prop where
  own : strip s.election.nodeId = s.election.nodeId
  keyed : s.election.Keyed
  seen : ∀ p r, p ≠ s.election.nodeId → Dict.get? s.election.nodes p = some r →
    (Dict.get? s.fedAt p = none ∧ (p, r.lastSeen) ∈ s.received) ∨
      Dict.get? s.fedAt p = some r.lastSeen
  observing : ∀ payload entry, .observing payload entry ∈ s.calls →
    (entry.nodeId, entry.lastSeen) ∈ s.received

omit [Builtins φ] in
theorem traced_start (agentId nodeId : Str) (priority : Int) (leaseS heartbeatTimeoutS : Seconds)
    (role : NodeRole) :
    Traced (start agentId (.new nodeId priority leaseS heartbeatTimeoutS role) : MeshNode φ) where
  own := MeshElection.strip_nodeId_new nodeId priority leaseS heartbeatTimeoutS role
  keyed := ⟨List.nodup_nil, nofun⟩
  seen p r _ h := by cases h
  observing payload entry h := by cases h

omit [Builtins φ] in
/-- A quiet step changes no record, no time and no entry. -/
theorem Traced.quiet {s s' : MeshNode φ} (h : Traced s) (hq : Quiet s s')
    (hsame : s.election.SameNode s'.election) : Traced s' where
  own := by rw [hsame.1]; exact h.own
  keyed := by
    obtain ⟨hnodup, hkeyed⟩ := h.keyed
    rw [← hq.nodes] at hnodup hkeyed
    exact ⟨hnodup, hkeyed⟩
  seen := by
    rw [hsame.1, hq.nodes, hq.fedAt, hq.received]
    exact h.seen
  observing payload entry hmem := by
    rw [hq.received]
    exact h.observing payload entry (hq.observing payload entry hmem)

omit [Builtins φ] in
/-- The entries that a call still holds were received, and so were those that it held
before it moved on. -/
theorem Traced.observing_goto {s : MeshNode φ} (h : Traced s) {i : Nat} {phase : BeatPhase φ}
    (hphase : phase.advert? = none) (payload : Obj φ) (entry : NodeRecord φ)
    (hmem : .observing payload entry ∈ s.calls.set i phase) :
    (entry.nodeId, entry.lastSeen) ∈ s.received :=
  h.observing payload entry ((quiet_goto s i hphase).observing payload entry hmem)

theorem Traced.loud {s s' : MeshNode φ} {a : Action φ} (h : Traced s) (hl : Loud s a s') :
    Traced s' := by
  cases hl with
  | heard haccepts hentry =>
      obtain ⟨hid, hts⟩ := entry_of_accepted haccepts hentry
      refine ⟨h.own, h.keyed, fun p r hp hr => ?_, fun payload entry hmem => ?_⟩
      · exact (h.seen p r hp hr).imp_left fun ⟨hfed, hrec⟩ => ⟨hfed, List.mem_append_left _ hrec⟩
      · rcases List.mem_append.1 hmem with hmem | hmem
        · exact List.mem_append_left _ (h.observing payload entry hmem)
        · cases List.mem_singleton.1 hmem
          rw [hid, hts]
          exact List.mem_append_right _ (List.mem_singleton_self _)
  | unread haccepts hentry =>
      refine ⟨h.own, h.keyed, fun p r hp hr => ?_, fun payload entry hmem => ?_⟩
      · exact (h.seen p r hp hr).imp_left fun ⟨hfed, hrec⟩ => ⟨hfed, List.mem_append_left _ hrec⟩
      · rcases List.mem_append.1 hmem with hmem | hmem
        · exact List.mem_append_left _ (h.observing payload entry hmem)
        · cases List.mem_singleton.1 hmem
  | @given i r payload entry hi =>
      have hrec := h.observing payload entry (List.mem_of_getElem? hi)
      rw [observe]
      split
      · rename_i election hrecord
        obtain ⟨stored, hs, rfl⟩ := MeshElection.record_ok hrecord
        refine ⟨h.own, h.keyed.store (h.keyed.stored_nodeId hs), fun p r hp hr => ?_,
          h.observing_goto rfl⟩
        by_cases hpe : p = entry.nodeId
        · subst hpe
          have hr' : some stored = some r := (Dict.get?_set_self _ _ _).symm.trans hr
          cases hr'
          refine .inl ⟨Dict.get?_remove_self _ _, ?_⟩
          rw [MeshElection.stored_lastSeen hs]
          exact hrec
        · have hr' : Dict.get? s.election.nodes p = some r :=
            (Dict.get?_set_of_ne _ (Ne.symm hpe) _).symm.trans hr
          have hfed : Dict.get? (Dict.remove s.fedAt entry.nodeId) p = Dict.get? s.fedAt p :=
            Dict.get?_remove_of_ne _ (Ne.symm hpe)
          rw [goto_fedAt, goto_received]
          dsimp only
          rw [hfed]
          exact h.seen p r hp hr'
      · exact ⟨h.own, h.keyed, h.seen, h.observing_goto rfl⟩
  | beat hi hbeat =>
      rcases localBeat_ok hbeat with rfl | ⟨entry, hid, hrecord⟩
      · exact ⟨h.own, ⟨h.keyed.nodup, h.keyed.keyed⟩, h.seen, h.observing_goto rfl⟩
      · obtain ⟨stored, hs, rfl⟩ := MeshElection.record_ok hrecord
        rw [h.own] at hid
        have hkeyed := h.keyed.store (h.keyed.stored_nodeId hs)
        refine ⟨h.own, ⟨hkeyed.nodup, hkeyed.keyed⟩, fun p r hp hr => ?_, h.observing_goto rfl⟩
        have hne : entry.nodeId ≠ p := fun he => hp (by rw [← he, hid]; rfl)
        exact h.seen p r hp ((Dict.get?_set_of_ne _ hne _).symm.trans hr)
  | @fed i r entry peers election hi hrecord =>
      obtain ⟨stored, hs, rfl⟩ := MeshElection.record_ok hrecord
      refine ⟨h.own, h.keyed.store (h.keyed.stored_nodeId hs), fun p r hp hr => ?_,
        h.observing_goto rfl⟩
      by_cases hpe : p = entry.nodeId
      · subst hpe
        have hr' : some stored = some r := (Dict.get?_set_self _ _ _).symm.trans hr
        cases hr'
        rw [MeshElection.stored_lastSeen hs]
        exact .inr (Dict.get?_set_self _ _ _)
      · have hr' : Dict.get? s.election.nodes p = some r :=
          (Dict.get?_set_of_ne _ (Ne.symm hpe) _).symm.trans hr
        have hfed : Dict.get? (Dict.set s.fedAt entry.nodeId entry.lastSeen) p = Dict.get? s.fedAt p :=
          Dict.get?_set_of_ne _ (Ne.symm hpe) _
        rw [goto_fedAt, goto_received]
        dsimp only
        rw [hfed]
        exact h.seen p r hp hr'

theorem Traced.step {s : MeshNode φ} (h : Traced s) (a : Action φ) : Traced (s.step a) := by
  rcases s.step_cases a with hq | hl
  · exact h.quiet hq (s.sameNode_step a).1
  · exact h.loud hl

omit [Builtins φ] in
/-- At a vote, the silent peers are left out exactly if none was renewed. -/
theorem Traced.silentExcluded_iff {s : MeshNode φ} (h : Traced s) (a : Action φ) :
    s.SilentExcluded a ↔ s.NotRenewed a := by
  cases a with
  | receive payload now => exact Iff.rfl
  | tick => exact Iff.rfl
  | advance i rd =>
      constructor
      · intro hex now left hi p r t hp hsilent hr hfed
        by_contra hno
        push Not at hno
        obtain ⟨hfresh, hel⟩ := hno
        have hseen : r.lastSeen = t := by
          rcases h.seen p r hp hr with ⟨hnone, -⟩ | hsome
          · rw [hnone] at hfed; cases hfed
          · rw [hsome] at hfed; cases hfed; rfl
        rw [← hseen] at hfresh
        exact (hex now left hi p hp hsilent).1 (h.keyed.mem_candidates.2 ⟨r, hr, hfresh, hel⟩)
      · intro hnot now left hi p hp hsilent
        have hout : p ∉ (s.election.verdict now).candidates := by
          intro hmem
          obtain ⟨r, hr, hfresh, hel⟩ := h.keyed.mem_candidates.1 hmem
          rcases h.seen p r hp hr with ⟨-, hrec⟩ | hfed
          · exact absurd (hsilent _ hrec) (not_lt.2 hfresh)
          · rcases hnot now left hi p r _ hp hsilent hr hfed with hlt | hne
            · exact absurd hlt (not_lt.2 hfresh)
            · exact hne hel
        exact ⟨hout, fun hprimary => hout (MeshElection.primary_mem_candidates hprimary)⟩

end MeshNode

open MeshNode in
/-- In every run of a node, every vote leaves out the peers that are silent, exactly if
no vote finds one of them eligible and renewed from the cache within the timeout. -/
theorem silent_excluded_iff {φ : Type} [Builtins φ] (agentId nodeId : Str) (priority : Int)
    (leaseS heartbeatTimeoutS : Seconds) (role : NodeRole) (as : List (Action φ)) :
    Meets step SilentExcluded (start agentId (.new nodeId priority leaseS heartbeatTimeoutS role)) as ↔
      Meets step NotRenewed (start agentId (.new nodeId priority leaseS heartbeatTimeoutS role)) as :=
  meets_congr (I := Traced) (fun _ a h _ => h.step a) (fun _ a h => h.silentExcluded_iff a)
    (traced_start agentId nodeId priority leaseS heartbeatTimeoutS role)

/-! ## A peer that is never given up -/

/-- An advertisement of a desktop with a better priority. -/
def desktopBeat : Obj WholeFloat :=
  obj [("node_id", .str (lit "desktop")), ("priority", .int 10), ("thermal_status", .int 0),
    ("mem_available_bytes", .int 1024), ("seq", .int 1)]

/-- The readings of a step at a time. -/
def readingsAt (now : Seconds) : Readings WholeFloat := ⟨now, .none, .int 0, .ok 512⟩

/-- One heartbeat at time 0, and a tick of the agent loop 31 seconds later, up to its
first vote. -/
def silenceRun : List (MeshNode.Action WholeFloat) :=
  .receive desktopBeat 0 :: List.replicate 16 (.advance 0 (readingsAt 0)) ++
    .tick :: List.replicate 6 (.advance 1 (readingsAt 31))

/-- The phone that hears it. -/
def phone : MeshNode WholeFloat :=
  .start (lit "phone") (.new (lit "phone") 100 10 30 .primaryCapable)

/-- The clock reading of a call that is about to vote. -/
def BeatPhase.vote? {φ : Type} : BeatPhase φ → Option (Seconds × Nat)
  | .electing now left => some (now, left)
  | _ => none

theorem BeatPhase.vote?_eq {φ : Type} {phase : BeatPhase φ} {now : Seconds} {left : Nat}
    (h : phase.vote? = some (now, left)) : phase = .electing now left := by
  cases phase <;> cases h
  rfl

open MeshNode in
/-- The desktop has been silent for 31 seconds, and is elected. -/
theorem silent_desktop_elected :
    (run step phone silenceRun).Silent 31 (lit "desktop") ∧
      (run step phone silenceRun).calls[1]? = some (.electing 31 1) ∧
      ((run step phone silenceRun).election.verdict 31).primary = some (lit "desktop") ∧
      ¬ Meets step SilentExcluded phone (silenceRun ++ [.advance 1 (readingsAt 31)]) := by
  have hsilent : (run step phone silenceRun).Silent 31 (lit "desktop") := by
    have hreceived : (run step phone silenceRun).received = [(lit "desktop", 0)] := by
      decide +kernel
    have htimeout : (run step phone silenceRun).election.heartbeatTimeoutS = 30 := by
      decide +kernel
    intro t ht
    rw [hreceived] at ht
    cases List.mem_singleton.1 ht
    rw [htimeout]
    norm_num
  have hvote : (run step phone silenceRun).calls[1]? = some (.electing 31 1) := by
    have hsome : (run step phone silenceRun).calls[1]?.bind BeatPhase.vote? = some (31, 1) := by
      decide +kernel
    obtain ⟨phase, hphase, heq⟩ := Option.bind_eq_some_iff.1 hsome
    rw [hphase, BeatPhase.vote?_eq heq]
  have hprimary : ((run step phone silenceRun).election.verdict 31).primary =
      some (lit "desktop") := by decide +kernel
  refine ⟨hsilent, hvote, hprimary, fun hmeets => ?_⟩
  have hlast := (Meets.append.1 hmeets).2.1
  have hother : lit "desktop" ≠ (run step phone silenceRun).election.nodeId := by decide +kernel
  exact (hlast 31 1 hvote _ hother hsilent).2 hprimary

end ShugoCore
