import ShugoCore.Mesh.Heartbeats

/-!
# What the election holds of a peer

The election is given an advertisement twice: as it was received, and as the copy in
the cache, which has no role and defaults for what was not reported.  The copy does no
harm as long as it has the sequence number of the record, because then it only renews
the lease.  It may have another one: when the loop thread read the cache before the
mesh thread merged a newer advertisement, or when the number is no number.

`Agrees` says that the role, the priority, the thermal status and the headroom in every
record are those of the last advertisement.  `Settles` is exactly what a step needs to
keep that.
-/

namespace ShugoCore

open Py Machine

/-- The fields that rank a node and make it eligible. -/
def NodeRecord.posture {φ : Type} (r : NodeRecord φ) : NodeRole × Int × Int × Option Int :=
  (r.role, r.priority, r.thermalStatus, r.memAvailableBytes)

namespace MeshElection

variable {φ : Type} [Builtins φ]

/-- The sequence numbers differ, or one of them is no number, so the record is
rewritten. -/
def rewrites (entry prev : NodeRecord φ) : Bool :=
  match seqs entry.seq prev.seq with
  | .error _ => false
  | .ok (some (seq, prevSeq)) => seq ≠ prevSeq
  | .ok none => true

/-- What the election holds after an entry of a node that it has a record of. -/
theorem posture_stored {entry prev r : NodeRecord φ} (h : stored entry (some prev) = .ok r) :
    r.posture = if rewrites entry prev then entry.posture else prev.posture := by
  rw [rewrites]
  cases hs : seqs entry.seq prev.seq with
  | error exn => simp only [stored, hs] at h; cases h
  | ok numbers =>
      cases numbers with
      | none => simp only [stored, hs] at h; cases h; rfl
      | some pair =>
          simp only [stored, hs] at h
          by_cases hseq : pair.1 = pair.2
          · rw [if_pos hseq] at h
            cases h
            simp [hseq, NodeRecord.posture]
          · rw [if_neg hseq] at h
            cases h
            simp [hseq]

theorem rewrites_of_error {entry prev : NodeRecord φ} {exn : Exn}
    (h : stored entry (some prev) = .error exn) : rewrites entry prev = false := by
  rw [rewrites]
  cases hs : seqs entry.seq prev.seq with
  | error exn => rfl
  | ok numbers =>
      cases numbers with
      | none => simp only [stored, hs] at h; cases h
      | some pair =>
          simp only [stored, hs] at h
          split at h <;> cases h

end MeshElection

/-- The next step gives the election an entry. -/
def BeatPhase.givesEntry {φ : Type} : BeatPhase φ → Bool
  | .observing _ _ | .beating | .recording _ _ => true
  | _ => false

namespace MeshNode

variable {φ : Type} [Builtins φ]

open MeshElection (rewrites)

/-- The record has the role, the priority, the thermal status and the headroom of an
advertisement. -/
def Says (payload : Obj φ) (r : NodeRecord φ) : Prop :=
  ∃ entry, advertisement payload 0 = .ok (some entry) ∧ r.posture = entry.posture

/-- What the election holds of a peer is what its last advertisement said. -/
def Agrees (s : MeshNode φ) : Prop :=
  ∀ p payload, Dict.get? s.lastAdvert p = some payload →
    ∃ r, Dict.get? s.election.nodes p = some r ∧ Says payload r

/-- Every call has returned. -/
def Finished (s : MeshNode φ) : Prop := ∀ phase ∈ s.calls, phase = .done

/-- What a step needs.  An advertisement can be converted.  When the election is given
one and does not rewrite the record, the record says the same already.  When the
election is given a copy from the cache and rewrites the record of a peer, the copy says
the same as the record. -/
def Settles (s : MeshNode φ) : Action φ → Prop
  | .receive payload now =>
      s.accepts payload = true → ∃ entry, advertisement payload now = .ok (some entry)
  | .tick => True
  | .advance i _ =>
      match s.calls[i]? with
      | some (.observing _ entry) =>
          ∀ prev, Dict.get? s.election.nodes entry.nodeId = some prev →
            rewrites entry prev = false → prev.posture = entry.posture
      | some (.recording entry _) =>
          ∀ prev payload, Dict.get? s.election.nodes entry.nodeId = some prev →
            Dict.get? s.lastAdvert entry.nodeId = some payload → rewrites entry prev = true →
            entry.posture = prev.posture
      | _ => True

/-- The advertisements that calls hold are of other nodes, and so are those that the
election was given. -/
structure Foreign (s : MeshNode φ) : Prop where
  own : strip s.election.nodeId = s.election.nodeId
  lastAdvert : Dict.get? s.lastAdvert s.election.nodeId = none
  observing : ∀ payload entry, .observing payload entry ∈ s.calls →
    entry.nodeId ≠ s.election.nodeId ∧ ∃ ts, advertisement payload ts = .ok (some entry)

theorem foreign_start (agentId nodeId : Str) (priority : Int) (leaseS heartbeatTimeoutS : Seconds)
    (role : NodeRole) :
    Foreign (start agentId (.new nodeId priority leaseS heartbeatTimeoutS role) : MeshNode φ) where
  own := MeshElection.strip_nodeId_new nodeId priority leaseS heartbeatTimeoutS role
  lastAdvert := rfl
  observing payload entry h := by cases h

theorem Foreign.quiet {s s' : MeshNode φ} (h : Foreign s) (hq : Quiet s s')
    (hsame : s.election.SameNode s'.election) : Foreign s' where
  own := by rw [hsame.1]; exact h.own
  lastAdvert := by rw [hq.lastAdvert, hsame.1]; exact h.lastAdvert
  observing payload entry hmem := by
    rw [hsame.1]
    exact h.observing payload entry (hq.observing payload entry hmem)

theorem Foreign.observing_goto {s : MeshNode φ} (h : Foreign s) {i : Nat} {phase : BeatPhase φ}
    (hphase : phase.advert? = none) (payload : Obj φ) (entry : NodeRecord φ)
    (hmem : .observing payload entry ∈ s.calls.set i phase) :
    entry.nodeId ≠ s.election.nodeId ∧ ∃ ts, advertisement payload ts = .ok (some entry) :=
  h.observing payload entry ((quiet_goto s i hphase).observing payload entry hmem)

/-- No step gives the election an advertisement of the node itself. -/
theorem Foreign.loud {s s' : MeshNode φ} {a : Action φ} (h : Foreign s) (hl : Loud s a s')
    (hsame : s.election.SameNode s'.election) : Foreign s' := by
  have hown : strip s'.election.nodeId = s'.election.nodeId := by rw [hsame.1]; exact h.own
  cases hl with
  | heard haccepts hentry =>
      refine ⟨hown, h.lastAdvert, fun payload entry hmem => ?_⟩
      rcases List.mem_append.1 hmem with hmem | hmem
      · exact h.observing payload entry hmem
      · cases List.mem_singleton.1 hmem
        refine ⟨?_, _, hentry⟩
        rw [(entry_of_accepted haccepts hentry).1]
        exact (accepts_iff.1 haccepts).2.2
  | unread haccepts hentry =>
      refine ⟨hown, ?_, fun payload entry hmem => ?_⟩
      · exact (Dict.get?_set_of_ne _ (accepts_iff.1 haccepts).2.2 _).trans h.lastAdvert
      · rcases List.mem_append.1 hmem with hmem | hmem
        · exact h.observing payload entry hmem
        · cases List.mem_singleton.1 hmem
  | @given i r payload entry hi =>
      have hne := (h.observing payload entry (List.mem_of_getElem? hi)).1
      have hadvert : Dict.get? (Dict.set s.lastAdvert entry.nodeId payload) s.election.nodeId = none :=
        (Dict.get?_set_of_ne _ hne _).trans h.lastAdvert
      refine ⟨hown, ?_, fun payload entry hmem => ?_⟩
      · rw [hsame.1, goto_lastAdvert, observe_lastAdvert]
        exact hadvert
      · rw [goto_calls, observe_calls] at hmem
        rw [hsame.1]
        exact h.observing_goto rfl payload entry hmem
  | beat hi hbeat =>
      refine ⟨hown, ?_, fun payload entry hmem => ?_⟩
      · rw [hsame.1]; exact h.lastAdvert
      · rw [hsame.1]; exact h.observing_goto rfl payload entry hmem
  | fed hi hrecord =>
      refine ⟨hown, ?_, fun payload entry hmem => ?_⟩
      · rw [hsame.1]; exact h.lastAdvert
      · rw [hsame.1]; exact h.observing_goto rfl payload entry hmem

theorem Foreign.step {s : MeshNode φ} (h : Foreign s) (a : Action φ) : Foreign (s.step a) := by
  have hsame := (s.sameNode_step a).1
  rcases s.step_cases a with hq | hl
  · exact h.quiet hq hsame
  · exact h.loud hl hsame

/-! ## What a step needs to keep the records -/

/-- An advertisement says what its entry holds. -/
theorem says_iff {payload : Obj φ} {ts : Seconds} {entry : NodeRecord φ}
    (h : advertisement payload ts = .ok (some entry)) {r : NodeRecord φ} :
    Says payload r ↔ r.posture = entry.posture := by
  have hzero := (MeshElection.advertisement_ok h).2.2 0
  constructor
  · rintro ⟨entry', hentry, hr⟩
    rw [hzero] at hentry
    cases hentry
    exact hr
  · exact fun hr => ⟨_, hzero, hr⟩

theorem Agrees.quiet_iff {s s' : MeshNode φ} (hq : Quiet s s') : Agrees s' ↔ Agrees s := by
  rw [Agrees, Agrees, hq.lastAdvert, hq.nodes]

/-- Only what is known of one peer is new. -/
theorem Agrees.of_others_iff {s s' : MeshNode φ} (h : Agrees s) {p : Str} {r : NodeRecord φ}
    (hr : Dict.get? s'.election.nodes p = some r)
    (hnodes : ∀ q, q ≠ p → Dict.get? s'.election.nodes q = Dict.get? s.election.nodes q)
    (hadvert : ∀ q, q ≠ p → Dict.get? s'.lastAdvert q = Dict.get? s.lastAdvert q) :
    Agrees s' ↔ ∀ payload, Dict.get? s'.lastAdvert p = some payload → Says payload r := by
  constructor
  · intro h' payload hp
    obtain ⟨r', hr', hsaid⟩ := h' p payload hp
    rw [hr] at hr'
    cases hr'
    exact hsaid
  · intro hp q payload hq
    by_cases hqp : q = p
    · subst hqp
      exact ⟨r, hr, hp payload hq⟩
    · rw [hadvert q hqp] at hq
      rw [hnodes q hqp]
      exact h q payload hq

theorem Agrees.receive_iff {s : MeshNode φ} (h : Agrees s) (payload : Obj φ) (now : Seconds) :
    Agrees (s.receive payload now) ↔ s.Settles (.receive payload now) := by
  rw [receive, Settles]
  split
  · rename_i haccepts
    split
    · rename_i entry hentry
      exact ⟨fun _ _ => ⟨entry, hentry⟩, fun _ => h⟩
    · rename_i hno
      constructor
      · -- what cannot be converted says nothing that a record could hold
        intro h'
        obtain ⟨r, -, entry, hentry, -⟩ := h' (payloadId payload) payload (Dict.get?_set_self _ _ _)
        exact absurd ((MeshElection.advertisement_ok hentry).2.2 now) (hno _)
      · intro hs
        obtain ⟨entry, hentry⟩ := hs haccepts
        exact absurd hentry (hno entry)
  · rename_i haccepts
    exact ⟨fun _ hc => absurd hc haccepts, fun _ => h⟩

/-- After the election was given an advertisement, the record has to be what it says. -/
theorem Agrees.given_iff {s s' : MeshNode φ} (h : Agrees s) {payload : Obj φ} {ts : Seconds}
    {entry r : NodeRecord φ} (hentry : advertisement payload ts = .ok (some entry))
    (hr : Dict.get? s'.election.nodes entry.nodeId = some r)
    (hnodes : ∀ q, q ≠ entry.nodeId →
      Dict.get? s'.election.nodes q = Dict.get? s.election.nodes q)
    (hadvert : s'.lastAdvert = Dict.set s.lastAdvert entry.nodeId payload) :
    Agrees s' ↔ r.posture = entry.posture := by
  refine (h.of_others_iff hr hnodes fun q hq => ?_).trans ?_
  · rw [hadvert, Dict.get?_set_of_ne _ (Ne.symm hq)]
  · rw [hadvert, Dict.get?_set_self]
    constructor
    · exact fun hsaid => (says_iff hentry).1 (hsaid payload rfl)
    · rintro hpost payload' hp
      cases hp
      exact (says_iff hentry).2 hpost

theorem Agrees.observe_iff {s : MeshNode φ} (h : Agrees s) {payload : Obj φ} {ts : Seconds}
    {entry : NodeRecord φ} (hentry : advertisement payload ts = .ok (some entry)) :
    Agrees (s.observe payload entry) ↔
      ∀ prev, Dict.get? s.election.nodes entry.nodeId = some prev →
        rewrites entry prev = false → prev.posture = entry.posture := by
  have hadvert := observe_lastAdvert s payload entry
  rw [observe, MeshElection.record] at hadvert ⊢
  cases hs : MeshElection.stored entry (Dict.get? s.election.nodes entry.nodeId) with
  | ok r =>
      rw [hs] at hadvert
      refine (h.given_iff hentry (Dict.get?_set_self _ _ _)
        (fun q hq => Dict.get?_set_of_ne _ (Ne.symm hq) _) hadvert).trans ?_
      cases hprev : Dict.get? s.election.nodes entry.nodeId with
      | none =>
          rw [hprev] at hs
          cases hs
          exact ⟨fun _ _ hprev => (by cases hprev), fun _ => rfl⟩
      | some prev =>
          rw [hprev] at hs
          rw [MeshElection.posture_stored hs]
          cases hrw : rewrites entry prev with
          | true => simp [hrw]
          | false => simp [hrw]
  | error exn =>
      -- a sequence number is infinite, so there is a record and it stays
      rw [hs] at hadvert
      cases hprev : Dict.get? s.election.nodes entry.nodeId with
      | none => rw [hprev] at hs; cases hs
      | some prev =>
          rw [hprev] at hs
          have hstays : Agrees { s with lastAdvert := Dict.set s.lastAdvert entry.nodeId payload } ↔
              prev.posture = entry.posture := h.given_iff hentry hprev (fun q _ => rfl) rfl
          refine hstays.trans ?_
          simp [MeshElection.rewrites_of_error hs]

/-- After the election was given a copy from the cache, a record that was rewritten has
to be what the one before it was. -/
theorem Agrees.fed_iff {s s' : MeshNode φ} (h : Agrees s) {entry : NodeRecord φ}
    {election : MeshElection φ} (hrecord : s.election.record entry = .ok election)
    (helection : s'.election = election) (hadvert : s'.lastAdvert = s.lastAdvert) :
    Agrees s' ↔
      ∀ prev payload, Dict.get? s.election.nodes entry.nodeId = some prev →
        Dict.get? s.lastAdvert entry.nodeId = some payload → rewrites entry prev = true →
        entry.posture = prev.posture := by
  obtain ⟨r, hs, rfl⟩ := MeshElection.record_ok hrecord
  have hr : Dict.get? s'.election.nodes entry.nodeId = some r := by
    rw [helection]
    exact Dict.get?_set_self _ _ _
  have hnodes : ∀ q, q ≠ entry.nodeId →
      Dict.get? s'.election.nodes q = Dict.get? s.election.nodes q := by
    intro q hq
    rw [helection]
    exact Dict.get?_set_of_ne _ (Ne.symm hq) _
  refine (h.of_others_iff hr hnodes fun q _ => by rw [hadvert]).trans ?_
  rw [hadvert]
  cases hlast : Dict.get? s.lastAdvert entry.nodeId with
  | none => exact ⟨fun _ _ _ _ => nofun, fun _ _ => nofun⟩
  | some payload =>
      obtain ⟨prev, hprev, entry₀, hentry₀, hpost⟩ := h entry.nodeId payload hlast
      rw [hprev] at hs
      have hone : (∀ payload', some payload = some payload' → Says payload' r) ↔
          r.posture = prev.posture := by
        rw [hpost]
        constructor
        · exact fun hsaid => (says_iff hentry₀).1 (hsaid payload rfl)
        · rintro hr payload' hp
          cases hp
          exact (says_iff hentry₀).2 hr
      rw [hone, MeshElection.posture_stored hs, hprev]
      cases hrw : rewrites entry prev with
      | true => simp [hrw]
      | false => simp [hrw]

/-- The local heartbeat changes no record of a peer. -/
theorem Agrees.beat {s s' : MeshNode φ} (h : Agrees s) (hf : Foreign s) {r : Readings φ}
    {election : MeshElection φ} (hbeat : s.localBeat r = .ok election)
    (helection : s'.election = election) (hadvert : s'.lastAdvert = s.lastAdvert) : Agrees s' := by
  intro p payload hp
  rw [hadvert] at hp
  rw [helection]
  rcases localBeat_ok hbeat with rfl | ⟨entry, hid, hrecord⟩
  · exact h p payload hp
  · obtain ⟨stored, -, rfl⟩ := MeshElection.record_ok hrecord
    rw [hf.own] at hid
    have hne : entry.nodeId ≠ p := by
      intro he
      rw [← he, hid, hf.lastAdvert] at hp
      cases hp
    obtain ⟨r', hr', hsaid⟩ := h p payload hp
    exact ⟨r', (Dict.get?_set_of_ne _ hne _).trans hr', hsaid⟩

/-- A call gives the election an entry in three of its phases. -/
theorem Loud.givesEntry {s s' : MeshNode φ} {i : Nat} {rd : Readings φ}
    (h : Loud s (.advance i rd) s') :
    ∃ phase, s.calls[i]? = some phase ∧ phase.givesEntry = true := by
  cases h with
  | given hi => exact ⟨_, hi, rfl⟩
  | beat hi _ => exact ⟨_, hi, rfl⟩
  | fed hi _ => exact ⟨_, hi, rfl⟩

/-- `Settles` is what a step needs to keep the records as the advertisements say. -/
theorem Agrees.step_iff {s : MeshNode φ} (hf : Foreign s) (h : Agrees s) (a : Action φ) :
    Agrees (s.step a) ↔ s.Settles a := by
  cases a with
  | receive payload now => exact h.receive_iff payload now
  | tick => exact ⟨fun _ => trivial, fun _ => h⟩
  | advance i rd =>
      rw [step, Settles]
      cases hi : s.calls[i]? with
      | none => exact ⟨fun _ => trivial, fun _ => h⟩
      | some phase =>
          cases phase with
          | observing payload entry =>
              obtain ⟨-, ts, hentry⟩ := hf.observing payload entry (List.mem_of_getElem? hi)
              exact h.observe_iff hentry
          | recording entry peers =>
              change Agrees (s.advance i rd (.recording entry peers)) ↔ _
              rw [advance]
              cases hrecord : s.election.record entry with
              | ok election => exact h.fed_iff hrecord rfl rfl
              | error exn =>
                  refine ⟨fun _ prev payload hprev _ hrw => ?_, fun _ => h⟩
                  rw [MeshElection.record, hprev] at hrecord
                  cases hs : MeshElection.stored entry (some prev) with
                  | ok r => rw [hs] at hrecord; cases hrecord
                  | error exn =>
                      rw [MeshElection.rewrites_of_error hs] at hrw
                      cases hrw
          | beating =>
              refine ⟨fun _ => trivial, fun _ => ?_⟩
              change Agrees (s.advance i rd .beating)
              rw [advance]
              split
              · rename_i hbeat
                exact h.beat hf hbeat rfl rfl
              · exact h
          | observed _ | merging _ _ | beaten | feeding _ | ticking _ | electing _ _
          | installing _ _ | done =>
              refine ⟨fun _ => trivial, fun _ => ?_⟩
              rcases s.advance_cases rd hi with hq | hl
              · exact (Agrees.quiet_iff hq).2 h
              · obtain ⟨phase, hphase, hloud⟩ := hl.givesEntry
                rw [hi] at hphase
                cases hphase
                cases hloud

end MeshNode

open MeshNode in
/-- In every run of a node, what the election holds of the peers is always what their
last advertisements said, exactly if every step settles. -/
theorem agrees_iff_settles {φ : Type} [Builtins φ] (agentId nodeId : Str) (priority : Int)
    (leaseS heartbeatTimeoutS : Seconds) (role : NodeRole) (as : List (Action φ)) :
    Always step Agrees (start agentId (.new nodeId priority leaseS heartbeatTimeoutS role)) as ↔
      Meets step Settles (start agentId (.new nodeId priority leaseS heartbeatTimeoutS role)) as :=
  always_iff_meets (I := Foreign) (fun _ a h => h.step a) (fun _ a hf h => h.step_iff hf a)
    (foreign_start agentId nodeId priority leaseS heartbeatTimeoutS role) nofun

/-! ## A role that is lost -/

/-- The first advertisement of a follower that does not report its headroom. -/
def firstBeat : Obj WholeFloat :=
  obj [("node_id", .str (lit "tablet")), ("priority", .int 200), ("thermal_status", .int 0),
    ("role", .str (lit "follower")), ("seq", .int 1)]

/-- The second one. -/
def secondBeat : Obj WholeFloat := setKey (lit "seq") (.int 2) firstBeat

/-- The readings of every step. -/
def someReadings : Readings WholeFloat := ⟨0, .none, .int 0, .ok 512⟩

/-- The loop thread reads the cache, then the mesh thread hands on the second
advertisement, and then the loop thread feeds its copy of the first. -/
def refeedRun : List (MeshNode.Action WholeFloat) :=
  .receive firstBeat 0 :: List.replicate 16 (.advance 0 someReadings) ++
    .tick :: List.replicate 2 (.advance 1 someReadings) ++
    .receive secondBeat 0 :: .advance 2 someReadings :: List.replicate 16 (.advance 1 someReadings) ++
    List.replicate 16 (.advance 2 someReadings)

/-- The hub that hears it. -/
def hub : MeshNode WholeFloat :=
  .start (lit "hub") (.new (lit "hub") 10 10 30 .primaryCapable)

/-- The phase of a call that has returned. -/
def BeatPhase.isDone {φ : Type} : BeatPhase φ → Bool
  | .done => true
  | _ => false

/-- What an advertisement says. -/
def saidPosture (payload : Obj WholeFloat) : Option (NodeRole × Int × Int × Option Int) :=
  (advertisement payload 0).toOption.bind (Option.map NodeRecord.posture)

theorem saidPosture_of_told {payload : Obj WholeFloat} {r : NodeRecord WholeFloat}
    (h : MeshNode.Says payload r) : saidPosture payload = some r.posture := by
  obtain ⟨entry, hentry, hr⟩ := h
  rw [saidPosture, hentry, hr]
  rfl

open MeshNode in
/-- Every call has returned, and the election holds the follower for a node that may
lead and that has no headroom. -/
theorem refed_follower_rewritten :
    (run step hub refeedRun).Finished ∧
      (Dict.get? (run step hub refeedRun).lastAdvert (lit "tablet")).bind saidPosture =
        some (.follower, 200, 0, none) ∧
      (Dict.get? (run step hub refeedRun).election.nodes (lit "tablet")).map NodeRecord.posture =
        some (.primaryCapable, 200, 0, some 0) ∧
      ¬ Agrees (run step hub refeedRun) := by
  have hdone : (run step hub refeedRun).Finished := by
    have hall : (run step hub refeedRun).calls.all BeatPhase.isDone = true := by decide +kernel
    intro phase hphase
    have hone := List.all_eq_true.1 hall phase hphase
    cases phase <;> cases hone
    rfl
  have hsaid : (Dict.get? (run step hub refeedRun).lastAdvert (lit "tablet")).bind saidPosture =
      some (.follower, 200, 0, none) := by decide +kernel
  have hheld : (Dict.get? (run step hub refeedRun).election.nodes (lit "tablet")).map
      NodeRecord.posture = some (.primaryCapable, 200, 0, some 0) := by decide +kernel
  refine ⟨hdone, hsaid, hheld, fun hagrees => ?_⟩
  obtain ⟨payload, hlast, hposture⟩ := Option.bind_eq_some_iff.1 hsaid
  obtain ⟨r, hr, hsaid⟩ := hagrees _ _ hlast
  rw [saidPosture_of_told hsaid] at hposture
  rw [hr, Option.map_some, hposture] at hheld
  cases hheld

end ShugoCore
