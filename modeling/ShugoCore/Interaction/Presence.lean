import Mathlib.Algebra.Order.Group.Unbundled.Abs
import Mathlib.Tactic.Linarith
import ShugoCore.Interaction.Bus

/-!
# The presence events of a run

The events that a bus reports are `USER_PRESENT`, and then `USER_LEFT` and `USER_RETURNED`
in turn.  A bus that has reported `n` events is in the state that `InPhase n` describes, and
the next event is `lifecycle n`.

The debounce window is measured from the last change, so two events are never closer than
it.  Between them nothing but the clock decides whether an observation has an effect.
-/

namespace ShugoCore

open Py

namespace InteractionBus

variable {φ : Type} [Builtins φ]

/-- An event, when it was reported, and the presence state after it. -/
structure Reported where
  event : PresenceEvent
  time : Seconds
  presence : Presence

/-- The event that a call reports. -/
def report (b : InteractionBus φ) : Op φ → Option Reported
  | .publish o now uuid =>
      let out := b.publish o now uuid
      let event := match out.1 with
        | .rejected _ => none
        | .silent entry => entry.presenceEvent
        | .heard heard => heard.entry.presenceEvent
      event.map fun e => ⟨e, now, out.2.presence⟩
  | .respond _ _ _ => none

/-- The events of a run. -/
def reports (b : InteractionBus φ) : List (Op φ) → List Reported
  | [] => []
  | op :: ops => (b.report op).toList ++ (b.step op).reports ops

/-- The reading of the clock that a call of `publish` makes. -/
def reading? : Op φ → Option Seconds
  | .publish _ now _ => some now
  | .respond _ _ _ => none

/-- The `n`-th event: `USER_PRESENT (USER_LEFT USER_RETURNED)*`. -/
def lifecycle : Nat → PresenceEvent
  | 0 => .userPresent
  | n + 1 => if n % 2 = 0 then .userLeft else .userReturned

/-- The presence state that an event announces. -/
def announced : PresenceEvent → Presence
  | .userPresent => .present
  | .userReturned => .present
  | .userLeft => .absent

/-! ## One call -/

/-- What a bus that has reported `n` events knows of presence. -/
def InPhase (n : Nat) (b : InteractionBus φ) : Prop :=
  b.presence = (if n % 2 = 0 then .absent else .present) ∧ b.hasBeenPresent = decide (0 < n)

/-- A call leaves the presence as it is, or reports the change that it makes. -/
theorem report_cases (b : InteractionBus φ) (op : Op φ) :
    (b.report op = none ∧ (b.step op).presence = b.presence ∧
        (b.step op).hasBeenPresent = b.hasBeenPresent ∧
        (b.step op).presenceChangedAt = b.presenceChangedAt) ∨
      ∃ now implied e, reading? op = some now ∧ b.presenceChange now implied = some e ∧
        b.report op = some ⟨e, now, announced e⟩ ∧ (b.step op).presence = announced e ∧
        (b.step op).hasBeenPresent = (b.hasBeenPresent || decide (e ≠ .userLeft)) ∧
        (b.step op).presenceChangedAt = now := by
  cases op with
  | respond r spokenAt askedAt =>
      left
      simp only [step, recordAgentResponse]
      split
      · exact ⟨rfl, rfl, rfl, rfl⟩
      · split
        · exact ⟨rfl, rfl, rfl, rfl⟩
        · split <;> exact ⟨rfl, rfl, rfl, rfl⟩
  | publish o now uuid =>
      simp only [step, report, publish]
      split
      · exact .inl ⟨rfl, rfl, rfl, rfl⟩
      · rename_i o
        split
        · exact .inl ⟨rfl, rfl, rfl, rfl⟩
        · cases hchange : b.presenceChange now (presentImplied o) with
          | none =>
              left
              split <;> exact ⟨rfl, rfl, rfl, rfl⟩
          | some e =>
              right
              refine ⟨now, presentImplied o, e, rfl, hchange, ?_⟩
              cases e with
              | userPresent => split <;> exact ⟨rfl, rfl, by simp [changePresence], rfl⟩
              | userLeft =>
                  split
                  · exact ⟨rfl, rfl, by simp [changePresence, afterSilence], rfl⟩
                  · exact ⟨rfl, rfl, by simp [changePresence, afterWords], rfl⟩
              | userReturned => split <;> exact ⟨rfl, rfl, by simp [changePresence], rfl⟩

omit [Builtins φ] in
/-- The change that can come next. -/
theorem InPhase.presenceChange {n : Nat} {b : InteractionBus φ} (h : InPhase n b) {now : Seconds}
    {implied : Bool} {e : PresenceEvent} (hchange : b.presenceChange now implied = some e) :
    e = lifecycle n ∧ debounce ≤ |now - b.presenceChangedAt| := by
  unfold InteractionBus.presenceChange at hchange
  split at hchange
  · rename_i hwindow
    refine ⟨?_, hwindow⟩
    rw [h.1, h.2] at hchange
    cases n with
    | zero =>
        cases implied with
        | true => exact (Option.some.inj hchange).symm
        | false => cases hchange
    | succ n =>
        rcases Nat.mod_two_eq_zero_or_one n with hn | hn
        · have hnext : (n + 1) % 2 = 1 := by omega
          rw [hnext] at hchange
          cases implied with
          | true => cases hchange
          | false => simpa [lifecycle, hn] using hchange.symm
        · have hnext : (n + 1) % 2 = 0 := by omega
          rw [hnext] at hchange
          cases implied with
          | true => simpa [lifecycle, hn] using hchange.symm
          | false => cases hchange
  · cases hchange

omit [Builtins φ] in
/-- The phase after the next event. -/
theorem inPhase_succ {n : Nat} {b b' : InteractionBus φ} (h : InPhase n b)
    (hpresence : b'.presence = announced (lifecycle n))
    (hbeen : b'.hasBeenPresent = (b.hasBeenPresent || decide (lifecycle n ≠ .userLeft))) :
    InPhase (n + 1) b' := by
  rw [InPhase, hpresence, hbeen, h.2]
  cases n with
  | zero => exact ⟨rfl, rfl⟩
  | succ n =>
      rcases Nat.mod_two_eq_zero_or_one n with hn | hn
      · have hnext : (n + 1 + 1) % 2 = 0 := by omega
        simp [lifecycle, hn, hnext, announced]
      · have hnext : (n + 1 + 1) % 2 = 1 := by omega
        simp [lifecycle, hn, hnext, announced]

/-! ## Runs -/

/-- The readings of a clock that never goes back. -/
def Forward (ops : List (Op φ)) : Prop := (ops.filterMap reading?).Pairwise (· ≤ ·)

/-- The events of a run from a bus that has reported `n` events.  The clock has not gone back
behind the last of them. -/
theorem reports_spec {n : Nat} {b : InteractionBus φ} (h : InPhase n b) {ops : List (Op φ)}
    (hclock : Forward ops)
    (hlast : 0 < n → ∀ t ∈ ops.filterMap reading?, b.presenceChangedAt ≤ t) :
    (∀ i r, (b.reports ops)[i]? = some r →
        r.event = lifecycle (n + i) ∧ r.presence = announced r.event) ∧
      (∀ i r r', (b.reports ops)[i]? = some r → (b.reports ops)[i + 1]? = some r' →
        r.time + debounce ≤ r'.time) ∧
      ∀ r, (b.reports ops)[0]? = some r → 0 < n → b.presenceChangedAt + debounce ≤ r.time := by
  induction ops generalizing n b with
  | nil => exact ⟨nofun, nofun, nofun⟩
  | cons op ops ih =>
      have hrest : Forward ops ∧ ∀ now ∈ reading? op, ∀ t ∈ ops.filterMap reading?, now ≤ t := by
        cases hread : reading? op with
        | none =>
            rw [Forward, List.filterMap_cons_none hread] at hclock
            exact ⟨hclock, nofun⟩
        | some now =>
            rw [Forward, List.filterMap_cons_some hread, List.pairwise_cons] at hclock
            refine ⟨hclock.2, ?_⟩
            intro now' hnow
            cases hnow
            exact hclock.1
      have hmem : ∀ t ∈ ops.filterMap reading?, t ∈ (op :: ops).filterMap reading? := by
        intro t ht
        rw [List.filterMap_cons]
        split
        · exact ht
        · exact List.mem_cons_of_mem _ ht
      rcases b.report_cases op with ⟨hnone, hpresence, hbeen, hchanged⟩ |
        ⟨now, implied, e, hread, hchange, hreport, hpresence, hbeen, hchanged⟩
      · have hphase : InPhase n (b.step op) := ⟨hpresence.trans h.1, hbeen.trans h.2⟩
        have hnext := ih hphase hrest.1 fun hn t ht => by
          rw [hchanged]
          exact hlast hn t (hmem t ht)
        rw [hchanged] at hnext
        rw [reports, hnone]
        exact hnext
      · obtain ⟨rfl, hwindow⟩ := h.presenceChange hchange
        have hphase : InPhase (n + 1) (b.step op) := inPhase_succ h hpresence hbeen
        obtain ⟨hevents, hapart, hfirst⟩ := ih hphase hrest.1 fun _ t ht => by
          rw [hchanged]
          exact hrest.2 now hread t ht
        rw [hchanged] at hfirst
        rw [reports, hreport]
        refine ⟨fun i r hr => ?_, fun i r r' hr hr' => ?_, fun r hr hn => ?_⟩
        · cases i with
          | zero =>
              cases hr
              exact ⟨rfl, rfl⟩
          | succ i =>
              have hi := hevents i r hr
              rwa [Nat.add_right_comm, Nat.add_assoc] at hi
        · cases i with
          | zero =>
              cases hr
              exact hfirst r' hr' (Nat.succ_pos n)
          | succ i => exact hapart i r r' hr hr'
        · cases hr
          have hle := hlast hn now (by rw [List.filterMap_cons_some hread]; exact List.mem_cons_self)
          rw [abs_of_nonneg (sub_nonneg.2 hle)] at hwindow
          dsimp only
          linarith

/-- Whatever is observed, by a clock that does not go back: the events are a beginning of
`USER_PRESENT (USER_LEFT USER_RETURNED)*`, each announces the presence state that the bus is
in, and none comes within the debounce window of the one before. -/
theorem presence_events_alternate (capacity : Int) (uuid : Str) (ops : List (Op φ))
    (hclock : Forward ops) :
    let events := (new capacity uuid : InteractionBus φ).reports ops
    (∀ i r, events[i]? = some r → r.event = lifecycle i ∧ r.presence = announced r.event) ∧
      ∀ i r r', events[i]? = some r → events[i + 1]? = some r' → r.time + 3 / 2 ≤ r'.time := by
  intro events
  have hstart : InPhase 0 (new capacity uuid : InteractionBus φ) := ⟨rfl, rfl⟩
  obtain ⟨hevents, hapart, -⟩ := reports_spec hstart hclock nofun
  refine ⟨fun i r hr => ?_, hapart⟩
  have hi := hevents i r hr
  rwa [Nat.zero_add] at hi

/-- Somebody waves and leaves.  What is seen a second after the first event is not reported. -/
def visit : List (Op WholeFloat) :=
  let seen (type : String) (present : Bool) : Option (HumanObservation WholeFloat) :=
    some ⟨lit type, lit "camera", obj [("present", .bool present)], some 1, 0, lit "local"⟩
  [.publish (seen "gesture" true) 2 [], .publish (seen "presence" false) 3 [],
    .publish (seen "presence" false) 4 []]

theorem visit_alternates :
    let events := (new 16 [] : InteractionBus WholeFloat).reports visit
    Forward visit ∧ events.map Reported.event = [.userPresent, .userLeft] ∧
      ∀ i r, events[i]? = some r → r.event = lifecycle i ∧ r.presence = announced r.event := by
  have hclock : Forward visit := by
    show List.Pairwise (· ≤ ·) [(2 : ℚ), 3, 4]
    decide +kernel
  exact ⟨hclock, by decide +kernel, (presence_events_alternate 16 [] visit hclock).1⟩

end InteractionBus

end ShugoCore
