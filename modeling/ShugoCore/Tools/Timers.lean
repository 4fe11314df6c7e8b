import Mathlib.Algebra.Order.Monoid.Unbundled.WithTop
import ShugoCore.Clock
import ShugoCore.Lib.Dict
import ShugoCore.Lib.Json
import ShugoCore.Lib.Run

/-!
# Timers

`Timer` and `TimerManager` of `subsystems/tools.py`.  The agent polls the timers: a check fires
those that are due and drops them.  Every change is mirrored to a file, and a new manager on the
same path starts from the file.

A file holds what `json.load` gives back of what was written: numbers as they were, and texts
with their surrogate pairs joined.  Saving always works here.

The pending timers, with the times they are due, are a list that is only appended to and
filtered, and a restart leaves it as it is (`pending_step`).  So a timer is returned by the first
check at or after the time it is due, and by no other (`timer_fires_once`).
-/

namespace ShugoCore

open Py Machine

/-- A time that may never come. -/
abbrev DueTime := WithTop Seconds

/-- `max(0.0, float(duration_seconds))`.  The maximum of zero and a NaN is zero. -/
def secondsOf : PyFloat ℚ → DueTime
  | .nan => 0
  | .negInf => 0
  | .posInf => ⊤
  | .finite q => ((max 0 q : ℚ) : DueTime)

/-- `Timer`. -/
structure Timer where
  timerId : Str
  label : Str
  durationSeconds : DueTime
  dueAt : DueTime
  /-- There is an `on_fire` callback. -/
  onFire : Bool
  firedAt : Option Seconds
  firedWhileAway : Bool
deriving DecidableEq

/-- A timer in the file. -/
structure StoredTimer where
  timerId : Str
  label : Str
  durationSeconds : DueTime
  dueAt : DueTime
deriving DecidableEq

namespace Timer

/-- `Timer.__init__`, with the id that the timer gets. -/
def new (now : Seconds) (durationSeconds : DueTime) (label timerId : Str) (onFire : Bool) :
    Timer where
  timerId := timerId
  label := if label = [] then lit "Timer" else label
  durationSeconds := durationSeconds
  dueAt := now + durationSeconds
  onFire := onFire
  firedAt := none
  firedWhileAway := false

/-- `remaining_seconds <= 0`. -/
def isDue (t : Timer) (now : Seconds) : Bool := t.dueAt ≤ now

/-- `fired`. -/
def fired (t : Timer) : Bool := t.firedAt.isSome

/-- `fire`. -/
def fire (t : Timer) (now : Seconds) : Timer := { t with firedAt := some now }

/-- `to_persist_dict`, written and read. -/
def toPersistDict (t : Timer) : StoredTimer :=
  ⟨join t.timerId, join t.label, t.durationSeconds, t.dueAt⟩

/-- `from_persist_dict`. -/
def fromPersistDict (now : Seconds) (data : StoredTimer) : Option Timer :=
  if data.timerId = [] ∨ data.dueAt ≤ 0 then none
  else some { new now data.durationSeconds data.label data.timerId false with dueAt := data.dueAt }

end Timer

/-- `TimerManager`, and the file under its `persist_path`. -/
structure TimerManager where
  timers : Dict Str Timer
  disk : Option (List StoredTimer)

namespace TimerManager

/-- `save`. -/
def save (m : TimerManager) : TimerManager :=
  { m with
    disk := some ((m.timers.filter fun i => !i.2.fired).map fun i => i.2.toPersistDict) }

/-- `_load`. -/
def load (now : Seconds) (disk : Option (List StoredTimer)) : TimerManager where
  timers := Dict.ofPairs (((disk.getD []).filterMap (Timer.fromPersistDict now)).map
    fun t => (t.timerId, t))
  disk := disk

/-- A manager on a path without a file. -/
def new : TimerManager := ⟨[], none⟩

/-- A timer is expired, and not fired yet. -/
def missed (now : Seconds) (t : Timer) : Bool := !t.fired && t.isDue now

/-- A timer that was missed is marked. -/
def flagged (now : Seconds) (t : Timer) : Timer :=
  if missed now t then { t with firedWhileAway := true } else t

/-- `restore`, and what it returns. -/
def restore (m : TimerManager) (now : Seconds) : List Timer × TimerManager :=
  (((m.timers.map Prod.snd).filter (missed now)).map (flagged now),
    { m with timers := m.timers.map fun i => (i.1, flagged now i.2) })

/-- `set`.  A timer without a duration fires at once, and is kept for the next check. -/
def set (m : TimerManager) (now : Seconds) (durationSeconds : PyFloat ℚ) (label timerId : Str)
    (onFire : Bool) : TimerManager :=
  let seconds := secondsOf durationSeconds
  let timer := Timer.new now seconds label timerId onFire
  let timer := if 0 < seconds then timer else timer.fire now
  save { m with timers := Dict.set m.timers timer.timerId timer }

/-- `cancel`, and what it returns. -/
def cancel (m : TimerManager) (timerId : Str) : Option Timer × TimerManager :=
  (Dict.get? m.timers timerId, save { m with timers := Dict.remove m.timers timerId })

/-- A check takes the timer away. -/
def ends (now : Seconds) (t : Timer) : Bool := t.fired || t.isDue now

/-- The timers that a check returns. -/
def ended (m : TimerManager) (now : Seconds) : List Timer :=
  ((m.timers.map Prod.snd).filter (ends now)).map fun t => if t.fired then t else t.fire now

/-- `check`, and what it returns. -/
def check (m : TimerManager) (now : Seconds) : List Timer × TimerManager :=
  let left : TimerManager := { m with timers := m.timers.filter fun i => !ends now i.2 }
  (m.ended now, if (m.ended now).isEmpty then left else left.save)

/-- A call, or a new manager in the place of the old one. -/
inductive Op where
  | set (now : Seconds) (durationSeconds : PyFloat ℚ) (label timerId : Str) (onFire : Bool)
  | cancel (timerId : Str)
  | check (now : Seconds)
  | restart (now : Seconds)
  | restore (now : Seconds)

/-- One call. -/
def step (m : TimerManager) : Op → TimerManager
  | .set now durationSeconds label timerId onFire => m.set now durationSeconds label timerId onFire
  | .cancel timerId => (m.cancel timerId).2
  | .check now => (m.check now).2
  | .restart now => load now m.disk
  | .restore now => (m.restore now).2

/-- A timer is set with an id that JSON keeps, for a positive time, after the epoch. -/
def Op.Ok : Op → Prop
  | .set now durationSeconds _ timerId _ =>
      timerId ≠ [] ∧ join timerId = timerId ∧ 0 < secondsOf durationSeconds ∧ 0 ≤ now
  | .cancel _ | .check _ | .restart _ | .restore _ => True

/-- The id of the timer that is set. -/
def Op.newId : Op → Option Str
  | .set _ _ _ timerId _ => some timerId
  | .cancel _ | .check _ | .restart _ | .restore _ => none

/-! ## Memory and file -/

/-- A timer that is pending, under its id. -/
structure Live (i : Str × Timer) : Prop where
  key : i.2.timerId = i.1
  fired : i.2.fired = false
  ne_nil : i.1 ≠ []
  kept : join i.1 = i.1
  label : i.2.label ≠ []
  due : 0 < i.2.dueAt

/-- Every timer is pending, and the file holds the same timers in the same order. -/
structure Mirrored (m : TimerManager) : Prop where
  live : ∀ i ∈ m.timers, Live i
  nodup : (m.timers.map Prod.fst).Nodup
  disk : m.disk.getD [] = m.timers.map fun i => i.2.toPersistDict

/-- The ids of the timers that are pending, and the times they are due. -/
def pending (m : TimerManager) : List (Str × DueTime) := m.timers.map fun i => (i.1, i.2.dueAt)

/-- A timer as the next process has it. -/
def reloaded (now : Seconds) (t : Timer) : Timer :=
  { Timer.new now t.durationSeconds (join t.label) t.timerId false with dueAt := t.dueAt }

theorem fromPersistDict_toPersistDict {i : Str × Timer} (h : Live i) (now : Seconds) :
    Timer.fromPersistDict now i.2.toPersistDict = some (reloaded now i.2) := by
  have hid : join i.2.timerId = i.2.timerId := by rw [h.key, h.kept]
  have hne : i.2.timerId ≠ [] := by rw [h.key]; exact h.ne_nil
  have hgood : ¬ (i.2.timerId = [] ∨ i.2.dueAt ≤ 0) := not_or.2 ⟨hne, not_le.2 h.due⟩
  rw [Timer.fromPersistDict, Timer.toPersistDict, hid, if_neg hgood]
  rfl

/-- What is saved is what is pending. -/
theorem mirrored_save {m : TimerManager} (hlive : ∀ i ∈ m.timers, Live i)
    (hnodup : (m.timers.map Prod.fst).Nodup) : Mirrored m.save where
  live := hlive
  nodup := hnodup
  disk := by
    have hall : m.timers.filter (fun i => !i.2.fired) = m.timers :=
      List.filter_eq_self.2 fun i hi => by rw [(hlive i hi).fired]; rfl
    rw [TimerManager.save, hall]
    rfl

/-- A new manager has the timers of the old one. -/
theorem timers_load {m : TimerManager} (h : Mirrored m) (now : Seconds) :
    (load now m.disk).timers = m.timers.map fun i => (i.1, reloaded now i.2) := by
  have hread : (m.disk.getD []).filterMap (Timer.fromPersistDict now) =
      m.timers.map fun i => reloaded now i.2 := by
    rw [h.disk, List.filterMap_map, ← List.filterMap_eq_map]
    exact List.filterMap_congr fun i hi => fromPersistDict_toPersistDict (h.live i hi) now
  have hkeys : (m.timers.map fun i => reloaded now i.2).map (fun t => (t.timerId, t)) =
      m.timers.map fun i => (i.1, reloaded now i.2) := by
    rw [List.map_map]
    refine List.map_congr_left fun i hi => ?_
    exact Prod.ext (h.live i hi).key rfl
  have hnodup : ((m.timers.map fun i => (i.1, reloaded now i.2)).map Prod.fst).Nodup := by
    rw [List.map_map]
    exact h.nodup
  rw [load, hread, hkeys, Dict.ofPairs_eq_self hnodup]

theorem label_reloaded {i : Str × Timer} (h : Live i) (now : Seconds) :
    (reloaded now i.2).label = join i.2.label := if_neg (join_ne_nil h.label)

theorem Live.reloaded {i : Str × Timer} (h : Live i) (now : Seconds) :
    Live (i.1, reloaded now i.2) where
  key := h.key
  fired := rfl
  ne_nil := h.ne_nil
  kept := h.kept
  label := by
    show (TimerManager.reloaded now i.2).label ≠ []
    rw [label_reloaded h]
    exact join_ne_nil h.label
  due := h.due

theorem Mirrored.load {m : TimerManager} (h : Mirrored m) (now : Seconds) :
    Mirrored (load now m.disk) := by
  have htimers := timers_load h now
  refine ⟨?_, ?_, ?_⟩
  · rw [htimers]
    intro j hj
    obtain ⟨i, hi, rfl⟩ := List.mem_map.1 hj
    exact (h.live i hi).reloaded now
  · rw [htimers, List.map_map]
    exact h.nodup
  · rw [htimers, List.map_map]
    show m.disk.getD [] = _
    rw [h.disk]
    refine List.map_congr_left fun i hi => ?_
    have hlabel := label_reloaded (h.live i hi) now
    show i.2.toPersistDict = (reloaded now i.2).toPersistDict
    rw [Timer.toPersistDict, Timer.toPersistDict, hlabel, join_join]
    rfl

theorem flagged_eq (now : Seconds) (t : Timer) :
    ∃ away, flagged now t = { t with firedWhileAway := away } := by
  simp only [flagged]
  split
  · exact ⟨true, rfl⟩
  · exact ⟨t.firedWhileAway, rfl⟩

theorem Mirrored.restore {m : TimerManager} (h : Mirrored m) (now : Seconds) :
    Mirrored (m.restore now).2 := by
  refine ⟨?_, ?_, ?_⟩
  · intro j hj
    obtain ⟨i, hi, rfl⟩ := List.mem_map.1 hj
    obtain ⟨away, haway⟩ := flagged_eq now i.2
    rw [haway]
    have hlive := h.live i hi
    exact ⟨hlive.key, hlive.fired, hlive.ne_nil, hlive.kept, hlive.label, hlive.due⟩
  · rw [TimerManager.restore, List.map_map]
    exact h.nodup
  · rw [TimerManager.restore, List.map_map]
    show m.disk.getD [] = _
    rw [h.disk]
    refine List.map_congr_left fun i _ => ?_
    obtain ⟨away, haway⟩ := flagged_eq now i.2
    show i.2.toPersistDict = (flagged now i.2).toPersistDict
    rw [haway]
    rfl

theorem Mirrored.set {m : TimerManager} (h : Mirrored m) {now : Seconds} {duration : PyFloat ℚ}
    (label : Str) {timerId : Str} (onFire : Bool)
    (hok : (Op.set now duration label timerId onFire).Ok) (hfresh : timerId ∉ m.timers.map Prod.fst) :
    Mirrored (m.set now duration label timerId onFire) ∧
      (m.set now duration label timerId onFire).timers =
        m.timers ++ [(timerId, Timer.new now (secondsOf duration) label timerId onFire)] := by
  obtain ⟨hne, hkept, hpos, hnow⟩ := hok
  have htimers : (m.set now duration label timerId onFire).timers =
      m.timers ++ [(timerId, Timer.new now (secondsOf duration) label timerId onFire)] := by
    rw [TimerManager.set, if_pos hpos]
    exact Dict.set_of_not_mem hfresh _
  refine ⟨?_, htimers⟩
  have hlabel : (if label = [] then lit "Timer" else label) ≠ [] := by
    split
    · decide
    · rename_i hlabel
      exact hlabel
  have hdue : (0 : DueTime) < now + secondsOf duration :=
    lt_of_lt_of_le hpos (le_add_of_nonneg_left (WithTop.coe_nonneg.2 hnow))
  have hlive : Live (timerId, Timer.new now (secondsOf duration) label timerId onFire) :=
    ⟨rfl, rfl, hne, hkept, hlabel, hdue⟩
  refine mirrored_save ?_ ?_
  · show ∀ i ∈ (m.set now duration label timerId onFire).timers, Live i
    rw [htimers]
    intro i hi
    rcases List.mem_append.1 hi with hi | hi
    · exact h.live i hi
    · rw [List.mem_singleton.1 hi]
      exact hlive
  · show ((m.set now duration label timerId onFire).timers.map Prod.fst).Nodup
    rw [htimers, List.map_append, List.nodup_append]
    refine ⟨h.nodup, List.nodup_singleton _, ?_⟩
    intro a ha b hb heq
    rw [heq, List.mem_singleton.1 hb] at ha
    exact hfresh ha

/-- Timers are taken away. -/
theorem Mirrored.filter {m : TimerManager} (h : Mirrored m) (p : Str × Timer → Bool) :
    Mirrored (save { m with timers := m.timers.filter p }) :=
  mirrored_save (fun i hi => h.live i (List.mem_of_mem_filter hi))
    (h.nodup.sublist (List.filter_sublist.map _))

theorem ended_isEmpty {m : TimerManager} {now : Seconds} (h : (m.ended now).isEmpty = true) :
    m.timers.filter (fun i => !ends now i.2) = m.timers := by
  rw [ended, List.isEmpty_iff, List.map_eq_nil_iff, List.filter_eq_nil_iff] at h
  refine List.filter_eq_self.2 fun i hi => ?_
  simpa using h i.2 (List.mem_map_of_mem hi)

theorem Mirrored.check {m : TimerManager} (h : Mirrored m) (now : Seconds) :
    Mirrored (m.check now).2 := by
  rw [TimerManager.check]
  dsimp only
  split
  · rename_i hnone
    rw [ended_isEmpty hnone]
    exact h
  · exact h.filter _

/-! ## The pending timers -/

/-- What a call does to the pending timers. -/
def pendingStep (ps : List (Str × DueTime)) : Op → List (Str × DueTime)
  | .set now duration _ timerId _ => ps ++ [(timerId, now + secondsOf duration)]
  | .cancel timerId => ps.filter fun p => p.1 ≠ timerId
  | .check now => ps.filter fun p => ¬ p.2 ≤ now
  | .restart _ | .restore _ => ps

theorem timers_check (m : TimerManager) (now : Seconds) :
    (m.check now).2.timers = m.timers.filter fun i => !ends now i.2 := by
  rw [check]
  dsimp only
  split <;> rfl

/-- A timer that is pending ends when it is due. -/
theorem Mirrored.ends_eq {m : TimerManager} (h : Mirrored m) {i : Str × Timer} (hi : i ∈ m.timers)
    (now : Seconds) : ends now i.2 = decide (i.2.dueAt ≤ now) := by
  rw [ends, (h.live i hi).fired, Bool.false_or]
  rfl

theorem pending_step {m : TimerManager} (h : Mirrored m) {op : Op} (hok : op.Ok)
    (hfresh : ∀ timerId ∈ op.newId, timerId ∉ m.timers.map Prod.fst) :
    Mirrored (m.step op) ∧ (m.step op).pending = pendingStep m.pending op := by
  cases op with
  | set now duration label timerId onFire =>
      obtain ⟨hset, htimers⟩ := h.set label onFire hok (hfresh timerId rfl)
      refine ⟨hset, ?_⟩
      show (m.set now duration label timerId onFire).pending = _
      rw [pending, htimers, List.map_append]
      rfl
  | cancel timerId =>
      refine ⟨h.filter _, ?_⟩
      rw [pendingStep, pending, pending, List.filter_map]
      rfl
  | check now =>
      refine ⟨h.check now, ?_⟩
      rw [step, pending, timers_check, pendingStep, pending, List.filter_map]
      refine congrArg _ (List.filter_congr fun i hi => ?_)
      rw [h.ends_eq hi]
      exact decide_not.symm
  | restart now =>
      refine ⟨h.load now, ?_⟩
      rw [step, pending, timers_load h, List.map_map]
      rfl
  | restore now =>
      refine ⟨h.restore now, ?_⟩
      rw [step, pending, restore, List.map_map]
      refine List.map_congr_left fun i _ => ?_
      obtain ⟨away, haway⟩ := flagged_eq now i.2
      show (i.1, (flagged now i.2).dueAt) = _
      rw [haway]

/-- The pending timers are in the order in which they were set. -/
theorem pending_sublist (ops : List Op) :
    ((ops.foldl pendingStep []).map Prod.fst).Sublist (ops.filterMap Op.newId) := by
  induction ops using List.reverseRecOn with
  | nil => exact List.Sublist.refl _
  | append_singleton ops op ih =>
      rw [List.foldl_append, List.filterMap_append]
      cases op with
      | set now duration label timerId onFire =>
          rw [List.foldl_cons, List.foldl_nil, pendingStep, List.map_append]
          exact ih.append (List.Sublist.refl _)
      | cancel timerId => exact ((List.filter_sublist.map _).trans ih).trans (by simp [Op.newId])
      | check now => exact ((List.filter_sublist.map _).trans ih).trans (by simp [Op.newId])
      | restart now => exact ih.trans (by simp [Op.newId])
      | restore now => exact ih.trans (by simp [Op.newId])

/-- A run of calls, in memory and on the pending timers. -/
theorem pending_run {ops : List Op} (hok : ∀ op ∈ ops, op.Ok)
    (hfresh : (ops.filterMap Op.newId).Nodup) :
    Mirrored (run step new ops) ∧ (run step new ops).pending = ops.foldl pendingStep [] := by
  induction ops using List.reverseRecOn with
  | nil => exact ⟨⟨fun _ hi => absurd hi List.not_mem_nil, List.nodup_nil, rfl⟩, rfl⟩
  | append_singleton ops op ih =>
      rw [List.filterMap_append, List.nodup_append] at hfresh
      obtain ⟨hmirrored, hpending⟩ := ih (fun op hop => hok op (List.mem_append_left _ hop)) hfresh.1
      have hnew : ∀ timerId ∈ op.newId, timerId ∉ (run step new ops).timers.map Prod.fst := by
        intro timerId hid hmem
        have hset : timerId ∈ ops.filterMap Op.newId := by
          refine (pending_sublist ops).subset ?_
          rw [← hpending, pending, List.map_map]
          exact hmem
        exact hfresh.2.2 timerId hset timerId (by rw [List.filterMap_cons, hid]; simp) rfl
      obtain ⟨hstep, hview⟩ := pending_step hmirrored
        (hok op (List.mem_append_right _ (List.mem_singleton_self _))) hnew
      rw [run_append, List.foldl_append, run_cons, run_nil]
      exact ⟨hstep, by rw [hview, hpending]; rfl⟩

/-- A timer stays pending until it is cancelled or a check finds it due. -/
theorem mem_foldl_pendingStep {id : Str} (due : DueTime) {mid : List Op} (ps : List (Str × DueTime))
    (hmid : id ∉ mid.filterMap Op.newId) :
    (id, due) ∈ mid.foldl pendingStep ps ↔
      (id, due) ∈ ps ∧ Op.cancel id ∉ mid ∧ ∀ now, Op.check now ∈ mid → ¬ due ≤ now := by
  induction mid generalizing ps with
  | nil => simp
  | cons op mid ih =>
      have hrest : id ∉ mid.filterMap Op.newId := by
        intro hmem
        refine hmid (List.mem_filterMap.2 ?_)
        obtain ⟨op', hop', heq⟩ := List.mem_filterMap.1 hmem
        exact ⟨op', List.mem_cons_of_mem _ hop', heq⟩
      rw [List.foldl_cons, ih _ hrest]
      cases op with
      | set now duration label timerId onFire =>
          have hne : id ≠ timerId := by
            rintro rfl
            exact hmid (List.mem_filterMap.2 ⟨_, List.mem_cons_self, rfl⟩)
          simp [pendingStep, hne]
      | cancel timerId =>
          simp only [pendingStep, List.mem_filter, List.mem_cons, Op.cancel.injEq, reduceCtorEq, false_or,
            decide_eq_true_eq, ne_eq]
          tauto
      | check now =>
          simp only [pendingStep, List.mem_filter, List.mem_cons, Op.check.injEq, reduceCtorEq, false_or,
            decide_eq_true_eq, forall_eq_or_imp]
          tauto
      | restart now => simp [pendingStep]
      | restore now => simp [pendingStep]

/-- The ids that a check returns. -/
theorem map_timerId_check {m : TimerManager} (h : Mirrored m) (now : Seconds) :
    (m.check now).1.map Timer.timerId =
      (m.pending.filter fun p => p.2 ≤ (now : DueTime)).map Prod.fst := by
  have hid (t : Timer) : (if t.fired then t else t.fire now).timerId = t.timerId := by
    split <;> rfl
  have hends : m.timers.filter (fun i => ends now i.2) =
      m.timers.filter fun i => i.2.dueAt ≤ (now : DueTime) :=
    List.filter_congr fun i hi => h.ends_eq hi now
  calc (m.check now).1.map Timer.timerId
      = (m.timers.filter fun i => ends now i.2).map fun i => i.2.timerId := by
        rw [check, ended, List.map_map, List.filter_map, List.map_map]
        exact List.map_congr_left fun i _ => hid i.2
    _ = (m.timers.filter fun i => i.2.dueAt ≤ (now : DueTime)).map fun i => i.1 := by
        rw [hends]
        exact List.map_congr_left fun i hi => (h.live i (List.mem_of_mem_filter hi)).key
    _ = (m.pending.filter fun p => p.2 ≤ (now : DueTime)).map Prod.fst := by
        rw [pending, List.filter_map, List.map_map]
        rfl

/-- What a check returns is marked as fired by it. -/
theorem firedAt_check {m : TimerManager} (h : Mirrored m) (now : Seconds) :
    ∀ t ∈ (m.check now).1, t.firedAt = some now := by
  intro t ht
  obtain ⟨u, hu, rfl⟩ := List.mem_map.1 ht
  obtain ⟨i, hi, rfl⟩ := List.mem_map.1 (List.mem_of_mem_filter hu)
  rw [if_neg (by rw [(h.live i hi).fired]; exact Bool.false_ne_true)]
  rfl

end TimerManager

open TimerManager in
/-- However timers are set, cancelled and checked, and however often the process is restarted: a
timer is returned by a check if and only if it is due, it was not cancelled, and no check since
it is due has come before.  And a check returns its timers once each, in the order in which they
were set, and marks them as fired at its time. -/
theorem timer_fires_once (pre mid : List Op) (setAt : Seconds) (duration : PyFloat ℚ)
    (label id : Str) (onFire : Bool) (now : Seconds)
    (hok : ∀ op ∈ pre ++ .set setAt duration label id onFire :: mid, op.Ok)
    (hfresh : ((pre ++ .set setAt duration label id onFire :: mid).filterMap Op.newId).Nodup) :
    (id ∈ ((run step new (pre ++ .set setAt duration label id onFire :: mid)).check now).1.map
          Timer.timerId ↔
        setAt + secondsOf duration ≤ now ∧ Op.cancel id ∉ mid ∧
          ∀ earlier, Op.check earlier ∈ mid → ¬ setAt + secondsOf duration ≤ earlier) ∧
      (((run step new (pre ++ .set setAt duration label id onFire :: mid)).check now).1.map
          Timer.timerId).Sublist
        ((pre ++ .set setAt duration label id onFire :: mid).filterMap Op.newId) ∧
      ∀ t ∈ ((run step new (pre ++ .set setAt duration label id onFire :: mid)).check now).1,
        t.firedAt = some now := by
  obtain ⟨hmirrored, hpending⟩ := pending_run hok hfresh
  have hreturned := map_timerId_check hmirrored now
  rw [hpending] at hreturned
  have horder := pending_sublist (pre ++ .set setAt duration label id onFire :: mid)
  rw [hreturned]
  refine ⟨?_, (List.filter_sublist.map _).trans horder, firedAt_check hmirrored now⟩
  -- the id is not among the timers before, and not set again
  have hset : (Op.set setAt duration label id onFire :: mid).filterMap Op.newId =
      id :: mid.filterMap Op.newId := rfl
  rw [List.filterMap_append, hset, List.nodup_append, List.nodup_cons] at hfresh
  have hbefore : ∀ due, (id, due) ∉ pre.foldl pendingStep [] := by
    intro due hmem
    have hpre := (pending_sublist pre).subset (List.mem_map_of_mem hmem)
    exact hfresh.2.2 id hpre id List.mem_cons_self rfl
  have hmem (due : DueTime) := mem_foldl_pendingStep due
    (pre.foldl pendingStep [] ++ [(id, (setAt : DueTime) + secondsOf duration)]) hfresh.2.1.1
  have hlist : (pre ++ Op.set setAt duration label id onFire :: mid).foldl pendingStep [] =
      mid.foldl pendingStep
        (pre.foldl pendingStep [] ++ [(id, (setAt : DueTime) + secondsOf duration)]) := by
    rw [List.foldl_append, List.foldl_cons]
    rfl
  rw [hlist]
  constructor
  · intro hid
    obtain ⟨⟨id', due⟩, hp, rfl⟩ := List.mem_map.1 hid
    obtain ⟨hin, hdue⟩ := List.mem_filter.1 hp
    obtain ⟨hstart, hcancel, hcheck⟩ := (hmem due).1 hin
    rcases List.mem_append.1 hstart with hpre | hnew
    · exact absurd hpre (hbefore due)
    · obtain rfl := (Prod.mk.inj (List.mem_singleton.1 hnew)).2
      exact ⟨of_decide_eq_true hdue, hcancel, hcheck⟩
  · rintro ⟨hdue, hcancel, hcheck⟩
    refine List.mem_map.2
      ⟨(id, (setAt : DueTime) + secondsOf duration), List.mem_filter.2 ⟨?_, ?_⟩, rfl⟩
    · exact (hmem _).2 ⟨List.mem_append_right _ (List.mem_singleton_self _), hcancel, hcheck⟩
    · exact decide_eq_true hdue

open TimerManager in
/-- A timer of a minute that expires while the process is away. -/
theorem oven_fires_after_restart :
    (0 : DueTime) < secondsOf (.finite 60) ∧
      lit "5e1d0c2a" ∈ ((run step new ([] ++ .set 0 (.finite 60) (lit "Oven") (lit "5e1d0c2a") true ::
        [.restart 90])).check 90).1.map Timer.timerId := by
  have hpos : (0 : DueTime) < secondsOf (.finite 60) := by decide +kernel
  have hok : ∀ op ∈ [] ++ Op.set 0 (.finite 60) (lit "Oven") (lit "5e1d0c2a") true ::
      [Op.restart 90], op.Ok := by
    intro op hop
    rcases List.mem_cons.1 hop with rfl | hop
    · exact ⟨by decide, join_lit _, hpos, le_refl _⟩
    · rw [List.mem_singleton.1 hop]
      trivial
  have hfires := timer_fires_once [] [.restart 90] 0 (.finite 60) (lit "Oven") (lit "5e1d0c2a") true 90
    hok (by decide)
  exact ⟨hpos, hfires.1.2 ⟨by decide +kernel, by simp, by simp⟩⟩

end ShugoCore
