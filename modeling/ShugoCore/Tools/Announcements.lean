import ShugoCore.Lib.Binary64
import ShugoCore.Tools.Timers

/-!
# Announcements of timers

The timers of the agent: the `set_timer` and `cancel_timer` tools of `subsystems/tools.py`, and
`_check_timers` and the start of `shugocore_agent.py`.  A timer that the process has set speaks
through its callback when it fires.  The file keeps no callbacks.  So the start marks the timers
that are expired by then, and the next tick speaks for these.

A timer that comes due after a restart has neither.  It fires in silence, and every other one is
announced exactly once (`announced_once_iff`).
-/

namespace ShugoCore

open Py Machine

/-- The agent, as far as its timers go. -/
structure TimerAgent where
  timers : TimerManager
  /-- When the process looked for expired timers. -/
  startedAt : Seconds
  /-- The ids of the timers that `check` has returned. -/
  fired : List Str
  /-- What was spoken, with the id of the timer it was spoken for. -/
  spoken : List (Str × Str)

namespace TimerAgent

/-- `unit_seconds`. -/
def unitSeconds (durationUnit : Str) : Int :=
  (Dict.get? [(lit "second", 1), (lit "sec", 1), (lit "minute", 60), (lit "min", 60),
    (lit "hour", 3600), (lit "hr", 3600)] (lowerLetters durationUnit)).getD 60

/-- `int(float(duration_value)) * unit_seconds`, but one second at least.  A NaN and an infinity
raise. -/
def toolSeconds (durationValue : PyFloat ℚ) (durationUnit : Str) : Option Int :=
  match durationValue with
  | .finite q => some (max 1 ((if q < 0 then ⌈q⌉ else ⌊q⌋) * unitSeconds durationUnit))
  | .nan | .posInf | .negInf => none

/-- The duration that a timer is set for, unless the tool raises. -/
def toolDuration (durationValue : PyFloat ℚ) (durationUnit : Str) : Option (PyFloat ℚ) :=
  (toolSeconds durationValue durationUnit).bind fun seconds => (PyFloat.ofInt seconds).toOption

/-- The line of the callback. -/
def doneLine (t : Timer) : Str × Str := (t.timerId, t.label ++ lit " is done!")

/-- The line of `_check_timers`, which has `lower` for `str.lower`. -/
def awayLine (lower : Str → Str) (t : Timer) : Str × Str :=
  (t.timerId, lit "While you were away, your " ++ lower t.label ++ lit " fired.")

/-- `_check_timers`. -/
def tick (lower : Str → Str) (s : TimerAgent) (now : Seconds) : TimerAgent :=
  let returned := s.timers.check now
  let called := ((s.timers.timers.map Prod.snd).filter fun t =>
    TimerManager.missed now t && t.onFire).map doneLine
  { s with
    timers := returned.2
    fired := s.fired ++ returned.1.map Timer.timerId
    spoken := s.spoken ++ called ++ (returned.1.filter Timer.firedWhileAway).map (awayLine lower) }

/-- What happens to the agent. -/
inductive Event where
  | setTimer (now : Seconds) (timerId : Str) (durationValue : PyFloat ℚ) (durationUnit label : Str)
  | cancelTimer (timerId : Str)
  | tick (now : Seconds)
  | restart (loadedAt restoredAt : Seconds)

/-- One event. -/
def step (lower : Str → Str) (s : TimerAgent) : Event → TimerAgent
  | .setTimer now timerId durationValue durationUnit label =>
      match toolDuration durationValue durationUnit with
      | some duration => { s with timers := s.timers.set now duration label timerId true }
      | none => s
  | .cancelTimer timerId => { s with timers := (s.timers.cancel timerId).2 }
  | .tick now => s.tick lower now
  | .restart loadedAt restoredAt =>
      { s with
        timers := ((TimerManager.load loadedAt s.timers.disk).restore restoredAt).2
        startedAt := restoredAt }

/-- An agent that starts on an empty directory. -/
def start (now : Seconds) : TimerAgent := ⟨TimerManager.new, now, [], []⟩

/-- A new timer has an id of its own, as `uuid4` gives one, and is set after the epoch. -/
def Fresh (s : TimerAgent) : Event → Prop
  | .setTimer now timerId _ _ _ =>
      timerId ≠ [] ∧ join timerId = timerId ∧ 0 ≤ now ∧
        timerId ∉ s.timers.timers.map Prod.fst ∧ timerId ∉ s.fired
  | .cancelTimer _ | .tick _ | .restart _ _ => True

/-- Every timer that was fired was announced once. -/
def AnnouncedOnce (s : TimerAgent) : Prop :=
  ∀ timerId ∈ s.fired, s.spoken.countP (fun line => line.1 = timerId) = 1

/-- A tick finds no timer that was reloaded and came due after that. -/
def NoneCameDue (s : TimerAgent) : Event → Prop
  | .tick now => ∀ i ∈ s.timers.timers, i.2.dueAt ≤ (now : DueTime) →
      i.2.onFire = true ∨ i.2.dueAt ≤ (s.startedAt : DueTime)
  | .setTimer _ _ _ _ _ | .cancelTimer _ | .restart _ _ => True

instance (s : TimerAgent) (e : Event) : Decidable (s.Fresh e) :=
  match e with
  | .setTimer now timerId _ _ _ => inferInstanceAs (Decidable (timerId ≠ [] ∧ join timerId = timerId ∧
      0 ≤ now ∧ timerId ∉ s.timers.timers.map Prod.fst ∧ timerId ∉ s.fired))
  | .cancelTimer _ | .tick _ | .restart _ _ => inferInstanceAs (Decidable True)

instance (s : TimerAgent) : Decidable (AnnouncedOnce s) :=
  inferInstanceAs (Decidable (∀ timerId ∈ s.fired, s.spoken.countP (fun line => line.1 = timerId) = 1))

instance (s : TimerAgent) (e : Event) : Decidable (s.NoneCameDue e) :=
  match e with
  | .tick now => inferInstanceAs (Decidable (∀ i ∈ s.timers.timers, i.2.dueAt ≤ (now : DueTime) →
      i.2.onFire = true ∨ i.2.dueAt ≤ (s.startedAt : DueTime)))
  | .setTimer _ _ _ _ _ | .cancelTimer _ | .restart _ _ => inferInstanceAs (Decidable True)

/-! ## Who speaks for a timer -/

/-- A pending timer has a callback, or it has none and is marked if it was expired at the start. -/
structure Owned (s : TimerAgent) (i : Str × Timer) : Prop where
  marked : i.2.firedWhileAway = true ↔ i.2.onFire = false ∧ i.2.dueAt ≤ (s.startedAt : DueTime)
  unfired : i.1 ∉ s.fired
  unspoken : ∀ line ∈ s.spoken, line.1 ≠ i.1

/-- Memory and file agree, and nothing was said of a timer that is pending. -/
structure Ready (s : TimerAgent) : Prop where
  mirrored : s.timers.Mirrored
  owned : ∀ i ∈ s.timers.timers, Owned s i
  /-- What was spoken was spoken for a timer that has fired. -/
  spoken : ∀ line ∈ s.spoken, line.1 ∈ s.fired

theorem toolSeconds_pos {value : PyFloat ℚ} {unit : Str} {seconds : Int}
    (h : toolSeconds value unit = some seconds) : 0 < seconds := by
  unfold toolSeconds at h
  split at h
  · obtain rfl := Option.some.inj h
    exact lt_of_lt_of_le Int.zero_lt_one (le_max_left _ _)
  · cases h
  · cases h
  · cases h

/-- The tool sets no timer without a duration. -/
theorem toolDuration_pos {value : PyFloat ℚ} {unit : Str} {duration : PyFloat ℚ}
    (h : toolDuration value unit = some duration) : 0 < secondsOf duration := by
  rw [toolDuration, Option.bind_eq_some_iff] at h
  obtain ⟨seconds, hseconds, hofInt⟩ := h
  cases hfloat : PyFloat.ofInt seconds with
  | error e =>
      rw [hfloat] at hofInt
      cases hofInt
  | ok x =>
      rw [hfloat] at hofInt
      obtain rfl := Option.some.inj hofInt
      obtain ⟨q, rfl, hq⟩ := PyFloat.ofInt_pos (toolSeconds_pos hseconds) hfloat
      exact WithTop.coe_lt_coe.2 (lt_of_lt_of_le hq (le_max_right 0 q))

theorem Ready.setTimer {lower : Str → Str} {s : TimerAgent} (h : Ready s) {now : Seconds}
    {timerId : Str}
    (value : PyFloat ℚ) (unit label : Str)
    (hfresh : s.Fresh (.setTimer now timerId value unit label)) :
    Ready (s.step lower (.setTimer now timerId value unit label)) := by
  obtain ⟨hne, hkept, hnow, hpending, hfired⟩ := hfresh
  unfold step
  dsimp only
  split
  · rename_i duration hduration
    obtain ⟨hmirrored, htimers⟩ := h.mirrored.set label true
      ⟨hne, hkept, toolDuration_pos hduration, hnow⟩ hpending
    refine ⟨hmirrored, ?_, h.spoken⟩
    dsimp only
    rw [htimers]
    intro i hi
    rcases List.mem_append.1 hi with hi | hi
    · have howned := h.owned i hi
      exact ⟨howned.marked, howned.unfired, howned.unspoken⟩
    · rw [List.mem_singleton.1 hi]
      refine ⟨by simp [Timer.new], hfired, fun line hline heq => ?_⟩
      have hline := h.spoken line hline
      rw [heq] at hline
      exact hfired hline
  · exact h

theorem Ready.restart {s : TimerAgent} (h : Ready s) (loadedAt restoredAt : Seconds) :
    Ready { s with
      timers := ((TimerManager.load loadedAt s.timers.disk).restore restoredAt).2
      startedAt := restoredAt } := by
  refine ⟨(h.mirrored.load loadedAt).restore restoredAt, ?_, h.spoken⟩
  intro j hj
  obtain ⟨k, hk, rfl⟩ := List.mem_map.1 hj
  rw [TimerManager.timers_load h.mirrored] at hk
  obtain ⟨i, hi, rfl⟩ := List.mem_map.1 hk
  have howned := h.owned i hi
  refine ⟨?_, howned.unfired, howned.unspoken⟩
  dsimp only
  simp only [TimerManager.flagged]
  split
  · rename_i hmissed
    simp only [TimerManager.missed, Bool.and_eq_true, Timer.isDue, decide_eq_true_eq] at hmissed
    exact ⟨fun _ => ⟨rfl, hmissed.2⟩, fun _ => rfl⟩
  · rename_i hmissed
    refine ⟨fun haway => (by cases haway), fun hdue => absurd ?_ hmissed⟩
    simp only [TimerManager.missed, Bool.and_eq_true, Timer.isDue, decide_eq_true_eq]
    exact ⟨rfl, hdue.2⟩

/-! ## A tick -/

/-- A timer is due. -/
def due (now : Seconds) (i : Str × Timer) : Bool := i.2.dueAt ≤ (now : DueTime)

/-- The ids that a tick fires. -/
theorem fired_tick {lower : Str → Str} {s : TimerAgent} (h : s.timers.Mirrored) (now : Seconds) :
    (s.tick lower now).fired = s.fired ++ (s.timers.timers.filter (due now)).map Prod.fst := by
  show s.fired ++ (s.timers.check now).1.map Timer.timerId = _
  rw [TimerManager.map_timerId_check h, TimerManager.pending, List.filter_map, List.map_map]
  rfl

/-- The lines that a tick speaks. -/
theorem spoken_tick {lower : Str → Str} {s : TimerAgent} (h : s.timers.Mirrored) (now : Seconds) :
    (s.tick lower now).spoken = s.spoken ++
      ((s.timers.timers.filter fun i => due now i && i.2.onFire).map fun i => doneLine i.2) ++
      ((s.timers.timers.filter fun i => due now i && i.2.firedWhileAway).map
        fun i => awayLine lower i.2) := by
  have hmissed : ∀ i ∈ s.timers.timers, TimerManager.missed now i.2 = due now i := by
    intro i hi
    rw [TimerManager.missed, (h.live i hi).fired]
    rfl
  have hends : ∀ i ∈ s.timers.timers, TimerManager.ends now i.2 = due now i :=
    fun i hi => h.ends_eq hi now
  have hcalled : ((s.timers.timers.map Prod.snd).filter fun t =>
      TimerManager.missed now t && t.onFire).map doneLine =
        (s.timers.timers.filter fun i => due now i && i.2.onFire).map fun i => doneLine i.2 := by
    rw [List.filter_map, List.map_map]
    refine congrArg _ (List.filter_congr fun i hi => ?_)
    show (TimerManager.missed now i.2 && _) = _
    rw [hmissed i hi]
  have haway : ((s.timers.check now).1.filter Timer.firedWhileAway).map (awayLine lower) =
      (s.timers.timers.filter fun i => due now i && i.2.firedWhileAway).map
        fun i => awayLine lower i.2 := by
    have hline (t : Timer) : awayLine lower (if t.fired then t else t.fire now) = awayLine lower t := by
      split <;> rfl
    have hmark (t : Timer) : (if t.fired then t else t.fire now).firedWhileAway = t.firedWhileAway := by
      split <;> rfl
    rw [TimerManager.check, TimerManager.ended, List.filter_map, List.map_map, List.filter_map,
      List.filter_map, List.map_map, List.filter_filter]
    have hfilter : s.timers.timers.filter (fun i =>
        (if i.2.fired then i.2 else i.2.fire now).firedWhileAway && TimerManager.ends now i.2) =
          s.timers.timers.filter fun i => due now i && i.2.firedWhileAway := by
      refine List.filter_congr fun i hi => ?_
      rw [hmark, hends i hi, Bool.and_comm]
    exact (congrArg _ hfilter).trans (List.map_congr_left fun i _ => hline i.2)
  show s.spoken ++ _ ++ _ = _
  rw [hcalled, haway]

/-- Among lines for distinct timers, one is for a given timer. -/
theorem countP_lines {items : List (Str × Timer)} (hnodup : (items.map Prod.fst).Nodup)
    (p : Str × Timer → Bool) {f : Str × Timer → Str × Str} (hf : ∀ i ∈ items, (f i).1 = i.1)
    {i : Str × Timer} (hi : i ∈ items) :
    ((items.filter p).map f).countP (fun line => line.1 = i.1) = if p i then 1 else 0 := by
  have hzero : ∀ items : List (Str × Timer), (∀ j ∈ items, (f j).1 ≠ i.1) →
      ((items.filter p).map f).countP (fun line => line.1 = i.1) = 0 := by
    intro items hother
    rw [List.countP_eq_zero]
    intro line hline
    obtain ⟨j, hj, rfl⟩ := List.mem_map.1 hline
    simpa using hother j (List.mem_of_mem_filter hj)
  induction items with
  | nil => cases hi
  | cons j items ih =>
      rw [List.map_cons, List.nodup_cons] at hnodup
      rw [List.forall_mem_cons] at hf
      have hrest (hkey : i.1 = j.1) := hzero items fun k hk heq =>
        hnodup.1 (List.mem_map.2 ⟨k, hk, ((hf.2 k hk).symm.trans heq).trans hkey⟩)
      rcases List.mem_cons.1 hi with rfl | hi
      · have hnone := hrest rfl
        by_cases hp : p i = true
        · rw [List.filter_cons_of_pos hp, List.map_cons, List.countP_cons, hnone, hf.1, if_pos hp]
          simp
        · rw [List.filter_cons_of_neg hp, hnone, if_neg hp]
      · have hne : (f j).1 ≠ i.1 := by
          rw [hf.1]
          exact fun heq => hnodup.1 (heq ▸ List.mem_map_of_mem hi)
        have hcount := ih hnodup.2 hf.2 hi
        by_cases hp : p j = true
        · rw [List.filter_cons_of_pos hp, List.map_cons, List.countP_cons, hcount]
          simp [hne]
        · rw [List.filter_cons_of_neg hp, hcount]

section Tick

variable {lower : Str → Str} {s : TimerAgent}

/-- A line of a tick is for a timer that is due. -/
theorem mem_spoken_tick (h : s.timers.Mirrored) {now : Seconds} {line : Str × Str}
    (hline : line ∈ (s.tick lower now).spoken) :
    line ∈ s.spoken ∨ ∃ i ∈ s.timers.timers, due now i = true ∧ line.1 = i.1 := by
  rw [spoken_tick h, List.mem_append, List.mem_append] at hline
  rcases hline with (hline | hline) | hline
  · exact .inl hline
  · obtain ⟨i, hi, rfl⟩ := List.mem_map.1 hline
    obtain ⟨hmem, hdue⟩ := List.mem_filter.1 hi
    exact .inr ⟨i, hmem, (Bool.and_eq_true_iff.1 hdue).1, (h.live i hmem).key⟩
  · obtain ⟨i, hi, rfl⟩ := List.mem_map.1 hline
    obtain ⟨hmem, hdue⟩ := List.mem_filter.1 hi
    exact .inr ⟨i, hmem, (Bool.and_eq_true_iff.1 hdue).1, (h.live i hmem).key⟩

theorem Ready.tick (h : Ready s) (now : Seconds) : Ready (s.tick lower now) := by
  have htimers : (s.tick lower now).timers.timers = s.timers.timers.filter fun i => !due now i := by
    show (s.timers.check now).2.timers = _
    rw [TimerManager.timers_check]
    exact List.filter_congr fun i hi => congrArg _ (h.mirrored.ends_eq hi now)
  have hother {i j : Str × Timer} (hi : i ∈ s.timers.timers) (hj : j ∈ s.timers.timers)
      (hnot : due now i = false) (hdue : due now j = true) : j.1 ≠ i.1 := by
    intro hkey
    rw [List.inj_on_of_nodup_map h.mirrored.nodup hj hi hkey, hnot] at hdue
    cases hdue
  refine ⟨h.mirrored.check now, ?_, ?_⟩
  · rw [htimers]
    intro i hi
    obtain ⟨hmem, hnot⟩ := List.mem_filter.1 hi
    have hnot : due now i = false := by simpa using hnot
    have howned := h.owned i hmem
    refine ⟨howned.marked, ?_, ?_⟩
    · rw [fired_tick h.mirrored]
      intro hfired
      rcases List.mem_append.1 hfired with hfired | hfired
      · exact howned.unfired hfired
      · obtain ⟨j, hj, hkey⟩ := List.mem_map.1 hfired
        obtain ⟨hjmem, hdue⟩ := List.mem_filter.1 hj
        exact hother hmem hjmem hnot hdue hkey
    · intro line hline hkey
      rcases mem_spoken_tick h.mirrored hline with hold | ⟨j, hj, hdue, hjkey⟩
      · exact howned.unspoken line hold hkey
      · exact hother hmem hj hnot hdue (hjkey.symm.trans hkey)
  · intro line hline
    rw [fired_tick h.mirrored, List.mem_append]
    rcases mem_spoken_tick h.mirrored hline with hold | ⟨j, hj, hdue, hjkey⟩
    · exact .inl (h.spoken line hold)
    · exact .inr (List.mem_map.2 ⟨j, List.mem_filter.2 ⟨hj, hdue⟩, hjkey.symm⟩)

/-- How often a timer that is due is announced. -/
theorem countP_tick (h : Ready s) {now : Seconds} {i : Str × Timer} (hi : i ∈ s.timers.timers)
    (hdue : due now i = true) :
    (s.tick lower now).spoken.countP (fun line => line.1 = i.1) =
      (if i.2.onFire then 1 else 0) + if i.2.firedWhileAway then 1 else 0 := by
  have hkeys : ∀ j ∈ s.timers.timers, j.2.timerId = j.1 := fun j hj => (h.mirrored.live j hj).key
  have hold : s.spoken.countP (fun line => line.1 = i.1) = 0 := by
    rw [List.countP_eq_zero]
    intro line hline
    simpa using (h.owned i hi).unspoken line hline
  have hcalled := countP_lines (f := fun i => doneLine i.2) h.mirrored.nodup
    (fun i => due now i && i.2.onFire) hkeys hi
  have haway := countP_lines (f := fun i => awayLine lower i.2) h.mirrored.nodup
    (fun i => due now i && i.2.firedWhileAway) hkeys hi
  rw [hdue, Bool.true_and] at hcalled haway
  rw [spoken_tick h.mirrored, List.countP_append, List.countP_append, hold, hcalled, haway, Nat.zero_add]

/-- A timer that has fired is not announced again. -/
theorem countP_tick_of_fired (lower : Str → Str) (h : Ready s) (now : Seconds) {timerId : Str}
    (hfired : timerId ∈ s.fired) :
    (s.tick lower now).spoken.countP (fun line => line.1 = timerId) =
      s.spoken.countP fun line => line.1 = timerId := by
  have hnone (p : Str × Timer → Bool) {f : Timer → Str × Str} (hf : ∀ t, (f t).1 = t.timerId) :
      ((s.timers.timers.filter p).map fun i => f i.2).countP (fun line => line.1 = timerId) = 0 := by
    rw [List.countP_eq_zero]
    intro line hline
    obtain ⟨i, hi, rfl⟩ := List.mem_map.1 hline
    have hmem := List.mem_of_mem_filter hi
    rw [decide_eq_true_iff, hf, (h.mirrored.live i hmem).key]
    rintro rfl
    exact (h.owned i hmem).unfired hfired
  rw [spoken_tick h.mirrored, List.countP_append, List.countP_append, hnone _ fun _ => rfl,
    hnone _ fun _ => rfl]
  rfl

/-- A timer that is due is announced once if it has a callback, or was expired at the start. -/
theorem countP_tick_eq_one_iff (lower : Str → Str) (h : Ready s) {now : Seconds} {i : Str × Timer}
    (hi : i ∈ s.timers.timers) (hdue : due now i = true) :
    (s.tick lower now).spoken.countP (fun line => line.1 = i.1) = 1 ↔
      i.2.onFire = true ∨ i.2.dueAt ≤ (s.startedAt : DueTime) := by
  rw [countP_tick h hi hdue]
  have hmarked := (h.owned i hi).marked
  cases honFire : i.2.onFire with
  | true =>
      have hunmarked : i.2.firedWhileAway = false := by
        rw [Bool.eq_false_iff]
        intro haway
        rw [honFire] at hmarked
        cases (hmarked.1 haway).1
      simp [hunmarked]
  | false =>
      rw [honFire] at hmarked
      simp only [true_and] at hmarked
      simp [← hmarked]

theorem announcedOnce_tick_iff (h : Ready s) (hannounced : AnnouncedOnce s) (now : Seconds) :
    AnnouncedOnce (s.tick lower now) ↔ NoneCameDue s (.tick now) := by
  constructor
  · intro hafter i hi hdue
    have hdue : due now i = true := decide_eq_true hdue
    refine (countP_tick_eq_one_iff lower h hi hdue).1 (hafter i.1 ?_)
    rw [fired_tick h.mirrored]
    exact List.mem_append_right _ (List.mem_map_of_mem (List.mem_filter.2 ⟨hi, hdue⟩))
  · intro hnone timerId hfired
    rw [fired_tick h.mirrored] at hfired
    rcases List.mem_append.1 hfired with hold | hnew
    · rw [countP_tick_of_fired lower h now hold]
      exact hannounced timerId hold
    · obtain ⟨i, hi, rfl⟩ := List.mem_map.1 hnew
      obtain ⟨hmem, hdue⟩ := List.mem_filter.1 hi
      exact (countP_tick_eq_one_iff lower h hmem hdue).2 (hnone i hmem (of_decide_eq_true hdue))

end Tick

/-! ## Runs -/

theorem Ready.cancelTimer {s : TimerAgent} (h : Ready s) (timerId : Str) :
    Ready { s with timers := (s.timers.cancel timerId).2 } where
  mirrored := h.mirrored.filter _
  owned i hi := by
    have howned := h.owned i (List.mem_of_mem_filter hi)
    exact ⟨howned.marked, howned.unfired, howned.unspoken⟩
  spoken := h.spoken

theorem Ready.step {lower : Str → Str} {s : TimerAgent} (h : Ready s) {e : Event}
    (hfresh : s.Fresh e) :
    Ready (s.step lower e) := by
  cases e with
  | setTimer now timerId value unit label => exact h.setTimer value unit label hfresh
  | cancelTimer timerId => exact h.cancelTimer timerId
  | tick now => exact h.tick now
  | restart loadedAt restoredAt => exact h.restart loadedAt restoredAt

theorem announcedOnce_step_iff {lower : Str → Str} {s : TimerAgent} (h : Ready s)
    (hannounced : AnnouncedOnce s) (e : Event) :
    AnnouncedOnce (s.step lower e) ↔ NoneCameDue s e := by
  cases e with
  | setTimer now timerId value unit label =>
      refine ⟨fun _ => trivial, fun _ => ?_⟩
      unfold TimerAgent.step
      dsimp only
      split <;> exact hannounced
  | cancelTimer timerId => exact ⟨fun _ => trivial, fun _ => hannounced⟩
  | tick now => exact announcedOnce_tick_iff h hannounced now
  | restart loadedAt restoredAt => exact ⟨fun _ => trivial, fun _ => hannounced⟩

theorem ready_start (now : Seconds) : Ready (start now) where
  mirrored := ⟨fun _ hi => absurd hi List.not_mem_nil, List.nodup_nil, rfl⟩
  owned _ hi := absurd hi List.not_mem_nil
  spoken _ hline := absurd hline List.not_mem_nil

end TimerAgent

open TimerAgent in
/-- In every run in which new timers have new ids: every timer that fires is announced exactly
once, all along the run, if and only if no tick finds a timer due that a restart has reloaded
before it was due. -/
theorem announced_once_iff (lower : Str → Str) (now : Seconds)
    (events : List TimerAgent.Event) (hfresh : Meets (step lower) Fresh (start now) events) :
    Always (step lower) AnnouncedOnce (start now) events ↔
      Meets (step lower) NoneCameDue (start now) events :=
  always_iff_meets_under (fun _ _ h hfresh => h.step hfresh)
    (fun _ e h _ hannounced => announcedOnce_step_iff h hannounced e) (ready_start now)
    (fun _ h => absurd h List.not_mem_nil) hfresh

/-- A timer of a minute, set at the start. -/
def teaTimer : TimerAgent.Event :=
  .setTimer 0 (lit "5e1d0c2a") (.finite 1) (lit "minute") (lit "Tea")

open TimerAgent in
/-- In the process that has set it, the timer is announced. -/
theorem tea_announced :
    Meets (step lowerLetters) Fresh (start 0) [teaTimer, .tick 30, .tick 60] ∧
      Always (step lowerLetters) AnnouncedOnce (start 0) [teaTimer, .tick 30, .tick 60] := by
  have hfresh : Meets (step lowerLetters) Fresh (start 0) [teaTimer, .tick 30, .tick 60] := by
    decide +kernel
  exact ⟨hfresh, (announced_once_iff lowerLetters 0 _ hfresh).2 (by decide +kernel)⟩

open TimerAgent in
/-- After a restart before it is due, it fires and nothing is said. -/
theorem tea_silent_after_restart :
    (run (step lowerLetters) (start 0) [teaTimer, .restart 10 10, .tick 60]).fired =
        [lit "5e1d0c2a"] ∧
      (run (step lowerLetters) (start 0) [teaTimer, .restart 10 10, .tick 60]).spoken = [] ∧
      ¬ Always (step lowerLetters) AnnouncedOnce (start 0) [teaTimer, .restart 10 10, .tick 60] := by
  decide +kernel

end ShugoCore
