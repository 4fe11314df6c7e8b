import ShugoCore.Android.Runtime

/-!
# What the monitor reports

The monitor reports a low battery once for each time that it becomes low, and a high temperature
once for each streak of readings.  What the app shell and the operators do in between has no
part in it: a resume does not make the monitor report a battery again that is still low.
-/

namespace ShugoCore

open Machine

namespace AndroidRuntime

variable {limits : AndroidLimits} {rt : AndroidRuntime}

/-! ## The detectors -/

/-- What a step sees of the battery. -/
def powerLook (limits : AndroidLimits) (rt : AndroidRuntime) : Action → Option Bool
  | .checkPower (.status battery plugged) =>
      if rt.monitor = .power then some (powerLow limits battery plugged) else none
  | _ => none

/-- What a step sees of the temperature. -/
def thermalLook (limits : AndroidLimits) (rt : AndroidRuntime) : Action → Option Bool
  | .checkThermal (.status raw) =>
      if rt.monitor = .thermal then some (decide (limits.thermalPause ≤ clampLevel raw)) else none
  | _ => none

/-- A pause of an app that is running. -/
def pauseLook (rt : AndroidRuntime) : Action → Option Bool
  | .pause => if rt.state = .started then some true else none
  | _ => none

@[simp] theorem proceed_reports (next : MonitorPoint) (r : Except Unit Unit × AndroidRuntime) :
    (proceed next r).reports = r.2.reports := by
  rcases r with ⟨_ | _, _⟩ <;> rfl

@[simp] theorem proceed_powerLowReported (next : MonitorPoint)
    (r : Except Unit Unit × AndroidRuntime) :
    (proceed next r).powerLowReported = r.2.powerLowReported := by
  rcases r with ⟨_ | _, _⟩ <;> rfl

@[simp] theorem proceed_thermalStreak (next : MonitorPoint) (r : Except Unit Unit × AndroidRuntime) :
    (proceed next r).thermalStreak = r.2.thermalStreak := by
  rcases r with ⟨_ | _, _⟩ <;> rfl

@[simp] theorem proceed_fallbacks (next : MonitorPoint) (r : Except Unit Unit × AndroidRuntime) :
    (proceed next r).fallbacks = r.2.fallbacks := by
  rcases r with ⟨_ | _, _⟩ <;> rfl

@[simp] theorem proceed_state (next : MonitorPoint) (r : Except Unit Unit × AndroidRuntime) :
    (proceed next r).state = r.2.state := by
  rcases r with ⟨_ | _, _⟩ <;> rfl

/-- A check of the power reports a battery that has become low, and remembers what it has seen. -/
theorem checkPower_status (limits : AndroidLimits) (rt : AndroidRuntime) (battery : Option Int)
    (plugged : Option Bool) :
    (rt.checkPower limits (.status battery plugged)).2 =
      if powerLow limits battery plugged && !rt.powerLowReported then
        (report { rt with powerLowReported := true } "device_power_low"
          ("battery at " ++ toString (battery.getD 100) ++ "%")).2
      else { rt with powerLowReported := powerLow limits battery plugged } := by
  simp only [checkPower]
  cases hlow : powerLow limits battery plugged with
  | false => rfl
  | true =>
      cases hr : rt.powerLowReported with
      | true => simp [← hr]
      | false =>
          simp only [if_true, Bool.false_eq_true, if_false, Bool.not_false, Bool.and_self]
          split <;> rename_i he <;> rw [he]

/-- A check of the temperature reports the end of a streak. -/
theorem checkThermal_status (limits : AndroidLimits) (rt : AndroidRuntime) (raw : Int) :
    (rt.checkThermal limits (.status raw)).2 =
      let rt' := { rt with acceleration := rt.acceleration.applyThermalLevel (clampLevel raw) }
      if limits.thermalPause ≤ clampLevel raw then
        if limits.streak ≤ rt.thermalStreak + 1 then
          (report { rt' with thermalStreak := 0 } "device_thermal_high"
            ("thermal status " ++ toString (clampLevel raw))).2
        else { rt' with thermalStreak := rt.thermalStreak + 1 }
      else { rt' with thermalStreak := 0 } := by
  simp only [checkThermal]
  split
  · split
    · split <;> rename_i he <;> rw [he]
    · rfl
  · rfl

theorem onCreate_cases (limits : AndroidLimits) (rt : AndroidRuntime)
    (detected : Option (Py.Str × List AcceleratorDevice)) :
    rt.step limits (.create detected) = rt ∨
      rt.state = .new ∧ ∃ policy, rt.step limits (.create detected) =
        { rt with
          acceleration := policy
          state := .started
          monitorStop := false
          monitor := .waiting } := by
  simp only [step, onCreate]
  cases hs : rt.state with
  | new => exact .inr ⟨rfl, _, rfl⟩
  | started | paused | destroyed => exact .inl rfl

/-- A resume is accepted or changes nothing. -/
theorem onResume_eq (rt : AndroidRuntime) (now : Seconds) :
    rt.onResume now =
      if rt.state = .paused ∧ ¬ Raises (rt.fallbacks.resume now "android_lifecycle").1 then
        { rt with
          fallbacks := (rt.fallbacks.resume now "android_lifecycle").2
          state := .started }
      else rt := by
  simp only [onResume]
  cases hs : rt.state with
  | new | started | destroyed => simp
  | paused =>
      rcases rt.fallbacks.resume_cases now "android_lifecycle" with ⟨⟨e, he⟩, hsame⟩ | ⟨hok, -⟩
      · rw [show rt.fallbacks.resume now "android_lifecycle" = (.error e, rt.fallbacks) from
          Prod.ext he hsame]
        simp [← hs]
      · rw [show rt.fallbacks.resume now "android_lifecycle" =
          (.ok (), (rt.fallbacks.resume now "android_lifecycle").2) from Prod.ext hok rfl]
        simp

theorem onPause_eq (rt : AndroidRuntime) :
    rt.onPause = if rt.state = .started then
      (report { rt with state := .paused } "android_lifecycle_paused" "app shell paused").2
    else rt := by
  simp only [onPause]
  cases rt.state <;> rfl

/-- What each step adds to the reports, and what it leaves in the memory of the monitor. -/
theorem step_memory (limits : AndroidLimits) (rt : AndroidRuntime) (a : Action) :
    (rt.step limits a).reports = rt.reports ++
      (if pauseLook rt a = some true then ["android_lifecycle_paused"] else []) ++
      (if powerLook limits rt a = some true ∧ rt.powerLowReported = false then
        ["device_power_low"] else []) ++
      (if thermalLook limits rt a = some true ∧ limits.streak ≤ rt.thermalStreak + 1 then
        ["device_thermal_high"] else []) ∧
    (rt.step limits a).powerLowReported = (powerLook limits rt a).getD rt.powerLowReported ∧
    (rt.step limits a).thermalStreak =
      match thermalLook limits rt a with
      | none => rt.thermalStreak
      | some false => 0
      | some true => if limits.streak ≤ rt.thermalStreak + 1 then 0 else rt.thermalStreak + 1 := by
  cases a with
  | create detected =>
      rcases onCreate_cases limits rt detected with h | ⟨-, _, h⟩ <;>
        simp [h, pauseLook, powerLook, thermalLook]
  | pause =>
      simp only [step, onPause_eq, pauseLook, powerLook, thermalLook]
      split <;> simp
  | resume now =>
      simp only [step, onResume_eq, pauseLook, powerLook, thermalLook]
      split <;> simp
  | destroy => simp [step, onDestroy, pauseLook, powerLook, thermalLook]
  | wake =>
      simp only [step, pauseLook, powerLook, thermalLook]
      split <;> simp
  | checkPower r =>
      cases r with
      | unavailable | raises =>
          simp only [step, pauseLook, powerLook, thermalLook, checkPower]
          split <;> simp
      | status battery plugged =>
          by_cases hm : rt.monitor = .power
          · simp only [step, pauseLook, powerLook, thermalLook, if_pos hm, proceed_reports,
              proceed_powerLowReported, proceed_thermalStreak, checkPower_status]
            cases powerLow limits battery plugged <;> cases rt.powerLowReported <;> simp
          · simp [step, pauseLook, powerLook, thermalLook, if_neg hm]
  | checkThermal r =>
      cases r with
      | unavailable | raises =>
          simp only [step, pauseLook, powerLook, thermalLook, checkThermal]
          split <;> simp
      | status raw =>
          by_cases hm : rt.monitor = .thermal
          · simp only [step, pauseLook, powerLook, thermalLook, if_pos hm, proceed_reports,
              proceed_powerLowReported, proceed_thermalStreak, checkThermal_status]
            by_cases hl : limits.thermalPause ≤ clampLevel raw <;>
              by_cases hk : limits.streak ≤ rt.thermalStreak + 1 <;> simp [hl, hk]
          · simp [step, pauseLook, powerLook, thermalLook, if_neg hm]
  | controller op => simp [step, pauseLook, powerLook, thermalLook]

theorem count_reported (c : Prop) [Decidable c] (kind kind' : String) :
    (if c then [kind] else []).count kind' = if c ∧ kind = kind' then 1 else 0 := by
  by_cases hc : c <;> by_cases hk : kind = kind' <;> simp [hc, hk]

theorem power_detector (limits : AndroidLimits) :
    EdgeDetector (step limits) (powerLook limits) powerLowReported
      (fun rt => rt.reports.count "device_power_low") where
  blind rt a h := by
    have hs := step_memory limits rt a
    refine ⟨by rw [hs.2.1, h]; rfl, ?_⟩
    simp [hs.1, h, List.count_append, count_reported]
  sees rt a x h := by
    have hs := step_memory limits rt a
    refine ⟨by rw [hs.2.1, h]; rfl, ?_⟩
    simp only [hs.1, h, List.count_append, count_reported]
    cases x <;> cases rt.powerLowReported <;> simp

theorem thermal_detector (limits : AndroidLimits) :
    StreakDetector (step limits) (thermalLook limits) limits.streak thermalStreak
      (fun rt => rt.reports.count "device_thermal_high") where
  blind rt a h := by
    have hs := step_memory limits rt a
    refine ⟨by rw [hs.2.2, h], ?_⟩
    simp [hs.1, h, List.count_append, count_reported]
  sees rt a x h := by
    have hs := step_memory limits rt a
    simp only [hs.1, hs.2.2, h, List.count_append, count_reported]
    cases x with
    | false => simp
    | true => by_cases hk : limits.streak ≤ rt.thermalStreak + 1 <;> simp [hk]

theorem pause_count (limits : AndroidLimits) (rt : AndroidRuntime) (as : List Action) :
    (run (step limits) rt as).reports.count "android_lifecycle_paused" =
      rt.reports.count "android_lifecycle_paused" + (seen (step limits) pauseLook rt as).length := by
  induction as generalizing rt with
  | nil => rfl
  | cons a as ih =>
      have hs := step_memory limits rt a
      have hlook : pauseLook rt a = none ∨ pauseLook rt a = some true := by
        cases a <;> simp only [pauseLook, true_or]
        split <;> simp
      rw [run_cons, ih, seen, List.length_append, hs.1]
      simp only [List.count_append, count_reported]
      rcases hlook with h | h <;> simp [h, Nat.add_assoc]

/-- In any run of a new runtime, in which the app shell calls back, the monitor checks and others
call the controller in any order, the runtime has reported a low battery once for each block of
readings that find it low, a high temperature once for each whole streak in a block of readings that
find it high, and a pause for each pause of an app that is running. -/
theorem reports_exact (limits : AndroidLimits) (fallbacks : FallbackController)
    (acceleration : AccelerationPolicy) (as : List Action) :
    let rt := new fallbacks acceleration
    let reports := (run (step limits) rt as).reports
    reports.count "device_power_low" = episodes (seen (step limits) (powerLook limits) rt as) ∧
      reports.count "device_thermal_high" =
        streaks limits.streak (seen (step limits) (thermalLook limits) rt as) ∧
      reports.count "android_lifecycle_paused" = (seen (step limits) pauseLook rt as).length := by
  intro rt
  have hpower := (power_detector limits).alarms_eq (s := rt) rfl as
  have hthermal := (thermal_detector limits).alarms_eq limits.streak_pos (s := rt) rfl as
  have hpause := pause_count limits rt as
  have hnone : ∀ kind, rt.reports.count kind = 0 := fun _ => rfl
  rw [hnone, Nat.zero_add] at hpower hthermal hpause
  exact ⟨hpower, hthermal, hpause⟩

/-! ## A battery that stays low -/

/-- A step of the monitor. -/
def byMonitor : Action → Bool
  | .wake | .checkPower _ | .checkThermal _ => true
  | .create _ | .pause | .resume _ | .destroy | .controller _ => false

/-- The readings of a battery that does not recover, on a device that does not become hot. -/
def StillLow (limits : AndroidLimits) : Action → Prop
  | .checkPower (.status battery plugged) => powerLow limits battery plugged = true
  | .checkThermal (.status raw) => clampLevel raw < limits.thermalPause
  | _ => True

/-- What two runtimes share when the monitor of the first has reported a low battery. -/
structure SameApp (rt rt' : AndroidRuntime) : Prop where
  state : rt.state = rt'.state
  fallbacks : rt.fallbacks = rt'.fallbacks
  reported : rt.powerLowReported = true

theorem SameApp.hidden {rt' : AndroidRuntime} (h : SameApp rt rt') {a : Action}
    (ha : byMonitor a = true) (hl : StillLow limits a) : SameApp (rt.step limits a) rt' := by
  have hr := h.reported
  cases a with
  | wake =>
      simp only [step]
      split <;> exact ⟨h.state, h.fallbacks, hr⟩
  | checkPower r =>
      simp only [step]
      split
      · cases r with
        | unavailable | raises => exact ⟨h.state, h.fallbacks, hr⟩
        | status battery plugged =>
            have hlow : powerLow limits battery plugged = true := hl
            have hcheck : (rt.checkPower limits (.status battery plugged)).2 = rt := by
              rw [checkPower_status, hlow, hr]
              simp [← hr]
            exact ⟨by simp [hcheck, h.state], by simp [hcheck, h.fallbacks], by simp [hcheck, hr]⟩
      · exact h
  | checkThermal r =>
      simp only [step]
      split
      · cases r with
        | unavailable | raises => exact ⟨h.state, h.fallbacks, hr⟩
        | status raw =>
            have hcool : ¬ limits.thermalPause ≤ clampLevel raw := not_le.2 hl
            refine ⟨?_, ?_, ?_⟩ <;> simp [checkThermal_status, hcool, h.state, h.fallbacks, hr]
      · exact h
  | create _ | pause | resume _ | destroy | controller _ => simp [byMonitor] at ha

theorem SameApp.shown {rt' : AndroidRuntime} (h : SameApp rt rt') {a : Action}
    (ha : byMonitor a = false) : SameApp (rt.step limits a) (rt'.step limits a) := by
  cases a with
  | wake | checkPower _ | checkThermal _ => simp [byMonitor] at ha
  | create detected =>
      simp only [step, onCreate, ← h.state]
      cases rt.state <;> exact ⟨by simp [h.state], by simp [h.fallbacks], by simp [h.reported]⟩
  | pause =>
      simp only [step, onPause_eq, ← h.state]
      split
      · exact ⟨rfl, by simp [h.fallbacks], by simp [h.reported]⟩
      · exact h
  | resume now =>
      simp only [step, onResume_eq, ← h.state, ← h.fallbacks]
      split
      · exact ⟨rfl, rfl, h.reported⟩
      · exact h
  | destroy => exact ⟨rfl, h.fallbacks, h.reported⟩
  | controller op => exact ⟨h.state, congrArg (·.exec op) h.fallbacks, h.reported⟩

theorem SameApp.run {rt' : AndroidRuntime} (h : SameApp rt rt') {as : List Action}
    (hl : ∀ a ∈ as, StillLow limits a) :
    SameApp (run (step limits) rt as) (run (step limits) rt' (as.filter fun a => !byMonitor a)) := by
  induction as generalizing rt rt' with
  | nil => exact h
  | cons a as ih =>
      rw [List.forall_mem_cons] at hl
      cases ha : byMonitor a with
      | true =>
          rw [List.filter_cons_of_neg (by simp [ha])]
          exact ih (h.hidden ha hl.1) hl.2
      | false =>
          rw [List.filter_cons_of_pos (by simp [ha])]
          exact ih (h.shown ha) hl.2

/-- Once it has reported a low battery, and as long as the battery does not recover and the device
does not become hot, the monitor may as well not be there: app and engine are as they would be
without it.  So an engine that the app shell or an operator has resumed is not paused again,
however low the battery is. -/
theorem low_battery_reported_once (limits : AndroidLimits) (rt : AndroidRuntime)
    (hr : rt.powerLowReported = true) {as : List Action} (hl : ∀ a ∈ as, StillLow limits a) :
    (run (step limits) rt as).state =
        (run (step limits) rt (as.filter fun a => !byMonitor a)).state ∧
      (run (step limits) rt as).fallbacks =
        (run (step limits) rt (as.filter fun a => !byMonitor a)).fallbacks := by
  have h : SameApp rt rt := ⟨rfl, rfl, hr⟩
  exact ⟨(h.run hl).state, (h.run hl).fallbacks⟩

theorem low_battery_reported_once_resumed :
    let rt : AndroidRuntime :=
      ⟨.paused, .new 10 0 {} [], ⟨[], [], .nominal⟩, true, 0, false, .power, ["device_power_low"]⟩
    let as : List Action := [.resume 1, .checkPower (.status (some 8) none)]
    (run (step (.ofArgs 15 2 2)) rt as).state = (run (step (.ofArgs 15 2 2)) rt [.resume 1]).state ∧
      (run (step (.ofArgs 15 2 2)) rt as).fallbacks =
        (run (step (.ofArgs 15 2 2)) rt [.resume 1]).fallbacks := by
  intro rt as
  refine @low_battery_reported_once (.ofArgs 15 2 2) rt rfl as ?_
  rw [List.forall_mem_cons, List.forall_mem_singleton]
  exact ⟨trivial, rfl⟩

end AndroidRuntime

end ShugoCore
