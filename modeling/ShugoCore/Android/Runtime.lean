import ShugoCore.Acceleration.Ladders
import ShugoCore.Fallbacks.Agreement
import ShugoCore.Lib.Detectors

/-!
# The Android runtime

`AndroidRuntime` of `android_runtime.py`, with the fallback controller and the acceleration policy
that it drives.  The callbacks of the app shell run one at a time, under the lifecycle lock.  The
monitor is a thread of its own that goes through three points: it waits, checks the power and
checks the temperature.  It may be anywhere when a callback comes, and so may everything else
that calls the controller.

The monitor is started without a handler.  Where a check raises, the thread ends.
-/

namespace ShugoCore

open Machine

/-- `state`. -/
inductive Lifecycle where
  | new | started | paused | destroyed
deriving DecidableEq, Repr

/-- Where the monitor thread is. -/
inductive MonitorPoint where
  | absent | waiting | power | thermal | ended
deriving DecidableEq, Repr

/-- What `__init__` makes of its thresholds. -/
structure AndroidLimits where
  powerLow : Int
  thermalPause : Int
  streak : Nat
  streak_pos : 0 < streak

theorem one_le_streak (streak : Int) : 0 < (max 1 streak).toNat := by omega

/-- The clamps of `__init__`. -/
def AndroidLimits.ofArgs (powerLow thermalPause streak : Int) : AndroidLimits where
  powerLow := max 0 (min 100 powerLow)
  thermalPause := max 0 (min 2 thermalPause)
  streak := (max 1 streak).toNat
  streak_pos := one_le_streak streak

/-- What `getPowerStatus` comes to. -/
inductive PowerReading where
  /-- The method is absent or raised, or gave no dictionary or no number. -/
  | unavailable
  | status (battery : Option Int) (plugged : Option Bool)
  /-- The number is one that `int` has no answer for. -/
  | raises
deriving DecidableEq, Repr

/-- What `getThermalStatus` comes to. -/
inductive ThermalReading where
  | unavailable
  | status (level : Int)
  | raises
deriving DecidableEq, Repr

structure AndroidRuntime where
  state : Lifecycle
  fallbacks : FallbackController
  acceleration : AccelerationPolicy
  powerLowReported : Bool
  thermalStreak : Nat
  /-- `_monitor_stop` is set. -/
  monitorStop : Bool
  monitor : MonitorPoint
  /-- The triggers that the runtime has reported, as the audit entries of the controller name them. -/
  reports : List String

namespace AndroidRuntime

/-- `__init__`. -/
def new (fallbacks : FallbackController) (acceleration : AccelerationPolicy) : AndroidRuntime :=
  ⟨.new, fallbacks, acceleration, false, 0, false, .absent, []⟩

/-- A report to the controller, which may raise. -/
def report (rt : AndroidRuntime) (kind detail : String) : Except FallbackError Unit × AndroidRuntime :=
  match rt.fallbacks.reportViolation kind detail with
  | (result, fallbacks) => (result, { rt with fallbacks := fallbacks, reports := rt.reports ++ [kind] })

/-! ## The callbacks of the app shell -/

/-- `on_create`, with what the detection of accelerators gives, unless it raises.  It raises itself
on a runtime that is destroyed. -/
def onCreate (rt : AndroidRuntime) (detected : Option (Py.Str × List AcceleratorDevice)) :
    Except String AndroidRuntime :=
  match rt.state with
  | .destroyed => .error "AndroidRuntime already destroyed"
  | .started | .paused => .ok rt
  | .new =>
      .ok { rt with
        acceleration := match detected with
          | some (cores, devices) => rt.acceleration.setDevices cores devices
          | none => rt.acceleration
        state := .started
        monitorStop := false
        monitor := .waiting }

/-- `on_pause`.  What the controller raises is only logged. -/
def onPause (rt : AndroidRuntime) : AndroidRuntime :=
  match rt.state with
  | .started =>
      (report { rt with state := .paused } "android_lifecycle_paused" "app shell paused").2
  | .new | .paused | .destroyed => rt

/-- `on_resume`.  A resume that is refused leaves the runtime paused. -/
def onResume (rt : AndroidRuntime) (now : Seconds) : AndroidRuntime :=
  match rt.state with
  | .paused =>
      match rt.fallbacks.resume now "android_lifecycle" with
      | (.error _, fallbacks) => { rt with fallbacks := fallbacks }
      | (.ok _, fallbacks) => { rt with fallbacks := fallbacks, state := .started }
  | .new | .started | .destroyed => rt

/-- `on_destroy`. -/
def onDestroy (rt : AndroidRuntime) : AndroidRuntime :=
  { rt with monitorStop := true, state := .destroyed }

/-! ## The monitor -/

/-- The test of `_check_power`. -/
def powerLow (limits : AndroidLimits) (battery : Option Int) (plugged : Option Bool) : Bool :=
  decide (battery.getD 100 < limits.powerLow) && !plugged.getD false

/-- `_check_power`. -/
def checkPower (limits : AndroidLimits) (rt : AndroidRuntime) :
    PowerReading → Except Unit Unit × AndroidRuntime
  | .unavailable => (.ok (), rt)
  | .raises => (.error (), rt)
  | .status battery plugged =>
      if powerLow limits battery plugged then
        if rt.powerLowReported then (.ok (), rt)
        else
          match report { rt with powerLowReported := true } "device_power_low"
            ("battery at " ++ toString (battery.getD 100) ++ "%") with
          | (.ok _, rt) => (.ok (), rt)
          | (.error _, rt) => (.error (), rt)
      else (.ok (), { rt with powerLowReported := false })

/-- `max(0, min(2, int(raw)))`. -/
def clampLevel (level : Int) : Int := max 0 (min 2 level)

/-- `_check_thermal`. -/
def checkThermal (limits : AndroidLimits) (rt : AndroidRuntime) :
    ThermalReading → Except Unit Unit × AndroidRuntime
  | .unavailable => (.ok (), rt)
  | .raises => (.error (), rt)
  | .status raw =>
      let level := clampLevel raw
      let rt := { rt with acceleration := rt.acceleration.applyThermalLevel level }
      if limits.thermalPause ≤ level then
        if limits.streak ≤ rt.thermalStreak + 1 then
          match report { rt with thermalStreak := 0 } "device_thermal_high"
            ("thermal status " ++ toString level) with
          | (.ok _, rt) => (.ok (), rt)
          | (.error _, rt) => (.error (), rt)
        else (.ok (), { rt with thermalStreak := rt.thermalStreak + 1 })
      else (.ok (), { rt with thermalStreak := 0 })

/-- The monitor goes on to its next point, or ends if its check has raised. -/
def proceed (next : MonitorPoint) : Except Unit Unit × AndroidRuntime → AndroidRuntime
  | (.ok _, rt) => { rt with monitor := next }
  | (.error _, rt) => { rt with monitor := .ended }

/-- One step of the system. -/
inductive Action where
  | create (detected : Option (Py.Str × List AcceleratorDevice))
  | pause
  | resume (now : Seconds)
  | destroy
  /-- The wait of `_monitor_loop` is over. -/
  | wake
  | checkPower (r : PowerReading)
  | checkThermal (r : ThermalReading)
  /-- A call of somebody else on the controller. -/
  | controller (op : FallbackController.Op)

def step (limits : AndroidLimits) (rt : AndroidRuntime) : Action → AndroidRuntime
  | .create detected =>
      match rt.onCreate detected with
      | .ok rt => rt
      | .error _ => rt
  | .pause => rt.onPause
  | .resume now => rt.onResume now
  | .destroy => rt.onDestroy
  | .wake =>
      if rt.monitor = .waiting then
        { rt with monitor := if rt.monitorStop then .ended else .power }
      else rt
  | .checkPower r => if rt.monitor = .power then proceed .thermal (rt.checkPower limits r) else rt
  | .checkThermal r =>
      if rt.monitor = .thermal then proceed .waiting (rt.checkThermal limits r) else rt
  | .controller op => { rt with fallbacks := rt.fallbacks.exec op }

/-! ## What a step does -/

variable {limits : AndroidLimits} {rt : AndroidRuntime}

@[simp] theorem report_fallbacks (rt : AndroidRuntime) (kind detail : String) :
    (rt.report kind detail).2.fallbacks = (rt.fallbacks.reportViolation kind detail).2 := rfl

@[simp] theorem report_reports (rt : AndroidRuntime) (kind detail : String) :
    (rt.report kind detail).2.reports = rt.reports ++ [kind] := rfl

@[simp] theorem report_state (rt : AndroidRuntime) (kind detail : String) :
    (rt.report kind detail).2.state = rt.state := rfl

@[simp] theorem report_powerLowReported (rt : AndroidRuntime) (kind detail : String) :
    (rt.report kind detail).2.powerLowReported = rt.powerLowReported := rfl

@[simp] theorem report_thermalStreak (rt : AndroidRuntime) (kind detail : String) :
    (rt.report kind detail).2.thermalStreak = rt.thermalStreak := rfl

@[simp] theorem report_monitorStop (rt : AndroidRuntime) (kind detail : String) :
    (rt.report kind detail).2.monitorStop = rt.monitorStop := rfl

@[simp] theorem report_monitor (rt : AndroidRuntime) (kind detail : String) :
    (rt.report kind detail).2.monitor = rt.monitor := rfl

end AndroidRuntime

end ShugoCore
