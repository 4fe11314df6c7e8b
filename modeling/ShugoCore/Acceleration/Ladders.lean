import ShugoCore.Clock
import ShugoCore.Lib.Dict
import ShugoCore.Lib.PyText
import ShugoCore.Lib.Run

/-!
# Ladders of accelerators

`AccelerationPolicy` of `acceleration.py`.  A workload has a ladder of kinds of devices, and `resolve`
gives the device of each kind that can be used, in the order of the ladder.  A device cannot be used
while its name has failed, or while the thermal level has demoted its kind.

The last kind of every ladder is the CPU, which no thermal level demotes and of which there is always
one.  But a CPU whose name has failed is left out like any other device, and is put back only when
nothing else is left.  So a ladder ends on a CPU if and only if a CPU has not failed, or nothing else of
the ladder can be used (`ladder_grounded_iff`).
-/

namespace ShugoCore

open Py Machine

/-- `AcceleratorKind`. -/
inductive AcceleratorKind where
  | npu
  | dsp
  | gpu
  | cpu
deriving DecidableEq, Repr

/-- `WorkloadClass`. -/
inductive WorkloadClass where
  | llm
  | vision
  | audio
  | general
deriving DecidableEq, Repr

/-- `AcceleratorDevice`, as far as the policy reads it and where it comes from. -/
structure AcceleratorDevice where
  kind : AcceleratorKind
  name : Str
  source : Str
deriving DecidableEq, Repr

/-- `WorkloadClass(str(workload))`, or `GENERAL` if there is none. -/
def workloadClass (workload : Str) : WorkloadClass :=
  if workload = lit "llm" then .llm
  else if workload = lit "vision" then .vision
  else if workload = lit "audio" then .audio
  else .general

/-- `DEFAULT_LADDERS`. -/
def WorkloadClass.ladder : WorkloadClass → List AcceleratorKind
  | .llm => [.npu, .gpu, .cpu]
  | .vision => [.npu, .dsp, .gpu, .cpu]
  | .audio => [.dsp, .npu, .gpu, .cpu]
  | .general => [.npu, .gpu, .cpu]

/-- The levels that `apply_thermal_level` sets. -/
inductive ThermalLevel where
  | nominal
  | light
  | elevated
deriving DecidableEq, Repr

/-- `max(0, min(2, level))`. -/
def ThermalLevel.ofInt (level : Int) : ThermalLevel :=
  if level ≤ 0 then .nominal else if level = 1 then .light else .elevated

/-- `_THERMAL_DEMOTIONS`. -/
def ThermalLevel.demotes : ThermalLevel → AcceleratorKind → Bool
  | .nominal, _ => false
  | .light, kind => kind = .gpu
  | .elevated, kind => kind = .gpu || kind = .npu || kind = .dsp

/-- The implicit CPU device, for a number of cores. -/
def implicitCpu (cores : Str) : AcceleratorDevice :=
  ⟨.cpu, lit "CPU (" ++ cores ++ lit " cores)", lit "implicit"⟩

/-- `AccelerationPolicy`. -/
structure AccelerationPolicy where
  devices : List AcceleratorDevice
  /-- The names that failed, and when. -/
  failed : Dict Str Seconds
  thermalLevel : ThermalLevel

namespace AccelerationPolicy

/-- `set_devices`. -/
def setDevices (p : AccelerationPolicy) (cores : Str) (devices : List AcceleratorDevice) :
    AccelerationPolicy :=
  { p with
    devices := if devices.any fun d => d.kind = .cpu then devices else devices ++ [implicitCpu cores] }

/-- `__init__`, with the ladders that it has by default. -/
def new (cores : Str) (devices : List AcceleratorDevice) : AccelerationPolicy :=
  setDevices ⟨[], [], .nominal⟩ cores devices

/-- `report_failure`. -/
def reportFailure (p : AccelerationPolicy) (device : AcceleratorDevice) (now : Seconds) :
    AccelerationPolicy := { p with failed := Dict.set p.failed device.name now }

/-- `report_recovery`. -/
def reportRecovery (p : AccelerationPolicy) (name : Str) : AccelerationPolicy :=
  { p with failed := Dict.remove p.failed name }

/-- `apply_thermal_level`. -/
def applyThermalLevel (p : AccelerationPolicy) (level : Int) : AccelerationPolicy :=
  { p with thermalLevel := .ofInt level }

/-- A device that has not failed and is not demoted. -/
def usable (p : AccelerationPolicy) (d : AcceleratorDevice) : Bool :=
  d.name ∉ p.failed.map Prod.fst && !p.thermalLevel.demotes d.kind

/-- `devices`. -/
def usableDevices (p : AccelerationPolicy) : List AcceleratorDevice := p.devices.filter p.usable

/-- `available`: the last device of a kind stays. -/
def available (p : AccelerationPolicy) : Dict AcceleratorKind AcceleratorDevice :=
  Dict.ofPairs (p.usableDevices.map fun d => (d.kind, d))

/-- `resolve`. -/
def resolve (p : AccelerationPolicy) (workload : Str) : List AcceleratorDevice :=
  let resolved := (workloadClass workload).ladder.filterMap p.available.get?
  let cpu := p.devices.find? fun d => d.kind = .cpu
  match resolved, cpu with
  | [], some cpu => [cpu]
  | resolved, _ => resolved

/-- A call that changes the policy. -/
inductive Call where
  | setDevices (cores : Str) (devices : List AcceleratorDevice)
  | reportFailure (device : AcceleratorDevice) (now : Seconds)
  | reportRecovery (name : Str)
  | applyThermalLevel (level : Int)

/-- One call. -/
def step (p : AccelerationPolicy) : Call → AccelerationPolicy
  | .setDevices cores devices => p.setDevices cores devices
  | .reportFailure device now => p.reportFailure device now
  | .reportRecovery name => p.reportRecovery name
  | .applyThermalLevel level => p.applyThermalLevel level

/-! ## The floor that is always there -/

/-- There is a CPU among the devices. -/
def Floored (p : AccelerationPolicy) : Prop := ∃ d ∈ p.devices, d.kind = .cpu

theorem floored_setDevices (p : AccelerationPolicy) (cores : Str) (devices : List AcceleratorDevice) :
    (p.setDevices cores devices).Floored := by
  rw [Floored, setDevices]
  dsimp only
  split
  · rename_i hany
    obtain ⟨d, hd, hkind⟩ := List.any_eq_true.1 hany
    exact ⟨d, hd, of_decide_eq_true hkind⟩
  · exact ⟨implicitCpu cores, List.mem_append_right _ (List.mem_singleton_self _), rfl⟩

theorem Floored.step {p : AccelerationPolicy} (h : p.Floored) (call : Call) : (p.step call).Floored := by
  cases call with
  | setDevices cores devices => exact floored_setDevices p cores devices
  | reportFailure device now => exact h
  | reportRecovery name => exact h
  | applyThermalLevel level => exact h

/-! ## What is resolved -/

theorem get?_available {p : AccelerationPolicy} {kind : AcceleratorKind} {d : AcceleratorDevice}
    (h : p.available.get? kind = some d) : d ∈ p.usableDevices ∧ d.kind = kind := by
  obtain ⟨d', hd', heq⟩ := List.mem_map.1 (Dict.mem_ofPairs (Dict.mem_of_get? h))
  cases heq
  exact ⟨hd', rfl⟩

theorem get?_available_of_mem {p : AccelerationPolicy} {d : AcceleratorDevice}
    (h : d ∈ p.usableDevices) : ∃ d', p.available.get? d.kind = some d' := by
  refine Dict.get?_of_mem_keys (Dict.mem_keys_ofPairs.2 ?_)
  rw [List.map_map]
  exact List.mem_map.2 ⟨d, h, rfl⟩

/-- The devices of a ladder that can be used. -/
def rungs (p : AccelerationPolicy) (workload : Str) : List AcceleratorDevice :=
  (workloadClass workload).ladder.filterMap p.available.get?

theorem mem_rungs {p : AccelerationPolicy} {workload : Str} {d : AcceleratorDevice} :
    d ∈ p.rungs workload ↔
      d.kind ∈ (workloadClass workload).ladder ∧ p.available.get? d.kind = some d := by
  rw [rungs, List.mem_filterMap]
  constructor
  · rintro ⟨kind, hkind, hd⟩
    obtain ⟨-, rfl⟩ := get?_available hd
    exact ⟨hkind, hd⟩
  · rintro ⟨hkind, hd⟩
    exact ⟨d.kind, hkind, hd⟩

/-- The kinds of the rungs are those of the ladder, in its order. -/
theorem kinds_rungs (p : AccelerationPolicy) (workload : Str) :
    ((p.rungs workload).map AcceleratorDevice.kind).Sublist (workloadClass workload).ladder := by
  rw [rungs]
  generalize (workloadClass workload).ladder = ladder
  induction ladder with
  | nil => exact .slnil
  | cons kind ladder ih =>
      cases hd : p.available.get? kind with
      | none =>
          rw [List.filterMap_cons_none hd]
          exact ih.cons kind
      | some d =>
          rw [List.filterMap_cons_some hd, List.map_cons, (get?_available hd).2]
          exact ih.cons_cons kind

theorem resolve_of_rungs {p : AccelerationPolicy} {workload : Str} (h : p.rungs workload ≠ []) :
    p.resolve workload = p.rungs workload := by
  rw [resolve]
  split
  · rename_i hnil _
    exact absurd hnil h
  · rfl

theorem Floored.resolve_of_no_rungs {p : AccelerationPolicy} (hfloor : p.Floored) {workload : Str}
    (h : p.rungs workload = []) : ∃ cpu ∈ p.devices, cpu.kind = .cpu ∧ p.resolve workload = [cpu] := by
  cases hcpu : p.devices.find? fun d => d.kind = .cpu with
  | none =>
      obtain ⟨d, hd, hkind⟩ := hfloor
      exact absurd (decide_eq_true hkind) (List.find?_eq_none.1 hcpu d hd)
  | some cpu =>
      refine ⟨cpu, List.mem_of_find?_eq_some hcpu, ?_, ?_⟩
      · exact of_decide_eq_true (List.find?_some (p := fun d : AcceleratorDevice => d.kind = .cpu) hcpu)
      · rw [resolve]
        rw [rungs] at h
        rw [h, hcpu]

/-! ## What is asked of a ladder -/

/-- A ladder is not empty and in its order, no device of it but a CPU has failed or is demoted, every
kind that can be used is there, and it ends on a CPU. -/
structure Grounded (p : AccelerationPolicy) (workload : Str) : Prop where
  nonempty : p.resolve workload ≠ []
  ordered : ((p.resolve workload).map AcceleratorDevice.kind).Sublist (workloadClass workload).ladder
  usable : ∀ d ∈ p.resolve workload, d ∈ p.devices ∧ (d.kind ≠ .cpu → p.usable d = true)
  represented : ∀ d ∈ p.devices, p.usable d = true → d.kind ∈ (workloadClass workload).ladder →
    d.kind ∈ (p.resolve workload).map AcceleratorDevice.kind
  floor : ∃ d ∈ (p.resolve workload).getLast?, d.kind = .cpu

/-- A CPU has not failed, or nothing else of the ladder can be used. -/
def FloorStands (p : AccelerationPolicy) (workload : Str) : Prop :=
  (∃ d ∈ p.devices, d.kind = .cpu ∧ d.name ∉ p.failed.map Prod.fst) ∨
    ∀ d ∈ p.devices, d.kind ∈ (workloadClass workload).ladder → p.usable d = false

theorem cpu_mem_ladder (w : WorkloadClass) : .cpu ∈ w.ladder := by
  cases w <;> decide

/-- The CPU is the last kind of a ladder. -/
theorem ladder_split (w : WorkloadClass) : ∃ kinds, w.ladder = kinds ++ [.cpu] := by
  cases w with
  | llm => exact ⟨[.npu, .gpu], rfl⟩
  | vision => exact ⟨[.npu, .dsp, .gpu], rfl⟩
  | audio => exact ⟨[.dsp, .npu, .gpu], rfl⟩
  | general => exact ⟨[.npu, .gpu], rfl⟩

theorem demotes_cpu (level : ThermalLevel) : level.demotes .cpu = false := by
  cases level <;> rfl

theorem usable_cpu_iff {p : AccelerationPolicy} {d : AcceleratorDevice} (h : d.kind = .cpu) :
    p.usable d = true ↔ d.name ∉ p.failed.map Prod.fst := by
  rw [AccelerationPolicy.usable, h, demotes_cpu]
  simp

theorem mem_usableDevices {p : AccelerationPolicy} {d : AcceleratorDevice} :
    d ∈ p.usableDevices ↔ d ∈ p.devices ∧ p.usable d = true := List.mem_filter

/-- A CPU that can be used is the last rung. -/
theorem getLast?_rungs {p : AccelerationPolicy} {workload : Str} :
    (∃ d ∈ (p.rungs workload).getLast?, d.kind = .cpu) ↔
      ∃ d ∈ p.devices, d.kind = .cpu ∧ p.usable d = true := by
  constructor
  · rintro ⟨d, hd, hkind⟩
    have hmem := (get?_available (mem_rungs.1 (List.mem_of_getLast? hd)).2).1
    obtain ⟨hdevice, husable⟩ := mem_usableDevices.1 hmem
    exact ⟨d, hdevice, hkind, husable⟩
  · rintro ⟨d, hd, hkind, husable⟩
    obtain ⟨cpu, hcpu⟩ := get?_available_of_mem (mem_usableDevices.2 ⟨hd, husable⟩)
    rw [hkind] at hcpu
    obtain ⟨kinds, hkinds⟩ := ladder_split (workloadClass workload)
    refine ⟨cpu, ?_, (get?_available hcpu).2⟩
    rw [rungs, hkinds, List.filterMap_append, List.filterMap_cons_some hcpu, List.filterMap_nil,
      List.getLast?_concat]
    rfl

theorem rungs_eq_nil_iff {p : AccelerationPolicy} {workload : Str} :
    p.rungs workload = [] ↔
      ∀ d ∈ p.devices, d.kind ∈ (workloadClass workload).ladder → p.usable d = false := by
  constructor
  · intro hnil d hd hkind
    by_contra hne
    have husable : p.usable d = true := eq_true_of_ne_false hne
    obtain ⟨d', hd'⟩ := get?_available_of_mem (mem_usableDevices.2 ⟨hd, husable⟩)
    have hmem : d' ∈ p.rungs workload := by
      refine mem_rungs.2 ?_
      rw [(get?_available hd').2]
      exact ⟨hkind, hd'⟩
    rw [hnil] at hmem
    cases hmem
  · intro hnone
    rw [List.eq_nil_iff_forall_not_mem]
    intro d hd
    obtain ⟨hkind, hget⟩ := mem_rungs.1 hd
    obtain ⟨hdevice, husable⟩ := mem_usableDevices.1 (get?_available hget).1
    rw [hnone d hdevice hkind] at husable
    cases husable

/-- A ladder is grounded if and only if its floor stands. -/
theorem Floored.grounded_iff_stands {p : AccelerationPolicy} (hfloor : p.Floored) (workload : Str) :
    p.Grounded workload ↔ p.FloorStands workload := by
  rw [FloorStands, ← rungs_eq_nil_iff]
  by_cases hrungs : p.rungs workload = []
  · refine iff_of_true ?_ (.inr hrungs)
    obtain ⟨cpu, hcpu, hkind, hresolve⟩ := hfloor.resolve_of_no_rungs hrungs
    have hnone := rungs_eq_nil_iff.1 hrungs
    constructor
    · rw [hresolve]
      exact List.cons_ne_nil _ _
    · rw [hresolve, List.map_singleton, hkind, List.singleton_sublist]
      exact cpu_mem_ladder _
    · intro d hd
      rw [hresolve] at hd
      cases List.mem_singleton.1 hd
      exact ⟨hcpu, fun hne => absurd hkind hne⟩
    · intro d hd husable hladder
      rw [hnone d hd hladder] at husable
      cases husable
    · rw [hresolve]
      exact ⟨cpu, rfl, hkind⟩
  · have hresolve := resolve_of_rungs hrungs
    have hstands : (∃ d ∈ p.devices, d.kind = .cpu ∧ d.name ∉ p.failed.map Prod.fst) ↔
        ∃ d ∈ (p.rungs workload).getLast?, d.kind = .cpu := by
      rw [getLast?_rungs]
      refine exists_congr fun d => and_congr_right fun _ => and_congr_right fun hkind => ?_
      exact (usable_cpu_iff hkind).symm
    rw [or_iff_left hrungs, hstands]
    constructor
    · intro h
      have hlast := h.floor
      rwa [hresolve] at hlast
    · intro hlast
      constructor
      · rwa [hresolve]
      · rw [hresolve]
        exact kinds_rungs p workload
      · intro d hd
        rw [hresolve] at hd
        obtain ⟨hdevice, husable⟩ := mem_usableDevices.1 (get?_available (mem_rungs.1 hd).2).1
        exact ⟨hdevice, fun _ => husable⟩
      · intro d hd husable hladder
        obtain ⟨d', hd'⟩ := get?_available_of_mem (mem_usableDevices.2 ⟨hd, husable⟩)
        have hkind := (get?_available hd').2
        rw [hresolve]
        refine List.mem_map.2 ⟨d', mem_rungs.2 ?_, hkind⟩
        rw [hkind]
        exact ⟨hladder, hd'⟩
      · rwa [hresolve]

/-- For every device list, every sequence of calls and every workload: the ladder that is resolved is
grounded if and only if its floor stands. -/
theorem ladder_grounded_iff (cores : Str) (devices : List AcceleratorDevice) (calls : List Call)
    (workload : Str) :
    (run step (new cores devices) calls).Grounded workload ↔
      (run step (new cores devices) calls).FloorStands workload := by
  have hfloor : (run step (new cores devices) calls).Floored :=
    inv_run (fun _ call h => h.step call) (floored_setDevices _ cores devices) calls
  exact hfloor.grounded_iff_stands workload

/-- A policy for an NPU, whose CPU has failed. -/
def failedCpu : AccelerationPolicy :=
  run step (new (lit "8") [⟨.npu, lit "Hexagon", lit "test"⟩])
    [.reportFailure (implicitCpu (lit "8")) 0]

/-- Its ladder ends on the NPU. -/
theorem failedCpu_ungrounded :
    failedCpu.resolve (lit "llm") = [⟨.npu, lit "Hexagon", lit "test"⟩] ∧
      ¬ failedCpu.Grounded (lit "llm") := by
  have hresolve : failedCpu.resolve (lit "llm") = [⟨.npu, lit "Hexagon", lit "test"⟩] := by decide
  refine ⟨hresolve, ?_⟩
  intro h
  obtain ⟨d, hd, hkind⟩ := h.floor
  rw [hresolve] at hd
  cases hd
  cases hkind

end AccelerationPolicy

end ShugoCore
