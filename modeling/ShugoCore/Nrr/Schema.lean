import ShugoCore.Lib.Binary64

/-!
# The perception contract

`Coordinate3D`, `DHCandidate`, `SceneEntity` and `NRRSensorEvent` of `nrr/schema.py`.  `to_dict` writes
a record that `validate` accepts, and `from_dict` builds one of a dictionary: numbers by `float`, and
texts cut at the lengths that `validate` knows.

A field that is declared as a float can be an integer, and `float` does not keep every integer.
`validate` asks of a coordinate only that it is no NaN, asks nothing of the parameters of a joint, and
knows no length of some frame ids that `from_dict` cuts.  What it accepts comes back as it was, with
finite numbers, if and only if none of that is used (`perception_kept_iff`).
-/

namespace ShugoCore

open Py

variable {φ : Type}

/-! ## Numbers -/

/-- The value of a field that is declared as a float.  A truth value is the integer that it is. -/
inductive Number (φ : Type) where
  | int (i : Int)
  | float (x : PyFloat φ)

namespace Number

/-- The number as a value of a dictionary. -/
def toVal : Number φ → PyVal φ
  | .int i => .int i
  | .float x => .float x

variable [FloatFormat φ]

/-- What the number is compared as. -/
def exact : Number φ → PyFloat ℚ
  | .int i => .finite i
  | .float (.finite x) => .finite (FloatFormat.value x)
  | .float .nan => .nan
  | .float .posInf => .posInf
  | .float .negInf => .negInf

/-- `0.0 <= n <= 1.0`. -/
def inUnit (n : Number φ) : Bool := (PyFloat.finite 0).le n.exact && n.exact.le (.finite 1)

/-- `n == n`. -/
def isSelf (n : Number φ) : Bool := n.exact ≠ .nan

/-- A finite number, which is a float if it is an integer. -/
def Carried : Number φ → Prop
  | .int i => PyFloat.ofInt i = .ok (.finite i)
  | .float x => ∃ y, x = .finite y

/-- `float` keeps a number, which is finite, if and only if it is carried. -/
theorem carried_iff {φ : Type} [Builtins φ] [FloatReader] (n : Number φ) :
    toFloat n.toVal = .ok n.exact ∧ n.exact.isFinite = true ↔ n.Carried := by
  cases n with
  | int i => exact and_iff_left rfl
  | float x =>
      cases x with
      | finite x => exact iff_of_true ⟨rfl, rfl⟩ ⟨x, rfl⟩
      | nan | posInf | negInf =>
          refine iff_of_false ?_ ?_
          · rintro ⟨-, hfinite⟩
            cases hfinite
          · rintro ⟨y, hy⟩
            cases hy

end Number

theorem ofInt_zero : PyFloat.ofInt 0 = .ok (.finite 0) := by
  have hround : roundHalfEven 0 = 0 := roundHalfEven_intCast 0
  have hpow : (0 : ℚ) < 2 ^ 1024 := pow_pos two_pos 1024
  have hnearest : PyFloat.nearest 0 = .finite 0 := by
    rw [PyFloat.nearest, zero_div, hround, Int.cast_zero, zero_mul]
    rw [if_neg (not_le.2 hpow), if_neg (not_le.2 (neg_neg_of_pos hpow))]
  rw [PyFloat.ofInt, Int.cast_zero, hnearest]

theorem ofInt_one : PyFloat.ofInt 1 = .ok (.finite 1) := PyFloat.ofInt_two_pow 0

/-- A confidence is carried. -/
theorem Number.carried_of_inUnit [FloatFormat φ] {n : Number φ} (h : n.inUnit = true) : n.Carried := by
  obtain ⟨hlow, hhigh⟩ := Bool.and_eq_true_iff.1 h
  cases n with
  | int i =>
      have hlow' : (0 : ℚ) ≤ i := of_decide_eq_true hlow
      have hhigh' : (i : ℚ) ≤ 1 := of_decide_eq_true hhigh
      have hbounds : i = 0 ∨ i = 1 := by
        have h0 : 0 ≤ i := by exact_mod_cast hlow'
        have h1 : i ≤ 1 := by exact_mod_cast hhigh'
        omega
      rcases hbounds with rfl | rfl
      · exact ofInt_zero
      · exact ofInt_one
  | float x =>
      cases x with
      | finite x => exact ⟨x, rfl⟩
      | nan => cases hlow
      | posInf => cases hhigh
      | negInf => cases hlow

/-! ## Validation -/

/-- Why a record is not accepted: the text of the `ValueError`. -/
inductive Invalid where
  | notFinite (field : String)
  | unknown (field : String) (value : Str)
  | outOfUnit (field : String)
  | negative (field : String)
  | tooLong (field : String)
  | required (field : String)

/-- The text, for a `repr`. -/
def Invalid.text (repr : Str → Str) : Invalid → Str
  | .notFinite field => lit (field ++ " must be a finite number")
  | .unknown field value => lit ("unknown " ++ field ++ " ") ++ repr value
  | .outOfUnit field => lit (field ++ " out of range 0..1")
  | .negative field => lit (field ++ " must be >= 0")
  | .tooLong field => lit (field ++ " too long")
  | .required field => lit (field ++ " required")

/-- A check. -/
def require (ok : Bool) (why : Invalid) : Except Invalid Unit := if ok then .ok () else .error why

theorem require_ok_iff {ok : Bool} {why : Invalid} : require ok why = .ok () ↔ ok = true := by
  cases ok with
  | true => exact iff_of_true rfl rfl
  | false =>
      refine iff_of_false ?_ ?_
      · intro h
        cases h
      · intro h
        cases h

/-- Checks one after the other. -/
theorem seq_ok_iff {α : Type} {first : Except Invalid Unit} {rest : Except Invalid α} {a : α} :
    (do first; rest) = .ok a ↔ first = .ok () ∧ rest = .ok a := by
  cases first with
  | error e =>
      refine iff_of_false ?_ ?_
      · intro h
        cases h
      · rintro ⟨h, -⟩
        cases h
  | ok u => exact (and_iff_right rfl).symm

/-- `SCHEMA_VERSION`. -/
def schemaVersion : Int := 2

/-- `KNOWN_UNITS`. -/
def knownUnits : List Str := [lit "m", lit "cm", lit "mm", lit "pixel", lit "normalized"]

/-- `KNOWN_FRAMES`. -/
def knownFrames : List Str :=
  [lit "camera_local", lit "world_aligned", lit "sensor_fused", lit "dh_link", lit "dh_joint",
    lit "device_chassis"]

/-- `KNOWN_AXES_CONVENTIONS`. -/
def knownAxesConventions : List Str :=
  [lit "cartesian_xyz_right_handed_y_up", lit "cartesian_xyz_right_handed_z_up", lit "pixel_xy_image",
    lit "dh_standard", lit "spherical_radius_azimuth_elevation"]

/-- `KNOWN_ORIGINS`. -/
def knownOrigins : List Str :=
  [lit "camera_optical_center", lit "world_origin", lit "device_chassis_origin", lit "link_base",
    lit "link_i", lit "joint_i", lit "fused_origin"]

/-- `Coordinate3D`, over the type of its numbers. -/
structure Coordinate3D (ν : Type) where
  x : ν
  y : ν
  z : ν
  unit : Str
  frame : Str
  axesConvention : Str
  origin : Str
  sensorProvenance : Str
  sensorDeviceId : Str
  confidence : ν
  ageMs : Int
  sourceFrameId : Str
  schemaVersion : Int

/-- `DHCandidate`. -/
structure DHCandidate (ν : Type) where
  linkId : Str
  a : ν
  alpha : ν
  d : ν
  theta : ν
  jointType : Str
  confidence : ν
  ageMs : Int
  sourceFrameId : Str
  schemaVersion : Int

/-- `SceneEntity`. -/
structure SceneEntity (ν : Type) where
  id : Str
  label : Str
  position : Coordinate3D ν
  extents : Option (Coordinate3D ν)
  dh : Option (DHCandidate ν)
  confidence : ν
  ageMs : Int
  sourceFrameId : Str
  schemaVersion : Int

/-- `NRRSensorEvent`. -/
structure NRRSensorEvent (ν : Type) where
  eventId : Str
  eventType : Str
  region : Option (Coordinate3D ν)
  extents : Option (Coordinate3D ν)
  motionScore : ν
  sourceFrameId : Str
  previousFrameId : Str
  timestampMs : Int
  confidence : ν
  ageMs : Int
  schemaVersion : Int

/-- `if v is not None: v.validate()`. -/
def validateOptional {α : Type} (validate : α → Except Invalid Unit) : Option α → Except Invalid Unit
  | none => .ok ()
  | some a => validate a

section

variable [FloatFormat φ]

/-- `Coordinate3D.validate`. -/
def Coordinate3D.validate (c : Coordinate3D (Number φ)) : Except Invalid Unit := do
  require c.x.isSelf (.notFinite "x")
  require c.y.isSelf (.notFinite "y")
  require c.z.isSelf (.notFinite "z")
  require (c.unit ∈ knownUnits) (.unknown "unit" c.unit)
  require (c.frame ∈ knownFrames) (.unknown "frame" c.frame)
  require (c.axesConvention ∈ knownAxesConventions) (.unknown "axes_convention" c.axesConvention)
  require (c.origin ∈ knownOrigins) (.unknown "origin" c.origin)
  require c.confidence.inUnit (.outOfUnit "confidence")
  require (0 ≤ c.ageMs) (.negative "age_ms")
  require (c.sensorProvenance.length ≤ 128) (.tooLong "sensor_provenance")
  require (c.sensorDeviceId.length ≤ 128) (.tooLong "sensor_device_id")
  require (c.sourceFrameId.length ≤ 128) (.tooLong "source_frame_id")

/-- `DHCandidate.validate`. -/
def DHCandidate.validate (h : DHCandidate (Number φ)) : Except Invalid Unit := do
  require (h.linkId ≠ [] ∧ h.linkId.length ≤ 64) (.required "link_id")
  require (h.jointType ∈ [lit "revolute", lit "prismatic", lit "fixed"])
    (.unknown "joint_type" h.jointType)
  require h.confidence.inUnit (.outOfUnit "confidence")
  require (0 ≤ h.ageMs) (.negative "age_ms")

/-- `SceneEntity.validate`. -/
def SceneEntity.validate (e : SceneEntity (Number φ)) : Except Invalid Unit := do
  require (e.id ≠ [] ∧ e.id.length ≤ 128) (.required "entity id")
  require (e.label.length ≤ 128) (.tooLong "label")
  e.position.validate
  validateOptional Coordinate3D.validate e.extents
  validateOptional DHCandidate.validate e.dh
  require e.confidence.inUnit (.outOfUnit "confidence")
  require (0 ≤ e.ageMs) (.negative "age_ms")

/-- `NRRSensorEvent.validate`. -/
def NRRSensorEvent.validate (e : NRRSensorEvent (Number φ)) : Except Invalid Unit := do
  require (e.eventId ≠ [] ∧ e.eventId.length ≤ 128) (.required "event_id")
  require (e.eventType ∈ [lit "motion", lit "appearance", lit "disappearance", lit "change"])
    (.unknown "event_type" e.eventType)
  validateOptional Coordinate3D.validate e.region
  validateOptional Coordinate3D.validate e.extents
  require e.motionScore.inUnit (.outOfUnit "motion_score")
  require e.confidence.inUnit (.outOfUnit "confidence")
  require (0 ≤ e.ageMs) (.negative "age_ms")

/-! ## Writing -/

/-- `asdict` of a coordinate. -/
def Coordinate3D.asdict (c : Coordinate3D (Number φ)) : Obj φ :=
  obj [("x", c.x.toVal), ("y", c.y.toVal), ("z", c.z.toVal), ("unit", .str c.unit),
    ("frame", .str c.frame), ("axes_convention", .str c.axesConvention), ("origin", .str c.origin),
    ("sensor_provenance", .str c.sensorProvenance), ("sensor_device_id", .str c.sensorDeviceId),
    ("confidence", c.confidence.toVal), ("age_ms", .int c.ageMs),
    ("source_frame_id", .str c.sourceFrameId), ("schema_version", .int c.schemaVersion)]

/-- `Coordinate3D.to_dict`. -/
def Coordinate3D.toDict (c : Coordinate3D (Number φ)) : Except Invalid (Obj φ) := do
  c.validate
  return c.asdict

/-- `asdict` of a joint. -/
def DHCandidate.asdict (h : DHCandidate (Number φ)) : Obj φ :=
  obj [("link_id", .str h.linkId), ("a", h.a.toVal), ("alpha", h.alpha.toVal), ("d", h.d.toVal),
    ("theta", h.theta.toVal), ("joint_type", .str h.jointType), ("confidence", h.confidence.toVal),
    ("age_ms", .int h.ageMs), ("source_frame_id", .str h.sourceFrameId),
    ("schema_version", .int h.schemaVersion)]

/-- `DHCandidate.to_dict`. -/
def DHCandidate.toDict (h : DHCandidate (Number φ)) : Except Invalid (Obj φ) := do
  h.validate
  return h.asdict

/-- `v.to_dict() if v else None`. -/
def toDictOptional {α : Type} (toDict : α → Except Invalid (Obj φ)) :
    Option α → Except Invalid (PyVal φ)
  | none => .ok .none
  | some a => do return .dict (← toDict a)

/-- `SceneEntity.to_dict`. -/
def SceneEntity.toDict (e : SceneEntity (Number φ)) : Except Invalid (Obj φ) := do
  e.validate
  return obj [("id", .str e.id), ("label", .str e.label), ("position", .dict (← e.position.toDict)),
    ("extents", ← toDictOptional Coordinate3D.toDict e.extents),
    ("dh", ← toDictOptional DHCandidate.toDict e.dh), ("confidence", e.confidence.toVal),
    ("age_ms", .int e.ageMs), ("source_frame_id", .str e.sourceFrameId),
    ("schema_version", .int e.schemaVersion)]

/-- `NRRSensorEvent.to_dict`. -/
def NRRSensorEvent.toDict (e : NRRSensorEvent (Number φ)) : Except Invalid (Obj φ) := do
  e.validate
  return obj [("event_id", .str e.eventId), ("event_type", .str e.eventType),
    ("region", ← toDictOptional Coordinate3D.toDict e.region),
    ("extents", ← toDictOptional Coordinate3D.toDict e.extents),
    ("motion_score", e.motionScore.toVal), ("source_frame_id", .str e.sourceFrameId),
    ("previous_frame_id", .str e.previousFrameId), ("timestamp_ms", .int e.timestampMs),
    ("confidence", e.confidence.toVal), ("age_ms", .int e.ageMs),
    ("schema_version", .int e.schemaVersion)]

end

/-! ## Reading -/

section

variable [Builtins φ] [FloatReader]

/-- `float(data.get(k, 0.0))`. -/
def floatField (k : String) (data : Obj φ) : Except Exn (PyFloat ℚ) :=
  match getKey (lit k) data with
  | some v => toFloat v
  | none => .ok (.finite 0)

/-- `int(data.get(k, default))`. -/
def intField (k : String) (default : Int) (data : Obj φ) : Except Exn Int :=
  match getKey (lit k) data with
  | some v => intOf v
  | none => .ok default

/-- `str(data.get(k, default))`. -/
def textField (k : String) (default : String) (data : Obj φ) : Str :=
  strOf (getOr k (.str (lit default)) data)

/-- `Coordinate3D.from_dict`. -/
def Coordinate3D.fromDict (data : Obj φ) : Except Exn (Coordinate3D (PyFloat ℚ)) := do
  return {
    x := ← floatField "x" data
    y := ← floatField "y" data
    z := ← floatField "z" data
    unit := textField "unit" "m" data
    frame := textField "frame" "camera_local" data
    axesConvention := textField "axes_convention" "cartesian_xyz_right_handed_y_up" data
    origin := textField "origin" "camera_optical_center" data
    sensorProvenance := (textField "sensor_provenance" "" data).take 128
    sensorDeviceId := (textField "sensor_device_id" "" data).take 128
    confidence := ← floatField "confidence" data
    ageMs := ← intField "age_ms" 0 data
    sourceFrameId := (textField "source_frame_id" "" data).take 128
    schemaVersion := ← intField "schema_version" ShugoCore.schemaVersion data }

/-- `DHCandidate.from_dict`. -/
def DHCandidate.fromDict (data : Obj φ) : Except Exn (DHCandidate (PyFloat ℚ)) := do
  return {
    linkId := (textField "link_id" "" data).take 64
    a := ← floatField "a" data
    alpha := ← floatField "alpha" data
    d := ← floatField "d" data
    theta := ← floatField "theta" data
    jointType := textField "joint_type" "revolute" data
    confidence := ← floatField "confidence" data
    ageMs := ← intField "age_ms" 0 data
    sourceFrameId := (textField "source_frame_id" "" data).take 128
    schemaVersion := ← intField "schema_version" ShugoCore.schemaVersion data }

/-- `from_dict` of a value, which has no `get` if it is no dictionary. -/
def fromVal {α : Type} (fromDict : Obj φ → Except Exn α) : PyVal φ → Except Exn α
  | .dict data => fromDict data
  | _ => .error .attributeError

/-- `from_dict(v) if isinstance(v, dict) else None`. -/
def fromOptional {α : Type} (fromDict : Obj φ → Except Exn α) : PyVal φ → Except Exn (Option α)
  | .dict data => do return some (← fromDict data)
  | _ => .ok none

/-- `SceneEntity.from_dict`. -/
def SceneEntity.fromDict (data : Obj φ) : Except Exn (SceneEntity (PyFloat ℚ)) := do
  return {
    id := (textField "id" "" data).take 128
    label := (textField "label" "" data).take 128
    position := ← fromVal Coordinate3D.fromDict (orElse (fetch (lit "position") data) (.dict []))
    extents := ← fromOptional Coordinate3D.fromDict (fetch (lit "extents") data)
    dh := ← fromOptional DHCandidate.fromDict (fetch (lit "dh") data)
    confidence := ← floatField "confidence" data
    ageMs := ← intField "age_ms" 0 data
    sourceFrameId := (textField "source_frame_id" "" data).take 128
    schemaVersion := ← intField "schema_version" ShugoCore.schemaVersion data }

/-- `NRRSensorEvent.from_dict`. -/
def NRRSensorEvent.fromDict (data : Obj φ) : Except Exn (NRRSensorEvent (PyFloat ℚ)) := do
  return {
    eventId := (textField "event_id" "" data).take 128
    eventType := textField "event_type" "motion" data
    region := ← fromOptional Coordinate3D.fromDict (fetch (lit "region") data)
    extents := ← fromOptional Coordinate3D.fromDict (fetch (lit "extents") data)
    motionScore := ← floatField "motion_score" data
    sourceFrameId := (textField "source_frame_id" "" data).take 128
    previousFrameId := (textField "previous_frame_id" "" data).take 128
    timestampMs := ← intField "timestamp_ms" 0 data
    confidence := ← floatField "confidence" data
    ageMs := ← intField "age_ms" 0 data
    schemaVersion := ← intField "schema_version" ShugoCore.schemaVersion data }

end

/-! ## What is kept -/

/-- A coordinate with other numbers. -/
def Coordinate3D.map {ν μ : Type} (f : ν → μ) (c : Coordinate3D ν) : Coordinate3D μ :=
  { c with x := f c.x, y := f c.y, z := f c.z, confidence := f c.confidence }

/-- A joint with other numbers. -/
def DHCandidate.map {ν μ : Type} (f : ν → μ) (h : DHCandidate ν) : DHCandidate μ :=
  { h with a := f h.a, alpha := f h.alpha, d := f h.d, theta := f h.theta, confidence := f h.confidence }

/-- An entity with other numbers. -/
def SceneEntity.map {ν μ : Type} (f : ν → μ) (e : SceneEntity ν) : SceneEntity μ :=
  { e with
    position := e.position.map f
    extents := e.extents.map (Coordinate3D.map f)
    dh := e.dh.map (DHCandidate.map f)
    confidence := f e.confidence }

/-- An event with other numbers. -/
def NRRSensorEvent.map {ν μ : Type} (f : ν → μ) (e : NRRSensorEvent ν) : NRRSensorEvent μ :=
  { e with
    region := e.region.map (Coordinate3D.map f)
    extents := e.extents.map (Coordinate3D.map f)
    motionScore := f e.motionScore
    confidence := f e.confidence }

/-- The numbers of a coordinate. -/
def Coordinate3D.numbers {ν : Type} (c : Coordinate3D ν) : List ν := [c.x, c.y, c.z, c.confidence]

/-- The numbers of a joint. -/
def DHCandidate.numbers {ν : Type} (h : DHCandidate ν) : List ν :=
  [h.a, h.alpha, h.d, h.theta, h.confidence]

/-- The numbers of what may be absent. -/
def numbersOptional {α ν : Type} (numbers : α → List ν) : Option α → List ν
  | none => []
  | some a => numbers a

/-- The numbers of an entity. -/
def SceneEntity.numbers {ν : Type} (e : SceneEntity ν) : List ν :=
  e.confidence :: e.position.numbers ++ numbersOptional Coordinate3D.numbers e.extents ++
    numbersOptional DHCandidate.numbers e.dh

/-- The numbers of an event. -/
def NRRSensorEvent.numbers {ν : Type} (e : NRRSensorEvent ν) : List ν :=
  e.motionScore :: e.confidence :: numbersOptional Coordinate3D.numbers e.region ++
    numbersOptional Coordinate3D.numbers e.extents

/-- A record is written, comes back as it was, and its numbers are finite. -/
structure ComesBack [FloatFormat φ] {β : Type} (written : Except Invalid (Obj φ))
    (fromDict : Obj φ → Except Exn β) (same : β) (numbers : List (Number φ)) : Prop where
  back : ∃ data, written = .ok data ∧ fromDict data = .ok same
  finite : ∀ n ∈ numbers, n.exact.isFinite = true

section

variable [Builtins φ] [FloatReader]

/-- A coordinate is kept. -/
def Coordinate3D.IsKept (c : Coordinate3D (Number φ)) : Prop :=
  ComesBack c.toDict Coordinate3D.fromDict (c.map Number.exact) c.numbers

/-- A joint is kept. -/
def DHCandidate.IsKept (h : DHCandidate (Number φ)) : Prop :=
  ComesBack h.toDict DHCandidate.fromDict (h.map Number.exact) h.numbers

/-- An entity is kept. -/
def SceneEntity.IsKept (e : SceneEntity (Number φ)) : Prop :=
  ComesBack e.toDict SceneEntity.fromDict (e.map Number.exact) e.numbers

/-- An event is kept. -/
def NRRSensorEvent.IsKept (e : NRRSensorEvent (Number φ)) : Prop :=
  ComesBack e.toDict NRRSensorEvent.fromDict (e.map Number.exact) e.numbers

end

section

variable [FloatFormat φ]

/-- The place is of finite numbers, and an integer among them is a float. -/
def Coordinate3D.Carried (c : Coordinate3D (Number φ)) : Prop :=
  c.x.Carried ∧ c.y.Carried ∧ c.z.Carried

/-- The parameters are finite numbers, an integer among them is a float, and the frame id is not too
long to be kept. -/
def DHCandidate.Carried (h : DHCandidate (Number φ)) : Prop :=
  h.a.Carried ∧ h.alpha.Carried ∧ h.d.Carried ∧ h.theta.Carried ∧ h.sourceFrameId.length ≤ 128

/-- What an entity is made of is carried, and its frame id is not too long to be kept. -/
def SceneEntity.Carried (e : SceneEntity (Number φ)) : Prop :=
  e.position.Carried ∧ (∀ c ∈ e.extents, c.Carried) ∧ (∀ h ∈ e.dh, h.Carried) ∧
    e.sourceFrameId.length ≤ 128

/-- What an event is made of is carried, and its frame ids are not too long to be kept. -/
def NRRSensorEvent.Carried (e : NRRSensorEvent (Number φ)) : Prop :=
  (∀ c ∈ e.region, c.Carried) ∧ (∀ c ∈ e.extents, c.Carried) ∧
    e.sourceFrameId.length ≤ 128 ∧ e.previousFrameId.length ≤ 128

/-! ## What validation gives -/

theorem Coordinate3D.of_validate {c : Coordinate3D (Number φ)} (h : c.validate = .ok ()) :
    c.confidence.Carried ∧ c.sensorProvenance.length ≤ 128 ∧ c.sensorDeviceId.length ≤ 128 ∧
      c.sourceFrameId.length ≤ 128 := by
  simp only [validate, seq_ok_iff, require_ok_iff, decide_eq_true_eq] at h
  obtain ⟨-, -, -, -, -, -, -, hconfidence, -, hprovenance, hdevice, hframe⟩ := h
  exact ⟨Number.carried_of_inUnit hconfidence, hprovenance, hdevice, hframe⟩

theorem DHCandidate.of_validate {h : DHCandidate (Number φ)} (hv : h.validate = .ok ()) :
    h.confidence.Carried ∧ h.linkId.length ≤ 64 := by
  simp only [validate, seq_ok_iff, require_ok_iff, decide_eq_true_eq] at hv
  obtain ⟨⟨-, hlink⟩, -, hconfidence, -⟩ := hv
  exact ⟨Number.carried_of_inUnit hconfidence, hlink⟩

omit [FloatFormat φ] in
theorem validateOptional_ok_iff {α : Type} {validate : α → Except Invalid Unit} {o : Option α} :
    validateOptional validate o = .ok () ↔ ∀ a ∈ o, validate a = .ok () := by
  cases o with
  | none => simp [validateOptional]
  | some a => simp [validateOptional]

theorem SceneEntity.of_validate {e : SceneEntity (Number φ)} (h : e.validate = .ok ()) :
    e.position.validate = .ok () ∧ (∀ c ∈ e.extents, c.validate = .ok ()) ∧
      (∀ h ∈ e.dh, h.validate = .ok ()) ∧ e.confidence.Carried ∧ e.id.length ≤ 128 ∧
      e.label.length ≤ 128 := by
  simp only [validate, seq_ok_iff, require_ok_iff, decide_eq_true_eq, validateOptional_ok_iff] at h
  obtain ⟨⟨-, hid⟩, hlabel, hposition, hextents, hdh, hconfidence, -⟩ := h
  exact ⟨hposition, hextents, hdh, Number.carried_of_inUnit hconfidence, hid, hlabel⟩

theorem NRRSensorEvent.of_validate {e : NRRSensorEvent (Number φ)} (h : e.validate = .ok ()) :
    (∀ c ∈ e.region, c.validate = .ok ()) ∧ (∀ c ∈ e.extents, c.validate = .ok ()) ∧
      e.motionScore.Carried ∧ e.confidence.Carried ∧ e.eventId.length ≤ 128 := by
  simp only [validate, seq_ok_iff, require_ok_iff, decide_eq_true_eq, validateOptional_ok_iff] at h
  obtain ⟨⟨-, hid⟩, -, hregion, hextents, hscore, hconfidence, -⟩ := h
  exact ⟨hregion, hextents, Number.carried_of_inUnit hscore, Number.carried_of_inUnit hconfidence, hid⟩

/-! ## What is written -/

theorem Coordinate3D.toDict_of_validate {c : Coordinate3D (Number φ)} (h : c.validate = .ok ()) :
    c.toDict = .ok c.asdict := by
  rw [toDict, h]
  rfl

theorem DHCandidate.toDict_of_validate {h : DHCandidate (Number φ)} (hv : h.validate = .ok ()) :
    h.toDict = .ok h.asdict := by
  rw [toDict, hv]
  rfl

/-- What is written of what may be absent. -/
def writtenOptional {α : Type} (asdict : α → Obj φ) : Option α → PyVal φ
  | none => .none
  | some a => .dict (asdict a)

omit [FloatFormat φ] in
theorem toDictOptional_eq {α : Type} {toDict : α → Except Invalid (Obj φ)} {asdict : α → Obj φ}
    {o : Option α} (h : ∀ a ∈ o, toDict a = .ok (asdict a)) :
    toDictOptional toDict o = .ok (writtenOptional asdict o) := by
  cases o with
  | none => rfl
  | some a =>
      rw [toDictOptional, h a rfl]
      rfl

/-- What is written of an entity. -/
def SceneEntity.asdict (e : SceneEntity (Number φ)) : Obj φ :=
  obj [("id", .str e.id), ("label", .str e.label), ("position", .dict e.position.asdict),
    ("extents", writtenOptional Coordinate3D.asdict e.extents),
    ("dh", writtenOptional DHCandidate.asdict e.dh), ("confidence", e.confidence.toVal),
    ("age_ms", .int e.ageMs), ("source_frame_id", .str e.sourceFrameId),
    ("schema_version", .int e.schemaVersion)]

theorem SceneEntity.toDict_of_validate {e : SceneEntity (Number φ)} (h : e.validate = .ok ()) :
    e.toDict = .ok e.asdict := by
  obtain ⟨hposition, hextents, hdh, -⟩ := SceneEntity.of_validate h
  rw [toDict, h, Coordinate3D.toDict_of_validate hposition,
    toDictOptional_eq fun c hc => Coordinate3D.toDict_of_validate (hextents c hc),
    toDictOptional_eq fun c hc => DHCandidate.toDict_of_validate (hdh c hc)]
  rfl

/-- What is written of an event. -/
def NRRSensorEvent.asdict (e : NRRSensorEvent (Number φ)) : Obj φ :=
  obj [("event_id", .str e.eventId), ("event_type", .str e.eventType),
    ("region", writtenOptional Coordinate3D.asdict e.region),
    ("extents", writtenOptional Coordinate3D.asdict e.extents),
    ("motion_score", e.motionScore.toVal), ("source_frame_id", .str e.sourceFrameId),
    ("previous_frame_id", .str e.previousFrameId), ("timestamp_ms", .int e.timestampMs),
    ("confidence", e.confidence.toVal), ("age_ms", .int e.ageMs),
    ("schema_version", .int e.schemaVersion)]

theorem NRRSensorEvent.toDict_of_validate {e : NRRSensorEvent (Number φ)} (h : e.validate = .ok ()) :
    e.toDict = .ok e.asdict := by
  obtain ⟨hregion, hextents, -⟩ := NRRSensorEvent.of_validate h
  rw [toDict, h, toDictOptional_eq fun c hc => Coordinate3D.toDict_of_validate (hregion c hc),
    toDictOptional_eq fun c hc => Coordinate3D.toDict_of_validate (hextents c hc)]
  rfl

end

/-! ## What is read -/

theorem bind_ok_iff {ε α β : Type} {x : Except ε α} {f : α → Except ε β} {b : β} :
    (x >>= f) = .ok b ↔ ∃ a, x = .ok a ∧ f a = .ok b := by
  constructor
  · exact ok_of_bind
  · rintro ⟨a, rfl, h⟩
    exact h

section

variable [Builtins φ] [FloatReader]

theorem Coordinate3D.fromDict_asdict_iff (c : Coordinate3D (Number φ)) :
    Coordinate3D.fromDict c.asdict = .ok (c.map Number.exact) ↔
      toFloat c.x.toVal = .ok c.x.exact ∧ toFloat c.y.toVal = .ok c.y.exact ∧
        toFloat c.z.toVal = .ok c.z.exact ∧ toFloat c.confidence.toVal = .ok c.confidence.exact ∧
        c.sensorProvenance.length ≤ 128 ∧ c.sensorDeviceId.length ≤ 128 ∧
        c.sourceFrameId.length ≤ 128 := by
  simp [fromDict, asdict, floatField, intField, textField, getOr, strOf, intOf, bind_ok_iff,
    Coordinate3D.map, pure, Except.pure]

theorem DHCandidate.fromDict_asdict_iff (h : DHCandidate (Number φ)) :
    DHCandidate.fromDict h.asdict = .ok (h.map Number.exact) ↔
      h.linkId.length ≤ 64 ∧ toFloat h.a.toVal = .ok h.a.exact ∧
        toFloat h.alpha.toVal = .ok h.alpha.exact ∧ toFloat h.d.toVal = .ok h.d.exact ∧
        toFloat h.theta.toVal = .ok h.theta.exact ∧
        toFloat h.confidence.toVal = .ok h.confidence.exact ∧ h.sourceFrameId.length ≤ 128 := by
  simp [fromDict, asdict, floatField, intField, textField, getOr, strOf, intOf, bind_ok_iff,
    DHCandidate.map, pure, Except.pure]
  tauto

omit [FloatReader] in
theorem fromVal_asdict {α : Type} {fromDict : Obj φ → Except Exn α} {data : Obj φ} (h : data ≠ []) :
    fromVal fromDict (orElse (.dict data) (.dict [])) = fromDict data := by
  cases data with
  | nil => exact absurd rfl h
  | cons i data => rfl

omit [FloatReader] [Builtins φ] in
theorem fromOptional_written_iff {α β : Type} {fromDict : Obj φ → Except Exn β} {asdict : α → Obj φ}
    {f : α → β} {o : Option α} :
    fromOptional fromDict (writtenOptional asdict o) = .ok (o.map f) ↔
      ∀ a ∈ o, fromDict (asdict a) = .ok (f a) := by
  cases o with
  | none => simp [writtenOptional, fromOptional]
  | some a => simp [writtenOptional, fromOptional, bind_ok_iff, pure, Except.pure]

theorem SceneEntity.fromDict_asdict_iff (e : SceneEntity (Number φ)) :
    SceneEntity.fromDict e.asdict = .ok (e.map Number.exact) ↔
      e.id.length ≤ 128 ∧ e.label.length ≤ 128 ∧
        Coordinate3D.fromDict e.position.asdict = .ok (e.position.map Number.exact) ∧
        (∀ c ∈ e.extents, Coordinate3D.fromDict c.asdict = .ok (c.map Number.exact)) ∧
        (∀ h ∈ e.dh, DHCandidate.fromDict h.asdict = .ok (h.map Number.exact)) ∧
        toFloat e.confidence.toVal = .ok e.confidence.exact ∧ e.sourceFrameId.length ≤ 128 := by
  have hposition : ∀ (fromDict : Obj φ → Except Exn (Coordinate3D (PyFloat ℚ))),
      fromVal fromDict (orElse (.dict e.position.asdict) (.dict [])) = fromDict e.position.asdict :=
    fun _ => fromVal_asdict (List.cons_ne_nil _ _)
  rw [← fromOptional_written_iff, ← fromOptional_written_iff]
  simp [fromDict, asdict, fetch, floatField, intField, textField, getOr, strOf, intOf, bind_ok_iff,
    SceneEntity.map, pure, Except.pure, hposition]
  tauto

theorem NRRSensorEvent.fromDict_asdict_iff (e : NRRSensorEvent (Number φ)) :
    NRRSensorEvent.fromDict e.asdict = .ok (e.map Number.exact) ↔
      e.eventId.length ≤ 128 ∧
        (∀ c ∈ e.region, Coordinate3D.fromDict c.asdict = .ok (c.map Number.exact)) ∧
        (∀ c ∈ e.extents, Coordinate3D.fromDict c.asdict = .ok (c.map Number.exact)) ∧
        toFloat e.motionScore.toVal = .ok e.motionScore.exact ∧
        toFloat e.confidence.toVal = .ok e.confidence.exact ∧ e.sourceFrameId.length ≤ 128 ∧
        e.previousFrameId.length ≤ 128 := by
  rw [← fromOptional_written_iff, ← fromOptional_written_iff]
  simp [fromDict, asdict, fetch, floatField, intField, textField, getOr, strOf, intOf, bind_ok_iff,
    NRRSensorEvent.map, pure, Except.pure]
  tauto

/-! ## What is kept, and when -/

omit [FloatReader] in
theorem comesBack_of_written_iff {β : Type} {written : Except Invalid (Obj φ)} {data : Obj φ}
    {fromDict : Obj φ → Except Exn β} {same : β} {numbers : List (Number φ)}
    (h : written = .ok data) :
    ComesBack written fromDict same numbers ↔
      fromDict data = .ok same ∧ ∀ n ∈ numbers, n.exact.isFinite = true := by
  constructor
  · rintro ⟨⟨data', hwritten, hback⟩, hfinite⟩
    rw [h] at hwritten
    cases hwritten
    exact ⟨hback, hfinite⟩
  · rintro ⟨hback, hfinite⟩
    exact ⟨⟨data, h, hback⟩, hfinite⟩

omit [Builtins φ] [FloatReader] in
/-- What holds of the record that may be absent, and of its numbers. -/
theorem forall_numbersOptional_iff {α : Type} {numbers : α → List (Number φ)} {P : α → Prop}
    {Q : Number φ → Prop} {o : Option α} :
    (∀ a ∈ o, P a) ∧ (∀ n ∈ numbersOptional numbers o, Q n) ↔
      ∀ a ∈ o, P a ∧ ∀ n ∈ numbers a, Q n := by
  cases o with
  | none => simp [numbersOptional]
  | some a => simp [numbersOptional]

/-- A coordinate that is accepted is kept if and only if it is carried. -/
theorem Coordinate3D.isKept_iff {c : Coordinate3D (Number φ)} (h : c.validate = .ok ()) :
    c.IsKept ↔ c.Carried := by
  obtain ⟨hconfidence, hprovenance, hdevice, hframe⟩ := Coordinate3D.of_validate h
  obtain ⟨hread, hfinite⟩ := (Number.carried_iff _).2 hconfidence
  rw [IsKept, comesBack_of_written_iff (Coordinate3D.toDict_of_validate h), fromDict_asdict_iff, Carried,
    ← Number.carried_iff, ← Number.carried_iff, ← Number.carried_iff]
  simp only [numbers, List.forall_mem_cons, List.not_mem_nil, false_imp_iff, implies_true, and_true,
    hread, hfinite, hprovenance, hdevice, hframe]
  tauto

/-- A joint that is accepted is kept if and only if it is carried. -/
theorem DHCandidate.isKept_iff {h : DHCandidate (Number φ)} (hv : h.validate = .ok ()) :
    h.IsKept ↔ h.Carried := by
  obtain ⟨hconfidence, hlink⟩ := DHCandidate.of_validate hv
  obtain ⟨hread, hfinite⟩ := (Number.carried_iff _).2 hconfidence
  rw [IsKept, comesBack_of_written_iff (DHCandidate.toDict_of_validate hv), fromDict_asdict_iff, Carried,
    ← Number.carried_iff, ← Number.carried_iff, ← Number.carried_iff, ← Number.carried_iff]
  simp only [numbers, List.forall_mem_cons, List.not_mem_nil, false_imp_iff, implies_true, and_true,
    true_and, hread, hfinite, hlink]
  tauto

/-- A coordinate that may be absent. -/
theorem Coordinate3D.read_optional_iff {o : Option (Coordinate3D (Number φ))}
    (h : ∀ c ∈ o, c.validate = .ok ()) :
    (∀ c ∈ o, Coordinate3D.fromDict c.asdict = .ok (c.map Number.exact)) ∧
        (∀ n ∈ numbersOptional Coordinate3D.numbers o, n.exact.isFinite = true) ↔
      ∀ c ∈ o, c.Carried := by
  rw [forall_numbersOptional_iff]
  refine forall₂_congr fun c hc => ?_
  rw [← Coordinate3D.isKept_iff (h c hc), Coordinate3D.IsKept,
    comesBack_of_written_iff (Coordinate3D.toDict_of_validate (h c hc))]

/-- A joint that may be absent. -/
theorem DHCandidate.read_optional_iff {o : Option (DHCandidate (Number φ))}
    (hv : ∀ h ∈ o, h.validate = .ok ()) :
    (∀ h ∈ o, DHCandidate.fromDict h.asdict = .ok (h.map Number.exact)) ∧
        (∀ n ∈ numbersOptional DHCandidate.numbers o, n.exact.isFinite = true) ↔
      ∀ h ∈ o, h.Carried := by
  rw [forall_numbersOptional_iff]
  refine forall₂_congr fun h hh => ?_
  rw [← DHCandidate.isKept_iff (hv h hh), DHCandidate.IsKept,
    comesBack_of_written_iff (DHCandidate.toDict_of_validate (hv h hh))]

/-- An entity that is accepted is kept if and only if it is carried. -/
theorem SceneEntity.isKept_iff {e : SceneEntity (Number φ)} (h : e.validate = .ok ()) :
    e.IsKept ↔ e.Carried := by
  obtain ⟨hposition, hextents, hdh, hconfidence, hid, hlabel⟩ := SceneEntity.of_validate h
  obtain ⟨hread, hfinite⟩ := (Number.carried_iff _).2 hconfidence
  have hpositionKept := Coordinate3D.isKept_iff hposition
  rw [Coordinate3D.IsKept, comesBack_of_written_iff (Coordinate3D.toDict_of_validate hposition)]
    at hpositionKept
  rw [IsKept, comesBack_of_written_iff (SceneEntity.toDict_of_validate h), fromDict_asdict_iff, Carried,
    ← hpositionKept, ← Coordinate3D.read_optional_iff hextents, ← DHCandidate.read_optional_iff hdh]
  simp only [numbers, List.forall_mem_append, List.forall_mem_cons, hread, hfinite, hid, hlabel]
  tauto

/-- An event that is accepted is kept if and only if it is carried. -/
theorem NRRSensorEvent.isKept_iff {e : NRRSensorEvent (Number φ)} (h : e.validate = .ok ()) :
    e.IsKept ↔ e.Carried := by
  obtain ⟨hregion, hextents, hscore, hconfidence, hid⟩ := NRRSensorEvent.of_validate h
  obtain ⟨hreadScore, hfiniteScore⟩ := (Number.carried_iff _).2 hscore
  obtain ⟨hread, hfinite⟩ := (Number.carried_iff _).2 hconfidence
  rw [IsKept, comesBack_of_written_iff (NRRSensorEvent.toDict_of_validate h), fromDict_asdict_iff, Carried,
    ← Coordinate3D.read_optional_iff hregion, ← Coordinate3D.read_optional_iff hextents]
  simp only [numbers, List.forall_mem_append, List.forall_mem_cons, hreadScore, hfiniteScore, hread,
    hfinite, hid]
  tauto

end

/-- For every record of the four types: what is accepted is kept if and only if it is carried. -/
theorem perception_kept_iff [Builtins φ] [FloatReader] :
    (∀ c : Coordinate3D (Number φ),
        (c.validate = .ok () → c.IsKept) ↔ (c.validate = .ok () → c.Carried)) ∧
      (∀ h : DHCandidate (Number φ),
        (h.validate = .ok () → h.IsKept) ↔ (h.validate = .ok () → h.Carried)) ∧
      (∀ e : SceneEntity (Number φ),
        (e.validate = .ok () → e.IsKept) ↔ (e.validate = .ok () → e.Carried)) ∧
      ∀ e : NRRSensorEvent (Number φ),
        (e.validate = .ok () → e.IsKept) ↔ (e.validate = .ok () → e.Carried) := by
  refine ⟨fun c => ?_, fun h => ?_, fun e => ?_, fun e => ?_⟩
  · exact imp_congr_right fun h => Coordinate3D.isKept_iff h
  · exact imp_congr_right fun hv => DHCandidate.isKept_iff hv
  · exact imp_congr_right fun h => SceneEntity.isKept_iff h
  · exact imp_congr_right fun h => NRRSensorEvent.isKept_iff h

/-- A coordinate that is infinitely far away. -/
def infinitelyFar : Coordinate3D (Number WholeFloat) where
  x := .float .posInf
  y := .float (.finite ⟨0⟩)
  z := .float (.finite ⟨0⟩)
  unit := lit "m"
  frame := lit "camera_local"
  axesConvention := lit "cartesian_xyz_right_handed_y_up"
  origin := lit "camera_optical_center"
  sensorProvenance := []
  sensorDeviceId := []
  confidence := .float (.finite ⟨0⟩)
  ageMs := 0
  sourceFrameId := []
  schemaVersion := schemaVersion

/-- It is accepted, and its first number is not finite. -/
theorem infinitelyFar_accepted :
    letI : FloatReader := ⟨fun _ => none⟩
    infinitelyFar.validate = .ok () ∧ ¬ (infinitelyFar.validate = .ok () → infinitelyFar.IsKept) := by
  let _ : FloatReader := ⟨fun _ => none⟩
  have haccepted : infinitelyFar.validate = .ok () := by
    simp only [Coordinate3D.validate, seq_ok_iff, require_ok_iff]
    decide +kernel
  refine ⟨haccepted, ?_⟩
  intro h
  have hfinite := (h haccepted).finite (.float .posInf) List.mem_cons_self
  cases hfinite

end ShugoCore
