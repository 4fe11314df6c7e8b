import ShugoCore.Lib.JsonPlain
import ShugoCore.Lib.PyBuiltins

/-!
# The codec of the bridge

`to_payload` and `message_from_payload` of `android_bridge.py`, which the transports of the phone
write and read their messages with.  The first asks a message for its dictionary, the second
recognises a message by the keys of a dictionary.

Of the classes of messages only `Twist` has a method `to_dict`.  All others are written as the
text that Python shows for an object, although the second function has branches for three of
them.  So a message comes back if and only if it is a `Twist` (`round_trips_iff`).

A message that is read holds whatever values its payload has, so the names of joints are values
of any kind, and the points of a trajectory are points or values.
-/

namespace ShugoCore

open Py

namespace Bridge

/-- The conversions to a float that are left open. -/
class Floats (φ : Type) extends Builtins φ where
  /-- `0.0`. -/
  zero : φ
  /-- `float` of an integer. -/
  ofInt : Int → Except Exn (PyFloat φ)
  /-- `float` of a text. -/
  ofText : Str → Except Exn (PyFloat φ)

/-! ## Messages -/

section Messages

variable (φ : Type)

/-- `Vector3`. -/
structure Vector3 where
  x : PyFloat φ
  y : PyFloat φ
  z : PyFloat φ
deriving DecidableEq

/-- `JointTrajectoryPoint`. -/
structure JointTrajectoryPoint where
  positions : List (PyFloat φ)
  velocities : List (PyFloat φ)
  accelerations : List (PyFloat φ)
  timeFromStart : PyFloat φ

/-- The classes of messages. -/
inductive Message where
  | twist (linear angular : Vector3 φ)
  | jointTrajectory (jointNames : List (PyVal φ)) (points : List (JointTrajectoryPoint φ ⊕ PyVal φ))
  | jointState (name : List (PyVal φ)) (position velocity effort : List (PyFloat φ))
  | laserScan (ranges : List (PyFloat φ)) (angleMin angleMax rangeMin rangeMax : PyFloat φ)
  | pose (position orientation : Vector3 φ)

/-- What goes through the codec: a message or another value. -/
inductive Item where
  | message (m : Message φ)
  | raw (v : PyVal φ)

end Messages

variable {φ : Type}

/-- `Vector3.to_dict`. -/
def Vector3.toDict (v : Vector3 φ) : Obj φ := obj [("x", .float v.x), ("y", .float v.y), ("z", .float v.z)]

/-- `to_payload`, with what `str` shows for a message that has no `to_dict`. -/
def toPayload [Builtins φ] (shown : Message φ → Str) : Item φ → Obj φ
  | .raw (.dict d) => d
  | .message (.twist linear angular) =>
      obj [("linear", .dict linear.toDict), ("angular", .dict angular.toDict)]
  | .message m => obj [("data", .str (shown m))]
  | .raw v => obj [("data", .str (strOf v))]

variable [Floats φ]

/-- `float(v)`. -/
def toFloat : PyVal φ → Except Exn (PyFloat φ)
  | .float x => .ok x
  | .int i => Floats.ofInt i
  | .bool b => Floats.ofInt (if b then 1 else 0)
  | .str s => Floats.ofText s
  | .none | .list _ | .dict _ => .error .typeError

/-- `Vector3(**{k: float(v) for k, v in v.items() if k in ("x", "y", "z")})`. -/
def vectorOf : PyVal φ → Except Exn (Vector3 φ)
  | .dict d => do
      let items ← (d.filter fun i => i.1.asStr ∈ [some (lit "x"), some (lit "y"), some (lit "z")]).mapM
        fun i => (toFloat i.2).map fun x => (i.1.asStr, x)
      let component (k : String) : PyFloat φ :=
        (Dict.get? items (some (lit k))).getD (.finite Floats.zero)
      return ⟨component "x", component "y", component "z"⟩
  | _ => .error .attributeError

/-- `list(payload.get(k) or [])`. -/
def listOf (k : String) (payload : Obj φ) : Except Exn (List (PyVal φ)) :=
  iterate (orElse (fetch (lit k) payload) (.list []))

/-- `[float(v) for v in payload.get(k) or []]`. -/
def floatsOf (k : String) (payload : Obj φ) : Except Exn (List (PyFloat φ)) := do
  let values ← listOf k payload
  values.mapM toFloat

/-- `float(payload.get(k, 0.0))`. -/
def floatOr (k : String) (payload : Obj φ) : Except Exn (PyFloat φ) :=
  toFloat (getOr k (.float (.finite Floats.zero)) payload)

/-- The keys are there. -/
def hasKeys (ks : List String) (payload : Obj φ) : Bool :=
  ks.all fun k => (getKey (lit k) payload).isSome

/-- The message that a dictionary is recognised as. -/
def recognise (payload : Obj φ) : Except Exn (Option (Message φ)) :=
  if hasKeys ["linear", "angular"] payload then do
    let linear ← vectorOf (fetch (lit "linear") payload)
    let angular ← vectorOf (fetch (lit "angular") payload)
    return some (.twist linear angular)
  else if hasKeys ["name", "position"] payload then do
    let name ← listOf "name" payload
    let position ← floatsOf "position" payload
    let velocity ← floatsOf "velocity" payload
    let effort ← floatsOf "effort" payload
    return some (.jointState name position velocity effort)
  else if hasKeys ["ranges", "angle_min"] payload then do
    let ranges ← floatsOf "ranges" payload
    let angleMin ← floatOr "angle_min" payload
    let angleMax ← floatOr "angle_max" payload
    let rangeMin ← floatOr "range_min" payload
    let rangeMax ← floatOr "range_max" payload
    return some (.laserScan ranges angleMin angleMax rangeMin rangeMax)
  else if hasKeys ["joint_names", "points"] payload then do
    let jointNames ← listOf "joint_names" payload
    let points ← listOf "points" payload
    return some (.jointTrajectory jointNames (points.map .inr))
  else return none

/-- `message_from_payload`.  An integer that is too large for a float is not caught. -/
def messageFromPayload : PyVal φ → Except Exn (Item φ)
  | .dict d =>
      match recognise d with
      | .ok (some m) => .ok (.message m)
      | .ok none => .ok (.raw (.dict d))
      | .error .overflowError => .error .overflowError
      | .error _ => .ok (.raw (.dict d))
  | v => .ok (.raw v)

/-- What comes out of the codec for what is put in, unless the text cannot be read. -/
def transported (shown : Message φ → Str) (i : Item φ) : Option (Except Exn (Item φ)) :=
  (loads (dumpsPlain (.dict (toPayload shown i)))).map messageFromPayload

/-- The message comes back as it was. -/
def RoundTrips (shown : Message φ → Str) (m : Message φ) : Prop :=
  transported shown (.message m) = some (.ok (.message m))

/-! ## What is read back -/

theorem transported_eq (shown : Message φ → Str) (i : Item φ) :
    transported shown i = some (messageFromPayload (reread (.dict (toPayload shown i)))) := by
  rw [transported, loads_dumpsPlain]
  rfl

/-- A dictionary display keeps its items. -/
theorem reread_obj {items : List (String × PyVal φ)} (h : (items.map Prod.fst).Nodup) :
    reread (.dict (obj items)) = .dict (obj (items.map fun i => (i.1, reread i.2))) := by
  have hjoin : ∀ i ∈ items.map fun i => (lit i.1, i.2), join i.1 = i.1 := by
    intro i hi
    obtain ⟨item, -, rfl⟩ := List.mem_map.1 hi
    exact join_lit item.1
  have hnodup : ((items.map fun i => (lit i.1, i.2)).map Prod.fst).Nodup := by
    rw [List.map_map]
    have hlit := h.map (f := lit) fun _ _ hab => lit_inj.1 hab
    rwa [List.map_map] at hlit
  have hread := reread_dict hjoin hnodup
  simpa only [obj, List.map_map, Function.comp_def] using hread

theorem reread_toDict (v : Vector3 φ) : reread (.dict v.toDict) = .dict v.toDict := by
  rw [Vector3.toDict, reread_obj (by simp)]
  rfl

theorem vectorOf_toDict (v : Vector3 φ) : vectorOf (.dict v.toDict) = .ok v := by
  have hitems : (v.toDict.filter fun i =>
      i.1.asStr ∈ [some (lit "x"), some (lit "y"), some (lit "z")]) = v.toDict := by
    refine List.filter_eq_self.2 fun i hi => ?_
    obtain ⟨item, hitem, rfl⟩ := List.mem_map.1 hi
    simp only [List.mem_cons, List.not_mem_nil, or_false] at hitem
    rcases hitem with rfl | rfl | rfl <;> simp [Key.asStr]
  simp only [vectorOf, hitems]
  simp [Vector3.toDict, obj, toFloat, Key.asStr, Dict.get?, bind, Except.bind, Except.map, pure,
    Except.pure, lit_inj]

/-- A twist comes back. -/
theorem roundTrips_twist (shown : Message φ → Str) (linear angular : Vector3 φ) :
    RoundTrips shown (.twist linear angular) := by
  rw [RoundTrips, transported_eq, toPayload, reread_obj (by simp)]
  simp only [List.map_cons, List.map_nil, reread_toDict, messageFromPayload]
  have hrecognise : recognise (obj [("linear", .dict linear.toDict), ("angular", .dict angular.toDict)]) =
      .ok (some (.twist linear angular)) := by
    have hkeys : hasKeys ["linear", "angular"]
        (obj [("linear", .dict linear.toDict), ("angular", .dict angular.toDict)]) = true := by
      simp [hasKeys]
    rw [recognise, if_pos hkeys]
    simp [fetch, vectorOf_toDict, bind, Except.bind, pure, Except.pure]
  rw [hrecognise]

/-- What is written as a text comes back as a dictionary. -/
theorem messageFromPayload_data (s : Str) :
    messageFromPayload (reread (.dict (obj [("data", .str s)])) : PyVal φ) =
      .ok (.raw (.dict (obj [("data", .str (join s))]))) := by
  rw [reread_obj (by simp)]
  simp [messageFromPayload, recognise, hasKeys, pure, Except.pure]

/-- For every message of the five classes, with any numbers: it comes back through the codec if and
only if it is a twist. -/
theorem round_trips_iff (shown : Message φ → Str) (m : Message φ) :
    RoundTrips shown m ↔ ∃ linear angular, m = .twist linear angular := by
  constructor
  · intro h
    rw [RoundTrips, transported_eq] at h
    cases m with
    | twist linear angular => exact ⟨linear, angular, rfl⟩
    | jointTrajectory | jointState | laserScan | pose =>
        rw [toPayload, messageFromPayload_data] at h
        · cases h
        all_goals simp
  · rintro ⟨linear, angular, rfl⟩
    exact roundTrips_twist shown linear angular

instance : Floats WholeFloat where
  zero := ⟨0⟩
  ofInt i := .ok (.finite ⟨i⟩)
  ofText _ := .error .valueError

/-- A joint state with one joint. -/
def elbow : Message WholeFloat := .jointState [.str (lit "elbow")] [.finite ⟨1⟩] [] []

/-- What `str` shows for an object of a class without a text of its own. -/
def anObject : Str := lit "<ros2_interface.JointState object at 0x7f52c0>"

/-- A joint state comes back as a dictionary with such a text. -/
theorem elbow_lost :
    ¬ RoundTrips (fun _ => anObject) elbow ∧
      transported (fun _ => anObject) (.message elbow) =
        some (.ok (.raw (.dict (obj [("data", .str anObject)])))) := by
  have hback : transported (fun _ => anObject) (.message elbow) =
      some (.ok (.raw (.dict (obj [("data", .str anObject)])))) := by
    rw [transported_eq, elbow, toPayload, messageFromPayload_data]
    · rw [anObject, join_lit]
    · simp
  refine ⟨fun h => ?_, hback⟩
  rw [RoundTrips, hback] at h
  cases h

end Bridge

end ShugoCore
