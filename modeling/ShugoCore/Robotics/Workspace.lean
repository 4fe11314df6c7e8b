import ShugoCore.Robotics.Handler

/-!
# The workspace and the pose

`_check_workspace` looks at the axes that a target has, by two comparisons that a NaN passes, and
the pose that is planned has zero for the others.  So a pose inside the workspace is what the
planner is given exactly if zero is inside for each axis that is missing, and what is given for
the others is no NaN (`posed_inside_iff`).

An integer is compared as it is and then made a float.  Where a bound is no float itself, the
float can be on the other side of it.
-/

namespace ShugoCore

open Py

variable {φ : Type} [Builtins φ]

/-! ## The pose -/

section

variable [FloatReader]

/-- The first part of `_handle_manipulate`: an answer, or the pose for `plan_to_pose`. -/
def posed (c : RobotConfig) (connected : Bool) (params : PyVal φ) :
    Except RobotError (RobotReply ⊕ Vector3) := do
  let params ← robotParams params
  let target := getOr "target" (.dict []) params
  if !truthy target then return .inl (.error (lit "no target specified"))
  else if !connected then return .inl connectionLost
  else if !(← raised (checkWorkspace c target [lit "x", lit "y", lit "z"])) then
    return .inl (.refused (lit "target outside workspace bounds"))
  else
    let x ← raised (coordinate target "x")
    let y ← raised (coordinate target "y")
    let z ← raised (coordinate target "z")
    return .inr ⟨x, y, z⟩

/-- The second part of `_handle_manipulate`, from `plan_to_pose` on. -/
def planned (planner : MotionPlanner) (position : Vector3) : Prepared := do
  match ← planner.planToPose position with
  | none => return .inl (.error (lit "planning failed"))
  | some trajectory =>
      match planner.validateTrajectory trajectory with
      | .error reason => return .inl (.refused reason)
      | .ok () =>
          if ← planner.checkCollision trajectory then return .inl (.refused (lit "collision detected"))
          else return .inr (.manipulate trajectory)

/-- `_handle_manipulate` is its two parts. -/
theorem handleManipulate_eq (c : RobotConfig) (planner : MotionPlanner) (connected : Bool)
    (params : PyVal φ) :
    handleManipulate c planner connected params = (posed c connected params >>= fun
      | .inl reply => .ok (.inl reply)
      | .inr position => planned planner position) := by
  simp only [handleManipulate, posed]
  cases robotParams params with
  | error e => rfl
  | ok d =>
      simp only [bind, Except.bind]
      split
      · rfl
      split
      · rfl
      cases raised (checkWorkspace c (getOr "target" (.dict []) d) [lit "x", lit "y", lit "z"]) with
      | error e => rfl
      | ok inside =>
          dsimp only
          split
          · rfl
          cases raised (coordinate (getOr "target" (.dict []) d) "x") with
          | error e => rfl
          | ok x =>
              cases raised (coordinate (getOr "target" (.dict []) d) "y") with
              | error e => rfl
              | ok y =>
                  cases raised (coordinate (getOr "target" (.dict []) d) "z") with
                  | error e => rfl
                  | ok z => rfl

end

/-! ## Inside the bounds -/

/-- `self._workspace_bounds.get(axis, (-float("inf"), float("inf")))`. -/
def RobotConfig.boundsOf (c : RobotConfig) (axis : String) : PyFloat ℚ × PyFloat ℚ :=
  (Dict.get? c.workspaceBounds (lit axis)).getD (.negInf, .posInf)

/-- Each coordinate of a pose is inside the bounds of its axis. -/
def Vector3.Inside (c : RobotConfig) (p : Vector3) : Prop :=
  PyFloat.Within (c.boundsOf "x") p.x ∧ PyFloat.Within (c.boundsOf "y") p.y ∧ PyFloat.Within (c.boundsOf "z") p.z

/-- `float` takes an integer out of the bounds. -/
def RoundedOut (bounds : PyFloat ℚ × PyFloat ℚ) : PyVal φ → Prop
  | .int i => PyFloat.Within bounds (.finite i) ∧ ∀ x, PyFloat.ofInt i = .ok x → ¬ PyFloat.Within bounds x
  | _ => False

/-- The check of an axis says something about the coordinate of the pose: zero is inside for an
axis that is missing, and an axis that is given is compared, and is compared as it will be. -/
def Covered (bounds : PyFloat ℚ × PyFloat ℚ) : Option (PyVal φ) → Prop
  | none => PyFloat.Within bounds (.finite 0)
  | some v => numberOf v ≠ some .nan ∧ bounds.1 ≠ .nan ∧ bounds.2 ≠ .nan ∧ ¬ RoundedOut bounds v

/-- The check covers each axis of a target. -/
def TargetCovered (c : RobotConfig) (target : Obj φ) : Prop :=
  Covered (c.boundsOf "x") (getKey (lit "x") target) ∧
    Covered (c.boundsOf "y") (getKey (lit "y") target) ∧
    Covered (c.boundsOf "z") (getKey (lit "z") target)

/-- What is compared is what `float` makes of it, unless it is an integer. -/
theorem numberOf_of_toFloat [FloatReader] {v : PyVal φ} {x y : PyFloat ℚ} (hnumber : numberOf v = some y)
    (hfloat : toFloat v = .ok x) : x = y ∨ ∃ i, v = .int i ∧ y = .finite i := by
  cases v with
  | bool b =>
      cases hnumber
      cases hfloat
      exact .inl rfl
  | int i =>
      cases hnumber
      exact .inr ⟨i, rfl, rfl⟩
  | float f =>
      cases f <;> cases hnumber <;> cases hfloat <;> exact .inl rfl
  | none | str _ | list _ | dict _ => cases hnumber

/-- One axis of a pose. -/
theorem covered_iff [FloatReader] {bounds : PyFloat ℚ × PyFloat ℚ} {v : PyVal φ} {x y : PyFloat ℚ}
    (hnumber : numberOf v = some y) (hcheck : (y.lt bounds.1 || bounds.2.lt y) = false)
    (hfloat : toFloat v = .ok x) : PyFloat.Within bounds x ↔ Covered bounds (some v) := by
  simp only [Covered, hnumber, ne_eq, Option.some.injEq]
  rcases numberOf_of_toFloat hnumber hfloat with rfl | ⟨i, rfl, rfl⟩
  · rw [PyFloat.within_iff hcheck]
    refine ⟨fun h => ⟨h.1, h.2.1, h.2.2, ?_⟩, fun h => ⟨h.1, h.2.1, h.2.2.1⟩⟩
    cases v with
    | int i =>
        cases hnumber
        rintro ⟨hin, hout⟩
        exact hout _ hfloat hin
    | none | bool _ | float _ | str _ | list _ | dict _ => exact id
  · have hin := PyFloat.within_iff hcheck
    constructor
    · intro hx
      have hbounds : bounds.1 ≠ .nan ∧ bounds.2 ≠ .nan := by
        obtain ⟨lo, hi⟩ := bounds
        constructor
        · rintro rfl
          cases x <;> cases hx.1
        · rintro rfl
          cases x <;> cases hx.2
      refine ⟨(fun h => by cases h), hbounds.1, hbounds.2, ?_⟩
      rintro ⟨-, hout⟩
      exact hout _ hfloat hx
    · rintro ⟨-, hlo, hhi, hrounded⟩
      by_contra hx
      refine hrounded ⟨hin.2 ⟨(fun h => by cases h), hlo, hhi⟩, fun x' hx' => ?_⟩
      cases hfloat.symm.trans hx'
      exact hx

/-! ## The check and the coordinates -/

/-- The check of an axis that passes goes on with the other axes. -/
theorem checkWorkspace_cons {c : RobotConfig} {d : Obj φ} {axis : String} {axes : List Str}
    (h : checkWorkspace c (.dict d) (lit axis :: axes) = .ok true) :
    checkWorkspace c (.dict d) axes = .ok true ∧ ∀ v, getKey (lit axis) d = some v →
      ∃ y, numberOf v = some y ∧ (y.lt (c.boundsOf axis).1 || (c.boundsOf axis).2.lt y) = false := by
  simp only [checkWorkspace, axisOf, bind, Except.bind] at h
  cases hv : getKey (lit axis) d with
  | none =>
      rw [hv] at h
      exact ⟨h, fun v hv => by cases hv⟩
  | some v =>
      rw [hv] at h
      dsimp only at h
      cases hnumber : numberOf v with
      | none =>
          rw [hnumber] at h
          cases h
      | some y =>
          rw [hnumber] at h
          dsimp only at h
          split at h
          · cases h
          · rename_i hcheck
            refine ⟨h, fun w hw => ?_⟩
            cases hw
            exact ⟨y, hnumber, Bool.eq_false_iff.2 hcheck⟩

/-- One coordinate of the pose, for an axis that passed its check. -/
theorem within_coordinate_iff [FloatReader] {c : RobotConfig} {d : Obj φ} {axis : String} {x : PyFloat ℚ}
    (hcheck : ∀ v, getKey (lit axis) d = some v →
      ∃ y, numberOf v = some y ∧ (y.lt (c.boundsOf axis).1 || (c.boundsOf axis).2.lt y) = false)
    (hx : raised (coordinate (.dict d) axis) = .ok x) :
    PyFloat.Within (c.boundsOf axis) x ↔ Covered (c.boundsOf axis) (getKey (lit axis) d) := by
  simp only [coordinate] at hx
  cases hv : getKey (lit axis) d with
  | none =>
      rw [hv] at hx
      cases hx
      exact Iff.rfl
  | some v =>
      rw [hv] at hx
      obtain ⟨y, hnumber, hcheck⟩ := hcheck v hv
      refine covered_iff hnumber hcheck ?_
      dsimp only at hx
      cases hfloat : toFloat v with
      | error e =>
          rw [hfloat] at hx
          cases hx
      | ok x' =>
          rw [hfloat] at hx
          cases hx
          rfl

/-- The target of a request, if it is a dictionary. -/
def targetOf (params : PyVal φ) : Obj φ := dictOrEmpty (fetch (lit "target") (dictOrEmpty params))

theorem targetOf_eq {params : PyVal φ} {d target : Obj φ} (hparams : robotParams params = .ok d)
    (htarget : getOr "target" (.dict []) d = .dict target) : targetOf params = target := by
  have hd : dictOrEmpty params = d := by
    simp only [robotParams, orElse] at hparams
    cases htruth : truthy params with
    | true =>
        rw [htruth, if_pos rfl] at hparams
        cases params <;> cases hparams
        rfl
    | false =>
        rw [htruth, if_neg (by simp)] at hparams
        cases hparams
        cases params with
        | dict d =>
            cases d with
            | nil => rfl
            | cons _ _ => cases htruth
        | none | bool _ | int _ | float _ | str _ | list _ => rfl
  simp only [targetOf, hd, fetch]
  simp only [getOr] at htarget
  cases hget : getKey (lit "target") d with
  | none =>
      rw [hget] at htarget
      cases htarget
      rfl
  | some v =>
      rw [hget] at htarget
      cases htarget
      rfl

/-- For every workspace and every request: a pose that is handed to the planner is inside the
workspace if and only if the check covers its target. -/
theorem posed_inside_iff [FloatReader] {c : RobotConfig} {connected : Bool} {params : PyVal φ}
    {pose : Vector3} (h : posed c connected params = .ok (.inr pose)) :
    pose.Inside c ↔ TargetCovered c (targetOf params) := by
  simp only [posed] at h
  obtain ⟨d, hparams, h⟩ := ok_of_bind h
  split at h
  · cases h
  split at h
  · cases h
  obtain ⟨inside, hinside, h⟩ := ok_of_bind h
  split at h
  · cases h
  rename_i hpassed
  have hpassed : inside = true := by simpa using hpassed
  subst hpassed
  obtain ⟨x, hx, h⟩ := ok_of_bind h
  obtain ⟨y, hy, h⟩ := ok_of_bind h
  obtain ⟨z, hz, h⟩ := ok_of_bind h
  cases h
  cases htarget : getOr "target" (.dict []) d with
  | dict target =>
      rw [htarget] at hinside hx hy hz
      rw [targetOf_eq hparams htarget]
      have hcheck : checkWorkspace c (.dict target) [lit "x", lit "y", lit "z"] = .ok true := by
        cases hc : checkWorkspace c (.dict target) [lit "x", lit "y", lit "z"] with
        | error e =>
            rw [hc] at hinside
            cases hinside
        | ok b =>
            rw [hc] at hinside
            cases hinside
            rfl
      obtain ⟨hcheck, hxcheck⟩ := checkWorkspace_cons hcheck
      obtain ⟨hcheck, hycheck⟩ := checkWorkspace_cons hcheck
      obtain ⟨-, hzcheck⟩ := checkWorkspace_cons hcheck
      exact and_congr (within_coordinate_iff hxcheck hx)
        (and_congr (within_coordinate_iff hycheck hy) (within_coordinate_iff hzcheck hz))
  | none | bool _ | int _ | float _ | str _ | list _ =>
      rw [htarget] at hx
      cases hx

/-- A request to move the arm somewhere. -/
def reach (target : Obj WholeFloat) : PyVal WholeFloat := .dict (obj [("target", .dict target)])

/-- A workspace in front of the robot. -/
def frontRobot : RobotConfig :=
  .new (.finite 1) (.finite 1)
    [(lit "x", .finite 1, .finite 2), (lit "y", .finite (-1), .finite 1), (lit "z", .finite 0, .finite 2)]
    [] (.finite 5)

/-- The pose of a target that names all axes. -/
theorem named_target_inside :
    letI : FloatReader := ⟨fun _ => none⟩
    Vector3.Inside frontRobot ⟨.finite 1, .finite 0, .finite 1⟩ ↔
      TargetCovered frontRobot (targetOf (reach (obj [("x", .int 1), ("y", .int 0), ("z", .int 1)]))) := by
  let _ : FloatReader := ⟨fun _ => none⟩
  have hposed : posed frontRobot true (reach (obj [("x", .int 1), ("y", .int 0), ("z", .int 1)])) =
      .ok (.inr ⟨.finite 1, .finite 0, .finite 1⟩) := by decide +kernel
  exact posed_inside_iff hposed

/-- A target without an `x` is planned at zero, which is outside. -/
theorem missing_axis_outside :
    letI : FloatReader := ⟨fun _ => none⟩
    ¬ ∀ (params : PyVal WholeFloat) (pose : Vector3),
      posed frontRobot true params = .ok (.inr pose) → pose.Inside frontRobot := by
  let _ : FloatReader := ⟨fun _ => none⟩
  intro h
  have hposed : posed frontRobot true (reach (obj [("y", .int 0), ("z", .int 1)])) =
      .ok (.inr ⟨.finite 0, .finite 0, .finite 1⟩) := by decide +kernel
  exact absurd (h _ _ hposed).1 (by decide +kernel)

end ShugoCore
