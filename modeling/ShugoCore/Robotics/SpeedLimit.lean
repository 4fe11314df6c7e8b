import ShugoCore.Robotics.JointLimits
import ShugoCore.Robotics.Velocities

/-!
# The speed of a trajectory

`StubMoveItPlanner.validate_trajectory` looks at a joint between two points if time passes between
them, if both have a position for it, and then by a comparison that a NaN passes.  So a trajectory
that it accepts respects the speed limit exactly if nothing hides in what is skipped: times that
go back or are no numbers, positions that are missing or are no numbers, a jump in no time, and
a speed above the limit that is rounded down to it (`speed_respected_iff`).
-/

namespace ShugoCore

open Py

/-! ## Arithmetic that is not rounded -/

/-- `x - y`, not rounded. -/
def exactSub : PyFloat ℚ → PyFloat ℚ → PyFloat ℚ
  | .finite x, .finite y => .finite (x - y)
  | x, y => x.sub y

/-- `x * y`, not rounded. -/
def exactMul : PyFloat ℚ → PyFloat ℚ → PyFloat ℚ
  | .finite x, .finite y => .finite (x * y)
  | x, y => x.mul y

theorem exactSub_ne_nan {x y : PyFloat ℚ} (hx : x ≠ .nan) (hy : y ≠ .nan)
    (h : ¬ (x = y ∧ x.isFinite = false)) : (exactSub x y).abs ≠ .nan := by
  cases x <;> cases y <;>
    simp_all [exactSub, PyFloat.sub, PyFloat.neg, PyFloat.add, PyFloat.abs, PyFloat.isFinite]

/-- The time that passes is positive. -/
theorem limit_exactSub {x y : PyFloat ℚ} (h : y.lt x = true) : Limit (exactSub x y) := by
  cases x <;> cases y <;>
    simp_all [Limit, exactSub, PyFloat.sub, PyFloat.neg, PyFloat.add, PyFloat.lt]

/-- A product of positive numbers is one. -/
theorem exactMul_ne_nan {x y : PyFloat ℚ} (hx : Limit x) (hy : Limit y) : exactMul x y ≠ .nan := by
  rcases hx with rfl | ⟨p, hp, rfl⟩ <;> rcases hy with rfl | ⟨q, hq, rfl⟩
  · simp [exactMul, PyFloat.mul]
  · simp [exactMul, PyFloat.mul, PyFloat.signedInf, hq, hq.ne']
  · simp [exactMul, PyFloat.mul, PyFloat.signedInf, hp, hp.ne']
  · simp [exactMul]

/-- `|p_i - p_(i-1)| <= velocity_limit * (t_i - t_(i-1))`. -/
def SlowEnough (limit tNext tPrevious next previous : PyFloat ℚ) : Prop :=
  (exactSub next previous).abs.le (exactMul limit (exactSub tNext tPrevious)) = true

instance (limit tNext tPrevious next previous : PyFloat ℚ) :
    Decidable (SlowEnough limit tNext tPrevious next previous) := inferInstanceAs (Decidable (_ = true))

/-! ## One joint between two points -/

/-- No time passes, and the joint stays where it is. -/
def StandsStill (limit time next previous : PyFloat ℚ) : Prop :=
  limit.isFinite = true ∧ time.isFinite = true ∧ next.isFinite = true ∧ next = previous

/-- In no time there is no speed that is slow enough. -/
theorem slowEnough_self_iff {limit time next previous : PyFloat ℚ} (hlimit : Limit limit) :
    SlowEnough limit time time next previous ↔ StandsStill limit time next previous := by
  rcases hlimit with rfl | ⟨q, hq, rfl⟩ <;> cases time <;> cases next <;> cases previous <;>
    simp [SlowEnough, StandsStill, exactMul, exactSub, PyFloat.sub, PyFloat.neg, PyFloat.add,
      PyFloat.mul, PyFloat.signedInf, PyFloat.abs, PyFloat.le, PyFloat.isFinite, sub_eq_zero]

/-- The points of a trajectory, each with the one that follows it. -/
def JointTrajectory.steps (t : JointTrajectory) : List (JointTrajectoryPoint × JointTrajectoryPoint) :=
  t.points.zip t.points.tail

namespace StubMoveItPlanner

/-- The check of a joint between two points refuses the trajectory. -/
def stepRefused (s : StubMoveItPlanner) (tNext tPrevious next previous : PyFloat ℚ) : Bool :=
  !(tNext.sub tPrevious).le (.finite 0) && s.tooFast (tNext.sub tPrevious) next previous

/-- The speed of a joint, rounded at each operation. -/
def roundedSpeed (tNext tPrevious next previous : PyFloat ℚ) : PyFloat ℚ :=
  (next.sub previous).abs.div (tNext.sub tPrevious)

/-- The joint is faster than the limit, and its rounded speed is not, or no time passes between the
points once the time is rounded. -/
def HiddenByRounding (s : StubMoveItPlanner) (tNext tPrevious next previous : PyFloat ℚ) : Prop :=
  (exactMul s.velocityLimit (exactSub tNext tPrevious)).lt (exactSub next previous).abs = true ∧
    (s.velocityLimit.lt (roundedSpeed tNext tPrevious next previous) = false ∨
      (tNext.sub tPrevious).le (.finite 0) = true)

/-- Nothing hides between two points: the joint stands still if no time passes, and otherwise it
does not stay at an infinity, and its speed is not hidden by rounding. -/
def StepSeen (s : StubMoveItPlanner) (tNext tPrevious next previous : PyFloat ℚ) : Prop :=
  if tNext = tPrevious then StandsStill s.velocityLimit tNext next previous
  else ¬ (next = previous ∧ next.isFinite = false) ∧ ¬ s.HiddenByRounding tNext tPrevious next previous

theorem stepRefused_eq_false_iff {s : StubMoveItPlanner} {tNext tPrevious next previous : PyFloat ℚ} :
    s.stepRefused tNext tPrevious next previous = false ↔
      s.velocityLimit.lt (roundedSpeed tNext tPrevious next previous) = false ∨
        (tNext.sub tPrevious).le (.finite 0) = true := by
  rw [stepRefused, Bool.and_eq_false_iff, Bool.not_eq_false', or_comm]
  rfl

theorem slowEnough_iff {s : StubMoveItPlanner} (hlimit : Limit s.velocityLimit)
    {tNext tPrevious next previous : PyFloat ℚ} (htime : tPrevious.le tNext = true)
    (hnext : next ≠ .nan) (hprevious : previous ≠ .nan)
    (hpass : s.stepRefused tNext tPrevious next previous = false) :
    SlowEnough s.velocityLimit tNext tPrevious next previous ↔
      s.StepSeen tNext tPrevious next previous := by
  simp only [StepSeen]
  split
  · rename_i heq
    subst heq
    exact slowEnough_self_iff hlimit
  · rename_i hne
    have hlt : tPrevious.lt tNext = true := by
      cases tNext <;> cases tPrevious <;> simp_all [PyFloat.le, PyFloat.lt]
      exact lt_of_le_of_ne htime fun h => hne h.symm
    have hproduct := exactMul_ne_nan hlimit (limit_exactSub hlt)
    by_cases hinf : next = previous ∧ next.isFinite = false
    · refine iff_of_false (fun hslow => ?_) fun h => h.1 hinf
      obtain ⟨rfl, hinf⟩ := hinf
      cases next with
      | finite q => cases hinf
      | nan => exact hnext rfl
      | posInf | negInf => cases hslow
    · have hdistance := exactSub_ne_nan hnext hprevious hinf
      simp only [SlowEnough, PyFloat.le_iff_not_lt hdistance hproduct, HiddenByRounding,
        stepRefused_eq_false_iff.1 hpass, and_true, Bool.not_eq_true]
      exact ⟨fun h => ⟨hinf, h⟩, And.right⟩

/-! ## A trajectory -/

/-- The trajectory respects the limits: times do not go back, each point has a position for each
joint, which is inside the limits of the joint, and no joint is faster than the limit. -/
structure Respected (s : StubMoveItPlanner) (t : JointTrajectory) : Prop where
  ordered : ∀ step ∈ t.steps, step.1.timeFromStart.le step.2.timeFromStart = true
  inside : ∀ point ∈ t.points, ∀ (i : Nat) (name : Str), t.jointNames[i]? = some name →
    ∃ x, point.positions[i]? = some x ∧ PyFloat.Within (s.limitsOf name) x
  slow : ∀ step ∈ t.steps, ∀ (i : Nat) (name : Str) (next previous : PyFloat ℚ),
    t.jointNames[i]? = some name → step.2.positions[i]? = some next →
    step.1.positions[i]? = some previous →
    SlowEnough s.velocityLimit step.2.timeFromStart step.1.timeFromStart next previous

/-- Nothing hides in what the checks skip. -/
structure AllSeen (s : StubMoveItPlanner) (t : JointTrajectory) : Prop where
  ordered : ∀ step ∈ t.steps, step.1.timeFromStart.le step.2.timeFromStart = true
  complete : ∀ point ∈ t.points, t.jointNames.length ≤ point.positions.length
  numbers : ∀ point ∈ t.points, ∀ joint ∈ t.jointNames.zip point.positions,
    joint.2 ≠ .nan ∧ (s.limitsOf joint.1).1 ≠ .nan ∧ (s.limitsOf joint.1).2 ≠ .nan
  seen : ∀ step ∈ t.steps, ∀ (i : Nat) (name : Str) (next previous : PyFloat ℚ),
    t.jointNames[i]? = some name → step.2.positions[i]? = some next →
    step.1.positions[i]? = some previous →
    s.StepSeen step.2.timeFromStart step.1.timeFromStart next previous

theorem mem_zip_of_getElem? {α β : Type} {xs : List α} {ys : List β} {i : Nat} {x : α} {y : β}
    (hx : xs[i]? = some x) (hy : ys[i]? = some y) : (x, y) ∈ xs.zip ys :=
  List.mem_iff_getElem?.2 ⟨i, List.getElem?_zip_eq_some.2 ⟨hx, hy⟩⟩

/-- Without a violation no joint is refused between two points. -/
theorem velocityViolation_eq_none {s : StubMoveItPlanner} {names : List Str}
    {points : List JointTrajectoryPoint} (h : s.velocityViolation names points = none) :
    ∀ step ∈ points.zip points.tail, ∀ joint ∈ names.zip (step.2.positions.zip step.1.positions),
      s.stepRefused step.2.timeFromStart step.1.timeFromStart joint.2.1 joint.2.2 = false := by
  induction points with
  | nil => simp
  | cons p points ih =>
      cases points with
      | nil => simp
      | cons q points =>
          simp only [velocityViolation] at h
          split at h
          · cases h
          · rename_i hnone
            intro step hstep joint hjoint
            rcases List.mem_cons.1 hstep with rfl | hstep
            · simp only [stepRefused, Bool.and_eq_false_imp, Bool.not_eq_true']
              intro hpasses
              rw [hpasses, if_neg (by simp), List.find?_eq_none] at hnone
              simpa using hnone joint hjoint
            · exact ih h step hstep joint hjoint

/-- What a valid trajectory has passed. -/
theorem passed_of_valid {s : StubMoveItPlanner} {t : JointTrajectory}
    (h : s.validateTrajectory t = .ok ()) :
    (∀ point ∈ t.points, ∀ joint ∈ t.jointNames.zip point.positions, s.outside joint = false) ∧
      ∀ step ∈ t.steps, ∀ joint ∈ t.jointNames.zip (step.2.positions.zip step.1.positions),
        s.stepRefused step.2.timeFromStart step.1.timeFromStart joint.2.1 joint.2.2 = false := by
  refine ⟨not_outside_of_valid h, ?_⟩
  simp only [validateTrajectory] at h
  split at h
  · cases h
  split at h
  · cases h
  split at h
  · cases h
  rename_i hnone
  exact velocityViolation_eq_none hnone

/-- Each joint has a position inside its limits if and only if no position is missing or is no
number. -/
theorem inside_iff {s : StubMoveItPlanner} {names : List Str} {positions : List (PyFloat ℚ)}
    (h : ∀ joint ∈ names.zip positions, s.outside joint = false) :
    (∀ (i : Nat) (name : Str), names[i]? = some name →
        ∃ x, positions[i]? = some x ∧ PyFloat.Within (s.limitsOf name) x) ↔
      names.length ≤ positions.length ∧ ∀ joint ∈ names.zip positions,
        joint.2 ≠ .nan ∧ (s.limitsOf joint.1).1 ≠ .nan ∧ (s.limitsOf joint.1).2 ≠ .nan := by
  constructor
  · intro hinside
    constructor
    · by_contra hshort
      have hlt := not_le.1 hshort
      obtain ⟨x, hx, -⟩ := hinside positions.length _ (List.getElem?_eq_getElem hlt)
      rw [List.getElem?_eq_none le_rfl] at hx
      cases hx
    · intro joint hjoint
      obtain ⟨i, hi⟩ := List.mem_iff_getElem?.1 hjoint
      obtain ⟨hname, hposition⟩ := List.getElem?_zip_eq_some.1 hi
      obtain ⟨x, hx, hwithin⟩ := hinside i joint.1 hname
      cases hposition.symm.trans hx
      exact (PyFloat.within_iff (h joint hjoint)).1 hwithin
  · rintro ⟨hlength, hnumbers⟩ i name hname
    have hlt := lt_of_lt_of_le (List.getElem?_eq_some_iff.1 hname).1 hlength
    have hjoint := mem_zip_of_getElem? hname (List.getElem?_eq_getElem hlt)
    exact ⟨_, List.getElem?_eq_getElem hlt, (PyFloat.within_iff (h _ hjoint)).2 (hnumbers _ hjoint)⟩

/-- What is seen of a trajectory that passes is what is to be seen. -/
theorem respected_iff {s : StubMoveItPlanner} (hlimit : Limit s.velocityLimit) {t : JointTrajectory}
    (h : s.validateTrajectory t = .ok ()) : s.Respected t ↔ s.AllSeen t := by
  obtain ⟨hinside, hpass⟩ := passed_of_valid h
  have hpoint {point : JointTrajectoryPoint} (hpoint : point ∈ t.points) :=
    inside_iff (hinside point hpoint)
  have hmem {step : JointTrajectoryPoint × JointTrajectoryPoint} (hstep : step ∈ t.steps) :
      step.1 ∈ t.points ∧ step.2 ∈ t.points :=
    (List.of_mem_zip hstep).imp_right List.mem_of_mem_tail
  -- Both sides say the same of times and positions, and then of each step.
  have hstep (hordered : ∀ step ∈ t.steps, step.1.timeFromStart.le step.2.timeFromStart = true)
      (hnumbers : ∀ point ∈ t.points, ∀ joint ∈ t.jointNames.zip point.positions, joint.2 ≠ .nan)
      {step : JointTrajectoryPoint × JointTrajectoryPoint} (hs : step ∈ t.steps) {i : Nat} {name : Str}
      {next previous : PyFloat ℚ} (hname : t.jointNames[i]? = some name)
      (hnext : step.2.positions[i]? = some next) (hprevious : step.1.positions[i]? = some previous) :
      SlowEnough s.velocityLimit step.2.timeFromStart step.1.timeFromStart next previous ↔
        s.StepSeen step.2.timeFromStart step.1.timeFromStart next previous :=
    slowEnough_iff hlimit (hordered step hs)
      (hnumbers _ (hmem hs).2 _ (mem_zip_of_getElem? hname hnext))
      (hnumbers _ (hmem hs).1 _ (mem_zip_of_getElem? hname hprevious))
      (hpass step hs _ (mem_zip_of_getElem? hname
        (List.getElem?_zip_eq_some.2 ⟨hnext, hprevious⟩ : _ = some (next, previous))))
  constructor
  · intro hr
    have hnumbers (point : JointTrajectoryPoint) (hp : point ∈ t.points) := (hpoint hp).1 (hr.inside point hp)
    refine ⟨hr.ordered, fun point hp => (hnumbers point hp).1, fun point hp => (hnumbers point hp).2, ?_⟩
    intro step hs i name next previous hname hnext hprevious
    exact (hstep hr.ordered (fun point hp joint hj => ((hnumbers point hp).2 joint hj).1) hs hname hnext
      hprevious).1 (hr.slow step hs i name next previous hname hnext hprevious)
  · intro ha
    refine ⟨ha.ordered, fun point hp => (hpoint hp).2 ⟨ha.complete point hp, ha.numbers point hp⟩, ?_⟩
    intro step hs i name next previous hname hnext hprevious
    exact (hstep ha.ordered (fun point hp joint hj => (ha.numbers point hp joint hj).1) hs hname hnext
      hprevious).2 (ha.seen step hs i name next previous hname hnext hprevious)

end StubMoveItPlanner

open StubMoveItPlanner in
/-- A trajectory that a stub planner accepts respects the limits if and only if nothing hides in
what the checks skip. -/
theorem speed_respected_iff (jointNames : List Str) (jointLimits : JointLimits)
    (velocityLimit : PyFloat ℚ) (collisionObjects : List CollisionObject) {t : JointTrajectory}
    (h : (new jointNames jointLimits velocityLimit collisionObjects).validateTrajectory t = .ok ()) :
    (new jointNames jointLimits velocityLimit collisionObjects).Respected t ↔
      (new jointNames jointLimits velocityLimit collisionObjects).AllSeen t :=
  respected_iff (limit_max velocityLimit) h

/-- A planner with the default limits. -/
def deskPlanner : StubMoveItPlanner := .new [] [] (.finite 1) []

/-- One joint at two positions, after one second and after some time more. -/
def swing (time position : ℚ) : JointTrajectory :=
  ⟨[lit "joint_1"], [⟨[.finite 0], [], [], .finite 1⟩, ⟨[.finite position], [], [], .finite (1 + time)⟩]⟩

/-- A slow move is seen. -/
theorem slow_swing :
    deskPlanner.validateTrajectory (swing 2 1) = .ok () ∧
      (deskPlanner.Respected (swing 2 1) ↔ deskPlanner.AllSeen (swing 2 1)) := by
  have hvalid : deskPlanner.validateTrajectory (swing 2 1) = .ok () := by decide +kernel
  exact ⟨hvalid, speed_respected_iff [] [] (.finite 1) [] hvalid⟩

/-- A jump in no time is accepted. -/
theorem instant_swing :
    ¬ ∀ t, deskPlanner.validateTrajectory t = .ok () → deskPlanner.Respected t := by
  intro h
  have hvalid : deskPlanner.validateTrajectory (swing 0 1) = .ok () := by decide +kernel
  have hslow := (h _ hvalid).slow _ (List.mem_singleton_self _) 0 (lit "joint_1") (.finite 1) (.finite 0)
    rfl rfl rfl
  exact absurd hslow (by decide +kernel)

end ShugoCore
