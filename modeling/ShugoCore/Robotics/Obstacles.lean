import ShugoCore.Robotics.Threads

/-!
# Obstacles in a scan

An iteration of `_sensor_loop` takes the least reading of a scan and stops the robot if it is
below the distance.  `min` keeps a NaN that comes first, because nothing is less than it, and
passes over one that comes later.  So an obstacle stops the robot unless the first reading is a NaN
(`obstacle_stops_iff`).
-/

namespace ShugoCore

open Py Machine

/-- `self._obstacle_distance`. -/
def obstacleDistance (distance : PyFloat ℚ) : PyFloat ℚ :=
  PyFloat.max (PyFloat.nearest (1 / 10)) distance

/-- `min(scan.ranges) if scan.ranges else float("inf")`. -/
def minRange : List (PyFloat ℚ) → PyFloat ℚ
  | [] => .posInf
  | r :: ranges => ranges.foldl PyFloat.min r

/-- There is an obstacle, as `_sensor_loop` sees it. -/
def obstacleSeen (distance : PyFloat ℚ) (ranges : List (PyFloat ℚ)) : Bool :=
  (minRange ranges).lt (obstacleDistance distance)

/-- A reading is below the distance. -/
def ObstacleIn (distance : PyFloat ℚ) (ranges : List (PyFloat ℚ)) : Prop :=
  ∃ r ∈ ranges, r.lt (obstacleDistance distance) = true

instance (distance : PyFloat ℚ) (ranges : List (PyFloat ℚ)) : Decidable (ObstacleIn distance ranges) :=
  inferInstanceAs (Decidable (∃ r ∈ ranges, _))

/-! ## The least reading -/

/-- A NaN stays. -/
theorem foldl_min_nan (ranges : List (PyFloat ℚ)) : ranges.foldl PyFloat.min .nan = .nan := by
  induction ranges with
  | nil => rfl
  | cons r ranges ih =>
      have hmin : PyFloat.min .nan r = .nan := by cases r <;> rfl
      rw [List.foldl_cons, hmin, ih]

theorem min_lt {d x y : PyFloat ℚ} (hx : x ≠ .nan) (h : x.lt d = true ∨ y.lt d = true) :
    (PyFloat.min x y).lt d = true := by
  simp only [PyFloat.min]
  split <;> rename_i hyx <;> cases x <;> cases y <;> cases d <;> simp_all [PyFloat.lt]
  · rcases h with h | h <;> linarith
  · rcases h with h | h <;> linarith

theorem min_ne_nan {x : PyFloat ℚ} (hx : x ≠ .nan) (y : PyFloat ℚ) : PyFloat.min x y ≠ .nan := by
  simp only [PyFloat.min]
  split
  · rename_i h
    rintro rfl
    cases x <;> cases h
  · exact hx

/-- If the first reading is no NaN, the least one is below whatever any reading is below. -/
theorem foldl_min_lt {d : PyFloat ℚ} {ranges : List (PyFloat ℚ)} {x : PyFloat ℚ} (hx : x ≠ .nan)
    (h : x.lt d = true ∨ ∃ r ∈ ranges, r.lt d = true) :
    (ranges.foldl PyFloat.min x).lt d = true := by
  induction ranges generalizing x with
  | nil => exact h.resolve_right (by simp)
  | cons r ranges ih =>
      rw [List.foldl_cons]
      refine ih (min_ne_nan hx r) ?_
      rcases h with h | ⟨r', hr', h⟩
      · exact .inl (min_lt hx (.inl h))
      · rcases List.mem_cons.1 hr' with rfl | hr'
        · exact .inl (min_lt hx (.inr h))
        · exact .inr ⟨r', hr', h⟩

/-- An obstacle is seen if and only if the scan does not begin with a NaN. -/
theorem obstacleSeen_iff {distance : PyFloat ℚ} {ranges : List (PyFloat ℚ)}
    (h : ObstacleIn distance ranges) :
    obstacleSeen distance ranges = true ↔ ranges.head? ≠ some .nan := by
  obtain ⟨r, hr, hlt⟩ := h
  cases ranges with
  | nil => cases hr
  | cons first ranges =>
      simp only [obstacleSeen, minRange, List.head?_cons, ne_eq, Option.some.injEq]
      constructor
      · rintro hseen rfl
        rw [foldl_min_nan] at hseen
        cases hseen
      · intro hfirst
        refine foldl_min_lt hfirst ?_
        rcases List.mem_cons.1 hr with rfl | hr
        · exact .inl hlt
        · exact .inr ⟨r, hr, hlt⟩

/-! ## The loop -/

namespace RoboticsHandler

/-- One iteration of `_sensor_loop`, with the ranges of the scan that it gets.  What `_handle_stop`
raises is caught. -/
def sensorIteration (transport : Transport) (h : RoboticsHandler) (r : RobotReadings)
    (distance : PyFloat ℚ) : Option (List (PyFloat ℚ)) → RoboticsHandler
  | none => h
  | some ranges =>
      if obstacleSeen distance ranges && !h.emergencyStopActive then (h.handleStop transport r).2 else h

/-- The latch is set before anything can fail. -/
theorem emergencyStopActive_handleStop (transport : Transport) (h : RoboticsHandler)
    (r : RobotReadings) : (h.handleStop transport r).2.emergencyStopActive = true := by
  rw [snd_handleStop]
  rfl

theorem emergencyStopActive_sensorIteration (transport : Transport) (h : RoboticsHandler)
    (r : RobotReadings) (distance : PyFloat ℚ) (ranges : List (PyFloat ℚ)) :
    (h.sensorIteration transport r distance (some ranges)).emergencyStopActive =
      (h.emergencyStopActive || obstacleSeen distance ranges) := by
  simp only [sensorIteration]
  cases hactive : h.emergencyStopActive <;> cases obstacleSeen distance ranges <;>
    simp [hactive, emergencyStopActive_handleStop]

end RoboticsHandler

namespace RobotSystem

variable {φ : Type} [Builtins φ] [FloatReader]

/-- What the thread of an iteration reads. -/
def sensed (r : RobotReadings) (obstacle : Bool) : List StepReadings :=
  List.replicate 2 ⟨r.publishedAt, r.connected, r.planner, obstacle⟩ ++ alone r

/-- The thread of an iteration that nothing interferes with does what the iteration does. -/
theorem sensorIteration_alone (transport : Transport) (s : RobotSystem φ) (r : RobotReadings)
    (distance : PyFloat ℚ) (ranges : List (PyFloat ℚ)) :
    (run (threadStep transport) s (.call .sensorIteration ::
        (sensed r (obstacleSeen distance ranges)).map (.step s.threads.length))).handler =
      s.handler.sensorIteration transport r distance (some ranges) := by
  have hcall : (s.fork .sensing).threads[s.threads.length]? = some .sensing :=
    List.getElem?_concat_length
  rw [run_cons, threadStep, entry]
  generalize hk : s.threads.length = k at hcall ⊢
  generalize hfork : s.fork .sensing = s' at hcall ⊢
  have hhandler : s.handler = s'.handler := hfork ▸ rfl
  have hlt := (List.getElem?_eq_some_iff.1 hcall).1
  rw [sensed, List.replicate_succ, List.replicate_one, List.cons_append, List.cons_append,
    List.nil_append, run_step hcall, hhandler]
  simp only [RoboticsHandler.sensorIteration, advance]
  cases obstacleSeen distance ranges with
  | false =>
      have hdone : (s'.goto k (.done false)).threads[k]? = some (.done false) := getElem?_goto hlt _
      simp only [Bool.false_eq_true, if_false, Bool.false_and]
      rw [run_done hdone]
      rfl
  | true =>
      have halarmed : (s'.goto k (.alarmed false)).threads[k]? = some (.alarmed false) :=
        getElem?_goto hlt _
      simp only [if_true, Bool.true_and]
      rw [run_step halarmed, advance]
      have hlt := (List.getElem?_eq_some_iff.1 halarmed).1
      cases hactive : s'.handler.emergencyStopActive with
      | true =>
          have hgoto : (s'.goto k (.alarmed false)).handler.emergencyStopActive = true := hactive
          rw [if_pos hgoto, run_done (getElem?_goto hlt _)]
          rfl
      | false =>
          have hgoto : ¬ (s'.goto k (.alarmed false)).handler.emergencyStopActive = true :=
            Bool.eq_false_iff.1 hactive
          rw [if_neg hgoto, handleStop_alone (getElem?_goto hlt _)]
          rfl

end RobotSystem

open RoboticsHandler in
/-- For every scan with a reading below the distance, an iteration of the sensor loop leaves the
emergency stop on if and only if it was on, or the scan does not begin with a NaN. -/
theorem obstacle_stops_iff (transport : Transport) (h : RoboticsHandler) (r : RobotReadings)
    {distance : PyFloat ℚ} {ranges : List (PyFloat ℚ)} (hobstacle : ObstacleIn distance ranges) :
    (h.sensorIteration transport r distance (some ranges)).emergencyStopActive = true ↔
      h.emergencyStopActive = true ∨ ranges.head? ≠ some .nan := by
  rw [emergencyStopActive_sensorIteration, Bool.or_eq_true, obstacleSeen_iff hobstacle]

/-- A robot after one look at a scan, told to stop for obstacles within half a metre. -/
def sensingRobot (ranges : List (PyFloat ℚ)) : RoboticsHandler :=
  (RoboticsHandler.new (.new (.finite 1) (.finite 1) [] [] (.finite 5)) (.new (.finite 10)) 0).sensorIteration
    .stub ⟨true, .stub (.new [] [] (.finite 1) []), 1, 1⟩ (.finite (1 / 2)) (some ranges)

/-- A NaN after the first reading does no harm. -/
theorem obstacle_after_number :
    (sensingRobot [.finite 5, .nan, .finite (1 / 5)]).emergencyStopActive = true :=
  (obstacle_stops_iff .stub _ _ (by decide +kernel)).2 (.inr (by decide))

/-- An obstacle at 0.2 m goes unseen behind a NaN. -/
theorem obstacle_after_nan :
    ObstacleIn (.finite (1 / 2)) [.nan, .finite (1 / 5)] ∧
      (sensingRobot [.nan, .finite (1 / 5)]).emergencyStopActive = false := by
  decide +kernel

end ShugoCore
