import Mathlib.Data.Option.Basic

/-!
# Faults of computations

A computation that may fail succeeds, or has a fault.  Of computations that are made one after the
other, where no fault of a later one depends on what an earlier one returned, the first fault is the
fault of all (`faultOf_bind`).
-/

namespace Faults

/-- A computation returns. -/
def Succeeds {ε α : Type} (x : Except ε α) : Prop := ∃ a, x = .ok a

/-- The fault of a computation that does not. -/
def faultOf {ε α : Type} : Except ε α → Option ε
  | .ok _ => none
  | .error fault => some fault

theorem succeeds_bind {ε α β : Type} {x : Except ε α} {f : α → Except ε β} :
    Succeeds (x >>= f) ↔ ∃ a, x = .ok a ∧ Succeeds (f a) := by
  cases x with
  | ok a => simp [Succeeds, bind, Except.bind]
  | error fault => simp [Succeeds, bind, Except.bind]

@[simp] theorem not_succeeds_error {ε α : Type} (fault : ε) :
    ¬ Succeeds (.error fault : Except ε α) := by
  rintro ⟨a, h⟩
  cases h

@[simp] theorem succeeds_pure {ε α : Type} (a : α) : Succeeds (pure a : Except ε α) := ⟨a, rfl⟩

theorem exists_ok {ε α : Type} {x : Except ε α} : (∃ a, x = .ok a) ↔ Succeeds x := Iff.rfl

theorem exists_ok_and {ε α : Type} {x : Except ε α} {P : Prop} :
    (∃ a, x = .ok a ∧ P) ↔ Succeeds x ∧ P := exists_and_right

/-- A loop returns if each of its rounds does. -/
theorem succeeds_mapM {ε α β : Type} {f : α → Except ε β} {xs : List α} :
    Succeeds (xs.mapM f) ↔ ∀ x ∈ xs, Succeeds (f x) := by
  induction xs with
  | nil => exact iff_of_true ⟨[], rfl⟩ (List.forall_mem_nil _)
  | cons x xs ih =>
      rw [List.mapM_cons, succeeds_bind, List.forall_mem_cons, ← ih]
      constructor
      · rintro ⟨y, hy, hrest⟩
        obtain ⟨ys, hys, -⟩ := succeeds_bind.1 hrest
        exact ⟨⟨y, hy⟩, ys, hys⟩
      · rintro ⟨⟨y, hy⟩, ys, hys⟩
        exact ⟨y, hy, succeeds_bind.2 ⟨ys, hys, succeeds_pure _⟩⟩

/-- The first fault of a list. -/
def firstFault {ε : Type} (faults : List (Option ε)) : Option ε := faults.findSome? id

@[simp] theorem firstFault_nil {ε : Type} : firstFault ([] : List (Option ε)) = none := rfl

@[simp] theorem firstFault_cons {ε : Type} (fault : Option ε) (faults : List (Option ε)) :
    firstFault (fault :: faults) = fault.or (firstFault faults) := by
  cases fault <;> rfl

@[simp] theorem firstFault_append {ε : Type} (faults faults' : List (Option ε)) :
    firstFault (faults ++ faults') = (firstFault faults).or (firstFault faults') := by
  induction faults with
  | nil => rfl
  | cons fault faults ih => rw [List.cons_append, firstFault_cons, firstFault_cons, ih, Option.or_assoc]

theorem firstFault_map {ε ε' : Type} (f : ε → ε') (faults : List (Option ε)) :
    firstFault (faults.map (Option.map f)) = (firstFault faults).map f := by
  induction faults with
  | nil => rfl
  | cons fault faults ih =>
      rw [List.map_cons, firstFault_cons, firstFault_cons, ih]
      cases fault <;> rfl

/-- The fault of two computations is that of the first one, or else of the second one. -/
theorem faultOf_bind {ε α β : Type} {x : Except ε α} {f : α → Except ε β} {fault : Option ε}
    (h : ∀ a, x = .ok a → faultOf (f a) = fault) : faultOf (x >>= f) = (faultOf x).or fault := by
  cases x with
  | ok a => exact h a rfl
  | error e => rfl

theorem faultOf_eq_none_iff {ε α : Type} {x : Except ε α} : faultOf x = none ↔ Succeeds x := by
  cases x with
  | ok a => exact iff_of_true rfl ⟨a, rfl⟩
  | error e => exact iff_of_false (fun h => nomatch h) (fun ⟨_, h⟩ => nomatch h)

end Faults
