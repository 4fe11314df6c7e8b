import Mathlib.Data.List.Basic

/-!
# Calls in progress

Calls that run side by side are a list of phases, and a call moves on by setting its
place in the list.  These are the facts about finding and counting phases that runs of
such systems need.
-/

namespace Calls

variable {α : Type} {p : α → Bool}

/-- One call moves from a phase to another. -/
theorem countP_set_add {l : List α} {i : Nat} {a b : α} (h : l[i]? = some a) :
    (l.set i b).countP p + (if p a then 1 else 0) = l.countP p + (if p b then 1 else 0) := by
  obtain ⟨hi, rfl⟩ := List.getElem?_eq_some_iff.1 h
  have hle : (if p l[i] then 1 else 0) ≤ l.countP p := by
    split
    · rename_i hp
      exact List.countP_pos_iff.2 ⟨_, List.getElem_mem hi, hp⟩
    · exact Nat.zero_le _
  rw [List.countP_set hi]
  omega

/-- A call begins. -/
theorem countP_concat (l : List α) (a : α) :
    (l ++ [a]).countP p = l.countP p + (if p a then 1 else 0) := by
  rw [List.countP_append, List.countP_singleton]

/-- Something is taken out. -/
theorem countP_eraseIdx_add {l : List α} {i : Nat} {a : α} (h : l[i]? = some a) :
    (l.eraseIdx i).countP p + (if p a then 1 else 0) = l.countP p := by
  induction l generalizing i with
  | nil => cases h
  | cons b l ih =>
      cases i with
      | zero =>
          cases h
          rw [List.eraseIdx_zero, List.tail_cons, List.countP_cons]
      | succ i =>
          have hi := ih h
          rw [List.eraseIdx_cons_succ, List.countP_cons, List.countP_cons]
          omega

/-- The other calls stay where they are. -/
theorem mem_set_or_eq {l : List α} {i : Nat} {a b c : α} (h : l[i]? = some a) (hc : c ∈ l) :
    c ∈ l.set i b ∨ c = a := by
  obtain ⟨j, hj⟩ := List.mem_iff_getElem?.1 hc
  by_cases hij : i = j
  · subst hij
    rw [h] at hj
    exact .inr (Option.some.inj hj).symm
  · exact .inl (List.mem_iff_getElem?.2 ⟨j, by rw [List.getElem?_set_ne hij, hj]⟩)

/-- The call is where it moved to. -/
theorem mem_set_self {l : List α} {i : Nat} {a : α} (b : α) (h : l[i]? = some a) : b ∈ l.set i b :=
  List.mem_iff_getElem?.2 ⟨i, List.getElem?_set_self (List.getElem?_eq_some_iff.1 h).1⟩

end Calls
