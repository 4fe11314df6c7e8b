import Mathlib.Algebra.Ring.Nat
import ShugoCore.Lib.Run

/-!
# Detectors

A machine that looks at a condition now and then, and raises alarms.  What it sees of the
condition along a run is a list of truth values, and what it does between two looks does not
matter.

An edge detector raises an alarm when the condition holds and it did not hold before.  A streak
detector raises one when the condition has held a number of times in a row, and begins again.  In
terms of the blocks in which the condition holds, the first gives one alarm for each block
(`EdgeDetector.alarms_eq`) and the second as many as the block has whole streaks
(`StreakDetector.alarms_eq`).
-/

namespace Machine

universe u v

/-- The lengths of the blocks of `true`, one before each `false` and one at the end. -/
def blocks : List Bool → List Nat
  | [] => [0]
  | false :: xs => 0 :: blocks xs
  | true :: xs => ((blocks xs).headD 0 + 1) :: (blocks xs).tail

theorem blocks_eq (xs : List Bool) : blocks xs = (blocks xs).headD 0 :: (blocks xs).tail := by
  cases xs with
  | nil => rfl
  | cons x xs => cases x <;> rfl

theorem countP_blocks (p : Nat → Bool) (xs : List Bool) :
    (blocks xs).countP p = (blocks xs).tail.countP p + if p ((blocks xs).headD 0) then 1 else 0 :=
  (congrArg (List.countP p) (blocks_eq xs)).trans List.countP_cons

theorem sum_blocks (f : Nat → Nat) (xs : List Bool) :
    ((blocks xs).map f).sum = f ((blocks xs).headD 0) + ((blocks xs).tail.map f).sum :=
  (congrArg (fun ns => (ns.map f).sum) (blocks_eq xs)).trans (by rw [List.map_cons, List.sum_cons])

/-- The blocks in which the condition holds at least once. -/
def episodes (xs : List Bool) : Nat := (blocks xs).countP (0 < ·)

/-- The whole streaks of a length in the blocks. -/
def streaks (k : Nat) (xs : List Bool) : Nat := ((blocks xs).map (· / k)).sum

variable {σ : Type u} {α : Type v} {step : σ → α → σ}

/-- What is seen of a condition along a run. -/
def seen (step : σ → α → σ) (look : σ → α → Option Bool) : σ → List α → List Bool
  | _, [] => []
  | s, a :: as => (look s a).toList ++ seen step look (step s a) as

/-- The alarms of an edge detector that has seen the condition hold, or has not. -/
def rises : Bool → List Bool → Nat
  | _, [] => 0
  | held, x :: xs => (if x && !held then 1 else 0) + rises x xs

theorem rises_eq (held : Bool) (xs : List Bool) :
    rises held xs = (blocks xs).tail.countP (0 < ·) +
      if 0 < (blocks xs).headD 0 && !held then 1 else 0 := by
  induction xs generalizing held with
  | nil => simp [rises, blocks]
  | cons x xs ih =>
      rw [rises, ih x]
      cases x with
      | false =>
          rw [blocks, List.headD_cons, List.tail_cons, countP_blocks _ xs]
          simp
      | true =>
          rw [blocks, List.headD_cons, List.tail_cons]
          cases held with
          | false =>
              simp
              omega
          | true => simp

theorem rises_false (xs : List Bool) : rises false xs = episodes xs := by
  rw [rises_eq, episodes, countP_blocks]
  simp

/-- The alarms of a streak detector that has seen the condition hold `n` times in a row. -/
def wholeStreaks (k : Nat) : Nat → List Bool → Nat
  | _, [] => 0
  | _, false :: xs => wholeStreaks k 0 xs
  | n, true :: xs => if k ≤ n + 1 then 1 + wholeStreaks k 0 xs else wholeStreaks k (n + 1) xs

theorem wholeStreaks_eq {k : Nat} {n : Nat} (h : n < k) (xs : List Bool) :
    wholeStreaks k n xs = ((blocks xs).headD 0 + n) / k + ((blocks xs).tail.map (· / k)).sum := by
  have hk : 0 < k := Nat.zero_lt_of_lt h
  induction xs generalizing n with
  | nil => simp [wholeStreaks, blocks, Nat.div_eq_of_lt h]
  | cons x xs ih =>
      cases x with
      | false =>
          rw [wholeStreaks, ih hk, blocks, List.headD_cons, List.tail_cons, Nat.zero_add,
            Nat.div_eq_of_lt h, sum_blocks, Nat.add_zero, Nat.zero_add]
      | true =>
          rw [wholeStreaks, blocks, List.headD_cons, List.tail_cons]
          split
          · rename_i hle
            obtain rfl : k = n + 1 := by omega
            have hdiv : ((blocks xs).headD 0 + 1 + n) / (n + 1) = (blocks xs).headD 0 / (n + 1) + 1 := by
              rw [Nat.add_assoc, Nat.add_comm 1 n, Nat.add_div_right _ hk]
            rw [ih hk, hdiv, Nat.add_zero]
            omega
          · rename_i hlt
            rw [ih (by omega), Nat.add_assoc, Nat.add_comm 1 n]

theorem wholeStreaks_zero {k : Nat} (hk : 0 < k) (xs : List Bool) :
    wholeStreaks k 0 xs = streaks k xs := by
  rw [wholeStreaks_eq hk, streaks, sum_blocks, Nat.add_zero]

/-- A machine that holds what it last saw of a condition, and counts an alarm whenever it sees it
hold and had not. -/
structure EdgeDetector (step : σ → α → σ) (look : σ → α → Option Bool) (held : σ → Bool)
    (alarms : σ → Nat) : Prop where
  blind : ∀ s a, look s a = none → held (step s a) = held s ∧ alarms (step s a) = alarms s
  sees : ∀ s a x, look s a = some x →
    held (step s a) = x ∧ alarms (step s a) = alarms s + if x && !held s then 1 else 0

variable {look : σ → α → Option Bool} {held : σ → Bool} {alarms : σ → Nat}

theorem EdgeDetector.alarms_rises (h : EdgeDetector step look held alarms) (s : σ) (as : List α) :
    alarms (run step s as) = alarms s + rises (held s) (seen step look s as) := by
  induction as generalizing s with
  | nil => rfl
  | cons a as ih =>
      rw [run_cons, ih]
      cases hl : look s a with
      | none =>
          have hs := h.blind s a hl
          rw [seen, hl, hs.1, hs.2]
          rfl
      | some x =>
          have hs := h.sees s a x hl
          rw [seen, hl, hs.1, hs.2, Nat.add_assoc]
          rfl

/-- One alarm for each block in which the condition holds. -/
theorem EdgeDetector.alarms_eq (h : EdgeDetector step look held alarms) {s : σ}
    (hs : held s = false) (as : List α) :
    alarms (run step s as) = alarms s + episodes (seen step look s as) := by
  rw [h.alarms_rises, hs, rises_false]

/-- A machine that counts how often in a row it has seen a condition hold, and counts an alarm and
begins again at `k`. -/
structure StreakDetector (step : σ → α → σ) (look : σ → α → Option Bool) (k : Nat) (streak : σ → Nat)
    (alarms : σ → Nat) : Prop where
  blind : ∀ s a, look s a = none → streak (step s a) = streak s ∧ alarms (step s a) = alarms s
  sees : ∀ s a x, look s a = some x →
    if x then
      if k ≤ streak s + 1 then streak (step s a) = 0 ∧ alarms (step s a) = alarms s + 1
      else streak (step s a) = streak s + 1 ∧ alarms (step s a) = alarms s
    else streak (step s a) = 0 ∧ alarms (step s a) = alarms s

variable {k : Nat} {streak : σ → Nat}

theorem StreakDetector.alarms_wholeStreaks (h : StreakDetector step look k streak alarms) (s : σ)
    (as : List α) :
    alarms (run step s as) = alarms s + wholeStreaks k (streak s) (seen step look s as) := by
  induction as generalizing s with
  | nil => rfl
  | cons a as ih =>
      rw [run_cons, ih, seen]
      cases hl : look s a with
      | none =>
          obtain ⟨hstreak, halarms⟩ := h.blind s a hl
          rw [hstreak, halarms]
          rfl
      | some x =>
          have hs := h.sees s a x hl
          rw [Option.toList_some, List.singleton_append]
          cases x with
          | false =>
              rw [if_neg Bool.false_ne_true] at hs
              rw [wholeStreaks, hs.1, hs.2]
          | true =>
              rw [if_pos rfl] at hs
              rw [wholeStreaks]
              split at hs <;> rename_i hk
              · rw [if_pos hk, hs.1, hs.2, Nat.add_assoc]
              · rw [if_neg hk, hs.1, hs.2]

/-- As many alarms for each block as it has whole streaks. -/
theorem StreakDetector.alarms_eq (h : StreakDetector step look k streak alarms) (hk : 0 < k) {s : σ}
    (hs : streak s = 0) (as : List α) :
    alarms (run step s as) = alarms s + streaks k (seen step look s as) := by
  rw [h.alarms_wholeStreaks, hs, wholeStreaks_zero hk]

end Machine
