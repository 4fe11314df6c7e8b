import Mathlib.Algebra.Order.BigOperators.Group.List
import Mathlib.Algebra.Order.Group.Int
import Mathlib.Data.List.Perm.Subperm
import Mathlib.Tactic.Linarith

/-!
# Handing out a budget in order

`give cap budget xs` goes through the takers in order and gives each what it has room for,
or what is left.  It gives out as much as the takers can hold, and if the takers come largest
first, no other choice of takers holds as much with fewer of them.

Dropping takers beforehand is not the same as dropping their shares afterwards: what they
would have had goes to those behind them.  `map_filter_give_iff` says when it makes no
difference.
-/

namespace Greedy

variable {α β : Type} {cap : α → Int}

/-- Each taker is given what it has room for, or what is left of the budget. -/
def give (cap : α → Int) : Int → List α → List (α × Int)
  | _, [] => []
  | budget, x :: xs =>
      if budget ≤ 0 then [] else (x, min (cap x) budget) :: give cap (budget - cap x) xs

@[simp] theorem give_nil (budget : Int) : give cap budget [] = [] := rfl

@[simp] theorem give_of_nonpos {budget : Int} (h : budget ≤ 0) (xs : List α) :
    give cap budget xs = [] := by
  cases xs with
  | nil => rfl
  | cons x xs => exact if_pos h

theorem give_cons {budget : Int} (h : 0 < budget) (x : α) (xs : List α) :
    give cap budget (x :: xs) = (x, min (cap x) budget) :: give cap (budget - cap x) xs :=
  if_neg (Int.not_le.2 h)

theorem sum_nonneg {xs : List α} (h : ∀ x ∈ xs, 0 < cap x) : 0 ≤ (xs.map cap).sum := by
  apply List.sum_nonneg
  intro c hc
  obtain ⟨x, hx, rfl⟩ := List.mem_map.1 hc
  exact (h x hx).le

/-! ## How much is given -/

/-- The takers come in order, and are given no more than they have room for. -/
theorem mem_give {xs : List α} (h : ∀ x ∈ xs, 0 < cap x) {budget : Int} {t : α × Int}
    (ht : t ∈ give cap budget xs) : t.1 ∈ xs ∧ 0 < t.2 ∧ t.2 ≤ cap t.1 := by
  induction xs generalizing budget with
  | nil => cases ht
  | cons x xs ih =>
      by_cases hb : budget ≤ 0
      · rw [give_of_nonpos hb] at ht
        cases ht
      · have hx := h x List.mem_cons_self
        rw [give_cons (by omega)] at ht
        rcases List.mem_cons.1 ht with rfl | ht
        · exact ⟨List.mem_cons_self, lt_min hx (by omega), min_le_left _ _⟩
        · obtain ⟨hmem, hbounds⟩ := ih (fun y hy => h y (List.mem_cons_of_mem x hy)) ht
          exact ⟨List.mem_cons_of_mem x hmem, hbounds⟩

theorem map_fst_give_prefix (budget : Int) (xs : List α) :
    (give cap budget xs).map Prod.fst <+: xs := by
  induction xs generalizing budget with
  | nil => exact List.prefix_rfl
  | cons x xs ih =>
      by_cases hb : budget ≤ 0
      · simp [give_of_nonpos hb]
      · rw [give_cons (by omega), List.map_cons]
        exact (List.prefix_cons_inj x).2 (ih _)

/-- All of the budget is given, or all that the takers have room for. -/
theorem sum_give {xs : List α} (h : ∀ x ∈ xs, 0 < cap x) (budget : Int) :
    ((give cap budget xs).map Prod.snd).sum = max 0 (min budget (xs.map cap).sum) := by
  induction xs generalizing budget with
  | nil => simp
  | cons x xs ih =>
      have hx := h x List.mem_cons_self
      have hxs : ∀ y ∈ xs, 0 < cap y := fun y hy => h y (List.mem_cons_of_mem x hy)
      have hnonneg := sum_nonneg hxs
      rw [List.map_cons, List.sum_cons]
      by_cases hb : budget ≤ 0
      · rw [give_of_nonpos hb]
        simp only [List.map_nil, List.sum_nil]
        omega
      · rw [give_cons (by omega), List.map_cons, List.sum_cons, ih hxs]
        omega

/-! ## How many are given something -/

/-- Takers that come largest first hold no less if an earlier one takes the place of the last. -/
theorem sum_take_le_cons {x : α} {xs : List α} (h : (x :: xs).Pairwise fun a b => cap b ≤ cap a)
    (hpos : ∀ y ∈ x :: xs, 0 < cap y) (m : Nat) :
    ((xs.take m).map cap).sum ≤ (((x :: xs).take m).map cap).sum := by
  induction m generalizing x xs with
  | zero => simp
  | succ m ih =>
      cases xs with
      | nil =>
          have hx := hpos x List.mem_cons_self
          simpa using hx.le
      | cons y xs =>
          have hyx : cap y ≤ cap x := List.rel_of_pairwise_cons h List.mem_cons_self
          have htail := ih h.of_cons fun z hz => hpos z (List.mem_cons_of_mem x hz)
          simp only [List.take_succ_cons, List.map_cons, List.sum_cons] at htail ⊢
          linarith

/-- Chosen takers hold no more than all of them. -/
theorem sum_le_of_subperm {chosen xs : List α} (hchosen : chosen.Subperm xs)
    (hpos : ∀ x ∈ xs, 0 < cap x) : (chosen.map cap).sum ≤ (xs.map cap).sum := by
  obtain ⟨ys, hperm, hsub⟩ := hchosen
  rw [← (hperm.map cap).sum_eq]
  apply (hsub.map cap).sum_le_sum
  intro c hc
  obtain ⟨x, hx, rfl⟩ := List.mem_map.1 hc
  exact (hpos x hx).le

/-- Of takers that come largest first, no others hold more than as many of the first. -/
theorem sum_le_sum_take {chosen xs : List α} (hchosen : chosen.Subperm xs)
    (h : xs.Pairwise fun a b => cap b ≤ cap a) (hpos : ∀ x ∈ xs, 0 < cap x) :
    (chosen.map cap).sum ≤ ((xs.take chosen.length).map cap).sum := by
  obtain ⟨ys, hperm, hsub⟩ := hchosen
  rw [← (hperm.map cap).sum_eq, ← hperm.length_eq]
  clear hperm
  induction hsub with
  | slnil => simp
  | cons x _ ih =>
      refine (ih h.of_cons fun y hy => hpos y (List.mem_cons_of_mem x hy)).trans ?_
      exact sum_take_le_cons h hpos _
  | cons_cons x _ ih =>
      have htail := ih h.of_cons fun y hy => hpos y (List.mem_cons_of_mem x hy)
      simp only [List.length_cons, List.take_succ_cons, List.map_cons, List.sum_cons]
      linarith

/-- If the first `m` takers have room for all that is given out, no more than these are given
something. -/
theorem length_give_le {xs : List α} (hpos : ∀ x ∈ xs, 0 < cap x) {budget : Int} {m : Nat}
    (h : min budget (xs.map cap).sum ≤ ((xs.take m).map cap).sum) :
    (give cap budget xs).length ≤ m := by
  induction xs generalizing budget m with
  | nil => simp
  | cons x xs ih =>
      by_cases hb : budget ≤ 0
      · simp [give_of_nonpos hb]
      have hx := hpos x List.mem_cons_self
      have hxs : ∀ y ∈ xs, 0 < cap y := fun y hy => hpos y (List.mem_cons_of_mem x hy)
      have hnonneg := sum_nonneg hxs
      cases m with
      | zero =>
          simp only [List.map_cons, List.sum_cons, List.take_zero, List.map_nil, List.sum_nil] at h
          omega
      | succ m =>
          simp only [List.map_cons, List.sum_cons, List.take_succ_cons] at h
          rw [give_cons (by omega), List.length_cons]
          exact Nat.succ_le_succ (ih hxs (by omega))

/-- Takers that come largest first are the fewest that hold what is given out. -/
theorem length_give_le_of_chosen {chosen xs : List α} (hchosen : chosen.Subperm xs)
    (h : xs.Pairwise fun a b => cap b ≤ cap a) (hpos : ∀ x ∈ xs, 0 < cap x) {budget : Int}
    (henough : ((give cap budget xs).map Prod.snd).sum ≤ (chosen.map cap).sum) :
    (give cap budget xs).length ≤ chosen.length := by
  apply length_give_le hpos
  have hsum := sum_give hpos budget
  have htake := sum_le_sum_take hchosen h hpos
  omega

/-! ## Takers that are dropped -/

section Drop

variable {keep : α → Bool}

/-- Every taker that is dropped comes when the budget is used up. -/
def Unneeded (cap : α → Int) (keep : α → Bool) (budget : Int) (xs : List α) : Prop :=
  ∀ before x after, xs = before ++ x :: after → keep x = false → budget ≤ (before.map cap).sum

/-- Every taker that is kept is reached with enough of the budget left. -/
def Ample (cap : α → Int) (keep : α → Bool) (budget : Int) (xs : List α) : Prop :=
  ∀ before x after, xs = before ++ x :: after → keep x = true →
    (before.map cap).sum + cap x ≤ budget

theorem forall_split_cons {x : α} {xs : List α} {P : List α → α → Prop} :
    (∀ before y after, x :: xs = before ++ y :: after → P before y) ↔
      P [] x ∧ ∀ before y after, xs = before ++ y :: after → P (x :: before) y := by
  constructor
  · intro h
    refine ⟨h [] x xs rfl, ?_⟩
    rintro before y after rfl
    exact h (x :: before) y after rfl
  · rintro ⟨hx, hxs⟩ before y after hsplit
    cases before with
    | nil =>
        cases hsplit
        exact hx
    | cons z before =>
        rw [List.cons_append, List.cons.injEq] at hsplit
        obtain ⟨rfl, hsplit⟩ := hsplit
        exact hxs before y after hsplit

@[simp] theorem unneeded_nil (budget : Int) : Unneeded cap keep budget [] := by
  simp [Unneeded]

@[simp] theorem ample_nil (budget : Int) : Ample cap keep budget [] := by
  simp [Ample]

theorem unneeded_cons {x : α} {xs : List α} {budget : Int} :
    Unneeded cap keep budget (x :: xs) ↔
      (keep x = false → budget ≤ 0) ∧ Unneeded cap keep (budget - cap x) xs := by
  simp only [Unneeded, forall_split_cons, List.map_nil, List.sum_nil, List.map_cons, List.sum_cons,
    sub_le_iff_le_add']

theorem ample_cons {x : α} {xs : List α} {budget : Int} :
    Ample cap keep budget (x :: xs) ↔
      (keep x = true → cap x ≤ budget) ∧ Ample cap keep (budget - cap x) xs := by
  simp only [Ample, forall_split_cons, List.map_nil, List.sum_nil, zero_add, List.map_cons,
    List.sum_cons, le_sub_iff_add_le', add_assoc]

theorem unneeded_of_nonpos {xs : List α} (h : ∀ x ∈ xs, 0 < cap x) {budget : Int} (hb : budget ≤ 0) :
    Unneeded cap keep budget xs := by
  rintro before x after rfl -
  exact hb.trans (sum_nonneg fun y hy => h y (List.mem_append_left _ hy))

/-- The shares of the takers that are kept, under the names of the takers. -/
def kept (f : α → β) (keep : α → Bool) (shares : List (α × Int)) : List (β × Int) :=
  (shares.filter fun t => keep t.1).map fun t => (f t.1, t.2)

/-- With less of the budget, the takers that are kept are given the same as they are given alone
if and only if there is enough for each of them. -/
theorem kept_give_iff_of_lt (f : α → β) {xs : List α} (h : ∀ x ∈ xs, 0 < cap x) {less budget : Int}
    (hless : less < budget) (hb : 0 < budget) :
    kept f keep (give cap less xs) =
        (give cap budget (xs.filter keep)).map (fun t => (f t.1, t.2)) ↔
      Ample cap keep less xs := by
  induction xs generalizing less budget with
  | nil => simp [kept]
  | cons x xs ih =>
      have hx := h x List.mem_cons_self
      have ih := @ih fun y hy => h y (List.mem_cons_of_mem x hy)
      rw [ample_cons]
      cases hkeep : keep x with
      | false =>
          have hskip : kept f keep (give cap less (x :: xs)) = kept f keep (give cap (less - cap x) xs) := by
            by_cases hl : less ≤ 0
            · rw [give_of_nonpos hl, give_of_nonpos (by omega)]
            · simp [give_cons (by omega : 0 < less), kept, hkeep]
          rw [hskip, List.filter_cons_of_neg (by simp [hkeep]), ih (by omega) hb]
          simp
      | true =>
          rw [List.filter_cons_of_pos hkeep, give_cons hb, List.map_cons]
          by_cases hl : cap x ≤ less
          · have hall : cap x ≤ budget := by omega
            have hrest := @ih (less - cap x) (budget - cap x) (by omega) (by omega)
            rw [give_cons (by omega), ← hrest]
            simp [kept, hkeep, hl, hall]
          · have hne : kept f keep (give cap less (x :: xs)) ≠
                (f x, min (cap x) budget) ::
                  (give cap (budget - cap x) (xs.filter keep)).map fun t => (f t.1, t.2) := by
              by_cases hl' : less ≤ 0
              · simp [give_of_nonpos hl', kept]
              · rw [give_cons (by omega)]
                simp only [kept, hkeep, List.filter_cons_of_pos, List.map_cons, ne_eq, List.cons.injEq,
                  Prod.mk.injEq, true_and, not_and]
                omega
            simp [hne, hl]

/-- The takers that are kept are given the same whether the others are dropped before or after,
if and only if the others were given nothing, or there is enough for all that are kept. -/
theorem kept_give_iff (f : α → β) {xs : List α} (h : ∀ x ∈ xs, 0 < cap x) (budget : Int) :
    kept f keep (give cap budget xs) =
        (give cap budget (xs.filter keep)).map (fun t => (f t.1, t.2)) ↔
      Unneeded cap keep budget xs ∨ Ample cap keep budget xs := by
  induction xs generalizing budget with
  | nil => simp [kept]
  | cons x xs ih =>
      have hx := h x List.mem_cons_self
      have hxs : ∀ y ∈ xs, 0 < cap y := fun y hy => h y (List.mem_cons_of_mem x hy)
      by_cases hb : budget ≤ 0
      · simp [give_of_nonpos hb, kept, unneeded_of_nonpos h hb]
      rw [unneeded_cons, ample_cons, give_cons (by omega)]
      cases hkeep : keep x with
      | false =>
          rw [List.filter_cons_of_neg (by simp [hkeep])]
          have hless : budget - cap x < budget := by omega
          have hrest := @kept_give_iff_of_lt α β cap keep f xs hxs _ _ hless (by omega)
          simp only [kept, hkeep, List.filter_cons, Bool.false_eq_true, if_false] at hrest ⊢
          rw [hrest]
          simp [hb]
      | true =>
          rw [List.filter_cons_of_pos hkeep, give_cons (by omega)]
          have hrest := ih hxs (budget - cap x)
          simp only [kept, hkeep, List.filter_cons, if_true, List.map_cons, List.cons.injEq,
            true_and] at hrest ⊢
          rw [hrest]
          by_cases hall : cap x ≤ budget
          · simp [hall]
          · simp [unneeded_of_nonpos hxs (show budget - cap x ≤ 0 by omega)]

end Drop

end Greedy
