import Mathlib.Order.Basic

/-!
# Runs of a deterministic machine

A machine is a step function `σ → α → σ`.  Its inputs are part of the action:
the clock reading of a call, the fault that hits it, the thread that makes it.
So a list of actions determines the run, and "every interleaving" is "every
list of actions".

`Meets step ok s as` says that every action of the run satisfies `ok` in the
state it is taken in.  `Always step P s as` says that `P` holds in every state
of the run, the first included.  The rules below turn one-step facts into facts
about runs.

* `Always.of_inv`: an invariant kept by the steps that meet `ok` holds along
  every run whose steps meet `ok`.
* `meets_congr`: two conditions that agree under an invariant are met by the same
  runs.
* `rel_run_filter`: what actions of one kind do cannot be told from what is left when
  they are dropped, if one such action cannot.
* `always_iff_meets`: when `ok` is exactly what a step needs to keep `P`, the
  runs along which `P` holds are exactly the runs that meet `ok`.  The `_under`
  form is for runs that grant a side condition at every step, the `_while` form for
  an invariant that other steps may break.

Nothing here knows what the machine is.
-/

namespace Machine

universe u v

variable {σ : Type u} {α : Type v} {step : σ → α → σ}

/-- The state a list of actions leads to. -/
def run (step : σ → α → σ) (s : σ) (as : List α) : σ := as.foldl step s

/-- Every action satisfies `ok` in the state it is taken in. -/
def Meets (step : σ → α → σ) (ok : σ → α → Prop) : σ → List α → Prop
  | _, [] => True
  | s, a :: as => ok s a ∧ Meets step ok (step s a) as

/-- `P` holds in every state of the run, the first included. -/
def Always (step : σ → α → σ) (P : σ → Prop) : σ → List α → Prop
  | s, [] => P s
  | s, a :: as => P s ∧ Always step P (step s a) as

instance Meets.decidable {ok : σ → α → Prop} [∀ s a, Decidable (ok s a)] :
    ∀ (s : σ) (as : List α), Decidable (Meets step ok s as)
  | _, [] => inferInstanceAs (Decidable True)
  | s, a :: as =>
      have : Decidable (Meets step ok (step s a) as) := Meets.decidable (step s a) as
      inferInstanceAs (Decidable (ok s a ∧ Meets step ok (step s a) as))

instance Always.decidable {P : σ → Prop} [DecidablePred P] :
    ∀ (s : σ) (as : List α), Decidable (Always step P s as)
  | s, [] => inferInstanceAs (Decidable (P s))
  | s, a :: as =>
      have : Decidable (Always step P (step s a) as) := Always.decidable (step s a) as
      inferInstanceAs (Decidable (P s ∧ Always step P (step s a) as))

/-! ## Runs and their prefixes -/

@[simp] theorem run_nil (s : σ) : run step s [] = s := rfl

@[simp] theorem run_cons (s : σ) (a : α) (as : List α) :
    run step s (a :: as) = run step (step s a) as := rfl

@[simp] theorem run_append (s : σ) (as bs : List α) :
    run step s (as ++ bs) = run step (run step s as) bs := by
  simp [run, List.foldl_append]

/-- A split of a list that has one more element at its end. -/
theorem exists_split_concat {P : α → List α → Prop} {as : List α} {a : α} :
    (∃ before c after, as ++ [a] = before ++ c :: after ∧ P c after) ↔
      P a [] ∨ ∃ before c after, as = before ++ c :: after ∧ P c (after ++ [a]) := by
  constructor
  · rintro ⟨before, c, after, h, hP⟩
    rcases List.eq_nil_or_concat after with rfl | ⟨after, e, rfl⟩
    · obtain ⟨-, hc⟩ := List.append_inj' h rfl
      cases hc
      exact .inl hP
    · have hlast : as ++ [a] = (before ++ c :: after) ++ [e] := by
        rw [h, List.concat_eq_append, List.append_assoc, List.cons_append]
      obtain ⟨has, hc⟩ := List.append_inj' hlast rfl
      cases hc
      rw [List.concat_eq_append] at hP
      exact .inr ⟨before, c, after, has, hP⟩
  · rintro (hP | ⟨before, c, after, rfl, hP⟩)
    · exact ⟨as, a, [], rfl, hP⟩
    · exact ⟨before, c, after ++ [a], by simp, hP⟩

theorem Meets.append {ok : σ → α → Prop} {s : σ} {as bs : List α} :
    Meets step ok s (as ++ bs) ↔ Meets step ok s as ∧ Meets step ok (run step s as) bs := by
  induction as generalizing s with
  | nil => simp [Meets]
  | cons a as ih => simp [Meets, ih, and_assoc]

theorem Meets.trivial {s : σ} (as : List α) : Meets step (fun _ _ => True) s as := by
  induction as generalizing s with
  | nil => exact True.intro
  | cons a as ih => exact ⟨True.intro, ih⟩

/-- A property of every state of a run holds in its first state. -/
theorem Always.first {P : σ → Prop} {s : σ} {as : List α} (h : Always step P s as) : P s := by
  cases as with
  | nil => exact h
  | cons a as => exact h.1

/-- A property of every state of a run holds in its last state. -/
theorem Always.last {P : σ → Prop} {s : σ} {as : List α} (h : Always step P s as) :
    P (run step s as) := by
  induction as generalizing s with
  | nil => exact h
  | cons a as ih => exact ih h.2

theorem Always.mono {P Q : σ → Prop} (hPQ : ∀ s, P s → Q s) {s : σ} {as : List α}
    (h : Always step P s as) : Always step Q s as := by
  induction as generalizing s with
  | nil => exact hPQ s h
  | cons a as ih => exact ⟨hPQ s h.1, ih h.2⟩

/-! ## From one step to a run -/

/-- An invariant of every step is an invariant of every run. -/
theorem inv_run {I : σ → Prop} (hstep : ∀ s a, I s → I (step s a)) {s : σ}
    (h : I s) (as : List α) : I (run step s as) := by
  induction as generalizing s with
  | nil => exact h
  | cons a as ih => exact ih (hstep s a h)

/-- An invariant of the steps that meet `ok` holds along every run that meets `ok`. -/
theorem Always.of_inv {ok : σ → α → Prop} {I : σ → Prop}
    (hstep : ∀ s a, I s → ok s a → I (step s a)) {s : σ} {as : List α}
    (h : I s) (hok : Meets step ok s as) : Always step I s as := by
  induction as generalizing s with
  | nil => exact h
  | cons a as ih => exact ⟨h, ih (hstep s a h hok.1) hok.2⟩

/-- A relation that hidden actions do not leave and other actions keep holds between a
run and what is left of it when the hidden actions are dropped. -/
theorem rel_run_filter {R : σ → σ → Prop} {hidden : α → Bool}
    (hhidden : ∀ s s' a, hidden a = true → R s s' → R (step s a) s')
    (hshown : ∀ s s' a, hidden a = false → R s s' → R (step s a) (step s' a)) {s s' : σ}
    (h : R s s') (as : List α) : R (run step s as) (run step s' (as.filter fun a => !hidden a)) := by
  induction as generalizing s s' with
  | nil => exact h
  | cons a as ih =>
      cases ha : hidden a with
      | true =>
          rw [List.filter_cons_of_neg (by simp [ha])]
          exact ih (hhidden s s' a ha h)
      | false =>
          rw [List.filter_cons_of_pos (by simp [ha])]
          exact ih (hshown s s' a ha h)

/-- A run that meets `ok` meets every condition that `ok` gives under its invariant. -/
theorem Meets.imp {ok ok' : σ → α → Prop} {I : σ → Prop}
    (hinv : ∀ s a, I s → ok s a → I (step s a))
    (h : ∀ s a, I s → ok s a → ok' s a) {s : σ} {as : List α} (hi : I s)
    (hm : Meets step ok s as) : Meets step ok' s as := by
  induction as generalizing s with
  | nil => exact True.intro
  | cons a as ih => exact ⟨h s a hi hm.1, ih (hinv s a hi hm.1) hm.2⟩

/-- Two conditions that agree under an invariant are met by the same runs. -/
theorem meets_congr {ok ok' : σ → α → Prop} {I : σ → Prop}
    (hinv : ∀ s a, I s → ok s a → I (step s a))
    (h : ∀ s a, I s → (ok s a ↔ ok' s a)) {s : σ} {as : List α} (hi : I s) :
    Meets step ok s as ↔ Meets step ok' s as :=
  ⟨Meets.imp hinv (fun s a hs => (h s a hs).1) hi,
    Meets.imp (fun s a hs ha => hinv s a hs ((h s a hs).2 ha)) (fun s a hs => (h s a hs).2) hi⟩

/-- When `ok` is exactly what a step needs to keep `P`, the runs along which `P`
holds are the runs that meet `ok`.  `I` is what the one-step fact may use, and
`room` is what the run grants at every step. -/
theorem always_iff_meets_under {ok room : σ → α → Prop} {I P : σ → Prop}
    (hinv : ∀ s a, I s → room s a → I (step s a))
    (hstep : ∀ s a, I s → room s a → P s → (P (step s a) ↔ ok s a)) {s : σ} {as : List α}
    (hi : I s) (h : P s) (hroom : Meets step room s as) :
    Always step P s as ↔ Meets step ok s as := by
  induction as generalizing s with
  | nil => exact ⟨fun _ => trivial, fun _ => h⟩
  | cons a as ih =>
      have hkeep := hstep s a hi hroom.1 h
      have hnext := hinv s a hi hroom.1
      constructor
      · intro ha
        have hok := hkeep.1 ha.2.first
        exact ⟨hok, (ih hnext (hkeep.2 hok) hroom.2).1 ha.2⟩
      · intro hm
        exact ⟨h, (ih hnext (hkeep.2 hm.1) hroom.2).2 hm.2⟩

/-- The rule above for a run that grants nothing. -/
theorem always_iff_meets {ok : σ → α → Prop} {I P : σ → Prop}
    (hinv : ∀ s a, I s → I (step s a))
    (hstep : ∀ s a, I s → P s → (P (step s a) ↔ ok s a)) {s : σ} {as : List α}
    (hi : I s) (h : P s) : Always step P s as ↔ Meets step ok s as :=
  always_iff_meets_under (fun s a hs _ => hinv s a hs) (fun s a hs _ => hstep s a hs) hi h
    (Meets.trivial as)

/-- The rule for an invariant that only the steps with `ok` keep. -/
theorem always_iff_meets_while {ok : σ → α → Prop} {I P : σ → Prop}
    (hinv : ∀ s a, I s → ok s a → I (step s a))
    (hstep : ∀ s a, I s → P s → (P (step s a) ↔ ok s a)) {s : σ} {as : List α}
    (hi : I s) (h : P s) : Always step P s as ↔ Meets step ok s as := by
  induction as generalizing s with
  | nil => exact ⟨fun _ => trivial, fun _ => h⟩
  | cons a as ih =>
      have hkeep := hstep s a hi h
      constructor
      · intro ha
        have hok := hkeep.1 ha.2.first
        exact ⟨hok, (ih (hinv s a hi hok) (hkeep.2 hok)).1 ha.2⟩
      · intro hm
        exact ⟨h, (ih (hinv s a hi hm.1) (hkeep.2 hm.1)).2 hm.2⟩

/-! ## Threads that are kept in a list -/

/-- A thread that is started leaves the others as they are. -/
theorem getElem?_concat_of_ne (threads : List σ) (new : σ) {k : Nat} (hk : k ≠ threads.length) :
    (threads ++ [new])[k]? = threads[k]? := by
  rw [List.getElem?_append]
  split
  · rfl
  · rw [List.getElem?_eq_none (by simp; omega), List.getElem?_eq_none (by omega)]

end Machine
