import Mathlib.Order.Defs.Unbundled

/-!
# Programs with a state and exceptions

A program takes the state it starts in, and returns or raises, with the state it
leaves behind.  An exception does not undo what happened before it.

`wp m Q E s` says that a run of `m` from `s` either returns and leaves `Q`, or
raises and leaves `E`.  Each way to build a program has one equation for `wp`, so
that a property of a program is computed from its text, and `wp_mono` replaces a
program that has been dealt with by what is known of it.

`Moves R m` is for what holds however `m` ends: the state after is related to the
state before by a reflexive and transitive `R`.  `Completes I m J` is for programs
that do not raise, and `Reaches H m s` for what holds at the end either way.
-/

/-- A program with state `σ` and exceptions `ε`. -/
def Prog (ε σ α : Type) : Type := σ → Except ε α × σ

namespace Prog

variable {ε σ α β : Type}

instance : Monad (Prog ε σ) where
  pure a := fun s => (.ok a, s)
  bind m f := fun s =>
    match m s with
    | (.ok a, s') => f a s'
    | (.error e, s') => (.error e, s')

/-- Raise an exception. -/
def raise (e : ε) : Prog ε σ α := fun s => (.error e, s)

/-- `try: m; except e: handler(e)`. -/
def attempt (m : Prog ε σ α) (handler : ε → Prog ε σ α) : Prog ε σ α := fun s =>
  match m s with
  | (.ok a, s') => (.ok a, s')
  | (.error e, s') => handler e s'

/-- `try: m; finally: last`.  An exception of `last` takes the place of the outcome. -/
def ensure (m : Prog ε σ α) (last : Prog ε σ Unit) : Prog ε σ α := fun s =>
  match m s with
  | (r, s') =>
      match last s' with
      | (.ok _, s'') => (r, s'')
      | (.error e, s'') => (.error e, s'')

/-- Run a computation that has no state. -/
def ofExcept (r : Except ε α) : Prog ε σ α := fun s => (r, s)

/-! ## Weakest preconditions -/

/-- What `Q` says of a return and `E` of an exception. -/
def Ends (Q : α → σ → Prop) (E : ε → σ → Prop) : Except ε α × σ → Prop
  | (.ok a, s) => Q a s
  | (.error e, s) => E e s

/-- A run of `m` from `s` returns and leaves `Q`, or raises and leaves `E`. -/
def wp (m : Prog ε σ α) (Q : α → σ → Prop) (E : ε → σ → Prop) (s : σ) : Prop := Ends Q E (m s)

section

variable {Q : α → σ → Prop} {E : ε → σ → Prop} {s : σ}

@[simp] theorem wp_pure (a : α) : wp (pure a) Q E s = Q a s := rfl

@[simp] theorem wp_raise (e : ε) : wp (raise e) Q E s = E e s := rfl

@[simp] theorem wp_bind (m : Prog ε σ β) (f : β → Prog ε σ α) :
    wp (m >>= f) Q E s = wp m (fun b => wp (f b) Q E) E s := by
  show Ends Q E (match m s with | (.ok a, s') => f a s' | (.error e, s') => (.error e, s')) = _
  simp only [wp]
  rcases m s with ⟨e | b, s'⟩
  · rfl
  · rfl

@[simp] theorem wp_attempt (m : Prog ε σ α) (handler : ε → Prog ε σ α) :
    wp (attempt m handler) Q E s = wp m Q (fun e => wp (handler e) Q E) s := by
  simp only [wp, attempt]
  rcases m s with ⟨e | a, s'⟩
  · rfl
  · rfl

@[simp] theorem wp_ensure (m : Prog ε σ α) (last : Prog ε σ Unit) :
    wp (ensure m last) Q E s =
      wp m (fun a => wp last (fun _ => Q a) E) (fun e => wp last (fun _ => E e) E) s := by
  simp only [wp, ensure]
  rcases m s with ⟨e | a, s'⟩
  · show Ends Q E (match last s' with | (.ok _, t) => (.error e, t) | (.error e', t) => (.error e', t)) =
      Ends (fun _ => E e) E (last s')
    rcases last s' with ⟨e' | u, t⟩ <;> rfl
  · show Ends Q E (match last s' with | (.ok _, t) => (.ok a, t) | (.error e', t) => (.error e', t)) =
      Ends (fun _ => Q a) E (last s')
    rcases last s' with ⟨e' | u, t⟩ <;> rfl

@[simp] theorem wp_ofExcept_ok (a : α) : wp (ofExcept (.ok a)) Q E s = Q a s := rfl

@[simp] theorem wp_ofExcept_error (e : ε) : wp (ofExcept (.error e)) Q E s = E e s := rfl

/-- The rest of a program whose first part is known to return. -/
theorem bind_of_ok {m : Prog ε σ β} {f : β → Prog ε σ α} {b : β} {t : σ} (h : m s = (.ok b, t)) :
    (m >>= f) s = f b t := by
  show (match m s with
    | (.ok a, s) => f a s
    | (.error e, s) => (.error e, s)) = _
  rw [h]

/-- A run that is known to raise. -/
theorem wp_of_error {m : Prog ε σ α} {e : ε} {t : σ} (h : m s = (.error e, t)) :
    wp m Q E s ↔ E e t := by
  simp only [wp]
  rw [h]
  rfl

theorem wp_mono {m : Prog ε σ α} {Q' : α → σ → Prop} {E' : ε → σ → Prop} (h : wp m Q E s)
    (hQ : ∀ a s', Q a s' → Q' a s') (hE : ∀ e s', E e s' → E' e s') : wp m Q' E' s := by
  simp only [wp] at *
  rcases hm : m s with ⟨e | a, s'⟩ <;> rw [hm] at h
  · exact hE e s' h
  · exact hQ a s' h

theorem wp_and {m : Prog ε σ α} {Q' : α → σ → Prop} {E' : ε → σ → Prop} (h : wp m Q E s)
    (h' : wp m Q' E' s) : wp m (fun a t => Q a t ∧ Q' a t) (fun e t => E e t ∧ E' e t) s := by
  simp only [wp] at *
  rcases hm : m s with ⟨e | a, t⟩ <;> rw [hm] at h h' <;> exact ⟨h, h'⟩

/-- Nothing is asked of a run. -/
theorem wp_trivial (m : Prog ε σ α) : wp m (fun _ _ => True) (fun _ _ => True) s := by
  simp only [wp]
  rcases m s with ⟨e | a, t⟩ <;> exact True.intro

end

/-! ## What a program does to the state, however it ends -/

/-- A run of `m` leads from a state to a related one, whether it returns or raises. -/
def Moves (R : σ → σ → Prop) (m : Prog ε σ α) : Prop := ∀ s, wp m (fun _ => R s) (fun _ => R s) s

section

variable {R : σ → σ → Prop} [IsPreorder σ R]

/-- A related state is as good to start from. -/
theorem wp_moves_trans {m : Prog ε σ α} {s t : σ} (hst : R s t)
    (h : wp m (fun _ => R t) (fun _ => R t) t) : wp m (fun _ => R s) (fun _ => R s) t :=
  wp_mono h (fun _ _ => trans_of R hst) (fun _ _ => trans_of R hst)

theorem Moves.pure (a : α) : Moves R (Pure.pure a : Prog ε σ α) := fun s => refl_of R s

theorem Moves.raise (e : ε) : Moves R (Prog.raise e : Prog ε σ α) := fun s => refl_of R s

theorem Moves.ofExcept (r : Except ε α) : Moves R (Prog.ofExcept r : Prog ε σ α) := by
  cases r with
  | ok a => exact fun s => refl_of R s
  | error e => exact fun s => refl_of R s

theorem Moves.bind {m : Prog ε σ β} {f : β → Prog ε σ α} (hm : Moves R m)
    (hf : ∀ b, Moves R (f b)) : Moves R (m >>= f) := by
  intro s
  rw [wp_bind]
  refine wp_mono (hm s) ?_ (fun _ _ h => h)
  intro b t hst
  exact wp_moves_trans hst (hf b t)

theorem Moves.attempt {m : Prog ε σ α} {handler : ε → Prog ε σ α} (hm : Moves R m)
    (hh : ∀ e, Moves R (handler e)) : Moves R (Prog.attempt m handler) := by
  intro s
  rw [wp_attempt]
  refine wp_mono (hm s) (fun _ _ h => h) ?_
  intro e t hst
  exact wp_moves_trans hst (hh e t)

theorem Moves.ensure {m : Prog ε σ α} {last : Prog ε σ Unit} (hm : Moves R m)
    (hl : Moves R last) : Moves R (Prog.ensure m last) := by
  intro s
  have hlast : ∀ t, R s t → wp last (fun _ => R s) (fun _ => R s) t :=
    fun t hst => wp_moves_trans hst (hl t)
  rw [wp_ensure]
  exact wp_mono (hm s) (fun _ => hlast) (fun _ => hlast)

omit [IsPreorder σ R] in
theorem Moves.ite {c : Prop} [Decidable c] {m m' : Prog ε σ α} (hm : Moves R m)
    (hm' : Moves R m') : Moves R (if c then m else m') := by
  by_cases h : c
  · rw [if_pos h]
    exact hm
  · rw [if_neg h]
    exact hm'

omit [IsPreorder σ R] in
theorem Moves.mono {R' : σ → σ → Prop} (h : ∀ s t, R s t → R' s t) {m : Prog ε σ α}
    (hm : Moves R m) : Moves R' m := fun s => wp_mono (hm s) (fun _ => h s) (fun _ => h s)

end

/-- What held before holds after. -/
def Stays (H : σ → Prop) (s t : σ) : Prop := H s → H t

instance (H : σ → Prop) : IsPreorder σ (Stays H) where
  refl _ h := h
  trans _ _ _ h h' hs := h' (h hs)

/-! ## Programs that return -/

/-- From every state with `I`, a run of `m` returns and leaves `J`. -/
def Completes (I : σ → Prop) (m : Prog ε σ α) (J : α → σ → Prop) : Prop :=
  ∀ s, I s → wp m J (fun _ _ => False) s

section

variable {I : σ → Prop} {J : α → σ → Prop}

theorem Completes.bind {m : Prog ε σ β} {f : β → Prog ε σ α} {K : β → σ → Prop}
    (hm : Completes I m K) (hf : ∀ b, Completes (K b) (f b) J) : Completes I (m >>= f) J := by
  intro s hs
  rw [wp_bind]
  exact wp_mono (hm s hs) hf (fun _ _ h => h)

theorem Completes.ite {c : Prop} [Decidable c] {m m' : Prog ε σ α} (hm : c → Completes I m J)
    (hm' : ¬ c → Completes I m' J) : Completes I (if c then m else m') J := by
  by_cases h : c
  · rw [if_pos h]
    exact hm h
  · rw [if_neg h]
    exact hm' h

theorem Completes.attempt {m : Prog ε σ α} {handler : ε → Prog ε σ α} (hm : Completes I m J) :
    Completes I (Prog.attempt m handler) J := by
  intro s hs
  rw [wp_attempt]
  exact wp_mono (hm s hs) (fun _ _ h => h) (fun _ _ h => h.elim)

theorem Completes.mono {m : Prog ε σ α} {I' : σ → Prop} {J' : α → σ → Prop} (hm : Completes I m J)
    (hI : ∀ s, I' s → I s) (hJ : ∀ a s, J a s → J' a s) : Completes I' m J' :=
  fun s hs => wp_mono (hm s (hI s hs)) hJ (fun _ _ h => h)

end

/-! ## What a program returns -/

/-- Whatever `m` returns satisfies `P`.  It may raise. -/
def Yields (P : α → Prop) (m : Prog ε σ α) : Prop :=
  ∀ s, wp m (fun a _ => P a) (fun _ _ => True) s

section

variable {P : α → Prop}

theorem Yields.pure {a : α} (h : P a) : Yields P (Pure.pure a : Prog ε σ α) := fun _ => h

theorem Yields.raise (e : ε) : Yields P (Prog.raise e : Prog ε σ α) := fun _ => True.intro

theorem Yields.bind {m : Prog ε σ β} {f : β → Prog ε σ α} {K : β → Prop} (hm : Yields K m)
    (hf : ∀ b, K b → Yields P (f b)) : Yields P (m >>= f) := by
  intro s
  rw [wp_bind]
  exact wp_mono (hm s) (fun b t hb => hf b hb t) (fun _ _ h => h)

/-- What the first part returns does not matter. -/
theorem Yields.after {m : Prog ε σ β} {f : β → Prog ε σ α} (hf : ∀ b, Yields P (f b)) :
    Yields P (m >>= f) :=
  .bind (K := fun _ => True) (fun _ => wp_trivial m) fun b _ => hf b

theorem Yields.ite {c : Prop} [Decidable c] {m m' : Prog ε σ α} (hm : Yields P m)
    (hm' : Yields P m') : Yields P (if c then m else m') := by
  by_cases h : c
  · rw [if_pos h]
    exact hm
  · rw [if_neg h]
    exact hm'

theorem Yields.attempt {m : Prog ε σ α} {handler : ε → Prog ε σ α} (hm : Yields P m)
    (hh : ∀ e, Yields P (handler e)) : Yields P (Prog.attempt m handler) := by
  intro s
  rw [wp_attempt]
  exact wp_mono (hm s) (fun _ _ h => h) (fun e t _ => hh e t)

theorem Yields.ensure {m : Prog ε σ α} {last : Prog ε σ Unit} (hm : Yields P m) :
    Yields P (Prog.ensure m last) := by
  intro s
  rw [wp_ensure]
  exact wp_mono (hm s) (fun _ _ h => wp_mono (wp_trivial last) (fun _ _ _ => h) (fun _ _ h => h))
    (fun _ _ _ => wp_trivial last)

end

/-! ## What a run reaches -/

/-- A run of `m` from `s` ends in a state with `H`, whether it returns or raises. -/
def Reaches (H : σ → Prop) (m : Prog ε σ α) (s : σ) : Prop := wp m (fun _ => H) (fun _ => H) s

section

variable {H : σ → Prop} {s : σ}

theorem Moves.reaches {m : Prog ε σ α} (hm : Moves (Stays H) m) (hs : H s) : Reaches H m s :=
  wp_mono (hm s) (fun _ _ h => h hs) (fun _ _ h => h hs)

/-- The rest keeps what was reached. -/
theorem Reaches.bind {m : Prog ε σ β} {f : β → Prog ε σ α} (hm : Reaches H m s)
    (hf : ∀ b, Moves (Stays H) (f b)) : Reaches H (m >>= f) s := by
  simp only [Reaches]
  rw [wp_bind]
  exact wp_mono hm (fun b _ => (hf b).reaches) (fun _ _ h => h)

/-- The rest reaches it, from where the first part returns. -/
theorem Completes.reaches {I : σ → Prop} {K : β → σ → Prop} {m : Prog ε σ β}
    {f : β → Prog ε σ α} (hm : Completes I m K) (hs : I s)
    (hf : ∀ b t, K b t → Reaches H (f b) t) : Reaches H (m >>= f) s := by
  simp only [Reaches]
  rw [wp_bind]
  exact wp_mono (hm s hs) hf (fun _ _ h => h.elim)

theorem Reaches.attempt {m : Prog ε σ α} {handler : ε → Prog ε σ α} (hm : Reaches H m s)
    (hh : ∀ e, Moves (Stays H) (handler e)) : Reaches H (Prog.attempt m handler) s := by
  simp only [Reaches]
  rw [wp_attempt]
  exact wp_mono hm (fun _ _ h => h) (fun e _ => (hh e).reaches)

theorem Reaches.ensure {m : Prog ε σ α} {last : Prog ε σ Unit} (hm : Reaches H m s)
    (hl : Moves (Stays H) last) : Reaches H (Prog.ensure m last) s := by
  simp only [Reaches]
  rw [wp_ensure]
  exact wp_mono hm (fun _ _ => hl.reaches) (fun _ _ => hl.reaches)

theorem Reaches.final {m : Prog ε σ α} (hm : Reaches H m s) : H (m s).2 := by
  unfold Reaches wp at hm
  rcases hr : m s with ⟨e | a, t⟩ <;> rw [hr] at hm <;> exact hm

end

end Prog
