import Mathlib.Data.List.Induction
import Mathlib.Data.Option.Basic

/-!
# Sessions of a client that reconnects

A wire is the list of what happened: a connection was opened or closed, something was sent, or
something was noted beside.  `current` is what was sent on the connection that is up, and `Along`
says that something holds of every event and what was sent on its connection before it.

A client whose connection is up until an attempt fails has sent on it what it attempted since
the last failure (`sinceFailure`).
-/

namespace Session

variable {α β : Type}

/-- What happens on a wire. -/
inductive Event (α β : Type) where
  | opened
  | closed
  | sent (a : α)
  | noted (b : β)

/-- What was sent on the connection that is up, after one more event. -/
def next : Option (List α) → Event α β → Option (List α)
  | _, .opened => some []
  | _, .closed => none
  | up, .sent a => up.map fun sent => sent ++ [a]
  | up, .noted _ => up

/-- What was sent on the connection that is up, if one is. -/
def current (wire : List (Event α β)) : Option (List α) := wire.foldl next none

/-- Every event on a connection has the property, with what was sent on the connection before. -/
def Along (P : List α → Event α β → Prop) (wire : List (Event α β)) : Prop :=
  ∀ before e after, wire = before ++ e :: after → ∀ sent ∈ current before, P sent e

/-- Where a list with one more element is split: at the last element, or in the list. -/
theorem split_concat {γ : Type} {xs before after : List γ} {x y : γ}
    (h : xs ++ [x] = before ++ y :: after) :
    xs = before ∧ x = y ∧ after = [] ∨ ∃ rest, xs = before ++ y :: rest ∧ after = rest ++ [x] := by
  induction before generalizing xs with
  | nil =>
      cases xs with
      | nil =>
          cases h
          exact .inl ⟨rfl, rfl, rfl⟩
      | cons z xs =>
          cases h
          exact .inr ⟨xs, rfl, rfl⟩
  | cons b before ih =>
      cases xs with
      | nil =>
          rw [List.nil_append, List.cons_append, List.cons.injEq] at h
          exact absurd h.2.symm (List.append_ne_nil_of_right_ne_nil _ (List.cons_ne_nil _ _))
      | cons z xs =>
          rw [List.cons_append, List.cons_append, List.cons.injEq] at h
          obtain ⟨rfl, h⟩ := h
          rcases ih h with ⟨rfl, hx, hafter⟩ | ⟨rest, rfl, hafter⟩
          · exact .inl ⟨rfl, hx, hafter⟩
          · exact .inr ⟨rest, rfl, hafter⟩

@[simp] theorem current_nil : current ([] : List (Event α β)) = none := rfl

@[simp] theorem current_concat (wire : List (Event α β)) (e : Event α β) :
    current (wire ++ [e]) = next (current wire) e := by
  simp [current]

@[simp] theorem along_nil (P : List α → Event α β → Prop) : Along P [] := by
  intro before e after h
  simp at h

/-- One more event. -/
@[simp] theorem along_concat {P : List α → Event α β → Prop} {wire : List (Event α β)} {e : Event α β} :
    Along P (wire ++ [e]) ↔ Along P wire ∧ ∀ sent ∈ current wire, P sent e := by
  constructor
  · intro h
    refine ⟨?_, h wire e [] rfl⟩
    rintro before e' after rfl
    exact h before e' (after ++ [e]) (by simp)
  · rintro ⟨hwire, he⟩ before e' after hsplit
    rcases split_concat hsplit with ⟨rfl, rfl, -⟩ | ⟨rest, hrest, -⟩
    · exact he
    · exact hwire before e' rest hrest

/-! ## Attempts -/

/-- What was attempted since the last failure, after one more attempt. -/
def kept : List α → α × Bool → List α
  | good, (a, true) => good ++ [a]
  | _, (_, false) => []

/-- What was attempted since the last attempt that failed. -/
def sinceFailure (attempts : List (α × Bool)) : List α := attempts.foldl kept []

@[simp] theorem sinceFailure_nil : sinceFailure ([] : List (α × Bool)) = [] := rfl

@[simp] theorem sinceFailure_concat_true (attempts : List (α × Bool)) (a : α) :
    sinceFailure (attempts ++ [(a, true)]) = sinceFailure attempts ++ [a] := by
  simp [sinceFailure, kept]

@[simp] theorem sinceFailure_concat_false (attempts : List (α × Bool)) (a : α) :
    sinceFailure (attempts ++ [(a, false)]) = [] := by
  simp [sinceFailure, kept]

/-- What was attempted since the last failure: it went well, and so did all that came after it. -/
theorem mem_sinceFailure_iff {attempts : List (α × Bool)} {a : α} :
    a ∈ sinceFailure attempts ↔
      ∃ before after, attempts = before ++ (a, true) :: after ∧ ∀ x ∈ after, x.2 = true := by
  induction attempts using List.reverseRecOn with
  | nil => simp
  | append_singleton attempts last ih =>
      obtain ⟨b, good⟩ := last
      cases good with
      | false =>
          simp only [sinceFailure_concat_false, List.not_mem_nil, false_iff]
          rintro ⟨before, after, hsplit, hafter⟩
          rcases split_concat hsplit with ⟨-, hlast, -⟩ | ⟨rest, -, rfl⟩
          · cases hlast
          · have hlast := hafter (b, false) (by simp)
            cases hlast
      | true =>
          rw [sinceFailure_concat_true, List.mem_append, List.mem_singleton, ih]
          constructor
          · rintro (⟨before, after, rfl, hafter⟩ | rfl)
            · refine ⟨before, after ++ [(b, true)], by simp, ?_⟩
              intro x hx
              rcases List.mem_append.1 hx with hx | hx
              · exact hafter x hx
              · rw [List.mem_singleton.1 hx]
            · exact ⟨attempts, [], rfl, by simp⟩
          · rintro ⟨before, after, hsplit, hafter⟩
            rcases split_concat hsplit with ⟨-, hlast, -⟩ | ⟨rest, hrest, rfl⟩
            · exact .inr (congrArg Prod.fst hlast).symm
            · exact .inl ⟨before, rest, hrest, fun y hy => hafter y (List.mem_append_left _ hy)⟩

end Session
