import ShugoCore.Lib.Run
import ShugoCore.Policy.Consent

/-!
# Consent is what the operator last said

Beside the registry stands the list of the operator's calls, `grant` and `revoke`.
By that list a type has consent at a time if it was granted after it was last revoked,
and the grant had no time to live or has some of it left.

The registry differs from the list in two ways.  `grant` files a grant under the
sanitised type, and `revoke` and `has_grant` look under the type as it is given.  And a
time to live of zero is taken for none.  So the registry says what the operator said as
long as every type that is granted is its own sanitised form, and a grant for zero
seconds only goes to a type that has consent for good.
-/

namespace ShugoCore

open Py Machine

/-- A call of the operator.  A grant has the reading of the clock. -/
inductive ConsentCall where
  | grant (now : Seconds) (actionType grantedBy scope note : Str) (ttlSeconds : Option Seconds)
  | revoke (actionType : Str)
deriving DecidableEq

/-- A registry and the calls that were made on it, in order. -/
structure ConsentLog where
  registry : ConsentRegistry
  calls : List ConsentCall

namespace ConsentLog

/-- A new registry. -/
def start : ConsentLog := ⟨{}, []⟩

/-- One call. -/
def step (s : ConsentLog) (c : ConsentCall) : ConsentLog where
  registry := match c with
    | .grant now actionType grantedBy scope note ttlSeconds =>
        s.registry.grant now actionType grantedBy scope note ttlSeconds
    | .revoke actionType => (s.registry.revoke actionType).2
  calls := s.calls ++ [c]

/-- The grant of a call that makes one for this type. -/
def grantOf (actionType : Str) : ConsentCall → Option (Seconds × Option Seconds)
  | .grant now a _ _ _ ttlSeconds => if a = actionType then some (now, ttlSeconds) else none
  | .revoke _ => none

/-- A grant for this type was made after the last `revoke` of it, and satisfies `p`. -/
def Standing (p : Seconds → Option Seconds → Prop) (actionType : Str) (calls : List ConsentCall) :
    Prop :=
  ∃ before c after g, calls = before ++ c :: after ∧ ConsentCall.revoke actionType ∉ after ∧
    grantOf actionType c = some g ∧ p g.1 g.2

/-- The operator consents to a type at a time. -/
def Said (actionType : Str) (t : Seconds) : List ConsentCall → Prop :=
  Standing (fun grantedAt ttl => ∀ x ∈ ttl, t < grantedAt + x) actionType

/-- The operator consents to a type for good. -/
def SaidForGood (actionType : Str) : List ConsentCall → Prop :=
  Standing (fun _ ttl => ttl = none) actionType

/-- `has_grant` says what the operator said, for every type and at every time. -/
def Honoured (s : ConsentLog) : Prop :=
  ∀ actionType t, s.registry.hasGrant t actionType = true ↔ Said actionType t s.calls

/-- What a call needs: a type that is its own sanitised form, and no time to live of
zero, unless the type has consent for good. -/
def Plainly (s : ConsentLog) : ConsentCall → Prop
  | .grant _ actionType _ _ _ ttlSeconds =>
      sanitizeText actionType 64 = actionType ∧
        (ttlSeconds = some 0 → SaidForGood actionType s.calls)
  | .revoke _ => True

/-! ## What a call does to the list -/

theorem standing_nil (p : Seconds → Option Seconds → Prop) (a : Str) : ¬ Standing p a [] := by
  rintro ⟨before, c, after, g, h, -⟩
  simp at h

/-- What stands after one more call: what it grants, and what stood before unless it
revokes it. -/
theorem standing_concat {p : Seconds → Option Seconds → Prop} {a : Str} {calls : List ConsentCall}
    {c : ConsentCall} :
    Standing p a (calls ++ [c]) ↔
      (∃ g, grantOf a c = some g ∧ p g.1 g.2) ∨ (c ≠ .revoke a ∧ Standing p a calls) := by
  constructor
  · rintro ⟨before, d, after, g, h, hrevoke, hg, hp⟩
    rcases List.eq_nil_or_concat after with rfl | ⟨after, e, rfl⟩
    · obtain ⟨-, hc⟩ := List.append_inj' h rfl
      cases hc
      exact .inl ⟨g, hg, hp⟩
    · have hlast : calls ++ [c] = (before ++ d :: after) ++ [e] := by
        rw [h, List.concat_eq_append, List.append_assoc, List.cons_append]
      obtain ⟨hcalls, hc⟩ := List.append_inj' hlast rfl
      cases hc
      simp only [List.concat_eq_append, List.mem_append, List.mem_singleton, not_or] at hrevoke
      exact .inr ⟨fun he => hrevoke.2 he.symm, before, d, after, g, hcalls, hrevoke.1, hg, hp⟩
  · rintro (⟨g, hg, hp⟩ | ⟨hc, before, d, after, g, rfl, hrevoke, hg, hp⟩)
    · exact ⟨calls, c, [], g, rfl, List.not_mem_nil, hg, hp⟩
    · refine ⟨before, d, after ++ [c], g, by simp, ?_, hg, hp⟩
      simp only [List.mem_append, List.mem_singleton, not_or]
      exact ⟨hrevoke, fun he => hc he.symm⟩

/-- What the operator consents to at every late time stands for good. -/
theorem saidForGood_of_late (a : Str) (calls : List ConsentCall) :
    ∃ bound, ∀ t, bound ≤ t → Said a t calls → SaidForGood a calls := by
  induction calls using List.reverseRecOn with
  | nil => exact ⟨0, fun t _ h => absurd h (standing_nil _ a)⟩
  | append_singleton calls c ih =>
      obtain ⟨bound, ih⟩ := ih
      cases hg : grantOf a c with
      | none =>
          refine ⟨bound, fun t ht h => ?_⟩
          rw [SaidForGood, standing_concat, hg]
          rw [Said, standing_concat, hg] at h
          rcases h with ⟨g, hg, -⟩ | ⟨hc, h⟩
          · cases hg
          · exact .inr ⟨hc, ih t ht h⟩
      | some g =>
          obtain ⟨now, ttl⟩ := g
          cases ttl with
          | none => exact ⟨0, fun t _ _ => standing_concat.2 (.inl ⟨_, hg, rfl⟩)⟩
          | some x =>
              -- later than the end of this grant too
              refine ⟨max bound (now + x), fun t ht h => ?_⟩
              rw [Said, standing_concat, hg] at h
              rcases h with ⟨g, hg, hlive⟩ | ⟨hc, h⟩
              · cases hg
                exact absurd (hlive x rfl) (not_lt.2 (le_trans (le_max_right _ _) ht))
              · exact standing_concat.2 (.inr ⟨hc, ih t (le_trans (le_max_left _ _) ht) h⟩)

/-! ## What a call does to the registry -/

/-- The expiry that `grant` files. -/
def expiryOf (now : Seconds) (ttlSeconds : Option Seconds) : Option Seconds :=
  (ttlSeconds.filter fun ttl => ttl ≠ 0).map (now + ·)

theorem entries_grant (r : ConsentRegistry) (now : Seconds) (b grantedBy scope note : Str)
    (ttl : Option Seconds) (a : Str) :
    ∃ g : Grant, g.expiresAt = expiryOf now ttl ∧
      (r.grant now b grantedBy scope note ttl).entries a =
        if sanitizeText b 64 = a then r.entries a ++ [g] else r.entries a := by
  refine ⟨⟨sanitizeText b 64, sanitizeText grantedBy 120, sanitizeText scope 120,
    sanitizeText note 300, now, expiryOf now ttl⟩, rfl, ?_⟩
  by_cases ha : sanitizeText b 64 = a
  · subst ha
    rw [if_pos rfl, ConsentRegistry.grant, ConsentRegistry.entries, Dict.get?_set_self]
    rfl
  · rw [if_neg ha, ConsentRegistry.grant, ConsentRegistry.entries, Dict.get?_set_of_ne _ ha]
    rfl

theorem hasGrant_grant {r : ConsentRegistry} {now : Seconds} {b grantedBy scope note : Str}
    {ttl : Option Seconds} {a : Str} {t : Seconds} :
    (r.grant now b grantedBy scope note ttl).hasGrant t a = true ↔
      (sanitizeText b 64 = a ∧ ∀ e ∈ expiryOf now ttl, t < e) ∨ r.hasGrant t a = true := by
  obtain ⟨g, hg, hentries⟩ := entries_grant r now b grantedBy scope note ttl a
  rw [ConsentRegistry.hasGrant, ConsentRegistry.hasGrant, hentries]
  by_cases ha : sanitizeText b 64 = a
  · rw [if_pos ha, List.any_append, List.any_cons, List.any_nil, Bool.or_false, Bool.or_eq_true,
      decide_eq_true_eq, Grant.Unexpired, hg, or_comm]
    simp only [ha, true_and]
  · rw [if_neg ha]
    simp only [ha, false_and, false_or]

theorem entries_revoke (r : ConsentRegistry) (b a : Str) :
    (r.revoke b).2.entries a = if b = a then [] else r.entries a := by
  by_cases ha : b = a
  · subst ha
    rw [if_pos rfl, ConsentRegistry.revoke, ConsentRegistry.entries, Dict.get?_remove_self]
    rfl
  · rw [if_neg ha, ConsentRegistry.revoke, ConsentRegistry.entries, Dict.get?_remove_of_ne _ ha]
    rfl

theorem hasGrant_revoke {r : ConsentRegistry} {b a : Str} {t : Seconds} :
    (r.revoke b).2.hasGrant t a = true ↔ b ≠ a ∧ r.hasGrant t a = true := by
  rw [ConsentRegistry.hasGrant, entries_revoke]
  by_cases ha : b = a
  · simp [ha]
  · rw [if_neg ha]
    simp only [ne_eq, ha, not_false_eq_true, true_and]
    rfl

/-- The expiry of a time to live that is not zero is what the operator said. -/
theorem expiryOf_of_ne_zero {now : Seconds} {ttl : Option Seconds} (h : ttl ≠ some 0) :
    expiryOf now ttl = ttl.map (now + ·) := by
  cases ttl with
  | none => rfl
  | some x =>
      have hx : x ≠ 0 := fun hx => h (by rw [hx])
      rw [expiryOf, Option.filter_some_pos (by simpa using hx)]

/-! ## Runs -/

/-- Grants are filed under types that are their own sanitised form. -/
def Filed (s : ConsentLog) : Prop :=
  ∀ a, s.registry.entries a ≠ [] → sanitizeText a 64 = a

theorem Filed.step {s : ConsentLog} (h : Filed s) {c : ConsentCall} (hc : s.Plainly c) :
    Filed (s.step c) := by
  intro a ha
  cases c with
  | grant now b grantedBy scope note ttl =>
      obtain ⟨g, -, hentries⟩ := entries_grant s.registry now b grantedBy scope note ttl a
      by_cases hb : sanitizeText b 64 = a
      · rw [← hb, hc.1, hc.1]
      · refine h a ?_
        rw [if_neg hb] at hentries
        rwa [← hentries]
  | revoke b =>
      refine h a fun hnil => ha ?_
      have hentries := entries_revoke s.registry b a
      rw [hnil, ite_self] at hentries
      exact hentries

theorem said_grant {a : Str} {t : Seconds} {calls : List ConsentCall} {now : Seconds}
    {b grantedBy scope note : Str} {ttl : Option Seconds} :
    Said a t (calls ++ [.grant now b grantedBy scope note ttl]) ↔
      (b = a ∧ ∀ x ∈ ttl, t < now + x) ∨ Said a t calls := by
  rw [Said, standing_concat]
  refine or_congr ?_ ⟨fun h => h.2, fun h => ⟨nofun, h⟩⟩
  rw [grantOf]
  by_cases hb : b = a
  · simp [hb]
  · simp [hb]

theorem said_revoke {a : Str} {t : Seconds} {calls : List ConsentCall} {b : Str} :
    Said a t (calls ++ [.revoke b]) ↔ b ≠ a ∧ Said a t calls := by
  rw [Said, standing_concat]
  constructor
  · rintro (⟨g, hg, -⟩ | ⟨hb, h⟩)
    · cases hg
    · exact ⟨fun he => hb (by rw [he]), h⟩
  · rintro ⟨hb, h⟩
    exact .inr ⟨fun he => hb (ConsentCall.revoke.inj he), h⟩

/-- A call keeps the registry honest exactly if it is plain. -/
theorem honoured_step_iff {s : ConsentLog} (hf : Filed s) (h : Honoured s) (c : ConsentCall) :
    Honoured (s.step c) ↔ s.Plainly c := by
  cases c with
  | revoke b =>
      refine iff_of_true (fun a t => ?_) True.intro
      exact hasGrant_revoke.trans ((and_congr_right fun _ => h a t).trans said_revoke.symm)
  | grant now b grantedBy scope note ttl =>
      have hstep : Honoured (s.step (.grant now b grantedBy scope note ttl)) ↔
          ∀ a t, ((sanitizeText b 64 = a ∧ ∀ e ∈ expiryOf now ttl, t < e) ∨ Said a t s.calls) ↔
            ((b = a ∧ ∀ x ∈ ttl, t < now + x) ∨ Said a t s.calls) := by
        refine forall_congr' fun a => forall_congr' fun t => ?_
        rw [← said_grant, ← h a t, ← hasGrant_grant]
        rfl
      rw [hstep]
      constructor
      · intro hall
        have hown : sanitizeText b 64 = b := by
          -- a time at which the grant counts, and `has_grant` finds no entry
          by_contra hne
          have hnone : ∀ t, ¬ Said b t s.calls := by
            intro t ht
            obtain ⟨g, hg, -⟩ := ConsentRegistry.hasGrant_iff.1 ((h b t).2 ht)
            exact hne (hf b (List.ne_nil_of_mem hg))
          have hlive : ∀ x ∈ ttl, now + ttl.getD 0 - 1 < now + x := by
            rintro x rfl
            rw [Option.getD_some]
            linarith
          rcases (hall b (now + ttl.getD 0 - 1)).2 (.inl ⟨rfl, hlive⟩) with ⟨heq, -⟩ | hsaid
          · exact hne heq
          · exact hnone _ hsaid
        refine ⟨hown, ?_⟩
        rintro rfl
        obtain ⟨bound, hbound⟩ := saidForGood_of_late b s.calls
        rcases (hall b (max bound now)).1 (.inl ⟨hown, nofun⟩) with ⟨-, hlive⟩ | hsaid
        · have hlt := hlive 0 rfl
          rw [add_zero] at hlt
          exact absurd hlt (not_lt.2 (le_max_right _ _))
        · exact hbound _ (le_max_left _ _) hsaid
      · rintro ⟨hown, hzero⟩ a t
        rw [hown]
        by_cases ht : ttl = some 0
        · by_cases hb : b = a
          · subst hb
            obtain ⟨before, d, after, g, hcalls, hrevoke, hg, hnone⟩ := hzero ht
            have hsaid : Said b t s.calls :=
              ⟨before, d, after, g, hcalls, hrevoke, hg, by rw [hnone]; exact nofun⟩
            exact iff_of_true (.inr hsaid) (.inr hsaid)
          · simp only [hb, false_and]
        · rw [expiryOf_of_ne_zero ht]
          simp only [Option.mem_def, Option.map_eq_some_iff, forall_exists_index, and_imp,
            forall_apply_eq_imp_iff₂]

/-- For every sequence of grants and revocations: `has_grant` is what the operator last
said, throughout, exactly if every type that is granted is its own sanitised form, and no
grant is for zero seconds, unless the type has consent for good. -/
theorem consent_honoured_iff (calls : List ConsentCall) :
    Always step Honoured start calls ↔ Meets step Plainly start calls := by
  refine always_iff_meets_while (I := Filed) (fun s c hf hc => hf.step hc)
    (fun s c hf h => honoured_step_iff hf h c) ?_ ?_
  · intro a ha
    exact absurd rfl ha
  · intro a t
    exact iff_of_false Bool.false_ne_true (standing_nil _ a)

/-- A grant by the operator, with no scope and no note. -/
def granted (now : Seconds) (actionType : String) (ttlSeconds : Option Seconds) : ConsentCall :=
  .grant now (lit actionType) (lit "operator") (lit "*") [] ttlSeconds

/-- A grant for zero seconds never ends, a grant for a type with a blank at its end is not
found, and a `revoke` of that type leaves it in force under the type without the blank. -/
theorem zero_ttl_never_ends :
    (run step start [granted 0 "api_call" (some 0)]).registry.hasGrant 1000000 (lit "api_call") =
        true ∧
      ¬ Said (lit "api_call") 1000000 (run step start [granted 0 "api_call" (some 0)]).calls ∧
      (run step start [granted 0 "api_call " none]).registry.hasGrant 1 (lit "api_call ") = false ∧
      (run step start [granted 0 "api_call " none, .revoke (lit "api_call ")]).registry.hasGrant 1
        (lit "api_call") = true := by
  refine ⟨by decide +kernel, ?_, by decide +kernel, by decide +kernel⟩
  have hcalls : (run step start [granted 0 "api_call" (some 0)]).calls =
      [] ++ [granted 0 "api_call" (some 0)] := rfl
  rw [hcalls, granted, said_grant]
  rintro (⟨-, hlive⟩ | h)
  · exact absurd (hlive 0 rfl) (by norm_num)
  · exact standing_nil _ _ h

end ConsentLog

end ShugoCore
