import ShugoCore.Engine.Unattended
import ShugoCore.Lib.JsonValues

/-!
# What a policy token is good for

`_execute_gated` computes a token over the decision with its `_trace`, and `execute`
compares it with the digest of what it is asked to dispatch.  A token therefore lets pass
what equals that decision with that trace, as JSON values, and nothing else.  With any
other token, and with none, `execute` refuses, and the only call it makes is the audit
entry.

That equal digests mean equal values rests on the canonical text (`dumps_eq_iff`) and on
SHA-256 telling apart the two texts at hand.
-/

namespace ShugoCore

namespace Engine

open Py Prog

variable {σ φ : Type}

/-! ## Tokens -/

/-- The value of `_policy` allows the decision whose digest is `h`. -/
def bears (h : Str) : PyVal φ → Bool
  | .dict verdict =>
      isText (lit "allow") (fetch (lit "verdict") verdict) &&
        isText h (fetch (lit "decision_hash") verdict)
  | _ => false

theorem bears_allowToken (h h' : Str) : bears h (.dict (allowToken h') : PyVal φ) = decide (h' = h) := by
  simp [bears, allowToken, fetch, text, isText]

/-! ## JSON-valued decisions -/

/-- A decision that was read from JSON, before a token is attached. -/
structure IsDecision (d : Obj φ) : Prop where
  json : isJson (.dict d) = true
  unsigned : getKey (lit "_policy") d = none

theorem isJson_traceOf {d : Obj φ} (h : isJson (.dict d) = true) (seq : Nat) :
    isJson (.dict (traceOf seq d)) = true := by
  have hid := isJson_fetch h (lit "decision_id")
  simp only [traceOf]
  split
  · simp [isJson, isJsonItems, Key.isJson, Key.asStr]
  · simp [isJson, isJsonItems, Key.isJson, Key.asStr, hid]

theorem IsDecision.traced {d : Obj φ} (h : IsDecision d) (seq : Nat) :
    IsDecision (traced seq d) where
  json := isJson_setKey (join_lit _) (isJson_traceOf h.json seq) h.json
  unsigned := by rw [Engine.traced, getKey_setKey_of_ne (by decide), h.unsigned]

/-- What has no token is its own content. -/
theorem clean_of_unsigned {d : Obj φ} (h : getKey (lit "_policy") d = none) : clean d = d := by
  refine List.filter_eq_self.2 fun i hi => ?_
  induction d with
  | nil => cases hi
  | cons j d ih =>
      obtain ⟨key, x⟩ := j
      cases key with
      | str k =>
          rw [getKey] at h
          split at h
          · cases h
          · rename_i hk
            rcases List.mem_cons.1 hi with rfl | hi
            · simpa [keyNotIn] using hk
            · exact ih h hi
      | none | bool _ | int _ | float _ =>
          rcases List.mem_cons.1 hi with rfl | hi
          · rfl
          · exact ih h hi

variable [Builtins φ] {env : Env σ φ}

/-- Every JSON value has a digest. -/
theorem IsDecision.canonicalHash {d : Obj φ} (h : IsDecision d) (hashes : Hashlib) :
    canonicalHash hashes (.dict d) = some (hashes.sha256 (render compact (doc (.dict d)))) := by
  rw [ShugoCore.canonicalHash, canonicalJson, dumps, encode_eq_doc _ (textKeyed_of_isJson _ h.json)]
  rfl

/-! ## What `execute` does with a token -/

/-- `execute` enters `_dispatch` with the decision. -/
def Dispatches (env : Env σ φ) (payload d : Obj φ) (s : Run σ φ) : Prop :=
  ∃ e events, (execute env payload s).2.events = s.events ++ e :: events ∧ e.call = .dispatch d

/-- `execute` returns a refusal, and makes no call but the one that records it. -/
def Refuses (env : Env σ φ) (payload : Obj φ) (s : Run σ φ) : Prop :=
  ∃ reason, (execute env payload s).1 = .ok (report "refused" "reason" reason) ∧
    ∃ e kind entry, (execute env payload s).2.events = s.events ++ [e] ∧ e.call = .audit kind entry

theorem Refuses.not_dispatches {payload d : Obj φ} {s : Run σ φ} (h : Refuses env payload s) :
    ¬ Dispatches env payload d s := by
  rintro ⟨e, events, hevents, hcall⟩
  obtain ⟨-, -, e', kind, entry, hevents', hcall'⟩ := h
  obtain ⟨rfl, -⟩ := List.cons.inj (List.append_cancel_left (hevents.symm.trans hevents'))
  rw [hcall'] at hcall
  cases hcall

theorem executeVerdict_of_bears {payload : Obj φ} {h : Str}
    (hh : canonicalHash env.hashes (.dict (clean payload)) = some h)
    (hb : bears h (fetch (lit "_policy") payload) = true) :
    executeVerdict env payload = dispatch env (clean payload) := by
  simp only [executeVerdict]
  cases hp : fetch (lit "_policy") payload with
  | dict verdict =>
      rw [hp, bears, Bool.and_eq_true] at hb
      dsimp only
      rw [hb.1, digest, hh]
      show (if !isText h (fetch (lit "decision_hash") verdict) then _ else _) = _
      rw [hb.2]
      rfl
  | none | bool _ | int _ | float _ | str _ | list _ =>
      rw [hp] at hb
      cases hb

theorem executeVerdict_of_not_bears {payload : Obj φ} {h : Str}
    (hh : canonicalHash env.hashes (.dict (clean payload)) = some h)
    (hb : bears h (fetch (lit "_policy") payload) = false) :
    ∃ reason, executeVerdict env payload = pure (.dict (report "refused" "reason" reason)) := by
  simp only [executeVerdict]
  cases hp : fetch (lit "_policy") payload with
  | dict verdict =>
      dsimp only
      cases hallow : isText (lit "allow") (fetch (lit "verdict") verdict) with
      | false => exact ⟨_, rfl⟩
      | true =>
          rw [hp, bears, hallow, Bool.true_and] at hb
          refine ⟨lit "policy verdict does not match decision content", ?_⟩
          rw [digest, hh]
          show (if !isText h (fetch (lit "decision_hash") verdict) then _ else _) = _
          rw [hb]
          rfl
  | none | bool _ | int _ | float _ | str _ | list _ => exact ⟨_, rfl⟩

/-- Whatever the executors do, the decision was dispatched first. -/
theorem dispatches_of_bears {payload : Obj φ} {h : Str}
    (hh : canonicalHash env.hashes (.dict (clean payload)) = some h)
    (hb : bears h (fetch (lit "_policy") payload) = true) (s : Run σ φ) :
    Dispatches env payload (clean payload) s := by
  let H : Run σ φ → Prop := fun t =>
    ∃ e events, t.events = s.events ++ e :: events ∧ e.call = .dispatch (clean payload)
  have hkeeps : ∀ {α : Type} {m : EngineM σ φ α}, Quiet m → Moves (Stays H) m := by
    refine Moves.mono ?_
    rintro t u ⟨more, hmore, -⟩ ⟨e, events, hevents, hcall⟩
    exact ⟨e, events ++ more, by rw [hmore, hevents, List.append_assoc, List.cons_append], hcall⟩
  have hask : Reaches H (env.ask (.dispatch (clean payload))) s :=
    ⟨⟨env.interfere s.world, .dispatch (clean payload), .ok ()⟩, [], rfl, rfl⟩
  have hreach : Reaches H (execute env payload) s := by
    rw [execute, executeVerdict_of_bears hh hb]
    refine (hask.bind fun _ => ?_).bind fun _ => hkeeps (moves_reportExecution quiet_ask _ _)
    exact hkeeps (.attempt (moves_dispatchBody quiet_ask _) fun _ => .pure _)
  exact hreach.final

theorem refuses_of_not_bears {payload : Obj φ} {h : Str}
    (hh : canonicalHash env.hashes (.dict (clean payload)) = some h)
    (hb : bears h (fetch (lit "_policy") payload) = false) (s : Run σ φ) :
    Refuses env payload s := by
  obtain ⟨reason, hverdict⟩ := executeVerdict_of_not_bears hh hb
  refine ⟨reason, ?_, ?_⟩
  · rw [execute, hverdict]
    rfl
  · rw [execute, hverdict]
    exact ⟨_, _, _, rfl, rfl⟩

/-! ## The decision a token is for -/

/-- SHA-256 tells the canonical texts of two decisions apart, if they differ. -/
def NoCollision (hashes : Hashlib) (d e : Obj φ) : Prop :=
  ∀ t u, canonicalJson (.dict d) = some t → canonicalJson (.dict e) = some u →
    hashes.sha256 t = hashes.sha256 u → t = u

theorem canonicalHash_eq_iff {d e : Obj φ} (hd : IsDecision d) (he : IsDecision e)
    {hashes : Hashlib} (hno : NoCollision hashes d e) :
    canonicalHash hashes (.dict d) = canonicalHash hashes (.dict e) ↔
      SameJson (.dict d) (.dict e) := by
  have hdoc : ∀ {d : Obj φ}, IsDecision d →
      canonicalJson (.dict d) = some (render compact (doc (.dict d))) := by
    intro d h
    rw [canonicalJson, dumps, encode_eq_doc _ (textKeyed_of_isJson _ h.json)]
    rfl
  rw [← dumps_eq_iff standard_compact hd.json he.json]
  show (canonicalJson (.dict d)).map _ = (canonicalJson (.dict e)).map _ ↔
    canonicalJson (.dict d) = canonicalJson (.dict e)
  constructor
  · intro h
    have htext := hno _ _ (hdoc hd) (hdoc he)
    rw [hdoc hd, hdoc he, Option.map_some, Option.map_some, Option.some.injEq] at h
    rw [hdoc hd, hdoc he, htext h]
  · exact fun h => congrArg _ h

/-- For every two decisions, with the token that `_execute_gated` computes for the second:
`execute` dispatches the first exactly if it equals the second with its trace, as JSON
values.  With any value that does not allow the decision under its own digest, and without
a token, it refuses, and no handler and no request runs. -/
theorem verdict_binding (env : Env σ φ) {d d' : Obj φ} (hd : IsDecision d) (hd' : IsDecision d')
    (seq : Nat) (hno : NoCollision env.hashes d (traced seq d')) (s : Run σ φ) :
    ∃ own token, canonicalHash env.hashes (.dict d) = some own ∧
      canonicalHash env.hashes (.dict (traced seq d')) = some token ∧
      (Dispatches env (setKey (lit "_policy") (.dict (allowToken token)) d) d s ↔
        SameJson (.dict d) (.dict (traced seq d'))) ∧
      (∀ v, bears own v = false → Refuses env (setKey (lit "_policy") v d) s) ∧
      Refuses env d s := by
  have hown := hd.canonicalHash env.hashes
  have htoken := (hd'.traced seq).canonicalHash env.hashes
  have hclean : ∀ v, clean (setKey (lit "_policy") v d) = d := fun v =>
    (clean_setKey_policy v d).trans (clean_of_unsigned hd.unsigned)
  have hpolicy : ∀ v, fetch (lit "_policy") (setKey (lit "_policy") v d) = v := fun v => by
    rw [fetch, getKey_setKey_self, Option.getD_some]
  have hrefuse : ∀ v, bears (env.hashes.sha256 (render compact (doc (.dict d)))) v = false →
      Refuses env (setKey (lit "_policy") v d) s := by
    intro v hv
    refine refuses_of_not_bears ?_ ((hpolicy v).symm ▸ hv) s
    rw [hclean, hown]
  refine ⟨_, _, hown, htoken, ?_, hrefuse, ?_⟩
  · have hsame := canonicalHash_eq_iff hd (hd'.traced seq) hno
    rw [hown, htoken, Option.some.injEq] at hsame
    rw [← hsame]
    constructor
    · intro hdisp
      by_contra hne
      refine Refuses.not_dispatches (hrefuse _ ?_) hdisp
      rw [bears_allowToken]
      exact decide_eq_false fun h => hne h.symm
    · intro heq
      have hbears : Dispatches env (setKey (lit "_policy") (.dict (allowToken _)) d)
          (clean (setKey (lit "_policy") (.dict (allowToken _)) d)) s :=
        dispatches_of_bears
          ((congrArg (fun c => canonicalHash env.hashes (.dict c)) (hclean _)).trans hown)
          (by rw [hpolicy, bears_allowToken, heq, decide_eq_true rfl]) s
      rwa [hclean] at hbears
  · have hnone : fetch (lit "_policy") d = .none := by rw [fetch, hd.unsigned, Option.getD_none]
    exact refuses_of_not_bears ((clean_of_unsigned hd.unsigned).symm ▸ hown) (by rw [hnone]; rfl) s

/-- A decision to speak. -/
def spoken : Obj WholeFloat := obj [("action_type", text "speak")]

theorem isDecision_spoken : IsDecision spoken := ⟨by decide +kernel, by decide +kernel⟩

/-- An engine whose handlers all return, before its first call. -/
def calm : Env Unit WholeFloat × Run Unit WholeFloat :=
  (obliging ⟨false, false, false, false⟩ spoken, ⟨consenting ⟨false, false, false, false⟩ 1, []⟩)

/-- The first decision of an engine is dispatched with its trace and its token. -/
theorem own_token_accepted :
    ∃ token, canonicalHash hashlib (.dict (traced 1 spoken)) = some token ∧
      Dispatches calm.1 (setKey (lit "_policy") (.dict (allowToken token)) (traced 1 spoken))
        (traced 1 spoken) calm.2 := by
  have hd := isDecision_spoken.traced 1
  obtain ⟨-, token, -, htoken, hiff, -⟩ := verdict_binding calm.1 hd isDecision_spoken 1
    (fun t u ht hu _ => Option.some.inj (ht.symm.trans hu)) calm.2
  exact ⟨token, htoken, hiff.2 ((doc_eq_iff _ _ hd.json hd.json).1 rfl)⟩

/-- Without its trace the decision is refused, with the token that was computed for it. -/
theorem token_refused_without_trace :
    IsDecision spoken ∧ SameJson (.dict spoken) (.dict spoken) ∧
    ∃ token, canonicalHash hashlib (.dict (traced 1 spoken)) = some token ∧
      ¬ Dispatches calm.1 (setKey (lit "_policy") (.dict (allowToken token)) spoken) spoken
        calm.2 := by
  have hd := isDecision_spoken
  refine ⟨hd, (doc_eq_iff _ _ hd.json hd.json).1 rfl, _, (hd.traced 1).canonicalHash hashlib, ?_⟩
  refine Refuses.not_dispatches (refuses_of_not_bears (h := hashlib.sha256
    (render compact (doc (.dict spoken)))) ?_ ?_ calm.2)
  · rw [clean_setKey_policy, clean_of_unsigned hd.unsigned]
    exact hd.canonicalHash hashlib
  · rw [fetch, getKey_setKey_self, Option.getD_some, bears_allowToken]
    decide +kernel

end Engine

end ShugoCore
