import Mathlib.Data.List.DropRight
import ShugoCore.Delegation.Manager

/-!
# Feedback about a backend

A caller of `DelegationManager` names a backend by the scope and the URL that it registered it with.
`BackendEntry` strips the slashes at the end of the URL, and the three operations that look a backend
up compare the URL as it is given.

They reach the backend if and only if its URL was registered without a slash at the end
(`feedback_heeded_iff`).
-/

namespace ShugoCore

open Py Machine

/-- `str(base_url).rstrip("/")`. -/
def strippedUrl (url : Str) : Str := url.rdropWhile (· = 47)

/-- The URL ends with a slash. -/
def EndsInSlash (url : Str) : Prop := url.getLast? = some 47

theorem strippedUrl_eq_self_iff {url : Str} : strippedUrl url = url ↔ ¬ EndsInSlash url := by
  rw [strippedUrl, List.rdropWhile_eq_self_iff, EndsInSlash]
  constructor
  · intro h hlast
    obtain ⟨hne, heq⟩ := List.mem_getLast?_eq_getLast hlast
    exact h hne (by rw [← heq]; rfl)
  · intro h hne hlast
    rw [List.getLast?_eq_some_getLast hne, of_decide_eq_true hlast] at h
    exact h rfl

namespace DelegationManager

variable {m : DelegationManager} {scope : BackendScope} {url : Str} {i : Nat}

/-! ## Backends that are found -/

/-- A backend is found by the keys of the registry alone. -/
theorem find_congr {m' : DelegationManager}
    (h : m'.backends.map BackendEntry.key = m.backends.map BackendEntry.key) (scope : BackendScope)
    (url : Str) : m'.find scope url = m.find scope url := by
  have hkeys : ∀ m : DelegationManager,
      m.find scope url = (m.backends.map BackendEntry.key).findIdx? fun k => k = (scope, url) := by
    intro m
    rw [find, List.findIdx?_map]
    rfl
  rw [hkeys, hkeys, h]

theorem lt_of_find (h : m.find scope url = some i) : i < m.backends.length :=
  (List.findIdx?_eq_some_iff_getElem.1 h).1

theorem update_of_find (h : m.find scope url = some i) (f : BackendEntry → BackendEntry) :
    m.update scope url f = { m with backends := m.backends.modify i f } := by
  rw [update, h]

theorem find_update {f : BackendEntry → BackendEntry} (hf : ∀ e, (f e).key = e.key)
    (scope' : BackendScope) (url' : Str) :
    (m.update scope url f).find scope' url' = m.find scope' url' := by
  refine find_congr ?_ scope' url'
  rw [update]
  split
  · exact map_key_modify fun e _ => hf e
  · rfl

/-- What is registered is found under its stripped URL. -/
theorem find_register (m : DelegationManager) (scope : BackendScope) (url backendType : Str)
    (taskTiers : Option (List TaskTier)) :
    ∃ i, (m.register scope url backendType taskTiers).find scope (strippedUrl url) = some i := by
  have hurl : (BackendEntry.new scope url backendType taskTiers).baseUrl = strippedUrl url := rfl
  rw [register, hurl]
  split
  · rename_i i hi
    refine ⟨i, ?_⟩
    rw [← hi]
    refine find_congr ?_ scope (strippedUrl url)
    exact map_key_modify fun e he => (key_of_find hi he).symm
  · rename_i hnone
    refine ⟨m.backends.length, ?_⟩
    rw [find] at hnone
    rw [find, List.findIdx?_append, hnone, List.findIdx?_singleton]
    have hkey : (BackendEntry.new scope url backendType taskTiers).key = (scope, strippedUrl url) := rfl
    rw [hkey, if_pos (decide_eq_true rfl)]
    simp

/-! ## What is asked of feedback -/

variable {φ : Type} [FloatFormat φ]

/-- The calls about a URL act on the backend at this position, and on no other: an error or a success
is recorded there, three errors keep it from being selected for the cooldown, and it is removed. -/
structure Heeded (φ : Type) [FloatFormat φ] (m : DelegationManager) (scope : BackendScope) (url : Str)
    (i : Nat) : Prop where
  error : ∀ now, m.recordError scope url now =
    { m with backends := m.backends.modify i fun e => e.recordError now }
  success : ∀ latencyMs, m.recordSuccess scope url latencyMs =
    { m with backends := m.backends.modify i fun e => e.recordSuccess latencyMs }
  skipped : ∀ (t₁ t₂ t₃ : Seconds) (r : Request φ) (clock : CheckTimes) (e : BackendEntry),
    (∀ loop, clock loop i < t₃ + 30) →
      (((m.recordError scope url t₁).recordError scope url t₂).recordError scope url t₃).select r
        clock ≠ some (e, i)
  removed : m.unregister scope url =
    (true, {
      backends := m.backends.eraseIdx i
      active := if m.active = some (scope, strippedUrl url) then none else m.active })

/-- Feedback is heeded: as long as the backend is registered, the calls with the URL that it was
registered with act on it. -/
def FeedbackHeeded (φ : Type) [FloatFormat φ] (m : DelegationManager) (scope : BackendScope) (url : Str) :
    Prop :=
  ∀ (calls : List (Call φ)) (i : Nat), (run step m calls).find scope (strippedUrl url) = some i →
    Heeded φ (run step m calls) scope url i

/-- A backend that is not healthy in either loop is not selected. -/
theorem select_ne_of_unhealthy (r : Request φ) {clock : CheckTimes} {e : BackendEntry}
    (h : ∀ loop, e.healthy (clock loop i) = false) : m.select r clock ≠ some (e, i) := by
  intro hselect
  rcases m.select_cases r clock with ⟨c, -, heligible, hc⟩ | ⟨-, hfallback⟩
  · cases hc.symm.trans hselect
    have hhealthy := (Bool.and_eq_true_iff.1 heligible).2
    rw [h] at hhealthy
    cases hhealthy
  · rw [hselect] at hfallback
    have hlast : lastResort clock (e, i) = true := List.find?_some hfallback.symm
    have hhealthy := (Bool.and_eq_true_iff.1 hlast).2
    rw [h] at hhealthy
    cases hhealthy

/-- The backend that is selected is the one at its position. -/
theorem getElem?_of_select (r : Request φ) {clock : CheckTimes} {e : BackendEntry}
    (h : m.select r clock = some (e, i)) : m.backends[i]? = some e := by
  have hmem : (e, i) ∈ m.backends.zipIdx := by
    rcases m.select_cases r clock with ⟨c, hc, -, hselect⟩ | ⟨-, hselect⟩
    · cases hselect.symm.trans h
      exact hc
    · exact List.mem_of_find?_eq_some (hselect.symm.trans h)
  exact List.mem_zipIdx_iff_getElem?.1 hmem

theorem unhealthy_of_errors {e : BackendEntry} {now : Seconds} (herrors : 3 ≤ e.consecutiveErrors)
    (hnow : now < e.lastErrorTs + 30) : e.healthy now = false := by
  rw [BackendEntry.healthy, Bool.or_eq_false_iff, decide_eq_false_iff_not, decide_eq_false_iff_not]
  constructor
  · omega
  · linarith

/-- A backend that is found by the URL of the caller is the one that the calls act on. -/
theorem heeded_of_find (h : m.find scope url = some i) (hurl : strippedUrl url = url) :
    Heeded φ m scope url i where
  error now := update_of_find h _
  success latencyMs := update_of_find h _
  skipped t₁ t₂ t₃ r clock e hclock hselect := by
    have hkey : ∀ t (e : BackendEntry), (e.recordError t).key = e.key := fun _ _ => rfl
    have h₁ : (m.recordError scope url t₁).find scope url = some i := (find_update (hkey t₁) _ _).trans h
    have h₂ : ((m.recordError scope url t₁).recordError scope url t₂).find scope url = some i :=
      (find_update (hkey t₂) _ _).trans h₁
    have hget := getElem?_of_select r hselect
    rw [recordError, update_of_find h₂, recordError, update_of_find h₁, recordError, update_of_find h,
      List.getElem?_modify_eq, List.getElem?_modify_eq, List.getElem?_modify_eq] at hget
    cases hi : m.backends[i]? with
    | none =>
        rw [hi] at hget
        cases hget
    | some e₀ =>
        rw [hi] at hget
        cases hget
        refine select_ne_of_unhealthy r ?_ hselect
        intro loop
        refine unhealthy_of_errors ?_ (hclock loop)
        show 3 ≤ e₀.consecutiveErrors + 1 + 1 + 1
        omega
  removed := by
    rw [unregister, h, hurl]

/-- For every registry, scope and URL: after a registration, feedback with the same scope and URL is
heeded for as long as the backend is registered, if and only if the URL does not end with a slash. -/
theorem feedback_heeded_iff (m : DelegationManager) (scope : BackendScope) (url backendType : Str)
    (taskTiers : Option (List TaskTier)) :
    FeedbackHeeded φ (m.register scope url backendType taskTiers) scope url ↔ ¬ EndsInSlash url := by
  rw [← strippedUrl_eq_self_iff]
  constructor
  · intro h
    obtain ⟨i, hi⟩ := find_register m scope url backendType taskTiers
    have herror := (h [] i hi).error 0
    generalize m.register scope url backendType taskTiers = m' at hi herror
    by_contra hne
    have hlt := lt_of_find hi
    have hkey := key_of_find hi (List.getElem?_eq_getElem hlt)
    -- the entry is another one than the one that the call acts on, if there is one
    have hsame : (m'.recordError scope url 0).backends[i]? = m'.backends[i]? := by
      rw [recordError, update]
      split
      · rename_i j hj
        show (m'.backends.modify j _)[i]? = _
        rw [List.getElem?_modify_ne]
        rintro rfl
        have hkey' := key_of_find hj (List.getElem?_eq_getElem hlt)
        exact hne (Prod.mk.inj (hkey.symm.trans hkey')).2
      · rfl
    rw [run_nil] at herror
    rw [herror, List.getElem?_modify_eq, List.getElem?_eq_getElem hlt] at hsame
    have herrors := congrArg BackendEntry.consecutiveErrors (Option.some.inj hsame)
    exact absurd herrors (Nat.succ_ne_self _)
  · intro hurl calls i hi
    rw [hurl] at hi
    exact heeded_of_find hi hurl

/-- A registry with a backend whose URL was given with a slash at the end. -/
def tablet : DelegationManager := new.register .lan (lit "http://tab:11434/") (lit "ollama") none

/-- Its errors are not recorded, and it cannot be unregistered. -/
theorem tablet_unheeded :
    tablet.recordError .lan (lit "http://tab:11434/") 0 = tablet ∧
      tablet.unregister .lan (lit "http://tab:11434/") = (false, tablet) ∧
      ∀ {φ : Type} [FloatFormat φ], ¬ FeedbackHeeded φ tablet .lan (lit "http://tab:11434/") := by
  have hnone : tablet.find .lan (lit "http://tab:11434/") = none := by decide
  have hfound : tablet.find .lan (strippedUrl (lit "http://tab:11434/")) = some 0 := by decide
  have hremoved : tablet.unregister .lan (lit "http://tab:11434/") = (false, tablet) := by
    rw [unregister, hnone]
  refine ⟨?_, hremoved, ?_⟩
  · rw [recordError, update, hnone]
  · intro φ _ h
    have htrue := (h [] 0 hfound).removed
    rw [run_nil, hremoved] at htrue
    cases htrue

end DelegationManager

end ShugoCore
