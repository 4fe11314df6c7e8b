import ShugoCore.Delegation.Manager

/-!
# What a task is routed to

Two properties of `select_backend` over every registry that calls lead to, and when they hold.

What it returns is allowed by the policy and serves the tier if the first loop finds it.  The
second loop asks for neither (`routing_respects_policy_iff`).  If no time passes between the
loops, it returns nothing but violations (`respected_iff_of_same_time`).

A light task is said to stay on the machine, and a standard one within the LAN.  They do, unless
a backend beyond is the only one that the first loop can take: the order of a tier is a
preference, and all other backends follow it (`tier_local_iff`).
-/

namespace ShugoCore

open Py Machine

variable {φ : Type} [FloatFormat φ]

namespace DelegationManager

/-- The policy allows the scope that is returned, and the backend that is returned serves the
tier. -/
def Respected (m : DelegationManager) (r : Request φ) (answer : Option (Str × BackendScope)) : Prop :=
  ∀ url scope, answer = some (url, scope) → policyAllows r.networkPolicy r.consent scope = true ∧
    ∀ e ∈ m.backends, e.key = (scope, url) → e.servesTier r.tier = true

/-- The first loop has a backend to take. -/
def Served (m : DelegationManager) (r : Request φ) (clock : CheckTimes) : Prop :=
  ∃ c ∈ m.backends.zipIdx, eligible r clock c = true

/-- With unique keys, the answer is about the backend that is taken. -/
theorem respected_iff {m : DelegationManager} (h : m.Unique) (r : Request φ) {clock : CheckTimes}
    {c : IndexedBackend} (hc : c ∈ m.backends.zipIdx) (hselect : m.select r clock = some c) :
    Respected m r (m.selectBackend r clock).1 ↔ r.permits c.1 = true := by
  have hmem : c.1 ∈ m.backends := List.fst_mem_of_mem_zipIdx hc
  have hanswer : (m.selectBackend r clock).1 = some (c.1.baseUrl, c.1.scope) := by
    rw [selectBackend, hselect]
  rw [Request.permits, Bool.and_eq_true]
  constructor
  · intro hrespected
    obtain ⟨hallows, hserves⟩ := hrespected _ _ hanswer
    exact ⟨hallows, hserves c.1 hmem rfl⟩
  · rintro ⟨hallows, hserves⟩ url scope hurl
    obtain ⟨rfl, rfl⟩ := Prod.mk.inj (Option.some.inj (hanswer.symm.trans hurl))
    refine ⟨hallows, fun e he hkey => ?_⟩
    rw [List.inj_on_of_nodup_map h he hmem hkey]
    exact hserves

/-- When the answer respects the request: the first loop has a backend to take, or the second
one finds none or one that would have done. -/
theorem respected_selectBackend_iff {m : DelegationManager} (h : m.Unique) (r : Request φ)
    (clock : CheckTimes) :
    Respected m r (m.selectBackend r clock).1 ↔
      m.Served r clock ∨
        ∀ c, m.backends.zipIdx.find? (lastResort clock) = some c → r.permits c.1 = true := by
  rcases m.select_cases r clock with ⟨c, hc, heligible, hselect⟩ | ⟨hnone, hselect⟩
  · rw [respected_iff h r hc hselect]
    exact ⟨fun _ => .inl ⟨c, hc, heligible⟩, fun _ => (Bool.and_eq_true_iff.1 heligible).1⟩
  · have hidle : ¬ m.Served r clock := by
      rintro ⟨c, hc, heligible⟩
      rw [hnone c hc] at heligible
      cases heligible
    rw [or_iff_right hidle]
    cases hfind : m.backends.zipIdx.find? (lastResort clock) with
    | none =>
        rw [hfind] at hselect
        refine ⟨fun _ _ hc => (by cases hc), fun _ url scope hanswer => ?_⟩
        rw [selectBackend, hselect] at hanswer
        cases hanswer
    | some c =>
        rw [hfind] at hselect
        rw [respected_iff h r (List.mem_of_find?_eq_some hfind) hselect]
        exact ⟨fun hpermits _ hc => Option.some.inj hc ▸ hpermits, fun hall => hall c rfl⟩

/-- If no time passes between the loops, whatever the second one returns is a violation: a
localhost backend that would have done is one that the first loop takes. -/
theorem respected_iff_of_same_time {m : DelegationManager} (h : m.Unique) (r : Request φ)
    {clock : CheckTimes} (hclock : clock .preferred = clock .fallback) :
    Respected m r (m.selectBackend r clock).1 ↔
      m.Served r clock ∨ ∀ c ∈ m.backends.zipIdx, lastResort clock c = false := by
  rw [respected_selectBackend_iff h]
  refine or_congr_right' fun hidle => ?_
  constructor
  · intro hfound
    cases hfind : m.backends.zipIdx.find? (lastResort clock) with
    | none =>
        intro c hc
        simpa using List.find?_eq_none.1 hfind c hc
    | some c =>
        have hlast : lastResort clock c = true := List.find?_some hfind
        have hhealthy := (Bool.and_eq_true_iff.1 hlast).2
        rw [← hclock] at hhealthy
        exact absurd ⟨c, List.mem_of_find?_eq_some hfind,
          Bool.and_eq_true_iff.2 ⟨hfound c hfind, hhealthy⟩⟩ hidle
  · intro hnone c hfind
    have hlast := List.find?_some hfind
    rw [hnone c (List.mem_of_find?_eq_some hfind)] at hlast
    cases hlast

/-! ## The locality of a tier -/

/-- A backend in a scope of the tier is taken, if there is one to take. -/
theorem select_preferred {m : DelegationManager} {r : Request φ} {clock : CheckTimes}
    {c : IndexedBackend} (hc : c ∈ m.backends.zipIdx) (heligible : eligible r clock c = true)
    (hscope : c.1.scope ∈ r.tier.order) :
    ∃ d, m.select r clock = some d ∧ d.1.scope ∈ r.tier.order := by
  obtain ⟨pre, rest, hsplit, hpre, -⟩ := m.candidates_split r.tier
  have hsome : (pre.find? (eligible r clock)).isSome := by
    rw [List.find?_isSome]
    exact ⟨c, (hpre c).2 ⟨hc, hscope⟩, heligible⟩
  obtain ⟨d, hd⟩ := Option.isSome_iff_exists.1 hsome
  refine ⟨d, ?_, ((hpre d).1 (List.mem_of_find?_eq_some hd)).2⟩
  rw [select, hsplit, List.find?_append, hd]
  rfl

end DelegationManager

/-- The scopes that a tier is meant to stay in: a light task is always local, and a standard one
local or in the LAN. -/
def TaskTier.staysIn : TaskTier → BackendScope → Bool
  | .light, scope => scope = .localhost
  | .standard, scope => scope ≠ .internet
  | .heavy, _ => true
  | .shared, _ => true

theorem TaskTier.staysIn_localhost (tier : TaskTier) : tier.staysIn .localhost = true := by
  cases tier <;> rfl

/-- Where a tier is bound to some scopes, these are the scopes of its order. -/
theorem TaskTier.staysIn_of_mem_order {tier : TaskTier} {scope : BackendScope}
    (h : scope ∈ tier.order) : tier.staysIn scope = true := by
  revert h
  cases tier <;> cases scope <;> decide

theorem TaskTier.mem_order_or_unbound {tier : TaskTier} {scope : BackendScope}
    (h : tier.staysIn scope = true) : scope ∈ tier.order ∨ ∀ other, tier.staysIn other = true := by
  revert h
  cases tier <;> cases scope <;> simp [TaskTier.staysIn, TaskTier.order]

open DelegationManager

/-- What is returned is allowed by the policy and serves the tier, if and only if the first loop
has a backend to take, or the second loop finds none or one that would have done. -/
theorem routing_respects_policy_iff (calls : List (Call φ)) (r : Request φ) (clock : CheckTimes) :
    Respected (run step new calls) r ((run step new calls).selectBackend r clock).1 ↔
      (run step new calls).Served r clock ∨
        ∀ c, (run step new calls).backends.zipIdx.find? (lastResort clock) = some c →
          r.permits c.1 = true :=
  respected_selectBackend_iff (inv_run (fun _ call h => h.step call) unique_new calls) r clock

/-- A registry with one backend, on the machine. -/
def localBackend : List (Call WholeFloat) :=
  [.register .localhost (lit "http://127.0.0.1:11434") (lit "ollama") none]

/-- A request to speak, under a policy that does not allow localhost. -/
def speakNotHere : Request WholeFloat :=
  ⟨some (lit "speak"), obj [("localhost", .bool false), ("lan", .bool true)], false⟩

/-- It is routed to localhost. -/
theorem speakNotHere_routed_to_localhost :
    ((run step new localBackend).selectBackend speakNotHere fun _ _ => 0).1 =
        some (lit "http://127.0.0.1:11434", .localhost) ∧
      policyAllows speakNotHere.networkPolicy speakNotHere.consent .localhost = false ∧
      ¬ Respected (run step new localBackend) speakNotHere
        ((run step new localBackend).selectBackend speakNotHere fun _ _ => 0).1 := by
  have hanswer : ((run step new localBackend).selectBackend speakNotHere fun _ _ => 0).1 =
      some (lit "http://127.0.0.1:11434", .localhost) := by decide +kernel
  have hblocked : policyAllows speakNotHere.networkPolicy speakNotHere.consent .localhost = false := by
    decide
  refine ⟨hanswer, hblocked, fun hrespected => ?_⟩
  have hallows := (hrespected _ _ hanswer).1
  rw [hblocked] at hallows
  cases hallows

/-- A task is routed to a scope that its tier is meant to stay in, if and only if the first loop
can take a backend there, or can take none anywhere else. -/
theorem tier_local_iff (calls : List (Call φ)) (r : Request φ) (clock : CheckTimes) :
    (∀ url scope, ((run step new calls).selectBackend r clock).1 = some (url, scope) →
        r.tier.staysIn scope = true) ↔
      (∃ c ∈ (run step new calls).backends.zipIdx,
          eligible r clock c = true ∧ r.tier.staysIn c.1.scope = true) ∨
        ∀ c ∈ (run step new calls).backends.zipIdx,
          eligible r clock c = true → r.tier.staysIn c.1.scope = true := by
  generalize run step new calls = m
  have hanswer {c : IndexedBackend} (hselect : m.select r clock = some c) :
      (m.selectBackend r clock).1 = some (c.1.baseUrl, c.1.scope) := by
    rw [selectBackend, hselect]
  constructor
  · intro hlocal
    rcases m.select_cases r clock with ⟨c, hc, heligible, hselect⟩ | ⟨hnone, -⟩
    · exact .inl ⟨c, hc, heligible, hlocal _ _ (hanswer hselect)⟩
    · refine .inr fun c hc heligible => ?_
      rw [hnone c hc] at heligible
      cases heligible
  · intro hcond url scope hurl
    have hselected {c : IndexedBackend} (hselect : m.select r clock = some c) : c.1.scope = scope :=
      (Prod.mk.inj (Option.some.inj ((hanswer hselect).symm.trans hurl))).2
    rcases hcond with ⟨c, hc, heligible, hstays⟩ | hall
    · rcases TaskTier.mem_order_or_unbound hstays with horder | hunbound
      · obtain ⟨d, hselect, hd⟩ := select_preferred hc heligible horder
        rw [← hselected hselect]
        exact TaskTier.staysIn_of_mem_order hd
      · exact hunbound scope
    · rcases m.select_cases r clock with ⟨c, hc, heligible, hselect⟩ | ⟨-, hselect⟩
      · rw [← hselected hselect]
        exact hall c hc heligible
      · cases hfind : m.backends.zipIdx.find? (lastResort clock) with
        | none =>
            rw [selectBackend, hselect, hfind] at hurl
            cases hurl
        | some c =>
            have hlast : lastResort clock c = true := List.find?_some hfind
            rw [lastResort, Bool.and_eq_true] at hlast
            rw [← hselected (hselect.trans hfind), of_decide_eq_true hlast.1]
            exact r.tier.staysIn_localhost

/-- A registry with one backend, in the LAN. -/
def lanBackend : List (Call WholeFloat) :=
  [.register .lan (lit "http://192.168.1.50:11434") (lit "ollama") none]

/-- A request to record an observation, under the default policy. -/
def recordObservation : Request WholeFloat :=
  ⟨some (lit "record_observation"),
    obj [("internet", .bool false), ("lan", .bool true), ("localhost", .bool true)], false⟩

/-- It is light, and it is routed to the LAN. -/
theorem recordObservation_routed_to_lan :
    recordObservation.tier = .light ∧
      ((run step new lanBackend).selectBackend recordObservation fun _ _ => 0).1 =
        some (lit "http://192.168.1.50:11434", .lan) ∧
      ¬ ∀ url scope, ((run step new lanBackend).selectBackend recordObservation fun _ _ => 0).1 =
        some (url, scope) → recordObservation.tier.staysIn scope = true := by
  have htier : recordObservation.tier = .light := by decide
  have hanswer : ((run step new lanBackend).selectBackend recordObservation fun _ _ => 0).1 =
      some (lit "http://192.168.1.50:11434", .lan) := by decide +kernel
  refine ⟨htier, hanswer, fun hlocal => ?_⟩
  have hstays := hlocal _ _ hanswer
  rw [htier] at hstays
  cases hstays

end ShugoCore
