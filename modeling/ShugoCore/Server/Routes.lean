import ShugoCore.Lib.PyText

/-!
# The routes of the server

`shugocore_server.py` has two tables of its routes.  `route_name` names the bucket that a request is
counted under, and `_dispatch` finds the handler that answers it.  Both take a path that is
normalized.  Where a path has a part in the middle that is anything, the two test it in different
ways: `route_name` by its parts, `_dispatch` by its beginning and end first.

So they part for a grant whose type is called as a verdict is, and for a grant of a path that does
not begin with a slash.  These requests are counted as grants and get the answer that there is no
such path (`routes_agree_iff`).
-/

namespace ShugoCore

open Py

/-- The verbs that are dispatched. -/
inductive Method where
  | get | post
deriving DecidableEq, Repr

/-- A handler of `_dispatch`, with the part of the path that it takes. -/
inductive Endpoint where
  | health | tags | status | activity | uptime | approvals | consent | fleet | sensors | security
  | generate | chat | task | fleetPair
  | approve (requestId : Str)
  | deny (requestId : Str)
  | consentGrant (actionType : Str)
  | consentRevoke (actionType : Str)
deriving DecidableEq, Repr

namespace Routes

/-- `path.split("/")`. -/
def parts (path : Str) : List Str := path.splitOn 47

/-- `_approval_request_id`. -/
def approvalRequestId (path : Str) : Option Str :=
  match parts path with
  | [_, api, v1, approvals, requestId, verdict] =>
      if api = lit "api" ∧ v1 = lit "v1" ∧ approvals = lit "approvals" ∧
          (verdict = lit "approve" ∨ verdict = lit "deny") ∧ requestId ≠ [] then
        some requestId
      else none
  | _ => none

/-- `_consent_action_type`. -/
def consentActionType (path : Str) : Option Str :=
  match parts path with
  | [_, api, v1, consent, actionType] =>
      if api = lit "api" ∧ v1 = lit "v1" ∧ consent = lit "consent" ∧ actionType ≠ [] then
        some actionType
      else none
  | [_, api, v1, consent, actionType, revoke] =>
      if api = lit "api" ∧ v1 = lit "v1" ∧ consent = lit "consent" ∧ actionType ≠ [] ∧
          revoke = lit "revoke" then
        some actionType
      else none
  | _ => none

/-- `path.endswith("/" + name)`. -/
def endsWith (path : Str) (name : String) : Prop := (47 :: lit name) <:+ path

/-- `path.startswith("/api/v1/consent/")`. -/
def startsConsent (path : Str) : Prop := lit "/api/v1/consent/" <+: path

instance (path : Str) (name : String) : Decidable (endsWith path name) :=
  inferInstanceAs (Decidable (_ <:+ _))

instance (path : Str) : Decidable (startsConsent path) := inferInstanceAs (Decidable (_ <+: _))

/-- `route_name`. -/
def routeName (method : Method) (path : Str) : Option String :=
  match method with
  | .get =>
      if path = lit "/health" then some "health"
      else if path = lit "/api/tags" then some "tags"
      else if path = lit "/api/v1/status" then some "status"
      else if path = lit "/api/v1/activity" then some "activity"
      else if path = lit "/api/v1/uptime" then some "uptime"
      else if path = lit "/api/v1/approvals" then some "approvals"
      else if path = lit "/api/v1/consent" then some "consent"
      else if path = lit "/api/v1/fleet" then some "fleet"
      else if path = lit "/api/v1/sensors" then some "sensors"
      else if path = lit "/api/v1/security" then some "security"
      else none
  | .post =>
      if path = lit "/api/generate" then some "generate"
      else if path = lit "/api/chat" then some "chat"
      else if path = lit "/api/v1/task" then some "task"
      else if path = lit "/api/v1/fleet" then some "fleet_pair"
      else if (approvalRequestId path).isSome then
        some (if endsWith path "approve" then "approve" else "deny")
      else if (consentActionType path).isSome then
        some (if endsWith path "revoke" then "consent_revoke" else "consent_grant")
      else none

/-- The handler that `_dispatch` finds, in the order of its tests. -/
def endpoint (method : Method) (path : Str) : Option Endpoint :=
  if path = lit "/health" ∧ method = .get then some .health
  else if path = lit "/api/tags" ∧ method = .get then some .tags
  else if path = lit "/api/generate" ∧ method = .post then some .generate
  else if path = lit "/api/chat" ∧ method = .post then some .chat
  else if path = lit "/api/v1/status" ∧ method = .get then some .status
  else if path = lit "/api/v1/activity" ∧ method = .get then some .activity
  else if path = lit "/api/v1/uptime" ∧ method = .get then some .uptime
  else if path = lit "/api/v1/approvals" ∧ method = .get then some .approvals
  else if path = lit "/api/v1/fleet" ∧ method = .get then some .fleet
  else if path = lit "/api/v1/fleet" ∧ method = .post then some .fleetPair
  else if path = lit "/api/v1/sensors" ∧ method = .get then some .sensors
  else if path = lit "/api/v1/security" ∧ method = .get then some .security
  else if method = .post ∧ endsWith path "approve" then (approvalRequestId path).map .approve
  else if method = .post ∧ endsWith path "deny" then (approvalRequestId path).map .deny
  else if path = lit "/api/v1/consent" ∧ method = .get then some .consent
  else if method = .post ∧ endsWith path "revoke" then (consentActionType path).map .consentRevoke
  else if method = .post ∧ startsConsent path then (consentActionType path).map .consentGrant
  else if path = lit "/api/v1/task" ∧ method = .post then some .task
  else none

end Routes

/-- The bucket of a handler. -/
def Endpoint.name : Endpoint → String
  | .health => "health"
  | .tags => "tags"
  | .status => "status"
  | .activity => "activity"
  | .uptime => "uptime"
  | .approvals => "approvals"
  | .consent => "consent"
  | .fleet => "fleet"
  | .sensors => "sensors"
  | .security => "security"
  | .generate => "generate"
  | .chat => "chat"
  | .task => "task"
  | .fleetPair => "fleet_pair"
  | .approve _ => "approve"
  | .deny _ => "deny"
  | .consentGrant _ => "consent_grant"
  | .consentRevoke _ => "consent_revoke"

namespace Routes

/-! ## Paths and their parts -/

variable {path : Str}

theorem parts_ne_nil (path : Str) : parts path ≠ [] := List.splitOn_ne_nil 47 path

theorem intercalate_parts (path : Str) : [47].intercalate (parts path) = path :=
  List.intercalate_splitOn 47

theorem parts_append (front back : Str) : parts (front ++ 47 :: back) = parts front ++ parts back :=
  List.splitOn_append_cons_self front back

theorem parts_of_not_mem {part : Str} (h : 47 ∉ part) : parts part = [part] :=
  List.splitOn_eq_singleton h

theorem intercalate_append {front back : List Str} (hfront : front ≠ []) (hback : back ≠ []) :
    [47].intercalate (front ++ back) = [47].intercalate front ++ 47 :: [47].intercalate back := by
  induction front with
  | nil => exact absurd rfl hfront
  | cons part front ih =>
      cases front with
      | nil =>
          rw [List.singleton_append, List.intercalate_cons_of_ne_nil hback, List.intercalate_singleton]
          simp
      | cons part' front =>
          rw [List.cons_append, List.cons_append, List.intercalate_cons_cons, ← List.cons_append,
            ih (List.cons_ne_nil _ _), List.intercalate_cons_cons]
          simp

/-- Parts are separated by slashes. -/
theorem eq_of_parts {front back : List Str} (hfront : front ≠ []) (hback : back ≠ [])
    (h : parts path = front ++ back) :
    path = [47].intercalate front ++ 47 :: [47].intercalate back := by
  rw [← intercalate_append hfront hback, ← h, intercalate_parts]

/-- A path ends on a name after a slash if and only if that is the last of several parts. -/
theorem endsWith_iff {name : String} (hname : 47 ∉ lit name) :
    endsWith path name ↔ ∃ front, front ≠ [] ∧ parts path = front ++ [lit name] := by
  constructor
  · rintro ⟨front, rfl⟩
    exact ⟨parts front, parts_ne_nil front, by rw [parts_append, parts_of_not_mem hname]⟩
  · rintro ⟨front, hfront, h⟩
    rw [eq_of_parts hfront (List.cons_ne_nil _ _) h, List.intercalate_singleton]
    exact List.suffix_append ..

theorem startsConsent_iff :
    startsConsent path ↔
      ∃ rest, rest ≠ [] ∧ parts path = [[], lit "api", lit "v1", lit "consent"] ++ rest := by
  have hconsent : lit "/api/v1/consent/" = lit "/api/v1/consent" ++ [47] := by decide +kernel
  have hparts : parts (lit "/api/v1/consent") = [[], lit "api", lit "v1", lit "consent"] := by
    decide +kernel
  constructor
  · rintro ⟨rest, rfl⟩
    refine ⟨parts rest, parts_ne_nil rest, ?_⟩
    rw [hconsent, List.append_assoc, List.singleton_append, parts_append, hparts]
  · rintro ⟨rest, hrest, h⟩
    rw [eq_of_parts (List.cons_ne_nil _ _) hrest h, ← hparts, intercalate_parts, startsConsent,
      hconsent]
    exact ⟨[47].intercalate rest, by simp⟩

/-- In a path of several parts, the last one decides. -/
theorem endsWith_iff_last (front : List Str) {last : Str} (h : parts path = front ++ [last])
    (hfront : front ≠ []) {name : String} (hname : 47 ∉ lit name) :
    endsWith path name ↔ last = lit name := by
  rw [endsWith_iff hname]
  constructor
  · rintro ⟨front', -, h'⟩
    exact (List.cons.inj (List.append_inj' (h.symm.trans h') rfl).2).1
  · rintro rfl
    exact ⟨front, hfront, h⟩

theorem approvalRequestId_eq_some {requestId : Str} (h : approvalRequestId path = some requestId) :
    ∃ first verdict,
      parts path = [first, lit "api", lit "v1", lit "approvals", requestId, verdict] ∧
      (verdict = lit "approve" ∨ verdict = lit "deny") := by
  unfold approvalRequestId at h
  split at h
  · rename_i first api v1 approvals id verdict hparts
    split at h
    · rename_i hok
      obtain ⟨rfl, rfl, rfl, hverdict, -⟩ := hok
      cases h
      exact ⟨first, verdict, hparts, hverdict⟩
    · cases h
  · cases h

/-- A path that grants, or a path that revokes. -/
theorem consentActionType_eq_some {actionType : Str} (h : consentActionType path = some actionType) :
    actionType ≠ [] ∧ ∃ first,
      parts path = [first, lit "api", lit "v1", lit "consent", actionType] ∨
      parts path = [first, lit "api", lit "v1", lit "consent", actionType, lit "revoke"] := by
  unfold consentActionType at h
  split at h
  · rename_i first api v1 consent a hparts
    split at h
    · rename_i hok
      obtain ⟨rfl, rfl, rfl, hne⟩ := hok
      cases h
      exact ⟨hne, first, .inl hparts⟩
    · cases h
  · rename_i first api v1 consent a revoke hparts
    split at h
    · rename_i hok
      obtain ⟨rfl, rfl, rfl, hne, rfl⟩ := hok
      cases h
      exact ⟨hne, first, .inr hparts⟩
    · cases h
  · cases h

/-! ## The two tables -/

/-- A grant that is counted and not found: its type is called as a verdict is, or its path does not
begin with a slash. -/
def Lost (method : Method) (path : Str) : Prop :=
  method = .post ∧ ∃ first actionType,
    parts path = [first, lit "api", lit "v1", lit "consent", actionType] ∧ actionType ≠ [] ∧
    (actionType = lit "approve" ∨ actionType = lit "deny" ∨
      first ≠ [] ∧ actionType ≠ lit "revoke")

theorem Lost.length {method : Method} (h : Lost method path) : (parts path).length = 5 := by
  obtain ⟨-, _, _, hparts, -⟩ := h
  rw [hparts]
  rfl

/-- A path of six parts is no such grant. -/
theorem not_lost_of_six {method : Method} {a b c d e f : Str}
    (h : parts path = [a, b, c, d, e, f]) : ¬ Lost method path := by
  intro hlost
  have hlength := hlost.length
  rw [h] at hlength
  cases hlength

theorem routeName_get (path : Str) : routeName .get path = (endpoint .get path).map Endpoint.name := by
  unfold routeName endpoint
  simp only [and_true, reduceCtorEq, and_false, false_and, if_false]
  by_cases hconsent : path = lit "/api/v1/consent"
  · subst hconsent
    decide +kernel
  · simp only [hconsent, if_false, apply_ite (Option.map Endpoint.name)]
    rfl

/-- The paths of a post that have no part that may be anything. -/
def fixedPosts : List Str :=
  [lit "/api/generate", lit "/api/chat", lit "/api/v1/task", lit "/api/v1/fleet"]

theorem routeName_fixed (h : path ∈ fixedPosts) :
    routeName .post path = (endpoint .post path).map Endpoint.name ∧ (parts path).length ≠ 5 := by
  revert path
  decide +kernel

theorem routeName_post (h : path ∉ fixedPosts) :
    routeName .post path =
      if (approvalRequestId path).isSome then
        some (if endsWith path "approve" then "approve" else "deny")
      else if (consentActionType path).isSome then
        some (if endsWith path "revoke" then "consent_revoke" else "consent_grant")
      else none := by
  simp only [fixedPosts, List.mem_cons, List.not_mem_nil, or_false, not_or] at h
  simp only [routeName, h.1, h.2.1, h.2.2.1, h.2.2.2, if_false]

theorem endpoint_post (h : path ∉ fixedPosts) :
    endpoint .post path =
      if endsWith path "approve" then (approvalRequestId path).map .approve
      else if endsWith path "deny" then (approvalRequestId path).map .deny
      else if endsWith path "revoke" then (consentActionType path).map .consentRevoke
      else if startsConsent path then (consentActionType path).map .consentGrant
      else none := by
  simp only [fixedPosts, List.mem_cons, List.not_mem_nil, or_false, not_or] at h
  simp only [endpoint, h.1, h.2.1, h.2.2.1, h.2.2.2, reduceCtorEq, and_false, and_true, true_and,
    if_false]

/-- The names that a path of a post may end on: they have no slash, and they are not the same. -/
theorem verbs : 47 ∉ lit "approve" ∧ 47 ∉ lit "deny" ∧ 47 ∉ lit "revoke" ∧
    lit "deny" ≠ lit "approve" ∧ lit "revoke" ≠ lit "approve" ∧ lit "revoke" ≠ lit "deny" := by
  decide +kernel

theorem agree_of_verdict (hfixed : path ∉ fixedPosts) {requestId : Str}
    (hid : approvalRequestId path = some requestId) :
    routeName .post path = (endpoint .post path).map Endpoint.name := by
  obtain ⟨happrove, hdeny, -, hne, -⟩ := verbs
  obtain ⟨first, verdict, hparts, hverdict⟩ := approvalRequestId_eq_some hid
  have hends := fun {name : String} (hname : 47 ∉ lit name) =>
    endsWith_iff_last [first, lit "api", lit "v1", lit "approvals", requestId]
      hparts (List.cons_ne_nil _ _) hname
  rw [routeName_post hfixed, endpoint_post hfixed, hid]
  rcases hverdict with hv | hv
  · simp only [if_pos ((hends happrove).2 hv)]
    rfl
  · have hnot : ¬ endsWith path "approve" := fun h => hne (hv.symm.trans ((hends happrove).1 h))
    simp only [if_neg hnot, if_pos ((hends hdeny).2 hv)]
    rfl

theorem agree_of_revoke (hfixed : path ∉ fixedPosts) (hid : approvalRequestId path = none)
    {first actionType : Str} (hconsent : consentActionType path = some actionType)
    (hparts : parts path = [first, lit "api", lit "v1", lit "consent", actionType, lit "revoke"]) :
    routeName .post path = (endpoint .post path).map Endpoint.name := by
  obtain ⟨happrove, hdeny, hrevoke, -, hnapprove, hndeny⟩ := verbs
  have hends := fun {name : String} (hname : 47 ∉ lit name) =>
    endsWith_iff_last [first, lit "api", lit "v1", lit "consent", actionType]
      hparts (List.cons_ne_nil _ _) hname
  rw [routeName_post hfixed, endpoint_post hfixed, hid, hconsent]
  have hends' : ∀ {name : String}, 47 ∉ lit name → lit "revoke" ≠ lit name → ¬ endsWith path name :=
    fun hname hne h => hne ((hends hname).1 h)
  simp only [if_neg (hends' happrove hnapprove), if_neg (hends' hdeny hndeny),
    if_pos ((hends hrevoke).2 rfl)]
  rfl

theorem agree_of_grant_iff (hfixed : path ∉ fixedPosts) (hid : approvalRequestId path = none)
    {first actionType : Str} (hconsent : consentActionType path = some actionType)
    (hparts : parts path = [first, lit "api", lit "v1", lit "consent", actionType]) :
    routeName .post path = (endpoint .post path).map Endpoint.name ↔
      ¬ (actionType = lit "approve" ∨ actionType = lit "deny" ∨
        first ≠ [] ∧ actionType ≠ lit "revoke") := by
  obtain ⟨happrove, hdeny, hrevoke, -, hnapprove, hndeny⟩ := verbs
  have hends := fun {name : String} (hname : 47 ∉ lit name) =>
    endsWith_iff_last [first, lit "api", lit "v1", lit "consent"]
      hparts (List.cons_ne_nil _ _) hname
  have hstarts : startsConsent path ↔ first = [] := by
    rw [startsConsent_iff, hparts]
    constructor
    · rintro ⟨rest, -, h⟩
      exact (List.cons.inj h).1
    · rintro rfl
      exact ⟨[actionType], List.cons_ne_nil _ _, rfl⟩
  rw [routeName_post hfixed, endpoint_post hfixed, hid, hconsent]
  simp only [hends happrove, hends hdeny, hends hrevoke, hstarts, Option.isSome_none,
    Option.isSome_some, Bool.false_eq_true, if_false, if_true, Option.map_none, Option.map_some]
  by_cases ha : actionType = lit "approve"
  · simp [ha]
  · by_cases hd : actionType = lit "deny"
    · simp [hd]
    · by_cases hr : actionType = lit "revoke"
      · simp [hr, hnapprove, hndeny, Endpoint.name]
      · by_cases hf : first = [] <;> simp [ha, hd, hr, hf, Endpoint.name]

/-- The bucket that a request is counted under is that of the handler that answers it, if and only
if the request is no grant that gets lost. -/
theorem routes_agree_iff (method : Method) (path : Str) :
    routeName method path = (endpoint method path).map Endpoint.name ↔ ¬ Lost method path := by
  cases method with
  | get => exact iff_of_true (routeName_get path) fun h => by cases h.1
  | post =>
      by_cases hfixed : path ∈ fixedPosts
      · obtain ⟨heq, hlength⟩ := routeName_fixed hfixed
        exact iff_of_true heq fun h => hlength h.length
      cases hid : approvalRequestId path with
      | some requestId =>
          obtain ⟨first, verdict, hparts, -⟩ := approvalRequestId_eq_some hid
          exact iff_of_true (agree_of_verdict hfixed hid) (not_lost_of_six hparts)
      | none =>
          cases hconsent : consentActionType path with
          | none =>
              refine iff_of_true ?_ ?_
              · rw [routeName_post hfixed, endpoint_post hfixed, hid, hconsent]
                simp
              · rintro ⟨-, first, actionType, hparts, hne, -⟩
                rw [consentActionType, hparts] at hconsent
                simp [hne] at hconsent
          | some actionType =>
              obtain ⟨hne, first, hparts | hparts⟩ := consentActionType_eq_some hconsent
              · rw [agree_of_grant_iff hfixed hid hconsent hparts, Lost, hparts]
                simp [hne]
              · exact iff_of_true (agree_of_revoke hfixed hid hconsent hparts) (not_lost_of_six hparts)

end Routes

end ShugoCore
