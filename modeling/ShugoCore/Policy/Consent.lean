import ShugoCore.Lib.Dict
import ShugoCore.Clock
import ShugoCore.Lib.PyBuiltins
import ShugoCore.Security

/-!
# Action types and consent

The vocabulary of `policy.py` with the sets that the engine builds from it, and
the `ConsentRegistry`.

The engine's sets depend on which optional modules can be imported.  The network
types are those of `shugonet_bridge.py`, which the engine imports by that name.
-/

namespace ShugoCore

open Py

/-! ## Action types -/

/-- `SIDE_EFFECTING_ACTION_TYPES`. -/
def sideEffectingActionTypes : List Str :=
  [lit "api_call", lit "database_update", lit "hardware_interaction"]

/-- `ROBOTICS_ACTION_TYPES`. -/
def roboticsActionTypes : List Str :=
  [lit "robot_navigate", lit "robot_manipulate", lit "robot_gripper", lit "robot_look"]

/-- `MOBILE_ACTION_TYPES`. -/
def mobileActionTypes : List Str := [lit "mobile_request_compute"]

/-- `NETWORK_ACTION_TYPES` of the bridge. -/
def networkActionTypes : List Str :=
  [lit "network_send", lit "network_query", lit "network_sync", lit "network_spatial_observe",
    lit "network_nrr_render", lit "network_nrr_scene"]

/-- `FLEET_ACTION_TYPES`. -/
def fleetActionTypes : List Str := [lit "fleet_deploy", lit "fleet_dev_task"]

/-- Which optional modules were imported: the `_HAS_…` flags. -/
structure Features where
  robotics : Bool
  mobile : Bool
  shugonet : Bool
  fleet : Bool

/-- `_CONSENT_GATED_ACTION_TYPES`. -/
def consentGatedActionTypes (f : Features) : List Str :=
  sideEffectingActionTypes ++ (if f.robotics then roboticsActionTypes else []) ++
    (if f.mobile then mobileActionTypes else []) ++
    (if f.shugonet then networkActionTypes else []) ++
    (if f.fleet then fleetActionTypes else [])

/-! ## The registry -/

/-- A consent grant. -/
structure Grant where
  actionType : Str
  grantedBy : Str
  scope : Str
  note : Str
  grantedAt : Seconds
  expiresAt : Option Seconds
deriving DecidableEq

/-- `entry["expires_at"] is None or entry["expires_at"] > now`. -/
def Grant.Unexpired (g : Grant) (now : Seconds) : Prop := ∀ t ∈ g.expiresAt, now < t

instance (g : Grant) (now : Seconds) : Decidable (g.Unexpired now) :=
  inferInstanceAs (Decidable (∀ t ∈ g.expiresAt, now < t))

/-- `ConsentRegistry`: the grants of each action type. -/
structure ConsentRegistry where
  grants : Dict Str (List Grant) := []
deriving DecidableEq

namespace ConsentRegistry

/-- The grants of an action type. -/
def entries (r : ConsentRegistry) (actionType : Str) : List Grant :=
  (r.grants.get? actionType).getD []

/-- `grant`.  A `ttl_seconds` of zero is falsy and means no expiry. -/
def grant (r : ConsentRegistry) (now : Seconds) (actionType grantedBy scope note : Str)
    (ttlSeconds : Option Seconds) : ConsentRegistry :=
  let entry : Grant :=
    { actionType := sanitizeText actionType 64
      grantedBy := sanitizeText grantedBy 120
      scope := sanitizeText scope 120
      note := sanitizeText note 300
      grantedAt := now
      expiresAt := (ttlSeconds.filter fun ttl => ttl ≠ 0).map (now + ·) }
  ⟨r.grants.set entry.actionType (r.entries entry.actionType ++ [entry])⟩

/-- `revoke`, with the number of grants it removed. -/
def revoke (r : ConsentRegistry) (actionType : Str) : Nat × ConsentRegistry :=
  ((r.entries actionType).length, ⟨r.grants.remove actionType⟩)

/-- `has_grant`. -/
def hasGrant (r : ConsentRegistry) (now : Seconds) (actionType : Str) : Bool :=
  (r.entries actionType).any fun g => g.Unexpired now

theorem hasGrant_iff {r : ConsentRegistry} {now : Seconds} {actionType : Str} :
    r.hasGrant now actionType = true ↔ ∃ g ∈ r.entries actionType, g.Unexpired now := by
  simp [hasGrant]

/-- `has_grant_for_attended_action`, with the reason of a refusal. -/
def hasGrantForAttendedAction (r : ConsentRegistry) (now : Seconds) (actionType : Str)
    (attentionState : Option Str) : Bool × Option Str :=
  match attentionState with
  | none => (r.hasGrant now actionType, none)
  | some state =>
      if state ≠ lit "attending" ∧ state ≠ lit "unknown" then
        (false, some (lit "human attention is '" ++ state ++
          lit "' (need 'attending' or 'unknown')"))
      else if !r.hasGrant now actionType then
        (false, some (lit "no external consent grant for '" ++ actionType ++ lit "'"))
      else (true, none)

end ConsentRegistry

end ShugoCore
