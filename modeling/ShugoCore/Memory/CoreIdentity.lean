import ShugoCore.Policy.Consent

/-!
# Tier 3: the world-model check

`CoreIdentity.check` of `memory_system.py`.  The texts of the invariants are read
by the system prompt only, and take no part in the check.
-/

namespace ShugoCore

open Py

variable {φ : Type} [Builtins φ]

/-- `CoreIdentity.check` on a dictionary: whether it is allowed, and the violation.
`checker` is the `_consent_checker`, if one is set. -/
def CoreIdentity.check (checker : Option (Str → Bool)) (action : Obj φ) :
    Except Exn (Bool × Option Str) :=
  let actionType := orElse (fetch (lit "type") action) (fetch (lit "action_type") action)
  let params := dictOrEmpty (fetch (lit "params") action)
  if isText (lit "harmful") actionType then .ok (false, some (lit "invariant: no_harm"))
  else if truthy (fetch (lit "manipulative") action) || truthy (fetch (lit "manipulative") params)
  then .ok (false, some (lit "invariant: no_manipulation"))
  else do
    let sideEffecting ← valueIn sideEffectingActionTypes actionType
    if sideEffecting && !(checker.any fun f => f (strOf actionType)) then
      return (false, some (lit "invariant: consent_required"))
    else if truthy (fetch (lit "involves_personal_data") action) &&
        !truthy (fetch (lit "privacy_compliant") action) then
      return (false, some (lit "invariant: privacy"))
    else return (true, none)

end ShugoCore
