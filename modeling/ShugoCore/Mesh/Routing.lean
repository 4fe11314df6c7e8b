import Mathlib.Data.List.Sort
import ShugoCore.Lib.PyBuiltins

/-!
# Which device answers

`response_routing.py`, and the part of the agent that collects the candidates for it.
Every device has a score from the perception facts that it publishes, and the best one
that can speak is chosen, if it is near enough.  `select_response_node` puts the node
that took a turn before all others.

The scores are sums of multiples of 0.05, at most halved, so `round(score, 3)` is the sum
itself and the scores are exact here.  The explanations that go with a choice are left
out.
-/

namespace ShugoCore

open Py

variable {φ : Type} [Builtins φ]

/-! ## Numbers -/

/-- The number that `isinstance(v, (int, float))` lets through. -/
def numberOf : PyVal φ → Option (PyFloat ℚ)
  | .bool b => some (.finite (if b then 1 else 0))
  | .int i => some (.finite i)
  | .float (.finite x) => some (.finite (FloatFormat.value x))
  | .float .nan => some .nan
  | .float .posInf => some .posInf
  | .float .negInf => some .negInf
  | _ => none

/-- `q <= x`. -/
def atLeast (q : ℚ) : PyFloat ℚ → Bool
  | .nan | .negInf => false
  | .posInf => true
  | .finite x => q ≤ x

/-- `q < x`. -/
def moreThan (q : ℚ) : PyFloat ℚ → Bool
  | .nan | .negInf => false
  | .posInf => true
  | .finite x => q < x

/-- `x <= q`. -/
def atMost (q : ℚ) : PyFloat ℚ → Bool
  | .nan | .posInf => false
  | .negInf => true
  | .finite x => x ≤ q

/-- `float(x)` of a number.  An integer may be too large. -/
def floatOf : PyVal φ → Except Exn (PyFloat ℚ)
  | .int i => if 2 ^ 1024 - 2 ^ 970 ≤ i.natAbs then .error .overflowError else .ok (.finite i)
  | v => .ok ((numberOf v).getD .nan)

/-! ## Scores -/

/-- `normalise_facts`: the facts without `remote_` before their names. -/
def normaliseFacts (facts : Obj φ) : Except Exn (Obj φ) :=
  let out := facts.foldl (fun out item =>
    let key := strOf item.1.toVal
    setKey (if (lit "remote_").isPrefixOf key then key.drop 7 else key) item.2 out) []
  let faces := fetch (lit "face_count") out
  if (getKey (lit "face_present") out).isNone ∧ (numberOf faces).isSome then do
    let count ← intOf faces
    return setKey (lit "face_present") (.bool (0 < count)) out
  else return out

/-- `_DIRECTED`. -/
def directedSources : List Str :=
  [lit "instruction_directed", lit "verified_person", lit "person_talking"]

/-- `_AMBIENT`. -/
def ambientSources : List Str :=
  [lit "ambient_noise", lit "unattributed_audio", lit "unattributed_speech", lit "none", []]

/-- The weight of a fact, if it is there. -/
def weigh (facts : Obj φ) (key : String) (weight : ℚ) : ℚ :=
  if truthy (fetch (lit key) facts) then weight else 0

/-- `str(v or "").strip().lower()`. -/
def lowered (v : PyVal φ) : Str := lowerLetters (strip (strOf (orElse v (.str []))))

/-- What the age of the last utterance is worth. -/
def utteranceScore (facts : Obj φ) : ℚ :=
  match numberOf (getOr "utterance_age_s" (fetch (lit "transcript_age_s") facts) facts) with
  | some age => if atMost 5 age then 1 / 10 else if atMost 15 age then 1 / 20 else 0
  | none => weigh facts "speech_recent" (1 / 10)

/-- What the source of the speech is worth. -/
def speechScore (facts : Obj φ) : ℚ :=
  let source := lowered (fetch (lit "speech_source") facts)
  if source ∈ directedSources then 3 / 10
  else if source ≠ [] ∧ source ∉ ambientSources then 1 / 5
  else 0

/-- The score of facts that are not too old to count. -/
def signalScore (f : Obj φ) : ℚ :=
  weigh f "face_present" (35 / 100) + weigh f "gaze_toward_camera" (15 / 100) + speechScore f +
    weigh f "voice_active" (1 / 10) + weigh f "presence_present" (15 / 100) +
    weigh f "terminal_active" (3 / 10) + utteranceScore f +
    (if lowered (fetch (lit "attention_state") f) = lit "attending" then 1 / 10 else 0)

/-- The attention layer says that the human is not engaged here. -/
def away (f : Obj φ) : Bool :=
  lowered (fetch (lit "attention_state") f) ∈ [lit "absent", lit "diverted"]

/-- A number that `:.0f` cannot write: an integer that no float is as large as. -/
def unwritable : PyFloat ℚ → Bool
  | .finite x => ((2 ^ 1024 - 2 ^ 970 : Nat) : ℚ) ≤ x
  | .nan | .posInf | .negInf => false

/-- `proximity_score`. -/
def proximityScore (facts : Obj φ) (age : Option (PyFloat ℚ)) : Except Exn ℚ := do
  let f ← normaliseFacts facts
  if away f && !truthy (fetch (lit "face_present") f) then return 0
  else if age.any (atLeast 45) then
    -- The explanation names the age.
    if age.any unwritable then throw .overflowError else return 0
  else if age.any (moreThan 15) then return min 1 (signalScore f / 2)
  else return min 1 (signalScore f)

/-! ## The choice -/

/-- A device that could answer. -/
structure Candidate (φ : Type) where
  deviceId : Str
  facts : Obj φ
  canSpeak : Bool
  isSelf : Bool
  priority : Int
  age : Option (PyFloat ℚ)

/-- A device with its score. -/
structure Scored where
  deviceId : Str
  score : ℚ
  canSpeak : Bool
  isSelf : Bool
  priority : Int
deriving DecidableEq, Repr

/-- The order of `rank`: the score, whether it can speak, the priority, the id. -/
def scoredLe (a b : Scored) : Bool :=
  b.score < a.score || (a.score = b.score &&
    (a.canSpeak && !b.canSpeak || (a.canSpeak = b.canSpeak &&
      (a.priority < b.priority || (a.priority = b.priority && a.deviceId ≤ b.deviceId)))))

/-- A candidate with its score.  One without an id is left out. -/
def scored (c : Candidate φ) : Except Exn (Option Scored) :=
  let device := strip c.deviceId
  if device = [] then return none
  else do
    let score ← proximityScore c.facts c.age
    return some ⟨device, score, c.canSpeak, c.isSelf, c.priority⟩

/-- `rank`. -/
def rank (candidates : List (Candidate φ)) : Except Exn (List Scored) := do
  let all ← candidates.mapM scored
  return all.reduceOption.insertionSort fun a b => scoredLe a b

/-- `select`.  `forced` is the device that the operator wants, or `auto`. -/
def select (candidates : List (Candidate φ)) (forced : PyVal φ) : Except Exn (Option Scored) := do
  let ranked ← rank candidates
  let wanted := strip (strOf forced)
  if truthy forced ∧ wanted ≠ [] ∧ wanted ≠ lit "auto" then
    return (ranked.find? fun c => c.deviceId = wanted).filter Scored.canSpeak
  else return (ranked.find? Scored.canSpeak).filter fun best => 1 / 5 ≤ best.score

/-! ## The candidates of a node -/

/-- What a node knows when it places an answer. -/
structure RouterView (φ : Type) where
  /-- What the node calls itself, and its priority in the election. -/
  nodeId : Str
  priority : Int
  lastObservation : PyVal φ
  telemetry : PyVal φ
  policy : PyVal φ
  /-- `terminal_input_recent()`. -/
  terminalRecent : Bool
  /-- The state that `attention.evaluate()` returns, unless it raises. -/
  attention : Option (PyVal φ)
  peerTts : Dict Str Bool
  /-- `_speak_listener is not None`. -/
  hasListener : Bool
  wallTime : ℚ

/-- `int(v or 500)`. -/
def priorityOf (v : PyVal φ) : Except Exn Int := intOf (orElse v (.int 500))

/-- The age of the facts of a peer: as the peer says, or since they came in. -/
def peerAge (wallTime : ℚ) (peer : Obj φ) : Except Exn (Option (PyFloat ℚ)) :=
  match numberOf (fetch (lit "age_s") peer), numberOf (fetch (lit "received_at") peer) with
  | some age, _ => return some age
  | none, none => return none
  | none, some _ => do
      match ← floatOf (fetch (lit "received_at") peer) with
      | .finite t => return some (.finite (max 0 (wallTime - t)))
      | .negInf => return some .posInf
      | .nan | .posInf => return some (.finite 0)

/-- The candidate that a peer is, if it has an id. -/
def peerCandidate (view : RouterView φ) : PyVal φ → Except Exn (Option (Candidate φ))
  | .dict peer =>
      let device := strip (strOf (orElse (orElse (fetch (lit "device_id") peer)
        (fetch (lit "id") peer)) (.str [])))
      if device = [] then return none
      else do
        let age ← peerAge view.wallTime peer
        let priority ← priorityOf (getOr "priority" (.int 500) peer)
        return some {
          deviceId := device
          facts := peer.filter fun item => (lit "remote_").isPrefixOf (strOf item.1.toVal)
          canSpeak := truthy (getOr "can_speak"
            (.bool ((Dict.get? view.peerTts device).getD true)) peer)
          isSelf := false
          priority := priority
          age := age }
  | _ => return none

/-- The peers that a node knows: those of its observation, or those of its telemetry. -/
def knownPeers (view : RouterView φ) : List (PyVal φ) :=
  match fetch (lit "mesh_peers") (dictOrEmpty view.lastObservation) with
  | .list (p :: ps) => p :: ps
  | _ =>
      match fetch (lit "mesh_peers") (dictOrEmpty view.telemetry) with
      | .list ps => ps
      | _ => []

/-- The facts that a node has about itself. -/
def selfFacts (view : RouterView φ) : Except Exn (Obj φ) := do
  let human := orElse (fetch (lit "human") (dictOrEmpty view.lastObservation)) (.dict [])
  let faces ← methodGet (lit "face_count") human
  let facePresent ← match numberOf faces with
    | some _ => (fun n => decide (0 < n)) <$> intOf faces
    | none => .ok false
  let source ← methodGet (lit "speech_source") human
  let recent ← methodGet (lit "speech_recent") human
  return obj ([("face_present", .bool facePresent), ("speech_source", source),
      ("speech_recent", .bool (truthy recent))] ++
    (if truthy (fetch (lit "voice_active") (dictOrEmpty view.telemetry)) then
      [("voice_active", .bool true)] else []) ++
    (if view.terminalRecent then [("terminal_active", .bool true)] else []) ++
    (match view.attention with
      | some state => [("attention_state", state)]
      | none => []))

/-- `_response_candidates`. -/
def responseCandidates (view : RouterView φ) : Except Exn (List (Candidate φ)) := do
  let facts ← selfFacts view
  let peers ← (knownPeers view).mapM (peerCandidate view)
  return ⟨view.nodeId, facts, view.hasListener, true, view.priority, none⟩ :: peers.reduceOption

/-- `dict(v or {})`, for the facts that came with a turn.  A key that is no text is the
name of no fact that is read. -/
def factsOf (v : PyVal φ) : Except Exn (Obj φ) :=
  match orElse v (.dict []) with
  | .dict d => return d
  | w => do
      let items ← iterate w
      items.foldlM (fun d item => do
        match ← iterate item with
        | [key, value] =>
            match key with
            | .str k => return setKey k value d
            | .list _ | .dict _ => throw .typeError
            | _ => return d
        | _ => throw .valueError) []

/-- The candidates, with the node that took the turn if it is not among them. -/
def withOrigin (candidates : List (Candidate φ)) (preferred : Str) (origin : Option (Obj φ)) :
    Except Exn (List (Candidate φ)) :=
  match origin with
  | none => return candidates
  | some origin =>
      if preferred ≠ [] ∧ strOf (orElse (fetch (lit "device_id") origin) (.str [])) = preferred ∧
          candidates.all (fun c => c.deviceId ≠ preferred) then do
        let facts ← factsOf (fetch (lit "facts") origin)
        let priority ← priorityOf (getOr "priority" (.int 500) origin)
        return candidates ++ [{
          deviceId := preferred
          facts := facts
          canSpeak := truthy (getOr "can_speak" (.bool true) origin)
          isSelf := false
          priority := priority
          age := none }]
      else return candidates

/-- What `select_response_node` chose, as far as it is used. -/
structure Chosen where
  deviceId : Str
  isSelf : Bool
deriving DecidableEq, Repr

/-- `select_response_node`. -/
def selectResponseNode (view : RouterView φ) (prefer : Str) (origin : Option (Obj φ)) :
    Except Exn (Option Chosen) := do
  let forced := orElse (fetch (lit "response_target") (dictOrEmpty view.policy)) (.str (lit "auto"))
  let preferred := strip prefer
  let candidates ← responseCandidates view
  let candidates ← withOrigin candidates preferred origin
  match (candidates.find? fun c => preferred ≠ [] ∧ c.deviceId = preferred).filter Candidate.canSpeak with
  | some c => return some ⟨c.deviceId, c.isSelf⟩
  | none =>
      let best ← select candidates forced
      return best.map fun c => ⟨c.deviceId, c.isSelf⟩

end ShugoCore
