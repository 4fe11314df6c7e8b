import ShugoCore.Mesh.Speech

/-!
# The words of a decision

What happens to the words of a `speak` or an `ask_user` between the decision and the
executor.  `PersonalityGovernor` of `personality/governor.py` checks them against the
phrases that are never said, and may replace them, shorten them or have them asked.  Then
`_apply_persona` of `decision_engine.py` lets the persona model phrase them.

The governor checks the first of `text`, `question`, `content` and `message` that is a
text, and an error of the governor lets the decision pass.  `str.lower` is a parameter.
The scores of a verdict are left out: they are recorded, and decide nothing.
-/

namespace ShugoCore

open Py

variable {φ : Type} [Builtins φ]

/-! ## Sentences -/

/-- `[.!?]`. -/
def isTerminal (c : CodePoint) : Bool := c = 46 || c = 33 || c = 63

/-- `_count_sentences`. -/
def countSentences (text : Str) : Nat :=
  if text = [] then 0
  else max 1 ((text.splitOnP isTerminal).filter fun part => strip part ≠ []).length

/-- `re.split(r'(?<=[.!?])\s+', text)`: `acc` is the piece so far, and `skipping` says that
the white space between two pieces goes on. -/
def splitSentences (acc : Str) (skipping : Bool) : Str → List Str
  | [] => [acc]
  | c :: text =>
      if skipping && isSpace c then splitSentences acc true text
      else if isSpace c && acc.getLast?.any isTerminal then acc :: splitSentences [] true text
      else splitSentences (acc ++ [c]) false text

/-- `_truncate_to_budget`. -/
def truncateToBudget (text : Str) (budget : Nat) : Str :=
  let result := strip ([32].intercalate ((splitSentences [] false text).take budget))
  if result ≠ [] ∧ !result.getLast?.any isTerminal then result ++ [46] else result

/-! ## The governor -/

/-- The two actions that speak. -/
inductive SpeechKind
  | speak
  | askUser
deriving DecidableEq, Repr

/-- The policy that `annotate` reads. -/
structure PersonalityPolicy (φ : Type) where
  neverSay : List (PyVal φ)
  verbosityBudget : Nat
  /-- The proactivity is below its threshold. -/
  reluctant : Bool

/-- The part of a `PersonalityModel` that the policy is derived from. -/
structure PersonalityModel (φ : Type) where
  /-- `policy.get("never_say")`. -/
  neverSay : PyVal φ
  /-- What the voice and the traits give, unless they are malformed. -/
  derived : Except Exn (Nat × Bool)

/-- `policy`. -/
def PersonalityModel.policy (m : PersonalityModel φ) : Except Exn (PersonalityPolicy φ) := do
  let (verbosityBudget, reluctant) ← m.derived
  let neverSay ← iterate (orElse m.neverSay (.list []))
  return ⟨neverSay, verbosityBudget, reluctant⟩

/-- The verdict of the governor, as far as it is carried out. -/
inductive PersonalityVerdict
  | pass
  | reroute (routeTo : SpeechKind) (text : Option Str)
  | modify (text : Str)
deriving DecidableEq, Repr

/-- `"I'd rather not say that."`. -/
def refusalLine : Str := lit "I'd rather not say that."

/-- `params or {}`, if it is a dictionary. -/
def paramsDict (params : PyVal φ) : Except Exn (Obj φ) :=
  match params with
  | .dict d => .ok d
  | v => if truthy v then .error .attributeError else .ok []

/-- The words of a parameter, if it is a text that is not blank. -/
def nonBlank : PyVal φ → Option Str
  | .str s => if strip s = [] then none else some (strip s)
  | _ => none

/-- `_extract_text`, of a dictionary. -/
def extractText (d : Obj φ) : Str :=
  (["text", "question", "content", "message"].findSome? fun k =>
    nonBlank (fetch (lit k) d)).getD []

/-- A phrase of `never_say`, if it is in a text.  A phrase that is no text raises. -/
def phraseHit (lower : Str → Str) (text : Str) (phrase : PyVal φ) : Except Exn (Option Str) :=
  if text = [] ∨ !truthy phrase then .ok none
  else match phrase with
  | .str p => .ok (if lower p <:+: lower text then some p else none)
  | _ => .error .attributeError

/-- The phrases of `never_say` that are in a text. -/
def contentHits (lower : Str → Str) (text : Str) : List (PyVal φ) → Except Exn (List Str)
  | [] => .ok []
  | phrase :: phrases => do
      let hit ← phraseHit lower text phrase
      let hits ← contentHits lower text phrases
      return hit.toList ++ hits

/-- The body of `annotate`. -/
def verdictOf (lower : Str → Str) (m : PersonalityModel φ) (selfInitiated : Bool) (kind : SpeechKind)
    (params : PyVal φ) : Except Exn PersonalityVerdict := do
  let d ← paramsDict params
  let text := extractText d
  let policy ← m.policy
  let hits ← contentHits lower text policy.neverSay
  if hits ≠ [] then return .reroute .speak (some refusalLine)
  else if selfInitiated ∧ kind = .speak ∧ policy.reluctant then return .reroute .askUser none
  else if text ≠ [] ∧ policy.verbosityBudget < countSentences text then
    return .modify (truncateToBudget text policy.verbosityBudget)
  else return .pass

/-- An error lets the decision pass. -/
def failOpen : Except Exn PersonalityVerdict → PersonalityVerdict
  | .ok verdict => verdict
  | .error _ => .pass

/-- `annotate`. -/
def annotate (lower : Str → Str) (m : PersonalityModel φ) (selfInitiated : Bool) (kind : SpeechKind)
    (params : PyVal φ) : PersonalityVerdict :=
  failOpen (verdictOf lower m selfInitiated kind params)

/-- `apply`. -/
def PersonalityVerdict.apply (verdict : PersonalityVerdict) (kind : SpeechKind) (params : PyVal φ) :
    SpeechKind × PyVal φ :=
  match verdict with
  | .pass => (kind, params)
  | .reroute routeTo none => (routeTo, .dict (dictOrEmpty params))
  | .reroute routeTo (some text) =>
      (routeTo, .dict (setKey (lit "text") (.str text) (dictOrEmpty params)))
  | .modify text => (kind, .dict (setKey (lit "text") (.str text) (dictOrEmpty params)))

/-! ## The persona model -/

/-- What the persona model does with a draft.  `text` is that of its reply. -/
inductive PersonaReply (φ : Type)
  | off
  | raised
  | replied (text : PyVal φ)

/-- `str(v or "").strip()`. -/
def lineOf (v : PyVal φ) : Str := strip (strOf (orElse v (.str [])))

/-- The draft that the persona model is given. -/
def draftOf (d : Obj φ) : Str := lineOf (fetch (lit "text") d)

/-- The line that replaces the draft, if there is a draft and the line is another one. -/
def rewritten (reply : PersonaReply φ) (d : Obj φ) : Option Str :=
  match reply with
  | .off | .raised => none
  | .replied text =>
      if draftOf d ≠ [] ∧ lineOf text ≠ [] ∧ lineOf text ≠ draftOf d then some (lineOf text)
      else none

/-- The parameters with the line of the persona model. -/
def phrased (reply : PersonaReply φ) (d : Obj φ) : Obj φ :=
  match rewritten reply d with
  | some line => setKey (lit "text") (.str line) d
  | none => d

/-- `_apply_persona`. -/
def applyPersona (reply : PersonaReply φ) : PyVal φ → PyVal φ
  | .dict d => .dict (phrased reply d)
  | params => params

/-- `_apply_personality`, with the persona model. -/
def applyPersonality (lower : Str → Str) (m : PersonalityModel φ) (selfInitiated : Bool)
    (reply : PersonaReply φ) (kind : SpeechKind) (params : PyVal φ) : SpeechKind × PyVal φ :=
  let governed := (annotate lower m selfInitiated kind params).apply kind params
  (governed.1, applyPersona reply governed.2)

/-! ## The executor -/

/-- The executor of a decision.  Parameters that are no dictionary raise. -/
def executeWords (env : SpeechEnv φ) (kind : SpeechKind) (params : PyVal φ) : Speech φ :=
  match paramsDict params with
  | .error e => if env.mayAct then ⟨.error e, [], []⟩ else .silent (refusedFollower env)
  | .ok d =>
      match kind with
      | .speak => executeSpeak env d
      | .askUser => executeAskUser env d

end ShugoCore
