import ShugoCore.Lib.Binary64
import ShugoCore.Memory.Import
import ShugoCore.Personality.Governor

/-!
# Persona packs

A persona pack is a personality from outside.  `from_dict` of `personality/persona_pack.py`
accepts or refuses one, and `birth` makes a model of it over the configuration of the node:
the pack brings traits, voice and wording, and may add to what the node refuses to say.
`genesis` of `personality/model.py` is the model of the configuration alone.

Traits are floats.  The time of an adoption, the history of a model and the record of its
origin are left out.
-/

namespace ShugoCore

open Py

/-! ## Traits -/

/-- `TraitState`. -/
structure TraitState where
  value : PyFloat ℚ
  confidence : PyFloat ℚ
  evidenceCount : Int
  lastGen : Int
deriving DecidableEq, Repr

/-- `TraitState.__init__`. -/
def TraitState.new (value confidence : PyFloat ℚ) (evidenceCount lastGen : Int) : TraitState where
  value := .clamp (.finite 0) (.finite 1) value
  confidence := .clamp (.finite 0) (.finite 1) confidence
  evidenceCount := evidenceCount
  lastGen := lastGen

/-- `BASELINE_TRAITS`. -/
def baselineTraits : Dict Str (PyFloat ℚ) :=
  [(lit "warmth", .nearest (1 / 2)), (lit "humor", .nearest (2 / 5)),
    (lit "curiosity", .nearest (1 / 2)), (lit "verbosity", .nearest (1 / 2)),
    (lit "formality", .nearest (3 / 10)), (lit "proactivity", .nearest (3 / 10))]

/-! ## The configuration of a node -/

/-- `PROACTIVITY_DEFAULTS`, or another setting of the three switches. -/
structure Proactivity where
  greetOnArrival : Bool
  askFollowUp : Bool
  offerHelp : Bool
deriving DecidableEq, Repr

/-- `DEFAULT_GREETING`. -/
def defaultGreeting : Str := lit "Hello — I'm \x7bname\x7d. Good to see you."

/-- `DEFAULT_OFFER`. -/
def defaultOffer : Str := lit "\x7bname\x7d here — anything you'd like a hand with?"

variable {φ : Type} [Builtins φ]

/-- `normalise_proactivity`. -/
def normaliseProactivity (raw : PyVal φ) : Proactivity :=
  let settings := dictOrEmpty raw
  { greetOnArrival := truthy (getOr "greet_on_arrival" (.bool true) settings)
    askFollowUp := truthy (getOr "ask_follow_up" (.bool true) settings)
    offerHelp := truthy (getOr "offer_help" (.bool false) settings) }

/-- What `genesis` reads of a `PersonalityProfile`. -/
structure PersonalityProfile (φ : Type) where
  speech : Obj φ
  boundaries : Obj φ
  proactivity : PyVal φ

/-! ## The model -/

/-- The frozen perimeters: the `policy` of a model. -/
structure Perimeters (φ : Type) where
  boundaries : Obj φ
  neverSay : List (PyVal φ)
  firstPerson : Bool
  refuseHarmful : Bool
  greeting : Str
  offer : Str
  proactivity : Proactivity

/-- The `voice` of a model. -/
structure SpeechVoice (φ : Type) where
  maxSentences : PyVal φ
  style : PyVal φ

/-- A `PersonalityModel`, before the governor derives its policy of it. -/
structure LivingModel (φ : Type) where
  policy : Perimeters φ
  traits : Dict Str TraitState
  voice : SpeechVoice φ

/-- `_extract_policy`. -/
def extractPolicy (profile : PersonalityProfile φ) : Except Exn (Perimeters φ) := do
  let neverSay ← iterate (orElse (fetch (lit "never_say") profile.speech) (.list []))
  return {
    boundaries := profile.boundaries
    neverSay := neverSay
    firstPerson := truthy (getOr "first_person" (.bool true) profile.speech)
    refuseHarmful := truthy (getOr "refuse_harmful" (.bool true) profile.boundaries)
    greeting := strOf (orElse (fetch (lit "greeting") profile.speech) (.str defaultGreeting))
    offer := strOf (orElse (fetch (lit "offer") profile.speech) (.str defaultOffer))
    proactivity := normaliseProactivity profile.proactivity }

/-- `genesis`. -/
def LivingModel.genesis (profile : PersonalityProfile φ) : Except Exn (LivingModel φ) := do
  let policy ← extractPolicy profile
  let maxSentences ← intOf (getOr "max_sentences" (.int 3) profile.speech)
  return {
    policy := policy
    traits := baselineTraits.map fun trait => (trait.1, .new trait.2 (.finite 0) 0 0)
    voice :=
      { maxSentences := .int maxSentences
        style := getOr "style" (.str (lit "conversational, like a smart friend")) profile.speech } }

/-- The value of a trait, or a default. -/
def LivingModel.trait (m : LivingModel φ) (name : Str) (default : PyFloat ℚ) : PyFloat ℚ :=
  match Dict.get? m.traits name with
  | some state => state.value
  | none => default

/-- The voice times the verbosity, which is rounded to the budget. -/
def verbosityProduct (maxSentences : PyVal φ) (verbosity : PyFloat ℚ) : Except Exn (PyFloat ℚ) := do
  let sentences ← intOf maxSentences
  let factor ← PyFloat.ofInt sentences
  return factor.mul (.add (.finite (1 / 2)) verbosity)

/-- The verbosity budget and whether the proactivity is below its threshold. -/
def LivingModel.derived (m : LivingModel φ) : Except Exn (Nat × Bool) := do
  let product ← verbosityProduct m.voice.maxSentences
    (m.trait (lit "verbosity") (.finite (1 / 2)))
  let budget ← product.roundToInt
  return ((max 1 (min 8 budget)).toNat,
    (m.trait (lit "proactivity") (.nearest (3 / 10))).lt (.nearest (2 / 5)))

/-- The model as the governor sees it. -/
def LivingModel.governed (m : LivingModel φ) : PersonalityModel φ where
  neverSay := .list m.policy.neverSay
  derived := m.derived

/-! ## Packs -/

/-- `PERSONA_SCHEMA`. -/
def personaSchema : Str := lit "shugocore.persona/1"

/-- Why a trait is refused. -/
inductive TraitFault
  | notNumber
  | outside (number : PyFloat ℚ)
deriving DecidableEq, Repr

/-- Why a pack is not accepted: a `PersonaError`, or another exception. -/
inductive PackFault
  | notObject
  | schema (schema : Str)
  | personaId (personaId : Str)
  | version
  | field (key : Str)
  | uri
  | hash (declared digest : Str)
  | traitName (place name : Str)
  | trait (place : Str) (fault : TraitFault)
  | raised (e : Exn)
deriving DecidableEq, Repr

/-- An exception that is no `PersonaError`. -/
def raising {α : Type} : Except Exn α → Except PackFault α
  | .ok x => .ok x
  | .error e => .error (.raised e)

/-- `round(x, 6)`. -/
def roundSix : PyFloat ℚ → PyFloat ℚ
  | .finite q => .nearest (roundHalfEven (q * 10 ^ 6) / 10 ^ 6)
  | x => x

/-- `_unit_float`. -/
def unitFloat (value : PyVal φ) (place : Str) : Except PackFault (PyFloat ℚ) := do
  let number ← match value with
    | .int i => raising (PyFloat.ofInt i)
    | .float x => .ok ((numberOf (.float x)).getD .nan)
    | _ => .error (.trait place .notNumber)
  if PyFloat.le (.finite 0) number && PyFloat.le number (.finite 1) then return roundSix number
  else .error (.trait place (.outside number))

/-- A name that starts with one kind of character and goes on with another.  `$` also matches
before a line feed at the end. -/
def isSlug (first rest : CodePoint → Bool) (limit : Nat) (s : Str) : Bool :=
  match if s.getLast? = some newline then s.dropLast else s with
  | [] => false
  | c :: cs => first c && cs.all rest && cs.length < limit

/-- `[a-z]`. -/
def isSmall (c : CodePoint) : Bool := 97 ≤ c.val && c.val ≤ 122

/-- `[0-9]`. -/
def isFigure (c : CodePoint) : Bool := 48 ≤ c.val && c.val ≤ 57

/-- `_TRAIT_NAME_RE`. -/
def isTraitName : Str → Bool := isSlug isSmall (fun c => isSmall c || isFigure c || c = 95) 32

/-- `_PACK_ID_RE`. -/
def isPackId : Str → Bool :=
  isSlug (fun c => isSmall c || isFigure c)
    (fun c => isSmall c || isFigure c || c = 46 || c = 95 || c = 45) 64

/-- A trait of a pack: a bare number, or a dictionary. -/
def traitOf (place : Str) : PyVal φ → Except PackFault TraitState
  | .dict spec => do
      let value ← unitFloat (fetch (lit "value") spec) (place ++ lit ".value")
      let confidence ← match getKey (lit "confidence") spec with
        | some v => unitFloat v (place ++ lit ".confidence")
        | none => .ok (.finite 0)
      let evidenceCount ← raising (intOf (orElse (fetch (lit "evidence_count") spec) (.int 0)))
      let lastGen ← raising (intOf (orElse (fetch (lit "last_gen") spec) (.int 0)))
      return .new value confidence (max 0 evidenceCount) (max 0 lastGen)
  | spec => do return .new (← unitFloat spec place) (.finite 0) 0 0

/-- The loop of `traits_from_raw`. -/
def readTraits (place : Str) (traits : Dict Str TraitState) :
    Obj φ → Except PackFault (Dict Str TraitState)
  | [] => .ok traits
  | (name, spec) :: raw => do
      let key := strOf name.toVal
      if isTraitName key then
        readTraits place (Dict.set traits key (← traitOf (place ++ [46] ++ key) spec)) raw
      else .error (.traitName place key)

/-- `traits_from_raw`. -/
def traitsFromRaw (raw : PyVal φ) (place : Str) : Except PackFault (Dict Str TraitState) :=
  match raw with
  | .none => .ok []
  | .dict raw => readTraits place [] raw
  | _ => .error (.field place)

/-- `PersonaPack`. -/
structure PersonaPack (φ : Type) where
  schema : Str
  personaId : Str
  version : Str
  name : Str
  traits : Dict Str TraitState
  voice : Obj φ
  speech : Obj φ
  policy : Obj φ
  proactivity : Proactivity
  voiceModel : Option (Obj φ)
  provenance : Obj φ
  licence : Obj φ
  digest : Str
  declaredHash : Option Str
  source : Str

/-- `may_redistribute`. -/
def PersonaPack.mayRedistribute (pack : PersonaPack φ) : Bool :=
  match fetch (lit "redistributable") pack.licence with
  | .bool false => false
  | _ => true

/-- `compute_digest`. -/
def computeDigest (hashes : Hashlib) (payload : Obj φ) : Except Exn Str :=
  match canonicalHash hashes (.dict (payload.filter fun i => keyNotIn [lit "hash"] i.1)) with
  | some digest => .ok digest
  | none => .error .typeError

/-- `str(v or "")`. -/
def textOr (v : PyVal φ) : Str := strOf (orElse v (.str []))

/-- A field that is `None` or a dictionary. -/
def isBlock : PyVal φ → Bool
  | .none | .dict _ => true
  | _ => false

/-- The fields that must be dictionaries. -/
def blockKeys : List Str :=
  [lit "licence", lit "provenance", lit "voice", lit "speech", lit "policy", lit "voice_model"]

/-- The reference to trained weights, which must say where they are. -/
def voiceModelOf (data : Obj φ) : Except PackFault (Option (Obj φ)) :=
  match fetch (lit "voice_model") data with
  | .dict voiceModel =>
      if strip (textOr (fetch (lit "uri") voiceModel)) = [] then .error .uri
      else .ok (some voiceModel)
  | _ => .ok none

/-- The hash that a pack carries, which must be its own. -/
def declaredHashOf (data : Obj φ) (digest : Str) : Except PackFault (Option Str) :=
  match fetch (lit "hash") data with
  | .none => .ok none
  | declared =>
      if strOf declared ≠ digest then .error (.hash (strOf declared) digest)
      else .ok (some (strOf declared))

/-- `from_dict`. -/
def fromDict (hashes : Hashlib) (data : PyVal φ) (source : Str) : Except PackFault (PersonaPack φ) :=
  match data with
  | .dict data =>
      let schema := textOr (fetch (lit "schema") data)
      let personaId := textOr (fetch (lit "persona_id") data)
      let version := strip (textOr (fetch (lit "version") data))
      if schema ≠ personaSchema then .error (.schema schema)
      else if !isPackId personaId then .error (.personaId personaId)
      else if version = [] ∨ 64 < version.length then .error .version
      else match blockKeys.find? fun key => !isBlock (fetch key data) with
      | some key => .error (.field key)
      | none => do
          let voiceModel ← voiceModelOf data
          let digest ← raising (computeDigest hashes data)
          let declaredHash ← declaredHashOf data digest
          let traits ← traitsFromRaw (fetch (lit "traits") data) (lit "traits")
          return {
            schema := schema
            personaId := personaId
            version := version
            name := textOr (fetch (lit "name") data)
            traits := traits
            voice := dictOrEmpty (fetch (lit "voice") data)
            speech := dictOrEmpty (fetch (lit "speech") data)
            policy := dictOrEmpty (fetch (lit "policy") data)
            proactivity := normaliseProactivity (fetch (lit "proactivity") data)
            voiceModel := voiceModel
            provenance := dictOrEmpty (fetch (lit "provenance") data)
            licence := dictOrEmpty (fetch (lit "licence") data)
            digest := digest
            declaredHash := declaredHash
            source := source }
  | _ => .error .notObject

end ShugoCore
