import ShugoCore.Personality.Persona

/-!
# The birth of a model

`birth` of `personality/persona_pack.py`.  The traits, the voice and the wording of a pack
replace those of the node.  The phrases that are never said are united, and a boundary may be
switched on, never off.  The permissions stay those of the node.

The report keeps what was added and what was refused, and not the sentences that say so.
-/

namespace ShugoCore

open Py

variable {φ : Type} [Builtins φ]

/-! ## Equality of values -/

/-- The number that a value is equal to, for the values that are equal to numbers. -/
def valueNumber : PyVal φ → Option ℚ
  | .bool b => some (if b then 1 else 0)
  | .int i => some i
  | .float (.finite x) => some (FloatFormat.value x)
  | _ => none

mutual

/-- `v == w`.  The order of the items of a dictionary does not matter. -/
def sameValue : PyVal φ → PyVal φ → Bool
  | .none, .none => true
  | .str s, .str t => s = t
  | .float .posInf, .float .posInf => true
  | .float .negInf, .float .negInf => true
  | .list xs, .list ys => sameList xs ys
  | .dict d, .dict e => d.length = e.length && sameItems d e
  | v, w => match valueNumber v, valueNumber w with
      | some x, some y => x = y
      | _, _ => false

/-- Lists of equal values. -/
def sameList : List (PyVal φ) → List (PyVal φ) → Bool
  | [], [] => true
  | x :: xs, y :: ys => sameValue x y && sameList xs ys
  | _, _ => false

/-- Each item has an equal one. -/
def sameItems : Obj φ → Obj φ → Bool
  | [], _ => true
  | (k, v) :: d, e => e.any (fun i => sameKey i.1 k && sameValue v i.2) && sameItems d e

end

/-! ## Items of any key -/

/-- `d.get(k)`, for any key. -/
def getItem (k : Key φ) : Obj φ → Option (PyVal φ)
  | [] => none
  | (k', v) :: d => if sameKey k' k then some v else getItem k d

/-- A key whose value is on. -/
def isOn (d : Obj φ) (k : Key φ) : Bool := (getItem k d).any truthy

/-- `d.setdefault(k, v)`, for any key. -/
def setDefaultItem (k : Key φ) (v : PyVal φ) (d : Obj φ) : Obj φ :=
  match getItem k d with
  | some _ => d
  | none => setItem k v d

/-! ## What a pack adds -/

/-- The texts among the phrases of `never_say` that are not blank. -/
def neverTexts (phrases : List (PyVal φ)) : List Str :=
  (phrases.map fun phrase => strip (strOf phrase)).filter fun text => text ≠ []

/-- The loop of `_merge_never_say` over the texts that are not blank. -/
def addTexts (merged added : List Str) : List Str → List Str × List Str
  | [] => (merged, added)
  | text :: texts =>
      if text ∈ merged then addTexts merged added texts
      else addTexts (merged ++ [text]) (added ++ [text]) texts

/-- `_merge_never_say`. -/
def mergeNeverSay (localPhrases declared : List (PyVal φ)) : List Str × List Str :=
  addTexts (neverTexts localPhrases) [] (neverTexts declared)

/-- Why a part of a pack is not taken. -/
inductive Refused (φ : Type)
  | notBoolean (key : Key φ) (value : PyVal φ)
  | cannotRelax (key : Key φ)
  | proactivity (declared : Proactivity)

/-- What a pack adds to the perimeters. -/
inductive Reinforced (φ : Type)
  | neverSay (added : List Str)
  | boundary (key : Key φ)
  | flag (key : Str)

/-- What a node is warned of. -/
inductive PackWarning
  | unknownTrait (name : Str)
  | noRedistribution
deriving DecidableEq, Repr

/-- What `_merge_boundaries` returns. -/
structure MergedBoundaries (φ : Type) where
  merged : Obj φ
  reinforced : List (Key φ)
  refused : List (Refused φ)

/-- One boundary that a pack declares. -/
def MergedBoundaries.declare (m : MergedBoundaries φ) (item : Key φ × PyVal φ) :
    MergedBoundaries φ :=
  match item.2 with
  | .bool value =>
      if value ∧ isOn m.merged item.1 = false then
        { m with
          merged := setItem item.1 (.bool true) m.merged
          reinforced := m.reinforced ++ [item.1] }
      else if value = false ∧ isOn m.merged item.1 then
        { m with refused := m.refused ++ [.cannotRelax item.1] }
      else { m with merged := setDefaultItem item.1 (.bool value) m.merged }
  | value => { m with refused := m.refused ++ [.notBoolean item.1 value] }

/-- `_merge_boundaries`. -/
def mergeBoundaries (own declared : Obj φ) : MergedBoundaries φ :=
  declared.foldl MergedBoundaries.declare ⟨own, [], []⟩

/-- `_or_flag`. -/
def orFlag (own : Bool) (declared : PyVal φ) : Bool := own || truthy declared

/-! ## Birth -/

/-- The report of `birth`. -/
structure BirthReport (φ : Type) where
  traits : List Str
  addedTraits : List Str
  wording : List Str
  voice : List Str
  reinforced : List (Reinforced φ)
  refused : List (Refused φ)
  warnings : List PackWarning

/-- `declared if declared is not None`. -/
def orKept (declared own : PyVal φ) : PyVal φ :=
  match declared with
  | .none => own
  | v => v

/-- `declared is not None`. -/
def isGiven (declared : PyVal φ) : Bool :=
  match declared with
  | .none => false
  | _ => true

/-- A wording that a pack declares. -/
def wordingOf (declared : PyVal φ) : Option Str :=
  match declared with
  | .str s => if strip s = [] then none else some s
  | _ => none

/-- The phrases that a pack declares. -/
def PersonaPack.declaredNever (pack : PersonaPack φ) : Except Exn (List (PyVal φ)) := do
  let speech ← iterate (orElse (fetch (lit "never_say") pack.speech) (.list []))
  let policy ← iterate (orElse (fetch (lit "never_say") pack.policy) (.list []))
  return speech ++ policy.filter fun p => !speech.any fun q => sameValue p q

/-- The pack declares phrases. -/
def PersonaPack.declaresNever (pack : PersonaPack φ) : Bool :=
  truthy (fetch (lit "never_say") pack.speech) || truthy (fetch (lit "never_say") pack.policy)

/-- The phrases of the model, and those that the pack adds. -/
def PersonaPack.neverSay (pack : PersonaPack φ) (own : List (PyVal φ)) :
    Except Exn (List (PyVal φ) × List Str) := do
  let declared ← pack.declaredNever
  if pack.declaresNever then
    let (merged, added) := mergeNeverSay own declared
    return (merged.map .str, added)
  else return (own, [])

/-- The boundaries of the model. -/
def PersonaPack.boundaries (pack : PersonaPack φ) (own : Obj φ) : Except Exn (MergedBoundaries φ) :=
  let declared := fetch (lit "boundaries") pack.policy
  if truthy declared then
    match declared with
    | .dict declared => .ok (mergeBoundaries own declared)
    | _ => .error .attributeError
  else .ok ⟨own, [], []⟩

/-- One of the two flags, and whether the pack switches it on. -/
def PersonaPack.flag (pack : PersonaPack φ) (key : String) (own : Bool) : Bool × Bool :=
  match getKey (lit key) pack.policy with
  | some declared => (orFlag own declared, truthy declared && !own)
  | none => (own, false)

/-- `birth`. -/
def birth (pack : PersonaPack φ) (profile : PersonalityProfile φ) :
    Except Exn (LivingModel φ × BirthReport φ) := do
  let model ← LivingModel.genesis profile
  let greeting := wordingOf (fetch (lit "greeting") pack.speech)
  let offer := wordingOf (fetch (lit "offer") pack.speech)
  let maxSentences := fetch (lit "max_sentences") pack.voice
  let style := fetch (lit "style") pack.voice
  let (neverSay, added) ← pack.neverSay model.policy.neverSay
  let boundaries ← pack.boundaries model.policy.boundaries
  let refuseHarmful := pack.flag "refuse_harmful" model.policy.refuseHarmful
  let firstPerson := pack.flag "first_person" model.policy.firstPerson
  let known := pack.traits.filter fun trait => trait.1 ∈ baselineTraits.map Prod.fst
  let unknown := pack.traits.filter fun trait => trait.1 ∉ baselineTraits.map Prod.fst
  let born : LivingModel φ := {
    policy :=
      { boundaries := boundaries.merged
        neverSay := neverSay
        firstPerson := firstPerson.1
        refuseHarmful := refuseHarmful.1
        greeting := greeting.getD model.policy.greeting
        offer := offer.getD model.policy.offer
        proactivity := model.policy.proactivity }
    traits := pack.traits.foldl (fun traits trait => Dict.set traits trait.1 trait.2) model.traits
    voice :=
      { maxSentences := orKept maxSentences model.voice.maxSentences
        style := orKept style model.voice.style } }
  return (born, {
    traits := known.map Prod.fst
    addedTraits := unknown.map Prod.fst
    wording := (if greeting.isSome then [lit "greeting"] else []) ++
      if offer.isSome then [lit "offer"] else []
    voice := (if isGiven maxSentences then [lit "max_sentences"] else []) ++
      if isGiven style then [lit "style"] else []
    reinforced := (if added = [] then [] else [.neverSay added]) ++
      boundaries.reinforced.map .boundary ++
      (if refuseHarmful.2 then [.flag (lit "refuse_harmful")] else []) ++
      if firstPerson.2 then [.flag (lit "first_person")] else []
    refused := boundaries.refused ++
      if pack.proactivity = normaliseProactivity (.none : PyVal φ) then []
      else [.proactivity pack.proactivity]
    warnings := unknown.map (fun trait => .unknownTrait trait.1) ++
      if pack.mayRedistribute then [] else [.noRedistribution] })

end ShugoCore
