import ShugoCore.Lib.Interpreter
import ShugoCore.Personality.Adoption
import ShugoCore.Personality.Refusals

/-!
# Persisted models

`load` and `from_dict` of `personality/model.py` read a model back, and `as_profile` and the `policy`
of the governor use it.  `load` handles a file that is missing or no JSON, and `from_dict` handles
`KeyError`, `TypeError` and `AttributeError`.  A text that is no number, a number that is too large and
a document that nests too deep raise others.

The conversions of a file are a list, in the order in which they are made, and the first one that
fails decides (`faultOf_read`).  If none fails there is a model, and whether it can be used depends on
the fields that nothing has converted yet.  A file yields a usable character or none, and nothing is
raised, if and only if both are right (`persisted_usable_iff`).

The keys of the traits are those of the document.
-/

namespace ShugoCore

open Py Faults

section

variable {φ : Type} [Builtins φ] [FloatReader]

/-! ## Reading -/

/-- An exception of a reading or a use: `KeyError`, or one of the others. -/
inductive ModelFault where
  | keyError
  | raised (e : Exn)
deriving DecidableEq, Repr

/-- A conversion raises no `KeyError`. -/
def orFault {α : Type} : Except Exn α → Except ModelFault α
  | .ok x => .ok x
  | .error e => .error (.raised e)

/-- `TraitState.from_dict`. -/
def TraitState.fromDict : PyVal φ → Except Exn TraitState
  | .dict data => do
      let value ← (getKey (lit "value") data).elim (.ok (.finite (1 / 2))) toFloat
      let confidence ← (getKey (lit "confidence") data).elim (.ok (.finite 0)) toFloat
      let evidenceCount ← (getKey (lit "evidence_count") data).elim (.ok 0) intOf
      let lastGen ← (getKey (lit "last_gen") data).elim (.ok 0) intOf
      return .new value confidence evidenceCount lastGen
  | _ => .error .attributeError

/-- A `PersonalityModel` as it is loaded.  The policy is not looked at. -/
structure PersistedModel (φ : Type) where
  name : PyVal φ
  generation : Int
  policy : PyVal φ
  traits : List (Key φ × TraitState)
  voice : Obj φ
  history : List (PyVal φ)
  persona : Option (Obj φ)
  createdAt : PyVal φ
  updatedAt : PyVal φ

/-- `data[k]`. -/
def subscript (k : Str) : PyVal φ → Except ModelFault (PyVal φ)
  | .dict d => match getKey k d with
      | some v => .ok v
      | none => .error .keyError
  | _ => .error (.raised .typeError)

/-- `{t: TraitState.from_dict(s) for t, s in traits_raw.items()}`. -/
def readTraitStates : PyVal φ → Except Exn (List (Key φ × TraitState))
  | .dict raw => raw.mapM fun item => do return (item.1, ← TraitState.fromDict item.2)
  | _ => .error .attributeError

/-- `data.get(k)`, of a dictionary. -/
def fieldOf (k : String) (data : PyVal φ) : PyVal φ := fetch (lit k) (dictOrEmpty data)

/-- The body of `from_dict`, without its handler. -/
def PersistedModel.read (now data : PyVal φ) : Except ModelFault (PersistedModel φ) := do
  let traitsRaw ← subscript (lit "traits") data
  let policy ← subscript (lit "policy") data
  let traits ← orFault (readTraitStates traitsRaw)
  let history ← orFault (iterate (orElse (fieldOf "history" data) (.list [])))
  let voice ← orFault (dictOf (orElse (fieldOf "voice" data) (.dict [])))
  let persona ← orFault (dictOf (orElse (fieldOf "persona" data) (.dict [])))
  let generation ← orFault (intOf (getOr "generation" (.int 0) (dictOrEmpty data)))
  return {
    name := getOr "name" (.str (lit "Shugo")) (dictOrEmpty data)
    generation := generation
    policy := policy
    traits := traits
    voice := voice
    history := history
    persona := if persona = [] then none else some persona
    createdAt := orKept (fieldOf "created_at" data) now
    updatedAt := orKept (fieldOf "updated_at" data) now }

/-- The exceptions that `from_dict` takes for a malformed payload. -/
def ModelFault.handled : ModelFault → Bool
  | .keyError | .raised .typeError | .raised .attributeError => true
  | .raised _ => false

/-- `from_dict`. -/
def PersistedModel.fromDict (now data : PyVal φ) : Except ModelFault (Option (PersistedModel φ)) :=
  match PersistedModel.read now data with
  | .ok m => .ok (some m)
  | .error fault => if fault.handled then .ok none else .error fault

/-- `json.load` of the text of a file.  There is none if it is missing or cannot be decoded. -/
def documentOf (L : Limits φ) : Option Str → Except Exn (PyVal φ)
  | none => .error .valueError
  | some text => L.loads (universalNewlines false text)

/-- `load`.  It handles a missing file as it handles one that is no JSON. -/
def PersistedModel.load (L : Limits φ) (now : PyVal φ) (file : Option Str) :
    Except ModelFault (Option (PersistedModel φ)) :=
  match documentOf L file with
  | .ok data => PersistedModel.fromDict now data
  | .error .valueError => .ok none
  | .error e => .error (.raised e)

/-! ## Use -/

/-- `self.traits.get(k)`, for a text `k`. -/
def traitAt (k : Str) : List (Key φ × TraitState) → Option TraitState
  | [] => none
  | (.str k', state) :: traits => if k' = k then some state else traitAt k traits
  | _ :: traits => traitAt k traits

/-- `_PHRASES`. -/
def traitPhrases : Dict Str (Str × Str × Str) :=
  [(lit "warmth", lit "reserved but kind", lit "kind but measured", lit "genuinely warm and caring"),
    (lit "humor", lit "serious in tone", lit "occasionally witty", lit "quick with dry humor"),
    (lit "curiosity", lit "content to listen", lit "curious about the user",
      lit "deeply curious, asks follow-up questions"),
    (lit "verbosity", lit "concise by nature", lit "balanced in length",
      lit "expressive and expansive"),
    (lit "formality", lit "casual, like a smart friend", lit "relaxed but polite",
      lit "proper and formal"),
    (lit "proactivity", lit "reactive, waits to be asked", lit "helpful when asked",
      lit "proactive, offers help unprompted")]

/-- `_bucket`, of three phrases. -/
def bucketOf (value : PyFloat ℚ) (phrases : Str × Str × Str) : Str :=
  if value.lt (.nearest (2 / 5)) then phrases.1
  else if value.lt (.nearest (7 / 10)) then phrases.2.1
  else phrases.2.2

/-- `f"{value:.2f}"`, of a trait, which is a number from zero to one. -/
def twoPlaces : PyFloat ℚ → Str
  | .finite q =>
      let hundredths := (roundHalfEven (q * 100)).toNat
      [Literal.digit (hundredths / 100), 46, Literal.digit (hundredths / 10 % 10),
        Literal.digit (hundredths % 10)]
  | .nan | .posInf | .negInf => []

/-- The text that a trait is rendered to. -/
def traitText (name : Str) (value : PyFloat ℚ) : Str :=
  match Dict.get? traitPhrases name with
  | some phrases => bucketOf value phrases
  | none => name ++ 32 :: twoPlaces value

/-- The `PersonalityProfile` that a model is rendered to. -/
structure RenderedProfile (φ : Type) where
  name : PyVal φ
  traits : List (Key φ × Str)
  style : PyVal φ
  formality : Str
  maxSentences : Int
  firstPerson : Bool
  neverSay : List (PyVal φ)
  greeting : Str
  offer : Str
  boundaries : Obj φ
  proactivity : Proactivity

/-- `d[k]`, where there may be none. -/
def required {α : Type} : Option α → Except ModelFault α
  | some x => .ok x
  | none => .error .keyError

/-- What `get` is called on. -/
def mapping : PyVal φ → Except Exn (Obj φ)
  | .dict d => .ok d
  | _ => .error .attributeError

/-- `as_profile`. -/
def PersistedModel.asProfile (L : Limits φ) (m : PersistedModel φ) :
    Except ModelFault (RenderedProfile φ) := do
  let formality ← required (traitAt (lit "formality") m.traits)
  let maxSentences ← orFault (intOf (getOr "max_sentences" (.int 3) m.voice))
  let policy ← orFault (mapping m.policy)
  let neverSay ← orFault (iterate (orElse (fetch (lit "never_say") policy) (.list [])))
  let greeting ← orFault (L.str (orElse (fetch (lit "greeting") policy) (.str defaultGreeting)))
  let offer ← orFault (L.str (orElse (fetch (lit "offer") policy) (.str defaultOffer)))
  let boundaries ← orFault (dictOf (orElse (fetch (lit "boundaries") policy) (.dict [])))
  return {
    name := m.name
    traits := m.traits.map fun trait => (trait.1, traitText (strOf trait.1.toVal) trait.2.value)
    style := getOr "style" (.str (lit "conversational")) m.voice
    formality := if formality.value.lt (.finite (1 / 2)) then lit "casual" else lit "formal"
    maxSentences := maxSentences
    firstPerson := truthy (getOr "first_person" (.bool true) policy)
    neverSay := neverSay
    greeting := greeting
    offer := offer
    boundaries := boundaries
    proactivity := normaliseProactivity (fetch (lit "proactivity") policy) }

/-- The `policy` of a `PersonalityGovernor`. -/
structure GovernorPolicy (φ : Type) where
  verbosityBudget : Nat
  warmth : PyFloat ℚ
  formality : PyFloat ℚ
  proactivity : PyFloat ℚ
  tone : Str
  neverSay : List (PyVal φ)
  boundaries : Obj φ
  firstPerson : Bool
  refuseHarmful : Bool

/-- `traits[k].value if k in traits else default`. -/
def PersistedModel.traitOr (m : PersistedModel φ) (k : String) (default : PyFloat ℚ) : PyFloat ℚ :=
  (traitAt (lit k) m.traits).elim default TraitState.value

/-- `policy`. -/
def PersistedModel.governorPolicy (m : PersistedModel φ) : Except Exn (GovernorPolicy φ) := do
  let product ← verbosityProduct (getOr "max_sentences" (.int 3) m.voice)
    (m.traitOr "verbosity" (.finite (1 / 2)))
  let budget ← product.roundToInt
  let policy ← mapping m.policy
  let neverSay ← iterate (orElse (fetch (lit "never_say") policy) (.list []))
  let boundaries ← dictOf (orElse (fetch (lit "boundaries") policy) (.dict []))
  let formality := m.traitOr "formality" (.nearest (3 / 10))
  return {
    verbosityBudget := (max 1 (min 8 budget)).toNat
    warmth := m.traitOr "warmth" (.finite (1 / 2))
    formality := formality
    proactivity := m.traitOr "proactivity" (.nearest (3 / 10))
    tone := if PyFloat.le (.finite (1 / 2)) formality then lit "formal" else lit "casual"
    neverSay := neverSay
    boundaries := boundaries
    firstPerson := truthy (getOr "first_person" (.bool true) policy)
    refuseHarmful := truthy (getOr "refuse_harmful" (.bool true) policy) }

/-! ## The first fault -/

omit [FloatReader] in
theorem faultOf_orFault {α : Type} (x : Except Exn α) :
    faultOf (orFault x) = (faultOf x).map .raised := by
  cases x <;> rfl

/-- The conversions of a trait, in order. -/
def traitConversions : PyVal φ → List (Option Exn)
  | .dict data =>
      [faultOf ((getKey (lit "value") data).elim (.ok (.finite (1 / 2))) toFloat),
        faultOf ((getKey (lit "confidence") data).elim (.ok (.finite 0)) toFloat),
        faultOf ((getKey (lit "evidence_count") data).elim (.ok 0) intOf),
        faultOf ((getKey (lit "last_gen") data).elim (.ok 0) intOf)]
  | _ => [some .attributeError]

/-- The conversions of the traits, in order. -/
def traitsConversions : PyVal φ → List (Option Exn)
  | .dict raw => raw.flatMap fun item => traitConversions item.2
  | _ => [some .attributeError]

/-- The conversions of a model, in order. -/
def conversions (data : PyVal φ) : List (Option ModelFault) :=
  [faultOf (subscript (lit "traits") data), faultOf (subscript (lit "policy") data)] ++
    (traitsConversions (fieldOf "traits" data) ++
      [faultOf (iterate (orElse (fieldOf "history" data) (.list []))),
        faultOf (dictOf (orElse (fieldOf "voice" data) (.dict []))),
        faultOf (dictOf (orElse (fieldOf "persona" data) (.dict []))),
        faultOf (intOf (getOr "generation" (.int 0) (dictOrEmpty data)))]).map (Option.map .raised)

theorem faultOf_fromDict (spec : PyVal φ) :
    faultOf (TraitState.fromDict spec) = firstFault (traitConversions spec) := by
  cases spec with
  | dict data =>
      rw [TraitState.fromDict, traitConversions, firstFault_cons]
      refine faultOf_bind fun value _ => ?_
      rw [firstFault_cons]
      refine faultOf_bind fun confidence _ => ?_
      rw [firstFault_cons]
      refine faultOf_bind fun evidenceCount _ => ?_
      rw [firstFault_cons]
      exact faultOf_bind fun lastGen _ => rfl
  | none | bool b | int i | float x | str s | list xs => rfl

theorem faultOf_readTraitStates (raw : PyVal φ) :
    faultOf (readTraitStates raw) = firstFault (traitsConversions raw) := by
  cases raw with
  | dict raw =>
      rw [readTraitStates, traitsConversions]
      induction raw with
      | nil => rfl
      | cons item raw ih =>
          rw [List.mapM_cons, List.flatMap_cons, firstFault_append, ← faultOf_fromDict, ← ih]
          cases hstate : TraitState.fromDict item.2 with
          | error e => rfl
          | ok state =>
              cases hrest : raw.mapM fun item => do
                  return (item.1, ← TraitState.fromDict item.2) with
              | error e => rfl
              | ok rest => rfl
  | none | bool b | int i | float x | str s | list xs => rfl

/-- The first conversion that fails is the fault of the reading. -/
theorem faultOf_read (now data : PyVal φ) :
    faultOf (PersistedModel.read now data) = firstFault (conversions data) := by
  cases data with
  | dict d =>
      rw [PersistedModel.read, conversions, firstFault_append, firstFault_cons, firstFault_cons,
        firstFault_nil, Option.or_none, firstFault_map, firstFault_append, Option.or_assoc]
      refine faultOf_bind fun traitsRaw htraits => ?_
      refine faultOf_bind fun policy _ => ?_
      have hraw : fieldOf "traits" (.dict d) = traitsRaw := by
        rw [fieldOf, dictOrEmpty, fetch]
        rw [subscript] at htraits
        split at htraits
        · rename_i v hv
          cases htraits
          rw [hv]
          rfl
        · cases htraits
      rw [hraw, ← faultOf_readTraitStates, Option.map_or, ← faultOf_orFault]
      refine faultOf_bind fun traits _ => ?_
      simp only [firstFault_cons, firstFault_nil, Option.map_or, Option.or_none,
        ← faultOf_orFault]
      refine faultOf_bind fun history _ => ?_
      refine faultOf_bind fun voice _ => ?_
      refine faultOf_bind fun persona _ => ?_
      cases intOf (getOr "generation" (.int 0) (dictOrEmpty (.dict d))) <;> rfl
  | none | bool b | int i | float x | str s | list xs => rfl

/-! ## Models that can be used -/

/-- A value that is falsy, or that `dict` takes. -/
def DictLike (v : PyVal φ) : Prop := truthy v = true → Succeeds (dictOf v)

omit [FloatReader] in
theorem succeeds_dictOf_orElse (v : PyVal φ) :
    Succeeds (dictOf (orElse v (.dict []))) ↔ DictLike v := by
  rw [DictLike, orElse]
  cases truthy v with
  | true => simp
  | false =>
      refine iff_of_true ⟨[], rfl⟩ ?_
      intro h
      cases h

omit [FloatReader] in
theorem succeeds_orFault {α : Type} {x : Except Exn α} : Succeeds (orFault x) ↔ Succeeds x := by
  rw [← faultOf_eq_none_iff, ← faultOf_eq_none_iff, faultOf_orFault, Option.map_eq_none_iff]

/-- A policy whose greeting and offer have texts. -/
structure Worded (L : Limits φ) (policy : Obj φ) : Prop where
  greeting : L.Shows (orElse (fetch (lit "greeting") policy) (.str defaultGreeting))
  offer : L.Shows (orElse (fetch (lit "offer") policy) (.str defaultOffer))

/-- The value of the verbosity of a file. -/
def verbosityOf (data : PyVal φ) : PyFloat ℚ :=
  ((getKey (lit "verbosity") (dictOrEmpty (fieldOf "traits" data))).bind fun spec =>
    (TraitState.fromDict spec).toOption).elim (.finite (1 / 2)) TraitState.value

/-- The fields of a file that are used as they are loaded. -/
structure UsableFields (L : Limits φ) (data : PyVal φ) : Prop where
  formality : ∃ spec, getKey (lit "formality") (dictOrEmpty (fieldOf "traits" data)) = some spec
  budget : ∃ voice, dictOf (orElse (fieldOf "voice" data) (.dict [])) = .ok voice ∧
    Budgeted (getOr "max_sentences" (.int 3) voice) (verbosityOf data)
  policy : ∃ policy, fieldOf "policy" data = .dict policy ∧
    PhraseList (fetch (lit "never_say") policy) ∧ DictLike (fetch (lit "boundaries") policy) ∧
    Worded L policy

theorem succeeds_fromDict {raw : Obj φ} (h : Succeeds (readTraitStates (.dict raw))) :
    ∀ item ∈ raw, Succeeds (TraitState.fromDict item.2) := by
  induction raw with
  | nil => exact fun item hitem => nomatch hitem
  | cons item raw ih =>
      obtain ⟨traits, h⟩ := h
      rw [readTraitStates, List.mapM_cons] at h
      obtain ⟨first, hfirst, h⟩ := ok_of_bind h
      obtain ⟨state, hstate, -⟩ := ok_of_bind hfirst
      obtain ⟨rest, hrest, -⟩ := ok_of_bind h
      exact List.forall_mem_cons.2 ⟨⟨state, hstate⟩, ih ⟨rest, hrest⟩⟩

/-- The traits of a model are those of the file. -/
theorem traitAt_readTraitStates {raw : Obj φ} {traits : List (Key φ × TraitState)}
    (h : readTraitStates (.dict raw) = .ok traits) (k : Str) :
    traitAt k traits = (getKey k raw).bind fun spec => (TraitState.fromDict spec).toOption := by
  rw [readTraitStates] at h
  induction raw generalizing traits with
  | nil =>
      cases h
      rfl
  | cons item raw ih =>
      obtain ⟨key, spec⟩ := item
      rw [List.mapM_cons] at h
      obtain ⟨first, hfirst, h⟩ := ok_of_bind h
      obtain ⟨state, hstate, hfirst⟩ := ok_of_bind hfirst
      obtain ⟨rest, hrest, h⟩ := ok_of_bind h
      cases hfirst
      cases h
      cases key with
      | str k' =>
          rw [traitAt, getKey]
          split
          · rw [Option.bind_some, hstate]
            rfl
          · exact ih hrest
      | none | bool b | int i | float x =>
          simp only [traitAt, getKey]
          exact ih hrest

omit [FloatReader] in
theorem succeeds_required {α : Type} {x : Option α} : Succeeds (required x) ↔ ∃ a, x = some a := by
  cases x with
  | none => exact iff_of_false (fun ⟨_, h⟩ => nomatch h) (fun ⟨_, h⟩ => nomatch h)
  | some a => exact iff_of_true ⟨a, rfl⟩ ⟨a, rfl⟩

omit [Builtins φ] [FloatReader] in
theorem exists_mapping {policy : PyVal φ} {P : Obj φ → Prop} :
    (∃ d, mapping policy = .ok d ∧ P d) ↔ ∃ d, policy = .dict d ∧ P d := by
  refine exists_congr fun d => and_congr_left fun _ => ?_
  cases policy with
  | dict e => simp [mapping]
  | none | bool b | int i | float x | str s | list xs => simp [mapping]

omit [FloatReader] in
theorem succeeds_texts {L : Limits φ} {policy : Obj φ} :
    (Succeeds (L.str (orElse (fetch (lit "greeting") policy) (.str defaultGreeting))) ∧
      Succeeds (L.str (orElse (fetch (lit "offer") policy) (.str defaultOffer)))) ↔
      Worded L policy := by
  rw [succeeds_text, succeeds_text]
  exact ⟨fun h => ⟨h.1, h.2⟩, fun h => ⟨h.greeting, h.offer⟩⟩

omit [FloatReader] in
theorem succeeds_asProfile (L : Limits φ) (m : PersistedModel φ) :
    Succeeds (m.asProfile L) ↔
      (∃ state, traitAt (lit "formality") m.traits = some state) ∧
      Succeeds (intOf (getOr "max_sentences" (.int 3) m.voice)) ∧
      ∃ policy, m.policy = .dict policy ∧ PhraseList (fetch (lit "never_say") policy) ∧
        DictLike (fetch (lit "boundaries") policy) ∧ Worded L policy := by
  rw [← exists_mapping, ← succeeds_required]
  have hmapping : ∀ policy, orFault (mapping m.policy) = .ok policy ↔ mapping m.policy = .ok policy := by
    intro policy
    cases mapping m.policy <;> simp [orFault]
  simp only [PersistedModel.asProfile, succeeds_bind, succeeds_pure, and_true, exists_ok,
    exists_ok_and, succeeds_orFault, hmapping, ← succeeds_texts, succeeds_dictOf_orElse,
    succeeds_iterate_orElse]
  refine and_congr_right fun _ => and_congr_right fun _ => exists_congr fun policy => ?_
  refine and_congr_right fun _ => and_congr_right fun _ => ?_
  rw [← and_assoc, and_comm]

omit [FloatReader] in
/-- A product can be rounded to an integer if it is finite. -/
theorem succeeds_budget (maxSentences : PyVal φ) (verbosity : PyFloat ℚ) :
    (∃ product, verbosityProduct maxSentences verbosity = .ok product ∧
      Succeeds product.roundToInt) ↔ Budgeted maxSentences verbosity := by
  constructor
  · rintro ⟨product, hproduct, budget, hbudget⟩
    obtain ⟨n, hn, hproduct⟩ := ok_of_bind hproduct
    obtain ⟨factor, hfactor, hproduct⟩ := ok_of_bind hproduct
    cases product with
    | finite q => exact ⟨n, factor, q, hn, hfactor, Except.ok.inj hproduct⟩
    | nan | posInf | negInf => cases hbudget
  · rintro ⟨n, factor, q, hn, hfactor, hproduct⟩
    refine ⟨.finite q, ?_, _, rfl⟩
    rw [verbosityProduct, hn]
    simp only [bind, Except.bind, hfactor, hproduct]
    rfl

omit [FloatReader] in
theorem succeeds_governorPolicy (m : PersistedModel φ) :
    Succeeds m.governorPolicy ↔
      Budgeted (getOr "max_sentences" (.int 3) m.voice) (m.traitOr "verbosity" (.finite (1 / 2))) ∧
      ∃ policy, m.policy = .dict policy ∧ PhraseList (fetch (lit "never_say") policy) ∧
        DictLike (fetch (lit "boundaries") policy) := by
  rw [← exists_mapping, ← succeeds_budget]
  simp only [PersistedModel.governorPolicy, succeeds_bind, succeeds_pure, and_true, exists_ok,
    exists_ok_and, succeeds_dictOf_orElse, succeeds_iterate_orElse]
  constructor
  · rintro ⟨product, hproduct, hbudget, hpolicy⟩
    exact ⟨⟨product, hproduct, hbudget⟩, hpolicy⟩
  · rintro ⟨⟨product, hproduct, hbudget⟩, hpolicy⟩
    exact ⟨product, hproduct, hbudget, hpolicy⟩

omit [Builtins φ] [FloatReader] in
theorem ok_of_orFault {α : Type} {x : Except Exn α} {a : α} (h : orFault x = .ok a) : x = .ok a := by
  cases x with
  | ok b => exact congrArg _ (Except.ok.inj h)
  | error e => cases h

omit [Builtins φ] [FloatReader] in
/-- A key that is there is that of a dictionary. -/
theorem fieldOf_of_subscript {k : String} {data v : PyVal φ} (h : subscript (lit k) data = .ok v) :
    fieldOf k data = v := by
  cases data with
  | dict d =>
      rw [fieldOf, dictOrEmpty, fetch]
      rw [subscript] at h
      split at h
      · rename_i w hw
        cases h
        rw [hw]
        rfl
      · cases h
  | none | bool b | int i | float x | str s | list xs => cases h

/-- A model that was read has a profile and a policy if and only if its fields can be used. -/
theorem usable_iff {L : Limits φ} {now data : PyVal φ} {m : PersistedModel φ}
    (h : PersistedModel.read now data = .ok m) :
    (Succeeds (m.asProfile L) ∧ Succeeds m.governorPolicy) ↔ UsableFields L data := by
  obtain ⟨traitsRaw, htraitsRaw, h⟩ := ok_of_bind h
  obtain ⟨policy, hpolicy, h⟩ := ok_of_bind h
  obtain ⟨traits, htraits, h⟩ := ok_of_bind h
  obtain ⟨history, -, h⟩ := ok_of_bind h
  obtain ⟨voice, hvoice, h⟩ := ok_of_bind h
  obtain ⟨persona, -, h⟩ := ok_of_bind h
  obtain ⟨generation, -, h⟩ := ok_of_bind h
  cases h
  replace htraits := ok_of_orFault htraits
  replace hvoice := ok_of_orFault hvoice
  obtain rfl := fieldOf_of_subscript hpolicy
  obtain rfl := fieldOf_of_subscript htraitsRaw
  obtain ⟨raw, hraw⟩ : ∃ raw, fieldOf "traits" data = .dict raw := by
    cases htraitsRaw : fieldOf "traits" data with
    | dict raw => exact ⟨raw, rfl⟩
    | none | bool b | int i | float x | str s | list xs =>
        rw [htraitsRaw] at htraits
        cases htraits
  rw [hraw] at htraits
  have hat := traitAt_readTraitStates htraits
  have hverbosity : (traitAt (lit "verbosity") traits).elim (.finite (1 / 2)) TraitState.value =
      verbosityOf data := by
    rw [hat, verbosityOf, hraw]
    rfl
  have hformality : (∃ state, traitAt (lit "formality") traits = some state) ↔
      ∃ spec, getKey (lit "formality") (dictOrEmpty (fieldOf "traits" data)) = some spec := by
    rw [hraw, dictOrEmpty, hat]
    constructor
    · rintro ⟨state, hstate⟩
      obtain ⟨spec, hspec, -⟩ := Option.bind_eq_some_iff.1 hstate
      exact ⟨spec, hspec⟩
    · rintro ⟨spec, hspec⟩
      obtain ⟨state, hstate⟩ := succeeds_fromDict ⟨traits, htraits⟩ _ (mem_of_getKey hspec)
      exact ⟨state, Option.bind_eq_some_iff.2 ⟨spec, hspec, by rw [hstate]; rfl⟩⟩
  rw [succeeds_asProfile, succeeds_governorPolicy, hformality]
  simp only [PersistedModel.traitOr, hverbosity]
  constructor
  · rintro ⟨⟨hformality, -, hpolicy⟩, hbudget, -⟩
    exact ⟨hformality, ⟨voice, hvoice, hbudget⟩, hpolicy⟩
  · rintro ⟨hformality, ⟨voice', hvoice', hbudget⟩, policy, hpolicy, hphrases, hboundaries, hwords⟩
    cases hvoice.symm.trans hvoice'
    obtain ⟨n, -, -, hn, -⟩ := id hbudget
    exact ⟨⟨hformality, ⟨n, hn⟩, policy, hpolicy, hphrases, hboundaries, hwords⟩, hbudget, policy,
      hpolicy, hphrases, hboundaries⟩

/-- A file yields a character that can be used, or none, and nothing is raised. -/
def YieldsCharacter (L : Limits φ) (now : PyVal φ) (file : Option Str) : Prop :=
  ∃ result, PersistedModel.load L now file = .ok result ∧
    ∀ m, result = some m → Succeeds (m.asProfile L) ∧ Succeeds m.governorPolicy

/-- A file that is not too deep.  If it holds a document, then the first conversion that fails, if
there is one, is one that is handled, and if there is none, the fields that are not converted can be
used. -/
structure SoundFile (L : Limits φ) (file : Option Str) : Prop where
  shallow : ∀ text ∈ file, L.loadsTooDeep (universalNewlines false text) = false
  handled : ∀ data, documentOf L file = .ok data →
    ∀ fault, firstFault (conversions data) = some fault → fault.handled = true
  usable : ∀ data, documentOf L file = .ok data →
    firstFault (conversions data) = none → UsableFields L data

omit [FloatReader] in
/-- A file without a document raises what is handled, unless it is too deep. -/
theorem shallow_iff_of_error {L : Limits φ} {file : Option Str} {e : Exn}
    (h : documentOf L file = .error e) :
    (∀ text ∈ file, L.loadsTooDeep (universalNewlines false text) = false) ↔ e = .valueError := by
  cases file with
  | none =>
      cases h
      exact iff_of_true (fun text htext => nomatch htext) rfl
  | some text =>
      rw [documentOf] at h
      simp only [Option.mem_def, Option.some.injEq, forall_eq']
      constructor
      · intro hshallow
        rcases Limits.loads_error h with rfl | ⟨-, hdeep⟩
        · rfl
        · cases hshallow.symm.trans hdeep
      · rintro rfl
        cases hdeep : L.loadsTooDeep (universalNewlines false text) with
        | false => rfl
        | true =>
            rw [Limits.loads, hdeep] at h
            cases h

/-- For every interpreter and every file: it yields a character that can be used, or none, and nothing
is raised, if and only if it is not too deep, its first conversion that fails is handled, and the
fields that are used as they are can be. -/
theorem persisted_usable_iff (L : Limits φ) (now : PyVal φ) (file : Option Str) :
    YieldsCharacter L now file ↔ SoundFile L file := by
  rw [YieldsCharacter, PersistedModel.load]
  cases hdocument : documentOf L file with
  | error e =>
      have hshallow := shallow_iff_of_error hdocument
      constructor
      · rintro ⟨result, hresult, -⟩
        refine ⟨hshallow.2 ?_, ?_, ?_⟩
        · cases e with
          | valueError => rfl
          | attributeError | typeError | overflowError | recursionError => cases hresult
        · intro data hdata
          cases hdocument.symm.trans hdata
        · intro data hdata
          cases hdocument.symm.trans hdata
      · intro hsound
        obtain rfl := hshallow.1 hsound.shallow
        exact ⟨none, rfl, fun m hm => nomatch hm⟩
  | ok data =>
      have hsound : SoundFile L file ↔
          (∀ fault, firstFault (conversions data) = some fault → fault.handled = true) ∧
          (firstFault (conversions data) = none → UsableFields L data) := by
        constructor
        · intro h
          exact ⟨h.handled data hdocument, h.usable data hdocument⟩
        · rintro ⟨hhandled, husable⟩
          refine ⟨?_, ?_, ?_⟩
          · rintro text rfl
            exact (Limits.loads_eq_ok_iff.1 hdocument).1.shallow
          · intro data' hdata'
            cases hdocument.symm.trans hdata'
            exact hhandled
          · intro data' hdata'
            cases hdocument.symm.trans hdata'
            exact husable
      rw [hsound, ← faultOf_read now]
      dsimp only
      rw [PersistedModel.fromDict]
      cases hread : PersistedModel.read now data with
      | ok m =>
          rw [← usable_iff hread]
          simp [faultOf]
      | error fault =>
          cases hhandled : fault.handled <;> simp [faultOf, hhandled]

end

/-- A file with no traits. -/
def bareFile : Str := lit "\x7b\"traits\": \x7b\x7d, \"policy\": \x7b\x7d\x7d"

/-- A file with a trait that is a word. -/
def wordyFile : Str :=
  lit "\x7b\"traits\": \x7b\"warmth\": \x7b\"value\": \"high\"\x7d\x7d, \"policy\": \x7b\x7d\x7d"

/-- The faults of the profile of a file, if there is a model. -/
def profileFault [FloatReader] (L : Limits WholeFloat) (file : Str) : Option (Option ModelFault) :=
  match PersistedModel.load L .none (some file) with
  | .ok (some m) => some (faultOf (m.asProfile L))
  | _ => none

theorem not_yields_of_profileFault [FloatReader] {L : Limits WholeFloat} {file : Str}
    {fault : ModelFault} (h : profileFault L file = some (some fault)) :
    ¬ YieldsCharacter L .none (some file) := by
  rintro ⟨result, hresult, husable⟩
  rw [profileFault, hresult] at h
  cases result with
  | none => cases h
  | some m =>
      obtain ⟨⟨profile, hprofile⟩, -⟩ := husable m rfl
      simp [hprofile, faultOf] at h

theorem not_yields_of_fault [FloatReader] {L : Limits WholeFloat} {file : Str} {fault : ModelFault}
    (h : faultOf (PersistedModel.load L .none (some file)) = some fault) :
    ¬ YieldsCharacter L .none (some file) := by
  rintro ⟨result, hresult, -⟩
  rw [hresult] at h
  cases h

/-- A model without a formality has no profile, and `float("high")` raises, where nothing meets a limit. -/
theorem malformed_files_raise :
    letI : FloatReader := ⟨fun _ => none⟩
    ¬ YieldsCharacter (Limits.unlimited WholeFloat) .none (some bareFile) ∧
      ¬ YieldsCharacter (Limits.unlimited WholeFloat) .none (some wordyFile) := by
  let _ : FloatReader := ⟨fun _ => none⟩
  have hbare : profileFault (Limits.unlimited WholeFloat) bareFile = some (some .keyError) := by
    decide +kernel
  have hwordy : faultOf (PersistedModel.load (Limits.unlimited WholeFloat) .none (some wordyFile)) =
      some (.raised .valueError) := by decide +kernel
  exact ⟨not_yields_of_profileFault hbare, not_yields_of_fault hwordy⟩

end ShugoCore
