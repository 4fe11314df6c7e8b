import ShugoCore.Lib.Faults
import ShugoCore.Lib.Interpreter
import ShugoCore.Personality.Birth

/-!
# Persona packs, by an interpreter with limits

`from_dict` and `birth` of `personality/persona_pack.py` once more, with the limits that their
conversions meet.  `str` makes the texts of a pack, `repr` shows the values in a refusal, `json.dumps`
writes what is hashed, and `in` compares phrases.  None of what they raise is a `PersonaError`.

Without limits they are `fromDict` and `birth` (`fromDictWithin_unlimited`, `birthWithin_unlimited`).
-/

namespace ShugoCore

open Py Faults

variable {φ : Type} [Builtins φ] (L : Limits φ)

/-! ## Reading -/

/-- `str(v or "")`. -/
def textOrWithin (v : PyVal φ) : Except PackFault Str := raising (L.str (orElse v (.str [])))

/-- `_unit_float`.  The refusal of a value shows it. -/
def unitFloatWithin (value : PyVal φ) (place : Str) : Except PackFault (PyFloat ℚ) :=
  if value.isContainer then do
    let _ ← raising (L.str value)
    unitFloat value place
  else unitFloat value place

/-- A trait of a pack: a bare number, or a dictionary. -/
def traitOfWithin (place : Str) : PyVal φ → Except PackFault TraitState
  | .dict spec => do
      let value ← unitFloatWithin L (fetch (lit "value") spec) (place ++ lit ".value")
      let confidence ← match getKey (lit "confidence") spec with
        | some v => unitFloatWithin L v (place ++ lit ".confidence")
        | none => .ok (.finite 0)
      let evidenceCount ← raising (intOf (orElse (fetch (lit "evidence_count") spec) (.int 0)))
      let lastGen ← raising (intOf (orElse (fetch (lit "last_gen") spec) (.int 0)))
      return .new value confidence (max 0 evidenceCount) (max 0 lastGen)
  | spec => do return .new (← unitFloatWithin L spec place) (.finite 0) 0 0

/-- The loop of `traits_from_raw`. -/
def readTraitsWithin (place : Str) (traits : Dict Str TraitState) :
    Obj φ → Except PackFault (Dict Str TraitState)
  | [] => .ok traits
  | (name, spec) :: raw => do
      let key ← raising (L.str name.toVal)
      if isTraitName key then do
        let state ← traitOfWithin L (place ++ [46] ++ key) spec
        readTraitsWithin place (Dict.set traits key state) raw
      else .error (.traitName place key)

/-- `traits_from_raw`. -/
def traitsFromRawWithin (raw : PyVal φ) (place : Str) : Except PackFault (Dict Str TraitState) :=
  match raw with
  | .none => .ok []
  | .dict raw => readTraitsWithin L place [] raw
  | _ => .error (.field place)

/-- A `PersonaError`, if there is a reason for it. -/
def refuseIf (reason : Prop) [Decidable reason] (fault : PackFault) : Except PackFault Unit :=
  if reason then .error fault else .ok ()

/-- The fields that must be dictionaries are. -/
def checkBlocks (data : Obj φ) : Except PackFault Unit :=
  match blockKeys.find? fun key => !isBlock (fetch key data) with
  | some key => .error (.field key)
  | none => .ok ()

/-- The reference to trained weights, which must say where they are. -/
def voiceModelOfWithin (data : Obj φ) : Except PackFault (Option (Obj φ)) :=
  match fetch (lit "voice_model") data with
  | .dict voiceModel => do
      let uri ← textOrWithin L (fetch (lit "uri") voiceModel)
      refuseIf (strip uri = []) .uri
      return some voiceModel
  | _ => .ok none

/-- What the digest of a pack is taken over. -/
def digestBody (payload : Obj φ) : PyVal φ := .dict (payload.filter fun i => keyNotIn [lit "hash"] i.1)

/-- `compute_digest`. -/
def computeDigestWithin (hashes : Hashlib) (payload : Obj φ) : Except Exn Str := do
  let document ← L.encode (digestBody payload)
  return hashes.sha256 (render compact document)

/-- The hash that a pack carries, which must be its own. -/
def declaredHashOfWithin (data : Obj φ) (digest : Str) : Except PackFault (Option Str) :=
  match fetch (lit "hash") data with
  | .none => .ok none
  | declared => do
      let text ← raising (L.str declared)
      refuseIf (text ≠ digest) (.hash text digest)
      return some text

/-- `from_dict`. -/
def fromDictWithin (hashes : Hashlib) (data : PyVal φ) (source : Str) :
    Except PackFault (PersonaPack φ) :=
  match data with
  | .dict data => do
      let schema ← textOrWithin L (fetch (lit "schema") data)
      refuseIf (schema ≠ personaSchema) (.schema schema)
      let personaId ← textOrWithin L (fetch (lit "persona_id") data)
      refuseIf (isPackId personaId = false) (.personaId personaId)
      let version ← textOrWithin L (fetch (lit "version") data)
      refuseIf (strip version = [] ∨ 64 < (strip version).length) .version
      checkBlocks data
      let voiceModel ← voiceModelOfWithin L data
      let digest ← raising (computeDigestWithin L hashes data)
      let declaredHash ← declaredHashOfWithin L data digest
      let name ← textOrWithin L (fetch (lit "name") data)
      let traits ← traitsFromRawWithin L (fetch (lit "traits") data) (lit "traits")
      return {
        schema := schema
        personaId := personaId
        version := strip version
        name := name
        traits := traits
        voice := dictOrEmpty (fetch (lit "voice") data)
        speech := dictOrEmpty (fetch (lit "speech") data)
        policy := dictOrEmpty (fetch (lit "policy") data)
        proactivity := normaliseProactivity (fetch (lit "proactivity") data)
        voiceModel := voiceModel
        provenance := dictOrEmpty (fetch (lit "provenance") data)
        licence := dictOrEmpty (fetch (lit "licence") data)
        digest := digest
        declaredHash := declaredHash
        source := source }
  | _ => .error .notObject

/-! ## Birth -/

/-- `genesis`, with the texts of the two lines that are said unprompted. -/
def LivingModel.genesisWithin (profile : PersonalityProfile φ) : Except Exn (LivingModel φ) := do
  let _ ← extractPolicy profile
  let _ ← L.str (orElse (fetch (lit "greeting") profile.speech) (.str defaultGreeting))
  let _ ← L.str (orElse (fetch (lit "offer") profile.speech) (.str defaultOffer))
  LivingModel.genesis profile

/-- `v in xs` for a list. -/
def memberWithin (v : PyVal φ) (xs : List (PyVal φ)) : Except Exn Bool :=
  if v.isContainer && L.inTooDeep v xs then .error .recursionError
  else .ok (xs.any fun x => sameValue v x)

/-- `[p for p in phrases if p not in known]`. -/
def newPhrases (known : List (PyVal φ)) : List (PyVal φ) → Except Exn (List (PyVal φ))
  | [] => .ok []
  | p :: phrases => do
      let isKnown ← memberWithin L p known
      let rest ← newPhrases known phrases
      return if isKnown then rest else p :: rest

/-- The phrases that a pack declares. -/
def PersonaPack.declaredNeverWithin (pack : PersonaPack φ) : Except Exn (List (PyVal φ)) := do
  let speech ← iterate (orElse (fetch (lit "never_say") pack.speech) (.list []))
  let policy ← iterate (orElse (fetch (lit "never_say") pack.policy) (.list []))
  return speech ++ (← newPhrases L speech policy)

/-- The phrases of the model, and those that the pack adds.  `_merge_never_say` makes the texts of
all. -/
def PersonaPack.neverSayWithin (pack : PersonaPack φ) (own : List (PyVal φ)) :
    Except Exn (List (PyVal φ) × List Str) := do
  let declared ← pack.declaredNeverWithin L
  if pack.declaresNever then do
    let _ ← own.mapM L.str
    let _ ← declared.mapM L.str
    let merged := mergeNeverSay own declared
    return (merged.1.map .str, merged.2)
  else return (own, [])

/-- The boundaries of the model.  `_merge_boundaries` shows each value that is no boolean. -/
def PersonaPack.boundariesWithin (pack : PersonaPack φ) (own : Obj φ) :
    Except Exn (MergedBoundaries φ) :=
  let declared := fetch (lit "boundaries") pack.policy
  if truthy declared then
    match declared with
    | .dict declared => do
        let _ ← declared.mapM fun item => L.str item.2
        return mergeBoundaries own declared
    | _ => .error .attributeError
  else .ok ⟨own, [], []⟩

/-- `birth`.  Where no limit is met, it returns what it returns without limits. -/
def birthWithin (pack : PersonaPack φ) (profile : PersonalityProfile φ) :
    Except Exn (LivingModel φ × BirthReport φ) := do
  let model ← LivingModel.genesisWithin L profile
  let _ ← pack.neverSayWithin L model.policy.neverSay
  let _ ← pack.boundariesWithin L model.policy.boundaries
  birth pack profile

/-! ## No limits -/

theorem refuseIf_bind {α : Type} (reason : Prop) [Decidable reason] (fault : PackFault)
    (f : Unit → Except PackFault α) :
    (refuseIf reason fault >>= f) = if reason then .error fault else f () := by
  rw [refuseIf]
  split <;> rfl

theorem textOrWithin_unlimited (v : PyVal φ) : textOrWithin (.unlimited φ) v = .ok (textOr v) := by
  rw [textOrWithin, Limits.str_unlimited]
  rfl

theorem unitFloatWithin_unlimited (value : PyVal φ) (place : Str) :
    unitFloatWithin (.unlimited φ) value place = unitFloat value place := by
  rw [unitFloatWithin, Limits.str_unlimited]
  split <;> rfl

theorem traitOfWithin_unlimited (place : Str) (spec : PyVal φ) :
    traitOfWithin (.unlimited φ) place spec = traitOf place spec := by
  cases spec with
  | dict spec =>
      cases hconfidence : getKey (lit "confidence") spec with
      | none => simp only [traitOfWithin, traitOf, hconfidence, unitFloatWithin_unlimited]
      | some v => simp only [traitOfWithin, traitOf, hconfidence, unitFloatWithin_unlimited]
  | none | bool b | int i | float x | str s | list xs =>
      simp only [traitOfWithin, traitOf, unitFloatWithin_unlimited]

theorem readTraitsWithin_unlimited (place : Str) (traits : Dict Str TraitState) (raw : Obj φ) :
    readTraitsWithin (.unlimited φ) place traits raw = readTraits place traits raw := by
  induction raw generalizing traits with
  | nil => rfl
  | cons item raw ih =>
      rw [readTraitsWithin, readTraits, Limits.str_unlimited]
      simp only [traitOfWithin_unlimited, ih]
      rfl

theorem traitsFromRawWithin_unlimited (raw : PyVal φ) (place : Str) :
    traitsFromRawWithin (.unlimited φ) raw place = traitsFromRaw raw place := by
  cases raw with
  | dict raw => exact readTraitsWithin_unlimited place [] raw
  | none | bool b | int i | float x | str s | list xs => rfl

theorem voiceModelOfWithin_unlimited (data : Obj φ) :
    voiceModelOfWithin (.unlimited φ) data = voiceModelOf data := by
  rw [voiceModelOfWithin, voiceModelOf]
  cases fetch (lit "voice_model") data with
  | dict voiceModel =>
      simp only [textOrWithin_unlimited, refuseIf_bind]
      rfl
  | none | bool b | int i | float x | str s | list xs => rfl

theorem computeDigestWithin_unlimited (hashes : Hashlib) (payload : Obj φ) :
    computeDigestWithin (.unlimited φ) hashes payload = computeDigest hashes payload := by
  rw [computeDigestWithin, Limits.encode_unlimited, computeDigest, canonicalHash, canonicalJson, dumps,
    digestBody]
  cases encode (.dict (payload.filter fun i => keyNotIn [lit "hash"] i.1)) <;> rfl

theorem declaredHashOfWithin_unlimited (data : Obj φ) (digest : Str) :
    declaredHashOfWithin (.unlimited φ) data digest = declaredHashOf data digest := by
  rw [declaredHashOfWithin, declaredHashOf]
  cases fetch (lit "hash") data with
  | none => rfl
  | bool b | int i | float x | str s | list xs | dict d =>
      simp only [Limits.str_unlimited, refuseIf_bind]
      rfl

/-- Without limits, packs are read as `fromDict` reads them. -/
theorem fromDictWithin_unlimited (hashes : Hashlib) (data : PyVal φ) (source : Str) :
    fromDictWithin (.unlimited φ) hashes data source = fromDict hashes data source := by
  cases data with
  | dict data =>
      have htext : ∀ (text : Str) (f : Str → Except PackFault (PersonaPack φ)),
          (Except.ok text >>= f) = f text := fun _ _ => rfl
      simp only [fromDictWithin, fromDict, textOrWithin_unlimited, voiceModelOfWithin_unlimited,
        computeDigestWithin_unlimited, declaredHashOfWithin_unlimited, traitsFromRawWithin_unlimited,
        refuseIf_bind, htext, Bool.not_eq_true', checkBlocks]
      cases blockKeys.find? fun key => !isBlock (fetch key data) <;> rfl
  | none | bool b | int i | float x | str s | list xs => rfl

theorem genesisWithin_unlimited (profile : PersonalityProfile φ) :
    LivingModel.genesisWithin (.unlimited φ) profile = LivingModel.genesis profile := by
  rw [LivingModel.genesisWithin, LivingModel.genesis, Limits.str_unlimited, Limits.str_unlimited]
  cases extractPolicy profile <;> rfl

theorem newPhrases_unlimited (known phrases : List (PyVal φ)) :
    newPhrases (.unlimited φ) known phrases =
      .ok (phrases.filter fun p => !known.any fun q => sameValue p q) := by
  induction phrases with
  | nil => rfl
  | cons p phrases ih =>
      have hmember : memberWithin (.unlimited φ) p known = .ok (known.any fun q => sameValue p q) :=
        if_neg (by simp [Limits.unlimited])
      rw [newPhrases, hmember, ih, List.filter_cons]
      cases known.any fun q => sameValue p q <;> rfl

theorem neverSayWithin_unlimited (pack : PersonaPack φ) (own : List (PyVal φ)) :
    pack.neverSayWithin (.unlimited φ) own = pack.neverSay own := by
  have hdeclared : pack.declaredNeverWithin (.unlimited φ) = pack.declaredNever := by
    simp only [PersonaPack.declaredNeverWithin, PersonaPack.declaredNever, newPhrases_unlimited]
    rfl
  have htexts : ∀ phrases : List (PyVal φ), Succeeds (phrases.mapM (Limits.unlimited φ).str) :=
    fun phrases => succeeds_mapM.2 fun phrase _ => ⟨strOf phrase, Limits.str_unlimited phrase⟩
  rw [PersonaPack.neverSayWithin, PersonaPack.neverSay, hdeclared]
  cases pack.declaredNever with
  | error e => rfl
  | ok declared =>
      obtain ⟨texts, htexts'⟩ := htexts own
      obtain ⟨added, hadded⟩ := htexts declared
      dsimp only [bind, Except.bind]
      rw [htexts']
      dsimp only
      rw [hadded]

theorem boundariesWithin_unlimited (pack : PersonaPack φ) (own : Obj φ) :
    pack.boundariesWithin (.unlimited φ) own = pack.boundaries own := by
  rw [PersonaPack.boundariesWithin, PersonaPack.boundaries]
  cases fetch (lit "boundaries") pack.policy with
  | dict declared =>
      have hshown : Succeeds (declared.mapM fun item => (Limits.unlimited φ).str item.2) :=
        succeeds_mapM.2 fun item _ => ⟨strOf item.2, Limits.str_unlimited item.2⟩
      obtain ⟨texts, htexts⟩ := hshown
      dsimp only
      rw [htexts]
      rfl
  | none | bool b | int i | float x | str s | list xs => rfl

/-- Without limits, models are born as `birth` bears them. -/
theorem birthWithin_unlimited (pack : PersonaPack φ) (profile : PersonalityProfile φ) :
    birthWithin (.unlimited φ) pack profile = birth pack profile := by
  rw [birthWithin, genesisWithin_unlimited]
  simp only [neverSayWithin_unlimited, boundariesWithin_unlimited]
  rw [birth]
  cases LivingModel.genesis profile with
  | error e => rfl
  | ok model =>
      cases hsaid : pack.neverSay model.policy.neverSay with
      | error e => simp only [bind, Except.bind, hsaid]
      | ok said =>
          cases hmerged : pack.boundaries model.policy.boundaries with
          | error e => simp only [bind, Except.bind, hsaid, hmerged]
          | ok merged => simp only [bind, Except.bind, hsaid, hmerged]

end ShugoCore
