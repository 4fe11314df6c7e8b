import ShugoCore.Personality.Birth
import ShugoCore.Personality.NeverSay

/-!
# What an adoption keeps

A model that is born of a pack against the one that the node has without it.  Boundaries that
are on stay on, the permissions stay as they are, and so does every phrase that is not blank
(`PerimetersKept`).  But the governor lets everything pass when it cannot work out how many
sentences there may be, and the pack chooses the number.  And a blank phrase is dropped when
phrases are united.  These are the two ways to lose a refusal (`adoption_refuses_iff`).
-/

namespace ShugoCore

open Py

variable {φ : Type} [Builtins φ]

/-! ## Keys that are equal -/

/-- What a key is equal to: one key, or the keys that are one number. -/
def keyClass : Key φ → Option (Key φ ⊕ ℚ)
  | .none => some (.inl .none)
  | .str s => some (.inl (.str s))
  | .float .posInf => some (.inl (.float .posInf))
  | .float .negInf => some (.inl (.float .negInf))
  | k => (keyNumber k).map .inr

theorem sameKey_iff {a b : Key φ} :
    sameKey a b = true ↔ ∃ c, keyClass a = some c ∧ keyClass b = some c := by
  simp only [sameKey, keyClass]
  cases a with
  | float x =>
      cases x <;> cases b with
      | float y => cases y <;> simp [keyNumber, eq_comm]
      | _ => simp [keyNumber, eq_comm]
  | _ =>
      cases b with
      | float y => cases y <;> simp [keyNumber, eq_comm]
      | _ => simp [keyNumber, eq_comm]

theorem sameKey_congr {a b : Key φ} (h : sameKey a b = true) (k : Key φ) :
    sameKey a k = sameKey b k := by
  obtain ⟨c, ha, hb⟩ := sameKey_iff.1 h
  rw [Bool.eq_iff_iff, sameKey_iff, sameKey_iff, ha, hb]

theorem sameKey_of_both {a b k : Key φ} (ha : sameKey a k = true) (hb : sameKey b k = true) :
    sameKey a b = true := by
  obtain ⟨c, ha, hk⟩ := sameKey_iff.1 ha
  obtain ⟨c', hb, hk'⟩ := sameKey_iff.1 hb
  cases hk.symm.trans hk'
  exact sameKey_iff.2 ⟨c, ha, hb⟩

/-- Equal keys have the same item. -/
theorem getItem_congr {a b : Key φ} (h : sameKey a b = true) (d : Obj φ) :
    getItem a d = getItem b d := by
  induction d with
  | nil => rfl
  | cons i d ih =>
      obtain ⟨c, ha, hb⟩ := sameKey_iff.1 h
      have hsame : sameKey i.1 a = sameKey i.1 b := by
        rw [Bool.eq_iff_iff, sameKey_iff, sameKey_iff, ha, hb]
      obtain ⟨k, v⟩ := i
      rw [getItem, getItem, hsame, ih]

/-- Setting a key changes what is found for it, and nothing else. -/
theorem getItem_setItem (k k₁ : Key φ) (v : PyVal φ) (d : Obj φ) :
    getItem k₁ (setItem k v d) = if sameKey k k₁ then some v else getItem k₁ d := by
  induction d with
  | nil => rfl
  | cons i d ih =>
      obtain ⟨k', v'⟩ := i
      rw [setItem]
      split
      · rename_i hk
        rw [getItem, getItem, sameKey_congr hk]
        split <;> rfl
      · rename_i hk
        rw [getItem, getItem, ih]
        by_cases hk₁ : sameKey k' k₁ = true
        · have hne : ¬ sameKey k k₁ = true := fun h => hk (sameKey_of_both hk₁ h)
          rw [if_pos hk₁, if_neg hne, if_pos hk₁]
        · rw [if_neg hk₁, if_neg hk₁]

/-! ## Boundaries -/

/-- A boundary that is on stays on, whatever is declared next. -/
theorem MergedBoundaries.isOn_declare {m : MergedBoundaries φ} {k : Key φ}
    (h : isOn m.merged k = true) (item : Key φ × PyVal φ) :
    isOn (m.declare item).merged k = true := by
  simp only [MergedBoundaries.declare]
  split
  · rename_i value hvalue
    split
    · simp only [isOn]
      rw [getItem_setItem]
      split
      · rfl
      · exact h
    · split
      · exact h
      · simp only [setDefaultItem]
        cases hget : getItem item.1 m.merged with
        | some v => exact h
        | none =>
            have hne : ¬ sameKey item.1 k = true := by
              intro hsame
              rw [isOn, ← getItem_congr hsame, hget] at h
              cases h
            simp only [isOn]
            rw [getItem_setItem, if_neg hne]
            exact h
  · exact h

theorem isOn_mergeBoundaries {own : Obj φ} {k : Key φ} (h : isOn own k = true) (declared : Obj φ) :
    isOn (mergeBoundaries own declared).merged k = true := by
  have hfold : ∀ (items : Obj φ) (m : MergedBoundaries φ), isOn m.merged k = true →
      isOn (items.foldl MergedBoundaries.declare m).merged k = true := by
    intro items
    induction items with
    | nil => exact fun m hm => hm
    | cons item items ih => exact fun m hm => ih _ (MergedBoundaries.isOn_declare hm item)
  exact hfold declared _ h

theorem PersonaPack.isOn_boundaries {pack : PersonaPack φ} {own : Obj φ} {m : MergedBoundaries φ}
    (h : pack.boundaries own = .ok m) {k : Key φ} (hk : isOn own k = true) :
    isOn m.merged k = true := by
  unfold PersonaPack.boundaries at h
  dsimp only at h
  split at h
  · split at h
    · cases h
      exact isOn_mergeBoundaries hk _
    · cases h
  · cases h
    exact hk

/-! ## Phrases -/

/-- The phrases of both sides are united. -/
theorem mem_addTexts {merged added texts : List Str} {t : Str} :
    t ∈ (addTexts merged added texts).1 ↔ t ∈ merged ∨ t ∈ texts := by
  induction texts generalizing merged added with
  | nil => simp [addTexts]
  | cons text texts ih =>
      rw [addTexts]
      split
      · rename_i hin
        rw [ih, List.mem_cons]
        constructor
        · exact Or.imp_right .inr
        · rintro (h | rfl | h)
          · exact .inl h
          · exact .inl hin
          · exact .inr h
      · rw [ih, List.mem_append, List.mem_singleton, List.mem_cons, or_assoc]

theorem mem_neverTexts_strings {phrases : List Str} {t : Str} :
    t ∈ neverTexts (phrases.map (.str : Str → PyVal φ)) ↔
      (∃ p ∈ phrases, strip p = t) ∧ t ≠ [] := by
  simp [neverTexts, strOf]

/-- The phrases of a model that is born. -/
theorem PersonaPack.neverSay_cases {pack : PersonaPack φ} {phrases : List Str}
    {values : List (PyVal φ)} {added : List Str}
    (h : pack.neverSay (phrases.map .str) = .ok (values, added)) :
    ∃ declared, pack.declaredNever = .ok declared ∧ ∃ texts : List Str, values = texts.map .str ∧
      if pack.declaresNever then
        ∀ t, t ∈ texts ↔ ((∃ p ∈ phrases, strip p = t) ∧ t ≠ []) ∨ t ∈ neverTexts declared
      else texts = phrases := by
  unfold PersonaPack.neverSay at h
  obtain ⟨declared, hdeclared, h⟩ := ok_of_bind h
  refine ⟨declared, hdeclared, ?_⟩
  split at h
  · rename_i hdeclares
    cases h
    refine ⟨_, rfl, ?_⟩
    rw [if_pos hdeclares]
    intro t
    exact mem_addTexts.trans (or_congr_left mem_neverTexts_strings)
  · rename_i hdeclares
    cases h
    exact ⟨phrases, rfl, if_neg hdeclares ▸ rfl⟩

/-! ## The content rule -/

/-- A phrase is found in a text. -/
def Found (lower : Str → Str) (text p : Str) : Prop := text ≠ [] ∧ p ≠ [] ∧ lower p <:+: lower text

instance (lower : Str → Str) (text p : Str) : Decidable (Found lower text p) :=
  inferInstanceAs (Decidable (_ ∧ _ ∧ _))

/-- The hits among phrases that are texts. -/
theorem contentHits_strings (lower : Str → Str) (text : Str) (phrases : List Str) :
    contentHits lower text (phrases.map (.str : Str → PyVal φ)) =
      .ok (phrases.filter fun p => Found lower text p) := by
  induction phrases with
  | nil => rfl
  | cons p phrases ih =>
      have hhit : phraseHit lower text (.str p : PyVal φ) =
          .ok (if Found lower text p then some p else none) := by
        simp only [phraseHit, Found]
        by_cases htext : text = []
        · simp [htext]
        · by_cases hp : p = []
          · simp [hp, truthy]
          · simp [htext, hp, truthy]
      rw [List.map_cons, contentHits, hhit, ih]
      by_cases hp : Found lower text p
      · rw [if_pos hp, List.filter_cons_of_pos (by simpa using hp)]
        rfl
      · rw [if_neg hp, List.filter_cons_of_neg (by simpa using hp)]
        rfl

/-- The governor redirects a text for what it says, if it can work out its policy. -/
theorem annotate_eq_blocked_iff {m : LivingModel φ} {phrases : List Str}
    (hm : m.policy.neverSay = phrases.map .str) (lower : Str → Str) (selfInitiated : Bool)
    (kind : SpeechKind) (params : PyVal φ) :
    annotate lower m.governed selfInitiated kind params = blocked ↔
      ∃ d, paramsDict params = .ok d ∧ (∃ x, m.derived = .ok x) ∧
        ∃ p ∈ phrases, Found lower (extractText d) p := by
  have hnever : iterate (orElse (.list (phrases.map .str) : PyVal φ) (.list [])) =
      .ok (phrases.map .str) := by
    cases phrases <;> rfl
  simp only [annotate, verdictOf, PersonalityModel.policy, LivingModel.governed]
  rw [hm, hnever]
  cases hd : paramsDict params with
  | error e => simp [bind, Except.bind, failOpen]
  | ok d =>
      cases hderived : m.derived with
      | error e => simp [bind, Except.bind, failOpen]
      | ok x =>
          simp only [bind, Except.bind, pure, Except.pure, contentHits_strings]
          by_cases hhits : (phrases.filter fun p => Found lower (extractText d) p) = []
          · have hnone : ¬ ∃ p ∈ phrases, Found lower (extractText d) p := by
              rintro ⟨p, hp, hfound⟩
              simpa [hfound] using List.filter_eq_nil_iff.1 hhits p hp
            rw [if_neg (not_not_intro hhits)]
            constructor
            · intro h
              split at h
              · cases h
              · split at h <;> cases h
            · rintro ⟨d', hd', -, hfound⟩
              cases hd'
              exact absurd hfound hnone
          · rw [if_pos hhits]
            obtain ⟨p, hp⟩ := List.exists_mem_of_ne_nil _ hhits
            obtain ⟨hp, hfound⟩ := List.mem_filter.1 hp
            exact iff_of_true rfl ⟨d, rfl, ⟨x, rfl⟩, p, hp, by simpa using hfound⟩

/-! ## The budget -/

/-- A number of sentences that a float holds, and so it does the product with the verbosity. -/
def Budgeted (maxSentences : PyVal φ) (verbosity : PyFloat ℚ) : Prop :=
  ∃ n factor q, intOf maxSentences = .ok n ∧ PyFloat.ofInt n = .ok factor ∧
    factor.mul (.add (.finite (1 / 2)) verbosity) = .finite q

theorem LivingModel.derived_ok_iff (m : LivingModel φ) :
    (∃ x, m.derived = .ok x) ↔
      Budgeted m.voice.maxSentences (m.trait (lit "verbosity") (.finite (1 / 2))) := by
  constructor
  · rintro ⟨x, h⟩
    unfold LivingModel.derived verbosityProduct at h
    obtain ⟨product, hproduct, h⟩ := ok_of_bind h
    obtain ⟨n, hn, hproduct⟩ := ok_of_bind hproduct
    obtain ⟨factor, hfactor, hproduct⟩ := ok_of_bind hproduct
    obtain ⟨budget, hbudget, -⟩ := ok_of_bind h
    cases product with
    | finite q => exact ⟨n, factor, q, hn, hfactor, Except.ok.inj hproduct⟩
    | nan | posInf | negInf => cases hbudget
  · rintro ⟨n, factor, q, hn, hfactor, hproduct⟩
    simp only [LivingModel.derived, verbosityProduct]
    simp only [hn, hfactor, hproduct, bind, Except.bind, pure, Except.pure, PyFloat.roundToInt]
    exact ⟨_, rfl⟩

/-! ## A pack that is accepted -/

theorem nodup_readTraits {place : Str} {raw : Obj φ} {traits read : Dict Str TraitState}
    (htraits : (traits.map Prod.fst).Nodup) (h : readTraits place traits raw = .ok read) :
    (read.map Prod.fst).Nodup := by
  induction raw generalizing traits with
  | nil =>
      cases h
      exact htraits
  | cons item raw ih =>
      obtain ⟨name, spec⟩ := item
      rw [readTraits] at h
      split at h
      · obtain ⟨state, -, h⟩ := ok_of_bind h
        exact ih (Dict.nodup_set htraits) h
      · cases h

theorem nodup_traitsFromRaw {raw : PyVal φ} {place : Str} {traits : Dict Str TraitState}
    (h : traitsFromRaw raw place = .ok traits) : (traits.map Prod.fst).Nodup := by
  cases raw with
  | none =>
      cases h
      exact List.nodup_nil
  | dict raw => exact nodup_readTraits (by simp) h
  | _ => cases h

/-- A pack has each trait once. -/
theorem nodup_traits_of_fromDict {hashes : Hashlib} {data : PyVal φ} {source : Str}
    {pack : PersonaPack φ} (h : fromDict hashes data source = .ok pack) :
    (pack.traits.map Prod.fst).Nodup := by
  unfold fromDict at h
  split at h
  · dsimp only at h
    split at h
    · cases h
    · split at h
      · cases h
      · split at h
        · cases h
        · split at h
          · cases h
          · obtain ⟨voiceModel, -, h⟩ := ok_of_bind h
            obtain ⟨digest, -, h⟩ := ok_of_bind h
            obtain ⟨declaredHash, -, h⟩ := ok_of_bind h
            obtain ⟨traits, htraits, h⟩ := ok_of_bind h
            cases h
            exact nodup_traitsFromRaw htraits
  · cases h

/-! ## What is born -/

theorem LivingModel.genesis_ok {profile : PersonalityProfile φ} {own : LivingModel φ}
    (h : LivingModel.genesis profile = .ok own) :
    iterate (orElse (fetch (lit "never_say") profile.speech) (.list [])) =
        .ok own.policy.neverSay ∧
      own.policy.boundaries = profile.boundaries ∧
      own.policy.proactivity = normaliseProactivity profile.proactivity ∧
      (∃ n, intOf (getOr "max_sentences" (.int 3) profile.speech) = .ok n ∧
        own.voice.maxSentences = .int n) ∧
      Dict.get? own.traits (lit "verbosity") = some (.new (.nearest (1 / 2)) (.finite 0) 0 0) := by
  unfold LivingModel.genesis extractPolicy at h
  obtain ⟨policy, hpolicy, h⟩ := ok_of_bind h
  obtain ⟨neverSay, hnever, hpolicy⟩ := ok_of_bind hpolicy
  obtain ⟨n, hn, h⟩ := ok_of_bind h
  cases hpolicy
  cases h
  exact ⟨hnever, rfl, rfl, ⟨n, hn, rfl⟩, rfl⟩

theorem birth_ok {pack : PersonaPack φ} {profile : PersonalityProfile φ} {born : LivingModel φ}
    {report : BirthReport φ} (h : birth pack profile = .ok (born, report)) :
    ∃ own added boundaries, LivingModel.genesis profile = .ok own ∧
      pack.neverSay own.policy.neverSay = .ok (born.policy.neverSay, added) ∧
      pack.boundaries own.policy.boundaries = .ok boundaries ∧
      born.policy.boundaries = boundaries.merged ∧
      born.policy.proactivity = own.policy.proactivity ∧
      born.voice.maxSentences =
        orKept (fetch (lit "max_sentences") pack.voice) own.voice.maxSentences ∧
      born.traits =
        pack.traits.foldl (fun traits trait => Dict.set traits trait.1 trait.2) own.traits := by
  unfold birth at h
  obtain ⟨own, hown, h⟩ := ok_of_bind h
  obtain ⟨⟨neverSay, added⟩, hnever, h⟩ := ok_of_bind h
  obtain ⟨boundaries, hboundaries, h⟩ := ok_of_bind h
  cases h
  exact ⟨own, added, boundaries, hown, hnever, hboundaries, rfl, rfl, rfl, rfl⟩

/-! ## What is kept -/

/-- The number of sentences that a pack brings, or else that of the node. -/
def PersonaPack.maxSentences (pack : PersonaPack φ) (profile : PersonalityProfile φ) : PyVal φ :=
  orKept (fetch (lit "max_sentences") pack.voice) (getOr "max_sentences" (.int 3) profile.speech)

/-- The verbosity that a pack brings, or else that of a new model. -/
def PersonaPack.verbosity (pack : PersonaPack φ) : PyFloat ℚ :=
  match Dict.get? pack.traits (lit "verbosity") with
  | some state => state.value
  | none => .nearest (1 / 2)

/-- The perimeters of the node, in the model that is born. -/
structure PerimetersKept (profile : PersonalityProfile φ) (phrases : List Str)
    (born : LivingModel φ) : Prop where
  boundaries : ∀ k, isOn profile.boundaries k = true → isOn born.policy.boundaries k = true
  proactivity : born.policy.proactivity = normaliseProactivity profile.proactivity
  neverSay : ∀ p ∈ phrases, strip p ≠ [] → strip p ∈ neverTexts born.policy.neverSay

/-- A text has a phrase that is not blank: one of the node, as it is or without the white
space around it, or one of the pack.  If the pack has none, any phrase will do. -/
def StillFound (lower : Str → Str) (pack : PersonaPack φ) (phrases : List Str) (text : Str) : Prop :=
  pack.declaresNever = false ∨
    (∃ p ∈ phrases, strip p ≠ [] ∧ (lower p <:+: lower text ∨ lower (strip p) <:+: lower text)) ∨
    ∃ declared, pack.declaredNever = .ok declared ∧
      ∃ p ∈ neverTexts declared, lower p <:+: lower text

/-- `str.lower` of the parts of a text around a white space.  No letter changes with what is
beyond one. -/
def SplitsAtSpaces (lower : Str → Str) : Prop :=
  ∀ (u v : Str) (c : CodePoint), isSpace c = true → lower (u ++ c :: v) = lower u ++ c :: lower v

theorem lower_dropWhile_within {lower : Str → Str} (h : SplitsAtSpaces lower) (s : Str) :
    lower (s.dropWhile isSpace) <:+: lower s := by
  induction s with
  | nil => exact List.infix_rfl
  | cons c s ih =>
      by_cases hc : isSpace c = true
      · rw [List.dropWhile_cons_of_pos hc]
        have hsplit : lower (c :: s) = lower [] ++ c :: lower s := h [] s c hc
        rw [hsplit]
        exact ih.trans ⟨lower [] ++ [c], [], by simp⟩
      · rw [List.dropWhile_cons_of_neg hc]

theorem lower_rdropWhile_within {lower : Str → Str} (h : SplitsAtSpaces lower) (s : Str) :
    lower (s.rdropWhile isSpace) <:+: lower s := by
  induction s using List.reverseRecOn with
  | nil => exact List.infix_rfl
  | append_singleton s c ih =>
      by_cases hc : isSpace c = true
      · rw [List.rdropWhile_concat_pos _ _ _ hc, h s [] c hc]
        exact ih.trans ⟨[], c :: lower [], by simp⟩
      · rw [List.rdropWhile_concat_neg _ _ _ hc]

/-- A phrase without the white space around it is found wherever the phrase is. -/
theorem lower_strip_within {lower : Str → Str} (h : SplitsAtSpaces lower) (s : Str) :
    lower (strip s) <:+: lower s :=
  (lower_rdropWhile_within h _).trans (lower_dropWhile_within h s)

theorem value_baseline : (TraitState.new (.nearest (1 / 2)) (.finite 0) 0 0).value =
    .nearest (1 / 2) := by
  decide +kernel

section Born

variable {pack : PersonaPack φ} {profile : PersonalityProfile φ} {own born : LivingModel φ}
  {report : BirthReport φ} {phrases : List Str}

/-- The verbosity of a model that is born. -/
theorem trait_verbosity_born (hnodup : (pack.traits.map Prod.fst).Nodup)
    (hown : LivingModel.genesis profile = .ok own)
    (hbirth : birth pack profile = .ok (born, report)) :
    born.trait (lit "verbosity") (.finite (1 / 2)) = pack.verbosity := by
  obtain ⟨own', added, boundaries, hown', -, -, -, -, -, htraits⟩ := birth_ok hbirth
  cases hown.symm.trans hown'
  obtain ⟨-, -, -, -, hbaseline⟩ := LivingModel.genesis_ok hown
  simp only [LivingModel.trait, PersonaPack.verbosity]
  rw [htraits, Dict.get?_foldl_set hnodup, hbaseline]
  cases Dict.get? pack.traits (lit "verbosity") with
  | some state => rfl
  | none => exact value_baseline

/-- The budget of a model that is born depends on the pack and the node alone. -/
theorem derived_born_iff (hnodup : (pack.traits.map Prod.fst).Nodup)
    (hown : LivingModel.genesis profile = .ok own)
    (hbirth : birth pack profile = .ok (born, report)) :
    (∃ x, born.derived = .ok x) ↔ Budgeted (pack.maxSentences profile) pack.verbosity := by
  obtain ⟨own', added, boundaries, hown', -, -, -, -, hvoice, -⟩ := birth_ok hbirth
  cases hown.symm.trans hown'
  obtain ⟨-, -, -, ⟨n, hn, hsentences⟩, -⟩ := LivingModel.genesis_ok hown
  have hint : intOf born.voice.maxSentences = intOf (pack.maxSentences profile) := by
    rw [hvoice, hsentences, PersonaPack.maxSentences]
    cases fetch (lit "max_sentences") pack.voice with
    | none => exact hn.symm
    | _ => rfl
  rw [LivingModel.derived_ok_iff, trait_verbosity_born hnodup hown hbirth]
  simp only [Budgeted]
  rw [hint]

theorem perimetersKept_of_birth
    (hphrases : iterate (orElse (fetch (lit "never_say") profile.speech) (.list [])) =
      .ok (phrases.map .str))
    (hbirth : birth pack profile = .ok (born, report)) : PerimetersKept profile phrases born := by
  obtain ⟨own, added, boundaries, hown, hnever, hboundaries, hmerged, hproactivity, -, -⟩ :=
    birth_ok hbirth
  obtain ⟨hneverSay, hsame, hown, -, -⟩ := LivingModel.genesis_ok hown
  rw [hphrases] at hneverSay
  rw [← Except.ok.inj hneverSay] at hnever
  obtain ⟨declared, -, texts, htexts, hmem⟩ := PersonaPack.neverSay_cases hnever
  refine ⟨fun k hk => ?_, hproactivity.trans hown, fun p hp hblank => ?_⟩
  · rw [hmerged]
    exact PersonaPack.isOn_boundaries hboundaries (hsame ▸ hk)
  · rw [htexts, mem_neverTexts_strings]
    refine ⟨?_, hblank⟩
    split at hmem
    · exact ⟨strip p, (hmem _).2 (.inl ⟨⟨p, hp, rfl⟩, hblank⟩), strip_strip p⟩
    · exact ⟨p, hmem ▸ hp, rfl⟩

/-- A text in which a phrase of the node is found has a phrase of the model that is born. -/
theorem found_born_iff {lower : Str → Str} (hlower : SplitsAtSpaces lower)
    {declared : List (PyVal φ)} (hdeclared : pack.declaredNever = .ok declared) {texts : List Str}
    (htexts : if pack.declaresNever then
        ∀ t, t ∈ texts ↔ ((∃ p ∈ phrases, strip p = t) ∧ t ≠ []) ∨ t ∈ neverTexts declared
      else texts = phrases)
    {text : Str} (hfound : ∃ p ∈ phrases, Found lower text p) :
    (∃ p ∈ texts, Found lower text p) ↔ StillFound lower pack phrases text := by
  obtain ⟨q, hq, htext, hqfound⟩ := hfound
  simp only [StillFound]
  split at htexts
  · rename_i hdeclares
    constructor
    · rintro ⟨t, ht, -, -, hin⟩
      rcases (htexts t).1 ht with ⟨⟨p, hp, rfl⟩, hblank⟩ | ht
      · exact .inr (.inl ⟨p, hp, hblank, .inr hin⟩)
      · exact .inr (.inr ⟨declared, hdeclared, t, ht, hin⟩)
    · rintro (hnone | ⟨p, hp, hblank, hin⟩ | ⟨declared', hdeclared', t, ht, hin⟩)
      · rw [hdeclares] at hnone
        cases hnone
      · have hstripped : lower (strip p) <:+: lower text :=
          hin.elim (lower_strip_within hlower p).trans id
        exact ⟨strip p, (htexts _).2 (.inl ⟨⟨p, hp, rfl⟩, hblank⟩), htext, hblank, hstripped⟩
      · cases hdeclared.symm.trans hdeclared'
        have hne : t ≠ [] := by simpa using (List.mem_filter.1 ht).2
        exact ⟨t, (htexts t).2 (.inr ht), htext, hne, hin⟩
  · rename_i hdeclares
    rw [htexts]
    exact iff_of_true ⟨q, hq, htext, hqfound⟩ (.inl (by simpa using hdeclares))

end Born

/-- For every pack that is accepted, every node and every decision to speak that its governor
redirects for what it says: the perimeters are kept, and the governor of the model that is born
redirects the decision too, if and only if it can work out the budget and still finds a
phrase. -/
theorem adoption_refuses_iff {lower : Str → Str} (hlower : SplitsAtSpaces lower) (hashes : Hashlib)
    (data : PyVal φ) (source : Str) (pack : PersonaPack φ) (profile : PersonalityProfile φ)
    (own born : LivingModel φ) (report : BirthReport φ) (phrases : List Str)
    (hphrases : iterate (orElse (fetch (lit "never_say") profile.speech) (.list [])) =
      .ok (phrases.map .str))
    (hpack : fromDict hashes data source = .ok pack)
    (hown : LivingModel.genesis profile = .ok own)
    (hbirth : birth pack profile = .ok (born, report)) :
    PerimetersKept profile phrases born ∧
      ∀ selfInitiated kind params,
        annotate lower own.governed selfInitiated kind params = blocked →
          (annotate lower born.governed selfInitiated kind params = blocked ↔
            Budgeted (pack.maxSentences profile) pack.verbosity ∧
              StillFound lower pack phrases (extractText (dictOrEmpty params))) := by
  refine ⟨perimetersKept_of_birth hphrases hbirth, fun selfInitiated kind params hblocked => ?_⟩
  have hnodup := nodup_traits_of_fromDict hpack
  obtain ⟨own', added, boundaries, hown', hnever, -⟩ := birth_ok hbirth
  cases hown.symm.trans hown'
  have hownNever : own.policy.neverSay = phrases.map .str :=
    Except.ok.inj ((LivingModel.genesis_ok hown).1.symm.trans hphrases)
  rw [hownNever] at hnever
  obtain ⟨declared, hdeclared, texts, hborn, htexts⟩ := PersonaPack.neverSay_cases hnever
  obtain ⟨d, hd, -, hfound⟩ := (annotate_eq_blocked_iff hownNever _ _ _ _).1 hblocked
  rw [annotate_eq_blocked_iff hborn, dictOrEmpty_of_paramsDict hd,
    ← derived_born_iff hnodup hown hbirth, ← found_born_iff hlower hdeclared htexts hfound]
  constructor
  · rintro ⟨d', hd', hderived, hborn⟩
    cases hd.symm.trans hd'
    exact ⟨hderived, hborn⟩
  · rintro ⟨hderived, hborn⟩
    exact ⟨d, hd, hderived, hborn⟩

/-- The verdicts on a decision, without a pack and with it. -/
def verdictsOf (lower : Str → Str) (hashes : Hashlib) (data : PyVal φ)
    (profile : PersonalityProfile φ) (params : PyVal φ) :
    Option (PersonalityVerdict × PersonalityVerdict) := do
  let pack ← (fromDict hashes data []).toOption
  let own ← (LivingModel.genesis profile).toOption
  let (born, _) ← (birth pack profile).toOption
  return (annotate lower own.governed false .speak params,
    annotate lower born.governed false .speak params)

theorem verdictsOf_eq_some {lower : Str → Str} {hashes : Hashlib} {data : PyVal φ}
    {profile : PersonalityProfile φ} {params : PyVal φ} {v w : PersonalityVerdict}
    (h : verdictsOf lower hashes data profile params = some (v, w)) :
    ∃ pack own born report, fromDict hashes data [] = .ok pack ∧
      LivingModel.genesis profile = .ok own ∧ birth pack profile = .ok (born, report) ∧
      annotate lower own.governed false .speak params = v ∧
      annotate lower born.governed false .speak params = w := by
  unfold verdictsOf at h
  cases hpack : fromDict hashes data [] with
  | error e => rw [hpack] at h; cases h
  | ok pack =>
      cases hown : LivingModel.genesis profile with
      | error e => rw [hpack, hown] at h; cases h
      | ok own =>
          cases hborn : birth pack profile with
          | error e =>
              rw [hpack, hown] at h
              simp [Except.toOption, hborn] at h
          | ok result =>
              rw [hpack, hown] at h
              simp only [Except.toOption, hborn, Option.bind_eq_bind, Option.bind_some] at h
              cases h
              exact ⟨pack, own, result.1, result.2, rfl, rfl, hborn, rfl, rfl⟩

theorem splitsAtSpaces_lowerLetters : SplitsAtSpaces lowerLetters := by
  intro u v c hc
  have hsame : (if 65 ≤ c.val ∧ c.val ≤ 90 then Fin.ofNat 0x110000 (c.val + 32)
      else if c.val = 0x212A then 107 else c) = c := by
    unfold isSpace at hc
    simp only [Bool.or_eq_true, Bool.and_eq_true, decide_eq_true_eq] at hc
    rw [if_neg (by omega), if_neg (by omega)]
  rw [lowerLetters, List.map_append, List.map_cons, hsame]
  rfl

/-- The configuration of a new node. -/
def defaultProfile : PersonalityProfile WholeFloat where
  speech := obj [("style", textVal "conversational, like a smart friend"),
    ("formality", textVal "casual"), ("max_sentences", .int 3), ("first_person", .bool true),
    ("never_say", .list [textVal "As an AI", textVal "I'm just an AI",
      textVal "I don't have feelings"]),
    ("greeting", .str defaultGreeting), ("offer", .str defaultOffer)]
  boundaries := obj [("refuse_harmful", .bool true), ("honest_about_limitations", .bool true),
    ("no_impersonation", .bool true)]
  proactivity := .dict (obj [("greet_on_arrival", .bool true), ("ask_follow_up", .bool true),
    ("offer_help", .bool false)])

/-- A pack with a voice. -/
def voicedPack (maxSentences : PyVal WholeFloat) : PyVal WholeFloat :=
  .dict (obj [("schema", .str personaSchema), ("persona_id", textVal "mellow"),
    ("version", textVal "1.0"), ("voice", .dict (obj [("max_sentences", maxSentences)]))])

/-- A reply that a new node does not give. -/
def asAnAI : PyVal WholeFloat := .dict (obj [("text", textVal "As an AI, I can't know that.")])

/-- A pack whose number of sentences is a word. -/
theorem asAnAI_passes :
    verdictsOf lowerLetters hashlib (voicedPack (textVal "lots")) defaultProfile asAnAI =
      some (blocked, .pass) := by
  decide +kernel

/-- A pack with two sentences. -/
theorem asAnAI_refused : ∃ pack born report,
    fromDict hashlib (voicedPack (.int 2)) [] = .ok pack ∧
      birth pack defaultProfile = .ok (born, report) ∧
      PerimetersKept defaultProfile
        [lit "As an AI", lit "I'm just an AI", lit "I don't have feelings"] born ∧
      Budgeted (pack.maxSentences defaultProfile) pack.verbosity := by
  have hverdicts : verdictsOf lowerLetters hashlib (voicedPack (.int 2)) defaultProfile asAnAI =
      some (blocked, blocked) := by
    decide +kernel
  obtain ⟨pack, own, born, report, hpack, hown, hbirth, hblocked, hstill⟩ :=
    verdictsOf_eq_some hverdicts
  obtain ⟨hkept, hiff⟩ := adoption_refuses_iff splitsAtSpaces_lowerLetters hashlib _ _ pack
    defaultProfile own born report
    [lit "As an AI", lit "I'm just an AI", lit "I don't have feelings"] rfl hpack hown hbirth
  exact ⟨pack, born, report, hpack, hbirth, hkept, ((hiff _ _ _ hblocked).1 hstill).1⟩

end ShugoCore
