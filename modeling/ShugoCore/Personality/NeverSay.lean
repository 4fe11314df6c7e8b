import ShugoCore.Personality.Governor
import ShugoCore.Security.Sanitised

/-!
# What is never said

The words that reach the listener against the phrases of `never_say`.  The governor checks
one text, and four things may put another one in its place.  The persona model phrases the
line after the check.  The refusal is a line of its own.  The executor takes its words from
other keys, in another order, and takes them too when the governor has failed.  And it
cleans and cuts them.  `Leak` names the four, and a phrase is spoken if and only if it leaks
(`never_said_iff`).
-/

namespace ShugoCore

open Py

variable {φ : Type} [Builtins φ]

/-! ## Which words are spoken -/

/-- The words that an executor takes from the parameters. -/
def SpeechKind.words (kind : SpeechKind) (d : Obj φ) : Str :=
  match kind with
  | .speak => strOf (orElse (orElse (fetch (lit "text") d) (fetch (lit "utterance") d)) (.str []))
  | .askUser =>
      strOf (orElse (orElse (orElse (fetch (lit "question") d) (fetch (lit "text") d))
        (fetch (lit "utterance") d)) (.str []))

/-- The words as they are spoken. -/
def asSpoken (words : Str) : Str := truncateSentence words 400

theorem mem_spoken_routed {env : SpeechEnv φ} {params : Obj φ} {here : Speech φ} {t : Str}
    (h : t ∈ (routed env params here).spoken) : t ∈ here.spoken := by
  rw [routed_eq] at h
  split at h
  · cases h
  · exact h
  · split at h
    · cases h
    · exact h

omit [Builtins φ] in
theorem mem_spoken_speakHere {env : SpeechEnv φ} {text t : Str} (h : t ∈ (speakHere env text).spoken) :
    t = text := by
  rw [speakHere] at h
  split at h
  · split at h <;> exact List.mem_singleton.1 h
  · cases h

omit [Builtins φ] in
theorem mem_spoken_askHere {env : SpeechEnv φ} {text t : Str} (h : t ∈ (askHere env text).spoken) :
    t = text := by
  rw [askHere] at h
  split at h
  · split at h <;> exact List.mem_singleton.1 h
  · cases h

theorem mem_spoken_guarded {env : SpeechEnv φ} {text t : Str} {reason : String} {params : Obj φ}
    {here : Speech φ} (h : t ∈ (guarded env text reason params here).spoken) :
    t ∈ here.spoken ∧ text ≠ [] := by
  rw [guarded] at h
  split at h
  · split at h
    · cases h
    · rename_i htext
      exact ⟨mem_spoken_routed h, htext⟩
  · cases h

/-- The listener is given the words of the parameters, or nothing. -/
theorem mem_spoken_executeWords {env : SpeechEnv φ} {kind : SpeechKind} {params : PyVal φ} {t : Str}
    (h : t ∈ (executeWords env kind params).spoken) :
    ∃ d, paramsDict params = .ok d ∧ t = asSpoken (kind.words d) ∧ t ≠ [] := by
  rw [executeWords] at h
  cases hd : paramsDict params with
  | error e =>
      rw [hd] at h
      dsimp only at h
      split at h <;> cases h
  | ok d =>
      rw [hd] at h
      refine ⟨d, rfl, ?_⟩
      cases kind with
      | speak =>
          change t ∈ (executeSpeak env d).spoken at h
          rw [executeSpeak_eq] at h
          obtain ⟨hspoken, htext⟩ := mem_spoken_guarded h
          have ht := mem_spoken_speakHere hspoken
          exact ⟨ht, ht ▸ htext⟩
      | askUser =>
          change t ∈ (executeAskUser env d).spoken at h
          rw [executeAskUser_eq] at h
          obtain ⟨hspoken, htext⟩ := mem_spoken_guarded h
          have ht := mem_spoken_askHere hspoken
          exact ⟨ht, ht ▸ htext⟩

/-- A node that is on its own, under the name that the reply prefers. -/
def aloneAs (name : Str) : SpeechEnv φ where
  view :=
    { nodeId := name
      priority := 0
      lastObservation := .none
      telemetry := .none
      policy := .none
      terminalRecent := false
      attention := none
      peerTts := []
      hasListener := true
      wallTime := 0 }
  mayAct := true
  primary := .none
  send := .noRuntime
  sendMessage := .none
  listener := .delivered true
  noted := .ok ()
  questionTtl := .none

theorem responseCandidates_aloneAs (name : Str) :
    ∃ facts, responseCandidates (aloneAs name : SpeechEnv φ).view =
      .ok [⟨name, facts, true, true, 0, none⟩] :=
  ⟨_, rfl⟩

/-- A device without a name is not ranked. -/
theorem select_unnamed {c : Candidate φ} (h : strip c.deviceId = []) (forced : PyVal φ) :
    ∃ best, select [c] forced = .ok best := by
  have hscored : scored c = .ok none := if_pos h
  have hrank : rank [c] = .ok [] := by
    simp only [rank]
    rw [List.mapM_cons, hscored]
    rfl
  simp only [select]
  rw [hrank]
  simp only [bind, Except.bind]
  split <;> exact ⟨_, rfl⟩

/-- A node that is preferred, or has no name, finds out where to answer. -/
theorem selectResponseNode_aloneAs (prefer : Str) (origin : Option (Obj φ)) :
    ∃ chosen, selectResponseNode (aloneAs (strip prefer) : SpeechEnv φ).view prefer origin =
      .ok chosen := by
  obtain ⟨facts, hself⟩ := responseCandidates_aloneAs (φ := φ) (strip prefer)
  have horigin : withOrigin [⟨strip prefer, facts, true, true, 0, none⟩] (strip prefer) origin =
      .ok [⟨strip prefer, facts, true, true, 0, none⟩] := by
    simp only [withOrigin]
    cases origin with
    | none => rfl
    | some origin =>
        refine if_neg fun h => ?_
        simpa using h.2.2
  simp only [selectResponseNode]
  rw [hself]
  simp only [bind, Except.bind]
  rw [horigin]
  dsimp only
  split
  · exact ⟨_, rfl⟩
  · rename_i hfind
    have hname : strip prefer = [] := by
      by_contra hname
      simp [hname] at hfind
    obtain ⟨best, hbest⟩ := select_unnamed
      (c := ⟨strip prefer, facts, true, true, 0, none⟩) ((strip_strip prefer).trans hname)
      (orElse (fetch (lit "response_target")
        (dictOrEmpty (aloneAs (strip prefer) : SpeechEnv φ).view.policy)) (.str (lit "auto")))
    rw [hbest]
    exact ⟨_, rfl⟩

/-- A node on its own answers itself. -/
theorem routed_aloneAs (params : Obj φ) (here : Speech φ) :
    routed (aloneAs (strip (preferOf params))) params here = here := by
  obtain ⟨chosen, hchosen⟩ := selectResponseNode_aloneAs (preferOf params) (originOf params)
  rw [routed_eq, hchosen]
  cases chosen with
  | none => rfl
  | some chosen => exact if_neg fun h => nomatch h.2

theorem guarded_aloneAs {text : Str} (htext : text ≠ []) (reason : String) (params : Obj φ)
    (here : Speech φ) :
    guarded (aloneAs (strip (preferOf params))) text reason params here = here := by
  rw [guarded, if_pos (show (aloneAs _).mayAct = true from rfl), if_neg htext, routed_aloneAs]

/-- What some node says with these parameters. -/
theorem spoken_iff {kind : SpeechKind} {params : PyVal φ} {t : Str} :
    (∃ env : SpeechEnv φ, t ∈ (executeWords env kind params).spoken) ↔
      ∃ d, paramsDict params = .ok d ∧ t = asSpoken (kind.words d) ∧ t ≠ [] := by
  constructor
  · rintro ⟨env, ht⟩
    exact mem_spoken_executeWords ht
  · rintro ⟨d, hd, rfl, ht⟩
    refine ⟨aloneAs (strip (preferOf d)), ?_⟩
    rw [executeWords, hd]
    cases kind with
    | speak =>
        have htext : speakText d ≠ [] := ht
        change _ ∈ (executeSpeak _ d).spoken
        rw [executeSpeak_eq, guarded_aloneAs htext]
        exact List.mem_singleton_self _
    | askUser =>
        have htext : askText d ≠ [] := ht
        change _ ∈ (executeAskUser _ d).spoken
        rw [executeAskUser_eq, guarded_aloneAs htext]
        exact List.mem_singleton_self _

/-! ## What the check finds -/

/-- The phrases among some values. -/
def phrasesOf (values : List (PyVal φ)) : List Str :=
  values.filterMap fun v => match v with
    | .str p => if p = [] then none else some p
    | _ => none

/-- The phrases that a model must never say. -/
def PersonalityModel.phrases (m : PersonalityModel φ) : List Str :=
  match iterate (orElse m.neverSay (.list [])) with
  | .ok values => phrasesOf values
  | .error _ => []

theorem contentHits_cons {lower : Str → Str} {text : Str} {v : PyVal φ} {values : List (PyVal φ)}
    (h : contentHits lower text (v :: values) = .ok []) :
    phraseHit lower text v = .ok none ∧ contentHits lower text values = .ok [] := by
  rw [contentHits] at h
  cases hv : phraseHit lower text v with
  | error e => rw [hv] at h; cases h
  | ok hit =>
      cases hrest : contentHits lower text values with
      | error e => rw [hv, hrest] at h; cases h
      | ok hits =>
          rw [hv, hrest] at h
          have happend : hit.toList ++ hits = [] := Except.ok.inj h
          obtain ⟨hhit, hhits⟩ := List.append_eq_nil_iff.1 happend
          exact ⟨congrArg _ (Option.toList_eq_nil_iff.1 hhit), congrArg _ hhits⟩

/-- Without a hit, no phrase is in the text. -/
theorem not_infix_of_contentHits {lower : Str → Str} {text : Str} (htext : text ≠ [])
    {values : List (PyVal φ)} (h : contentHits lower text values = .ok []) :
    ∀ p ∈ phrasesOf values, ¬ lower p <:+: lower text := by
  induction values with
  | nil => exact fun p hp => nomatch hp
  | cons v values ih =>
      obtain ⟨hv, hrest⟩ := contentHits_cons h
      intro p hp
      obtain ⟨w, hw, hwp⟩ := List.mem_filterMap.1 hp
      rcases List.mem_cons.1 hw with rfl | hw
      · cases w with
        | str q =>
            dsimp only at hwp
            split at hwp
            · cases hwp
            · rename_i hq
              cases hwp
              rw [phraseHit, if_neg (by simp [htext, truthy, hq])] at hv
              intro hin
              simp [hin] at hv
        | _ => cases hwp
      · exact ih hrest p (List.mem_filterMap.2 ⟨w, hw, hwp⟩)

/-- The verdict of a hit. -/
abbrev blocked : PersonalityVerdict := .reroute .speak (some refusalLine)

/-- A decision that is not blocked has been checked, and no phrase is in the text that was. -/
theorem not_infix_of_verdictOf {lower : Str → Str} {m : PersonalityModel φ} {selfInitiated : Bool}
    {kind : SpeechKind} {params : PyVal φ} {d : Obj φ} {verdict : PersonalityVerdict}
    (hd : paramsDict params = .ok d)
    (h : verdictOf lower m selfInitiated kind params = .ok verdict) (hpass : verdict ≠ blocked)
    (htext : extractText d ≠ []) : ∀ p ∈ m.phrases, ¬ lower p <:+: lower (extractText d) := by
  unfold verdictOf PersonalityModel.policy at h
  simp only [PersonalityModel.phrases]
  rw [hd] at h
  simp only [bind, Except.bind] at h
  cases hderived : m.derived with
  | error e => rw [hderived] at h; cases h
  | ok derived =>
      rw [hderived] at h
      cases hvalues : iterate (orElse m.neverSay (.list [])) with
      | error e => exact fun p hp => nomatch hp
      | ok values =>
          rw [hvalues] at h
          simp only [pure, Except.pure] at h
          cases hhits : contentHits lower (extractText d) values with
          | error e => rw [hhits] at h; cases h
          | ok hits =>
              rw [hhits] at h
              cases hits with
              | nil => exact not_infix_of_contentHits htext hhits
              | cons p hits =>
                  cases h
                  exact absurd rfl hpass

/-! ## What becomes of the parameters -/

/-- The action that a verdict leads to. -/
def PersonalityVerdict.kindAfter (verdict : PersonalityVerdict) (kind : SpeechKind) : SpeechKind :=
  match verdict with
  | .reroute routeTo _ => routeTo
  | _ => kind

/-- The parameters that a verdict leads to. -/
def PersonalityVerdict.paramsAfter (verdict : PersonalityVerdict) (d : Obj φ) : Obj φ :=
  match verdict with
  | .reroute _ (some text) | .modify text => setKey (lit "text") (.str text) d
  | _ => d

theorem dictOrEmpty_of_paramsDict {params : PyVal φ} {d : Obj φ} (h : paramsDict params = .ok d) :
    dictOrEmpty params = d := by
  unfold paramsDict at h
  split at h
  · cases h
    rfl
  · rename_i hnot
    split at h
    · cases h
    · cases h
      cases params with
      | dict d => exact absurd rfl (hnot d)
      | _ => rfl

theorem apply_eq {params : PyVal φ} {d : Obj φ} (h : paramsDict params = .ok d)
    (verdict : PersonalityVerdict) (kind : SpeechKind) :
    (verdict.apply kind params).1 = verdict.kindAfter kind ∧
      paramsDict (verdict.apply kind params).2 = .ok (verdict.paramsAfter d) := by
  have hdict := dictOrEmpty_of_paramsDict h
  cases verdict with
  | pass => exact ⟨rfl, h⟩
  | reroute routeTo text =>
      cases text with
      | none => exact ⟨rfl, congrArg _ hdict⟩
      | some text => exact ⟨rfl, by rw [← hdict]; rfl⟩
  | modify text => exact ⟨rfl, by rw [← hdict]; rfl⟩

theorem rewritten_nil (reply : PersonaReply φ) : rewritten reply [] = none := by
  cases reply with
  | off => rfl
  | raised => rfl
  | replied text =>
      have hdraft : draftOf ([] : Obj φ) = [] := rfl
      simp [rewritten, hdraft]

theorem applyPersona_eq {params : PyVal φ} {d : Obj φ} (h : paramsDict params = .ok d)
    (reply : PersonaReply φ) : paramsDict (applyPersona reply params) = .ok (phrased reply d) := by
  cases params with
  | dict d' =>
      cases h
      rfl
  | _ =>
      have hd : [] = d := dictOrEmpty_of_paramsDict h
      subst hd
      rw [phrased, rewritten_nil]
      exact h

/-- The executor takes the words of `text`. -/
def SpeechKind.takesText (kind : SpeechKind) (d : Obj φ) : Prop :=
  kind = .askUser → truthy (fetch (lit "question") d) = false

/-- A line that is put under `text` is spoken, unless a question is asked. -/
theorem words_setKey {line : Str} (hline : line ≠ []) (kind : SpeechKind) (d : Obj φ) :
    (kind.takesText d → kind.words (setKey (lit "text") (.str line) d) = line) ∧
      (¬ kind.takesText d → kind.words (setKey (lit "text") (.str line) d) = kind.words d) := by
  have htext : fetch (lit "text") (setKey (lit "text") (.str line) d) = .str line := by simp [fetch]
  have hquestion : fetch (lit "question") (setKey (lit "text") (.str line) d) =
      fetch (lit "question") d := by
    rw [fetch, fetch, getKey_setKey_of_ne (by decide)]
  have htruthy : truthy (.str line : PyVal φ) = true := by simp [truthy, hline]
  cases kind with
  | speak =>
      refine ⟨fun _ => ?_, fun h => absurd (fun hk => by cases hk) h⟩
      simp [SpeechKind.words, htext, orElse, htruthy, strOf]
  | askUser =>
      constructor
      · intro htakes
        simp [SpeechKind.words, htext, hquestion, orElse, htruthy, htakes rfl, strOf]
      · intro htakes
        have hasked : truthy (fetch (lit "question") d) = true := by
          cases hq : truthy (fetch (lit "question") d) with
          | true => rfl
          | false => exact absurd (fun _ => hq) htakes
        simp [SpeechKind.words, hquestion, orElse, hasked]

/-! ## Blank words -/

theorem strip_eq_nil_iff {s : Str} : strip s = [] ↔ ∀ c ∈ s, isSpace c = true := by
  rw [strip, List.rdropWhile_eq_nil_iff]
  constructor
  · intro h
    cases hrest : s.dropWhile isSpace with
    | nil => exact List.dropWhile_eq_nil_iff.1 hrest
    | cons c rest =>
        have hhead := List.head_dropWhile_not isSpace (l := s) (by simp [hrest])
        have hc := h c (by simp [hrest])
        simp [hrest, hc] at hhead
  · intro h c hc
    exact h c ((List.dropWhile_sublist _).subset hc)

/-- Nothing is spoken for blank words. -/
theorem asSpoken_of_blank {words : Str} (h : strip words = []) : asSpoken words = [] := by
  have hblank : sanitizeText words 800 = [] := by
    unfold sanitizeText
    dsimp only
    rw [strip_eq_nil_iff.2, List.take_nil]
    intro c hc
    obtain ⟨d, hd, rfl⟩ := List.mem_map.1 (List.mem_of_mem_filter (mem_collapseSpaces hc))
    split
    · decide
    · exact strip_eq_nil_iff.1 h d hd
  simp only [asSpoken, truncateSentence]
  simp [hblank]

/-! ## Leaks -/

/-- A phrase is heard in words that are spoken. -/
def Heard (lower : Str → Str) (p words : Str) : Prop :=
  asSpoken words ≠ [] ∧ lower p <:+: lower (asSpoken words)

/-- The ways in which a phrase gets past the check.  `checked` is what the check came to, for
the parameters `d`. -/
inductive Leak (lower : Str → Str) (checked : Except Exn PersonalityVerdict) (reply : PersonaReply φ)
    (kind : SpeechKind) (d : Obj φ) (p : Str) : Prop
  /-- The persona model put it into the line. -/
  | persona {line : Str} :
      rewritten reply ((failOpen checked).paramsAfter d) = some line →
      ((failOpen checked).kindAfter kind).takesText ((failOpen checked).paramsAfter d) →
      Heard lower p line → Leak lower checked reply kind d p
  /-- It is in the refusal. -/
  | refusal :
      failOpen checked = blocked → rewritten reply ((failOpen checked).paramsAfter d) = none →
      Heard lower p refusalLine → Leak lower checked reply kind d p
  /-- It is in words that were not checked: the governor failed, or the executor takes other
  words than the governor. -/
  | unchecked :
      failOpen checked ≠ blocked →
      (rewritten reply ((failOpen checked).paramsAfter d) = none ∨
        ¬ ((failOpen checked).kindAfter kind).takesText ((failOpen checked).paramsAfter d)) →
      ((∃ e, checked = .error e) ∨
        strip (((failOpen checked).kindAfter kind).words ((failOpen checked).paramsAfter d)) ≠
          extractText d) →
      Heard lower p (((failOpen checked).kindAfter kind).words ((failOpen checked).paramsAfter d)) →
      Leak lower checked reply kind d p
  /-- It is not in the words that were checked, and comes up when they are cleaned and cut. -/
  | cleaned {verdict : PersonalityVerdict} :
      checked = .ok verdict → verdict ≠ blocked →
      (rewritten reply (verdict.paramsAfter d) = none ∨
        ¬ (verdict.kindAfter kind).takesText (verdict.paramsAfter d)) →
      strip ((verdict.kindAfter kind).words (verdict.paramsAfter d)) = extractText d →
      ¬ lower p <:+: lower (extractText d) →
      Heard lower p ((verdict.kindAfter kind).words (verdict.paramsAfter d)) →
      Leak lower checked reply kind d p

theorem rewritten_ne_nil {reply : PersonaReply φ} {d : Obj φ} {line : Str}
    (h : rewritten reply d = some line) : line ≠ [] := by
  unfold rewritten at h
  split at h
  · cases h
  · cases h
  · split at h
    · rename_i hline
      cases h
      exact hline.2.1
    · cases h

theorem refusalLine_ne_nil : refusalLine ≠ [] := by decide

section Heard

variable {lower : Str → Str} {m : PersonalityModel φ} {selfInitiated : Bool} {reply : PersonaReply φ}
  {kind : SpeechKind} {params : PyVal φ} {d : Obj φ} {checked : Except Exn PersonalityVerdict} {p : Str}

/-- The words of the executor leak a phrase that is heard in them, if nothing replaced
them. -/
theorem leak_of_own_words (hd : paramsDict params = .ok d)
    (hchecked : verdictOf lower m selfInitiated kind params = checked) (hp : p ∈ m.phrases)
    (hpass : failOpen checked ≠ blocked)
    (hown : rewritten reply ((failOpen checked).paramsAfter d) = none ∨
      ¬ ((failOpen checked).kindAfter kind).takesText ((failOpen checked).paramsAfter d))
    (hheard : Heard lower p
      (((failOpen checked).kindAfter kind).words ((failOpen checked).paramsAfter d))) :
    Leak lower checked reply kind d p := by
  cases checked with
  | error e => exact .unchecked hpass hown (.inl ⟨e, rfl⟩) hheard
  | ok verdict =>
      by_cases hsame : strip ((verdict.kindAfter kind).words (verdict.paramsAfter d)) = extractText d
      · refine .cleaned rfl hpass hown hsame ?_ hheard
        refine not_infix_of_verdictOf hd hchecked hpass ?_ p hp
        intro hblank
        exact hheard.1 (asSpoken_of_blank (hsame.trans hblank))
      · exact .unchecked hpass hown (.inr hsame) hheard

/-- A phrase is heard if and only if it leaks. -/
theorem heard_iff_leak (hd : paramsDict params = .ok d)
    (hchecked : verdictOf lower m selfInitiated kind params = checked) (hp : p ∈ m.phrases) :
    Heard lower p (((failOpen checked).kindAfter kind).words
        (phrased reply ((failOpen checked).paramsAfter d))) ↔
      Leak lower checked reply kind d p := by
  constructor
  · intro hheard
    unfold phrased at hheard
    split at hheard
    · rename_i line hline
      obtain ⟨htakes, hasks⟩ := words_setKey (rewritten_ne_nil hline)
        ((failOpen checked).kindAfter kind) ((failOpen checked).paramsAfter d)
      by_cases hk : ((failOpen checked).kindAfter kind).takesText ((failOpen checked).paramsAfter d)
      · rw [htakes hk] at hheard
        exact .persona hline hk hheard
      · rw [hasks hk] at hheard
        refine leak_of_own_words hd hchecked hp ?_ (.inr hk) hheard
        intro hblocked
        rw [hblocked] at hk
        exact hk fun hask => nomatch hask
    · rename_i hkept
      by_cases hblocked : failOpen checked = blocked
      · rw [hblocked] at hheard
        have hline : (blocked.kindAfter kind).words (blocked.paramsAfter d) = refusalLine :=
          (words_setKey refusalLine_ne_nil .speak d).1 fun hask => nomatch hask
        rw [hline] at hheard
        exact .refusal hblocked hkept hheard
      · exact leak_of_own_words hd hchecked hp hblocked (.inl hkept) hheard
  · intro hleak
    have hwords : ∀ {w : Str},
        (rewritten reply ((failOpen checked).paramsAfter d) = none ∨
          ¬ ((failOpen checked).kindAfter kind).takesText ((failOpen checked).paramsAfter d)) →
        ((failOpen checked).kindAfter kind).words ((failOpen checked).paramsAfter d) = w →
        ((failOpen checked).kindAfter kind).words
          (phrased reply ((failOpen checked).paramsAfter d)) = w := by
      intro w hreplaced hw
      simp only [phrased]
      split
      · rename_i line hline
        have hk := hreplaced.resolve_left (by simp [hline])
        rw [(words_setKey (rewritten_ne_nil hline) _ _).2 hk, hw]
      · exact hw
    cases hleak with
    | @persona line hline htakes hheard =>
        rw [phrased, hline]
        rwa [(words_setKey (rewritten_ne_nil hline) _ _).1 htakes]
    | refusal hblocked hkept hheard =>
        have hline : (blocked.kindAfter kind).words (blocked.paramsAfter d) = refusalLine :=
          (words_setKey refusalLine_ne_nil .speak d).1 fun hask => nomatch hask
        rwa [hwords (.inl hkept) (hblocked ▸ hline)]
    | unchecked hpass hreplaced hother hheard => rwa [hwords hreplaced rfl]
    | @cleaned verdict hok hpass hreplaced hsame hnot hheard =>
        subst hok
        rwa [hwords hreplaced rfl]

end Heard

/-- The parameters that the executor gets. -/
theorem paramsDict_applyPersonality (lower : Str → Str) (m : PersonalityModel φ) (selfInitiated : Bool)
    (reply : PersonaReply φ) (kind : SpeechKind) {params : PyVal φ} {d : Obj φ}
    (hd : paramsDict params = .ok d) :
    (applyPersonality lower m selfInitiated reply kind params).1 =
        (annotate lower m selfInitiated kind params).kindAfter kind ∧
      paramsDict (applyPersonality lower m selfInitiated reply kind params).2 =
        .ok (phrased reply ((annotate lower m selfInitiated kind params).paramsAfter d)) := by
  obtain ⟨hkind, hparams⟩ := apply_eq hd (annotate lower m selfInitiated kind params) kind
  exact ⟨hkind, applyPersona_eq hparams reply⟩

/-- Parameters that are no dictionary stay as they are, and are not spoken. -/
theorem paramsDict_applyPersonality_error (lower : Str → Str) (m : PersonalityModel φ)
    (selfInitiated : Bool) (reply : PersonaReply φ) (kind : SpeechKind) {params : PyVal φ} {e : Exn}
    (hd : paramsDict params = .error e) :
    paramsDict (applyPersonality lower m selfInitiated reply kind params).2 = .error e := by
  have hpass : annotate lower m selfInitiated kind params = .pass := by
    simp only [annotate, verdictOf]
    rw [hd]
    rfl
  simp only [applyPersonality]
  rw [hpass]
  cases params with
  | dict d => cases hd
  | _ => exact hd

/-- For every decision, every policy and every reply of the persona model, no listener is
given a text with a phrase that is never said, if and only if no phrase leaks. -/
theorem never_said_iff (lower : Str → Str) (m : PersonalityModel φ) (selfInitiated : Bool)
    (reply : PersonaReply φ) (kind : SpeechKind) (params : PyVal φ) :
    (∀ env : SpeechEnv φ,
      ∀ t ∈ (executeWords env (applyPersonality lower m selfInitiated reply kind params).1
        (applyPersonality lower m selfInitiated reply kind params).2).spoken,
      ∀ p ∈ m.phrases, ¬ lower p <:+: lower t) ↔
      ∀ d, paramsDict params = .ok d → ∀ p ∈ m.phrases,
        ¬ Leak lower (verdictOf lower m selfInitiated kind params) reply kind d p := by
  constructor
  · intro hsilent d hd p hp hleak
    obtain ⟨hkind, hparams⟩ := paramsDict_applyPersonality lower m selfInitiated reply kind hd
    obtain ⟨hne, hin⟩ := (heard_iff_leak hd rfl hp).2 hleak
    obtain ⟨env, hspoken⟩ := spoken_iff.2 ⟨_, hparams, rfl, hne⟩
    rw [hkind] at hsilent
    exact hsilent env _ hspoken p hp hin
  · intro hnone env t ht p hp hin
    obtain ⟨d₂, hd₂, rfl, hne⟩ := mem_spoken_executeWords ht
    cases hd : paramsDict params with
    | error e =>
        rw [paramsDict_applyPersonality_error lower m selfInitiated reply kind hd] at hd₂
        cases hd₂
    | ok d =>
        obtain ⟨hkind, hparams⟩ := paramsDict_applyPersonality lower m selfInitiated reply kind hd
        cases hparams.symm.trans hd₂
        rw [hkind] at hne hin
        exact hnone d hd p hp ((heard_iff_leak hd rfl hp).1 ⟨hne, hin⟩)

/-- A model that must never say one word. -/
def politeModel : PersonalityModel WholeFloat where
  neverSay := .list [.str (lit "Idiot")]
  derived := .ok (3, false)

/-- What is spoken of these parameters by a node on its own. -/
def politelySpoken (reply : PersonaReply WholeFloat) (kind : SpeechKind)
    (params : List (String × PyVal WholeFloat)) : List Str :=
  let done := applyPersonality lowerLetters politeModel false reply kind (.dict (obj params))
  (executeWords (aloneAs []) done.1 done.2).spoken

/-- The words are under a key that is not checked, or the persona model chooses them. -/
theorem idiot_spoken :
    politelySpoken .off .speak [("utterance", textVal "Move, idiot.")] = [lit "Move, idiot."] ∧
      politelySpoken .off .askUser [("text", textVal "Ready?"), ("question", textVal "Ready, idiot?")] =
        [lit "Ready, idiot?"] ∧
      politelySpoken (.replied (textVal "Hello, idiot.")) .speak [("text", textVal "Hello.")] =
        [lit "Hello, idiot."] ∧
      politeModel.phrases = [lit "Idiot"] ∧
      lowerLetters (lit "Idiot") <:+: lowerLetters (lit "Move, idiot.") := by
  decide +kernel

end ShugoCore
