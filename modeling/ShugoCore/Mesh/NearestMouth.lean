import Mathlib.Data.Prod.Lex
import ShugoCore.Mesh.Routing

/-!
# The nearest mouth

`rank` and `select` of `response_routing.py`, for any candidate dictionaries and any floor.  Mute and
speaking devices are sorted together, and the mute ones are left out after that.  What is chosen is the
least of the speaking devices by score, priority and id, if its score reaches the floor.  So it depends
on the set of the speaking devices and their scores alone (`nearest_mouth`).

A face count that is a NaN or an infinity has no integer, and `rank` raises on it.  Where numbers are
exact there is none.  It raises on an age that no float can hold as well.
-/

namespace ShugoCore

open Py

/-! ## The order of the speaking devices -/

/-- The score, the priority and the id. -/
def Scored.mouthKey (s : Scored) : ℚ ×ₗ ℤ ×ₗ Str := toLex (-s.score, toLex (s.priority, s.deviceId))

/-- The score, whether it can speak, the priority and the id. -/
def Scored.sortKey (s : Scored) : ℚ ×ₗ Bool ×ₗ ℤ ×ₗ Str :=
  toLex (-s.score, toLex (!s.canSpeak, toLex (s.priority, s.deviceId)))

theorem scoredLe_iff {a b : Scored} : scoredLe a b = true ↔ a.sortKey ≤ b.sortKey := by
  cases ha : a.canSpeak <;> cases hb : b.canSpeak <;>
    simp [scoredLe, Scored.sortKey, Prod.Lex.toLex_le_toLex, ha, hb]

/-- Among devices that can speak. -/
theorem sortKey_le_iff {a b : Scored} (ha : a.canSpeak = true) (hb : b.canSpeak = true) :
    a.sortKey ≤ b.sortKey ↔ a.mouthKey ≤ b.mouthKey := by
  simp [Scored.sortKey, Scored.mouthKey, Prod.Lex.toLex_le_toLex, ha, hb]

/-- Devices with one key have one id. -/
theorem deviceId_eq_of_mouthKey {a b : Scored} (h : a.mouthKey = b.mouthKey) :
    a.deviceId = b.deviceId :=
  congrArg (fun k => (ofLex (ofLex k).2).2) h

theorem score_le_of_mouthKey {a b : Scored} (h : a.mouthKey ≤ b.mouthKey) : b.score ≤ a.score := by
  rcases Prod.Lex.toLex_le_toLex.1 h with hlt | ⟨heq, -⟩
  · exact (neg_lt_neg_iff.1 hlt).le
  · exact (neg_inj.1 heq).ge

/-! ## What is chosen of a set -/

/-- The choice from a set of scored devices: the least that can speak if its score reaches the floor,
and nobody if no such score does. -/
def IsChoice (devices : Set Scored) (floor : ℚ) : Option Scored → Prop
  | none => ∀ s ∈ devices, s.canSpeak = true → s.score < floor
  | some best => best ∈ devices ∧ best.canSpeak = true ∧ floor ≤ best.score ∧
      ∀ s ∈ devices, s.canSpeak = true → best.mouthKey ≤ s.mouthKey

/-- No two devices have one id. -/
def OneEach (devices : Set Scored) : Prop :=
  ∀ s ∈ devices, ∀ t ∈ devices, s.deviceId = t.deviceId → s = t

section

variable {devices others : Set Scored} {floor : ℚ} {chosen chosen' : Option Scored}

/-- There is one choice. -/
theorem IsChoice.unique (hone : OneEach devices) (h : IsChoice devices floor chosen)
    (h' : IsChoice devices floor chosen') : chosen = chosen' := by
  cases chosen with
  | none =>
      cases chosen' with
      | none => rfl
      | some best' =>
          obtain ⟨hmem, hspeaks, hfloor, -⟩ := h'
          exact absurd hfloor (not_le.2 (h best' hmem hspeaks))
  | some best =>
      obtain ⟨hmem, hspeaks, hfloor, hleast⟩ := h
      cases chosen' with
      | none => exact absurd hfloor (not_le.2 (h' best hmem hspeaks))
      | some best' =>
          obtain ⟨hmem', hspeaks', -, hleast'⟩ := h'
          have hkey := le_antisymm (hleast best' hmem' hspeaks') (hleast' best hmem hspeaks)
          rw [hone best hmem best' hmem' (deviceId_eq_of_mouthKey hkey)]

/-- The choice is from the devices that can speak. -/
theorem IsChoice.congr (hdevices : ∀ s, s.canSpeak = true → (s ∈ devices ↔ s ∈ others))
    (h : IsChoice devices floor chosen) : IsChoice others floor chosen := by
  cases chosen with
  | none =>
      intro s hs hspeaks
      exact h s ((hdevices s hspeaks).2 hs) hspeaks
  | some best =>
      obtain ⟨hmem, hspeaks, hfloor, hleast⟩ := h
      refine ⟨(hdevices best hspeaks).1 hmem, hspeaks, hfloor, ?_⟩
      intro s hs hs'
      exact hleast s ((hdevices s hs').2 hs) hs'

/-- What is chosen is still chosen when others are taken away. -/
theorem IsChoice.anti (hsub : others ⊆ devices) (hmem : ∀ best ∈ chosen, best ∈ others)
    (h : IsChoice devices floor chosen) : IsChoice others floor chosen := by
  cases chosen with
  | none => exact fun s hs => h s (hsub hs)
  | some best =>
      obtain ⟨-, hspeaks, hfloor, hleast⟩ := h
      exact ⟨hmem best rfl, hspeaks, hfloor, fun s hs => hleast s (hsub hs)⟩

/-- What is chosen comes strictly before all others that can speak. -/
theorem IsChoice.lt (hone : OneEach devices) {best : Scored} (h : IsChoice devices floor (some best))
    {s : Scored} (hs : s ∈ devices) (hspeaks : s.canSpeak = true) (hne : s ≠ best) :
    best.mouthKey < s.mouthKey := by
  refine lt_of_le_of_ne (h.2.2.2 s hs hspeaks) ?_
  intro hkey
  exact hne (hone s hs best h.1 (deviceId_eq_of_mouthKey hkey.symm))

end

/-! ## The candidates -/

section

variable {φ : Type} [Builtins φ]

/-- The id of a candidate. -/
def deviceIdOf (c : Obj φ) : Str := strip (strOf (orElse (fetch (lit "device_id") c) (.str [])))

/-- `bool(candidate.get("can_speak", True))`. -/
def canSpeakOf (c : Obj φ) : Bool := truthy (getOr "can_speak" (.bool true) c)

/-- `facts or {}`, which has to have `items`. -/
def factItems (facts : PyVal φ) : Except Exn (Obj φ) :=
  match orElse facts (.dict []) with
  | .dict items => .ok items
  | _ => .error .attributeError

/-- What `rank` makes of a candidate.  What is no dictionary, or has no id, is left out. -/
def scoredDict (candidate : PyVal φ) : Except Exn (Option Scored) :=
  match candidate with
  | .dict c =>
      if deviceIdOf c = [] then return none
      else do
        let facts ← factItems (fetch (lit "facts") c)
        let score ← proximityScore facts (numberOf (fetch (lit "age_s") c))
        let priority ← intOf (getOr "priority" (.int 500) c)
        return some ⟨deviceIdOf c, score, canSpeakOf c, truthy (fetch (lit "is_self") c), priority⟩
  | _ => return none

/-- `rank`. -/
def rankDicts (candidates : List (PyVal φ)) : Except Exn (List Scored) := do
  let all ← candidates.mapM scoredDict
  return all.reduceOption.insertionSort fun a b => scoredLe a b

/-- `forced and str(forced).strip() not in ("", "auto")`. -/
def Forces (forced : PyVal φ) : Prop :=
  truthy forced = true ∧ strip (strOf forced) ∉ [[], lit "auto"]

instance (forced : PyVal φ) : Decidable (Forces forced) := inferInstanceAs (Decidable (_ ∧ _))

/-- `select`. -/
def selectDicts (candidates : List (PyVal φ)) (floor : ℚ) (forced : PyVal φ) :
    Except Exn (Option Scored) := do
  let ranked ← rankDicts candidates
  if Forces forced then
    return (ranked.find? fun c => c.deviceId = strip (strOf forced)).filter Scored.canSpeak
  else return (ranked.find? Scored.canSpeak).filter fun best => floor ≤ best.score

/-- The facts without `remote_` before their names. -/
def bareFacts (facts : Obj φ) : Obj φ :=
  facts.foldl (fun out item =>
    let key := strOf item.1.toVal
    setKey (if (lit "remote_").isPrefixOf key then key.drop 7 else key) item.2 out) []

/-- The number of faces, if it is a float, is finite. -/
def ExactFaces (facts : Obj φ) : Prop :=
  ∀ x, fetch (lit "face_count") (bareFacts facts) = .float x → ∃ y, x = .finite y

/-- A candidate dictionary with an id, facts with exact numbers, an age that a float can hold and an
integer as its priority. -/
structure IsCandidate (c : Obj φ) : Prop where
  named : deviceIdOf c ≠ []
  facts : ∃ facts, factItems (fetch (lit "facts") c) = .ok facts ∧ ExactFaces facts
  age : ∀ q, numberOf (fetch (lit "age_s") c) = some (.finite q) → q < ((2 ^ 1024 - 2 ^ 970 : Nat) : ℚ)
  priority : ∃ i, intOf (getOr "priority" (.int 500) c) = .ok i

theorem normaliseFacts_ok {facts : Obj φ} (h : ExactFaces facts) : ∃ f, normaliseFacts facts = .ok f := by
  have hfaces : ∀ {v : PyVal φ}, (∀ x, v = .float x → ∃ y, x = .finite y) → (numberOf v).isSome = true →
      ∃ n, intOf v = .ok n := by
    intro v hexact hnumber
    cases v with
    | bool b => exact ⟨_, rfl⟩
    | int i => exact ⟨i, rfl⟩
    | float x =>
        obtain ⟨y, rfl⟩ := hexact x rfl
        exact ⟨_, rfl⟩
    | none | str _ | list _ | dict _ => cases hnumber
  rw [normaliseFacts]
  dsimp only
  split
  · rename_i hcount
    obtain ⟨n, hn⟩ := hfaces h hcount.2
    rw [bareFacts] at hn
    rw [hn]
    exact ⟨_, rfl⟩
  · exact ⟨_, rfl⟩

theorem proximityScore_ok {facts : Obj φ} (h : ExactFaces facts) {age : Option (PyFloat ℚ)}
    (hage : ∀ q, age = some (.finite q) → q < ((2 ^ 1024 - 2 ^ 970 : Nat) : ℚ)) :
    ∃ score, proximityScore facts age = .ok score := by
  obtain ⟨f, hf⟩ := normaliseFacts_ok h
  have hwritable : ¬ age.any unwritable = true := by
    cases age with
    | none => exact Bool.false_ne_true
    | some x =>
        cases x with
        | finite q => exact fun hq => absurd (of_decide_eq_true hq) (not_le.2 (hage q rfl))
        | nan | posInf | negInf => exact Bool.false_ne_true
  rw [proximityScore, hf]
  dsimp only [bind, Except.bind]
  rw [if_neg hwritable]
  split
  · exact ⟨_, rfl⟩
  · split
    · exact ⟨_, rfl⟩
    · split
      · exact ⟨_, rfl⟩
      · exact ⟨_, rfl⟩

/-- A candidate is scored. -/
theorem IsCandidate.scored {c : Obj φ} (h : IsCandidate c) :
    ∃ s, scoredDict (.dict c) = .ok (some s) := by
  obtain ⟨facts, hfacts, hexact⟩ := h.facts
  obtain ⟨score, hscore⟩ := proximityScore_ok hexact h.age
  obtain ⟨priority, hpriority⟩ := h.priority
  rw [scoredDict, if_neg h.named, hfacts]
  dsimp only [bind, Except.bind]
  rw [hscore]
  dsimp only [bind, Except.bind]
  rw [hpriority]
  exact ⟨_, rfl⟩

/-- The candidates, scored. -/
def scores (candidates : List (Obj φ)) : Set Scored :=
  {s | ∃ c ∈ candidates, scoredDict (.dict c) = .ok (some s)}

theorem mem_scores {candidates : List (Obj φ)} {s : Scored} :
    s ∈ scores candidates ↔ ∃ c ∈ candidates, scoredDict (.dict c) = .ok (some s) := Iff.rfl

/-- The entry of a candidate: its id, the proximity score of its facts, whether it can speak and its
priority. -/
structure EntryOf (c : Obj φ) (s : Scored) : Prop where
  deviceId : s.deviceId = deviceIdOf c
  score : ∃ facts, factItems (fetch (lit "facts") c) = .ok facts ∧
    proximityScore facts (numberOf (fetch (lit "age_s") c)) = .ok s.score
  canSpeak : s.canSpeak = canSpeakOf c
  priority : intOf (getOr "priority" (.int 500) c) = .ok s.priority

theorem of_scoredDict {c : Obj φ} {s : Scored} (h : scoredDict (.dict c) = .ok (some s)) :
    EntryOf c s := by
  rw [scoredDict] at h
  split at h
  · cases h
  · obtain ⟨facts, hfacts, h⟩ := ok_of_bind h
    obtain ⟨score, hscore, h⟩ := ok_of_bind h
    obtain ⟨priority, hpriority, h⟩ := ok_of_bind h
    cases h
    exact ⟨rfl, ⟨facts, hfacts, hscore⟩, rfl, hpriority⟩

/-- Each entry is of a candidate. -/
theorem entryOf_of_mem_scores {candidates : List (Obj φ)} {s : Scored} (h : s ∈ scores candidates) :
    ∃ c ∈ candidates, EntryOf c s :=
  h.imp fun _ hc => ⟨hc.1, of_scoredDict hc.2⟩

theorem mapM_scoredDict {candidates : List (Obj φ)} (h : ∀ c ∈ candidates, IsCandidate c) :
    ∃ all : List Scored, (candidates.map PyVal.dict).mapM scoredDict = .ok (all.map some) ∧
      ∀ s, s ∈ all ↔ s ∈ scores candidates := by
  induction candidates with
  | nil => exact ⟨[], rfl, by simp [scores]⟩
  | cons c candidates ih =>
      rw [List.forall_mem_cons] at h
      obtain ⟨s, hs⟩ := h.1.scored
      obtain ⟨all, hall, hmem⟩ := ih h.2
      refine ⟨s :: all, ?_, ?_⟩
      · rw [List.map_cons, List.mapM_cons, hs, hall]
        rfl
      · intro t
        rw [List.mem_cons, hmem, mem_scores, mem_scores, List.exists_mem_cons_iff, hs]
        simp [eq_comm]

/-- The first of a sorted list that passes a test comes before all others that pass it. -/
theorem find?_of_pairwise {α : Type} {r : α → α → Prop} {p : α → Bool} {xs : List α}
    (hsorted : xs.Pairwise r) {a : α} (h : xs.find? p = some a) :
    ∀ b ∈ xs, p b = true → b = a ∨ r a b := by
  induction hsorted with
  | nil => cases h
  | cons hfirst _ ih =>
      rename_i x xs
      rw [List.find?_cons] at h
      intro b hb hpb
      split at h
      · cases h
        rcases List.mem_cons.1 hb with rfl | hb
        · exact .inl rfl
        · exact .inr (hfirst b hb)
      · rename_i hx
        rcases List.mem_cons.1 hb with rfl | hb
        · rw [hx] at hpb
          cases hpb
        · exact ih h b hb hpb

/-- `select` makes the choice. -/
theorem selectDicts_isChoice {candidates : List (Obj φ)} (h : ∀ c ∈ candidates, IsCandidate c)
    (floor : ℚ) {forced : PyVal φ} (hforced : ¬ Forces forced) :
    ∃ chosen, selectDicts (candidates.map PyVal.dict) floor forced = .ok chosen ∧
      IsChoice (scores candidates) floor chosen := by
  obtain ⟨all, hall, hmem⟩ := mapM_scoredDict h
  have htotal : Std.Total fun a b : Scored => scoredLe a b = true :=
    ⟨fun a b => by simpa only [scoredLe_iff] using le_total a.sortKey b.sortKey⟩
  have htrans : IsTrans Scored fun a b => scoredLe a b = true :=
    ⟨fun a b c => by simpa only [scoredLe_iff] using le_trans⟩
  have hsorted := List.pairwise_insertionSort (fun a b : Scored => scoredLe a b = true) all
  have hranked : rankDicts (candidates.map PyVal.dict) =
      .ok (all.insertionSort fun a b => scoredLe a b = true) := by
    have hscored : (all.map some).reduceOption = all := by
      show (all.map some).filterMap id = all
      rw [List.filterMap_map]
      exact List.filterMap_some
    rw [rankDicts, hall]
    dsimp only [bind, Except.bind, pure, Except.pure]
    rw [hscored]
  have hmem' : ∀ s, s ∈ (all.insertionSort fun a b => scoredLe a b = true) ↔ s ∈ scores candidates := by
    intro s
    rw [List.mem_insertionSort, hmem]
  refine ⟨_, by rw [selectDicts, hranked]; exact if_neg hforced, ?_⟩
  generalize (all.insertionSort fun a b => scoredLe a b = true) = ranked at hsorted hmem'
  cases hfind : ranked.find? Scored.canSpeak with
  | none =>
      intro s hs hspeaks
      exact absurd hspeaks (List.find?_eq_none.1 hfind s ((hmem' s).2 hs))
  | some best =>
      have hspeaks := List.find?_some hfind
      have hleast : ∀ s ∈ scores candidates, s.canSpeak = true → best.mouthKey ≤ s.mouthKey := by
        intro s hs hspeaks'
        rcases find?_of_pairwise hsorted hfind s ((hmem' s).2 hs) hspeaks' with rfl | hle
        · exact le_rfl
        · exact (sortKey_le_iff hspeaks hspeaks').1 (scoredLe_iff.1 hle)
      by_cases hfloor : floor ≤ best.score
      · rw [Option.filter_some, if_pos (decide_eq_true hfloor)]
        exact ⟨(hmem' best).1 (List.mem_of_find?_eq_some hfind), hspeaks, hfloor, hleast⟩
      · rw [Option.filter_some, if_neg (by simpa using hfloor)]
        intro s hs hspeaks'
        exact (score_le_of_mouthKey (hleast s hs hspeaks')).trans_lt (not_le.1 hfloor)

theorem oneEach_scores {candidates : List (Obj φ)} (h : (candidates.map deviceIdOf).Nodup) :
    OneEach (scores candidates) := by
  rintro s ⟨c, hc, hs⟩ t ⟨d, hd, ht⟩ heq
  rw [(of_scoredDict hs).deviceId, (of_scoredDict ht).deviceId] at heq
  have hcd := List.inj_on_of_nodup_map h hc hd heq
  rw [hcd, ht] at hs
  cases hs
  rfl

/-! ## What the choice depends on -/

theorem scores_perm {candidates candidates' : List (Obj φ)} (h : candidates'.Perm candidates)
    {s : Scored} : s ∈ scores candidates' ↔ s ∈ scores candidates := by
  rw [mem_scores, mem_scores]
  simp only [h.mem_iff]

/-- A candidate among others. -/
theorem mem_scores_middle {front back : List (Obj φ)} {c : Obj φ} {s : Scored} :
    s ∈ scores (front ++ c :: back) ↔
      scoredDict (.dict c) = .ok (some s) ∨ s ∈ scores (front ++ back) := by
  rw [scores_perm List.perm_middle, mem_scores, mem_scores, List.exists_mem_cons_iff]

/-- A candidate that cannot speak changes nothing for those that can. -/
theorem mem_scores_mute {front back : List (Obj φ)} {c : Obj φ} (hmute : canSpeakOf c = false)
    {s : Scored} (hspeaks : s.canSpeak = true) :
    s ∈ scores (front ++ c :: back) ↔ s ∈ scores (front ++ back) := by
  rw [mem_scores_middle, or_iff_right]
  intro hs
  rw [(of_scoredDict hs).canSpeak, hmute] at hspeaks
  cases hspeaks

/-- What is asked of the choice among candidates. -/
structure OnEvidence (candidates : List (Obj φ)) (floor : ℚ) (forced : PyVal φ) (chosen : Option Scored) :
    Prop where
  /-- Every candidate has one entry, and there are no others. -/
  entries : (∀ c ∈ candidates, ∃! s, s ∈ scores candidates ∧ EntryOf c s) ∧
    ∀ s ∈ scores candidates, ∃ c ∈ candidates, EntryOf c s
  returned : selectDicts (candidates.map PyVal.dict) floor forced = .ok chosen
  /-- The order of the candidates does not matter. -/
  order : ∀ candidates' : List (Obj φ), candidates'.Perm candidates →
    selectDicts (candidates'.map PyVal.dict) floor forced = .ok chosen
  /-- Who is chosen is a candidate, can speak, reaches the floor and comes before all others that can
  speak. -/
  nearest : ∀ best ∈ chosen, best ∈ scores candidates ∧ best.canSpeak = true ∧ floor ≤ best.score ∧
    ∀ s ∈ scores candidates, s.canSpeak = true → s ≠ best → best.mouthKey < s.mouthKey
  /-- One that cannot speak does not matter. -/
  mute : ∀ (front back : List (Obj φ)) (c : Obj φ), front ++ back = candidates → IsCandidate c →
    canSpeakOf c = false → selectDicts ((front ++ c :: back).map PyVal.dict) floor forced = .ok chosen
  /-- One that is not chosen does not matter. -/
  unchosen : ∀ (front back : List (Obj φ)) (c : Obj φ), front ++ c :: back = candidates →
    (∀ best ∈ chosen, best.deviceId ≠ deviceIdOf c) →
    selectDicts ((front ++ back).map PyVal.dict) floor forced = .ok chosen
  nobody : chosen = none ↔ ∀ s ∈ scores candidates, s.canSpeak = true → s.score < floor

section

variable {candidates : List (Obj φ)} {floor : ℚ} {forced : PyVal φ} {chosen : Option Scored}

/-- What `select` returns is the choice, where there is one. -/
theorem selectDicts_eq (hcandidates : ∀ c ∈ candidates, IsCandidate c)
    (hforced : ¬ Forces forced) (hone : OneEach (scores candidates))
    (hchoice : IsChoice (scores candidates) floor chosen) :
    selectDicts (candidates.map PyVal.dict) floor forced = .ok chosen := by
  obtain ⟨chosen', hselect, hchoice'⟩ := selectDicts_isChoice hcandidates floor hforced
  rw [hselect, hchoice.unique hone hchoice']

theorem selectDicts_mute {front back : List (Obj φ)} {c : Obj φ}
    (hcandidates : ∀ c ∈ front ++ back, IsCandidate c) (hforced : ¬ Forces forced)
    (hone : OneEach (scores (front ++ back)))
    (hchoice : IsChoice (scores (front ++ back)) floor chosen) (hc : IsCandidate c)
    (hmute : canSpeakOf c = false) :
    selectDicts ((front ++ c :: back).map PyVal.dict) floor forced = .ok chosen := by
  have hall : ∀ d ∈ front ++ c :: back, IsCandidate d := by
    intro d hd
    rcases List.mem_cons.1 (List.perm_middle.mem_iff.1 hd) with rfl | hd
    · exact hc
    · exact hcandidates d hd
  obtain ⟨chosen', hselect, hchoice'⟩ := selectDicts_isChoice hall floor hforced
  rw [hselect, hchoice.unique hone (hchoice'.congr fun s => mem_scores_mute hmute)]

theorem selectDicts_unchosen {front back : List (Obj φ)} {c : Obj φ}
    (hcandidates : ∀ d ∈ front ++ c :: back, IsCandidate d) (hforced : ¬ Forces forced)
    (hone : OneEach (scores (front ++ c :: back)))
    (hchoice : IsChoice (scores (front ++ c :: back)) floor chosen)
    (hunchosen : ∀ best ∈ chosen, best.deviceId ≠ deviceIdOf c) :
    selectDicts ((front ++ back).map PyVal.dict) floor forced = .ok chosen := by
  have hsub : scores (front ++ back) ⊆ scores (front ++ c :: back) :=
    fun s hs => mem_scores_middle.2 (.inr hs)
  have hkept : ∀ best ∈ chosen, best ∈ scores (front ++ back) := by
    rintro best rfl
    rcases mem_scores_middle.1 hchoice.1 with hbest | hbest
    · exact absurd (of_scoredDict hbest).deviceId (hunchosen best rfl)
    · exact hbest
  have hrest : ∀ d ∈ front ++ back, IsCandidate d := fun d hd =>
    hcandidates d (List.perm_middle.mem_iff.2 (List.mem_cons_of_mem c hd))
  exact selectDicts_eq hrest hforced (fun s hs t ht => hone s (hsub hs) t (hsub ht))
    (hchoice.anti hsub hkept)

end

/-- For candidates with distinct ids, and no forced target: the choice depends on the evidence. -/
theorem nearest_mouth {candidates : List (Obj φ)} (hcandidates : ∀ c ∈ candidates, IsCandidate c)
    (hids : (candidates.map deviceIdOf).Nodup) (floor : ℚ) {forced : PyVal φ}
    (hforced : ¬ Forces forced) : ∃ chosen, OnEvidence candidates floor forced chosen := by
  obtain ⟨chosen, hselect, hchoice⟩ := selectDicts_isChoice hcandidates floor hforced
  have hone := oneEach_scores hids
  refine ⟨chosen, ⟨?_, fun s => entryOf_of_mem_scores⟩, hselect, ?_, ?_, ?_, ?_, ?_⟩
  · intro c hc
    obtain ⟨s, hs⟩ := (hcandidates c hc).scored
    have hentry := of_scoredDict hs
    refine ⟨s, ⟨⟨c, hc, hs⟩, hentry⟩, fun t ht => ?_⟩
    exact hone t ht.1 s ⟨c, hc, hs⟩ (ht.2.deviceId.trans hentry.deviceId.symm)
  · intro candidates' hperm
    have hone' := oneEach_scores ((hperm.map deviceIdOf).nodup_iff.2 hids)
    exact selectDicts_eq (fun c hc => hcandidates c (hperm.mem_iff.1 hc)) hforced hone'
      (hchoice.congr fun s _ => (scores_perm hperm).symm)
  · rintro best rfl
    have hlt : ∀ s ∈ scores candidates, s.canSpeak = true → s ≠ best → best.mouthKey < s.mouthKey :=
      fun s hs hspeaks hne => hchoice.lt hone hs hspeaks hne
    obtain ⟨hmem, hspeaks, hfloor, -⟩ := hchoice
    exact ⟨hmem, hspeaks, hfloor, hlt⟩
  · rintro front back c rfl hc hmute
    exact selectDicts_mute hcandidates hforced hone hchoice hc hmute
  · rintro front back c rfl hunchosen
    exact selectDicts_unchosen hcandidates hforced hone hchoice hunchosen
  · constructor
    · rintro rfl
      exact hchoice
    · intro hnobody
      have hnone : IsChoice (scores candidates) floor none := hnobody
      exact hchoice.unique hone hnone

end

/-- A desk and a phone that hears someone talk. -/
def deskAndPhone : List (Obj WholeFloat) :=
  [obj [("device_id", .str (lit "desk")), ("priority", .int 100)],
    obj [("device_id", .str (lit " phone ")),
      ("facts", .dict (obj [("remote_speech_source", .str (lit "verified_person"))]))]]

/-- The choice among them depends on the evidence. -/
theorem deskAndPhone_nearest : ∃ chosen, OnEvidence deskAndPhone (1 / 5) .none chosen := by
  refine nearest_mouth ?_ (by decide +kernel) _ (by decide +kernel)
  have hfaces : ∀ facts : Obj WholeFloat, fetch (lit "face_count") (bareFacts facts) = .none →
      ExactFaces facts := by
    intro facts hnone x hx
    rw [hnone] at hx
    cases hx
  intro c hc
  rcases List.mem_cons.1 hc with rfl | hc
  · exact ⟨by decide +kernel, ⟨[], rfl, hfaces [] rfl⟩, fun q hq => (nomatch hq), ⟨100, rfl⟩⟩
  · rw [List.mem_singleton.1 hc]
    exact ⟨by decide +kernel, ⟨_, rfl, hfaces _ (by rfl)⟩, fun q hq => (nomatch hq), ⟨500, rfl⟩⟩

end ShugoCore
