import ShugoCore.Personality.NeverSay
import ShugoCore.Personality.Persona

/-!
# The verbosity budget

When a text has more sentences than the budget allows, the governor keeps the first pieces of it.
Sentences are counted between the marks that end them, and pieces are cut at the white space behind
such a mark.  White space does not count, and neither does the mark that is put at the end.  So the
shortened text has the sentences of its `opening`: the beginning of the text, up to the place where
the last piece that is kept ends.

Where a mark is followed by no white space, a piece has more than one sentence, and the shortened
text may still be too long (`correction_takes_effect_iff`).
-/

namespace ShugoCore

open Py

/-- A text without its white space. -/
def unspaced (text : Str) : Str := text.filter fun c => !isSpace c

theorem unspaced_eq_nil_iff {text : Str} : unspaced text = [] ↔ strip text = [] := by
  rw [strip_eq_nil_iff, unspaced, List.filter_eq_nil_iff]
  simp

@[simp] theorem unspaced_append (s t : Str) : unspaced (s ++ t) = unspaced s ++ unspaced t :=
  List.filter_append ..

theorem unspaced_cons_space {c : CodePoint} (h : isSpace c = true) (text : Str) :
    unspaced (c :: text) = unspaced text := by
  rw [unspaced, List.filter_cons_of_neg (by simp [h]), unspaced]

theorem unspaced_eq_nil_of_spaces {text : Str} (h : ∀ c ∈ text, isSpace c = true) :
    unspaced text = [] := unspaced_eq_nil_iff.2 (strip_eq_nil_iff.2 h)

@[simp] theorem unspaced_strip (text : Str) : unspaced (strip text) = unspaced text := by
  have hleft : unspaced (text.takeWhile isSpace) = [] :=
    unspaced_eq_nil_of_spaces fun c hc => List.mem_takeWhile_imp hc
  have hright : unspaced ((text.dropWhile isSpace).rtakeWhile isSpace) = [] :=
    unspaced_eq_nil_of_spaces fun c hc => List.mem_rtakeWhile_imp hc
  calc unspaced (strip text)
      = unspaced (strip text) ++ unspaced ((text.dropWhile isSpace).rtakeWhile isSpace) := by
        rw [hright, List.append_nil]
    _ = unspaced (text.dropWhile isSpace) := by
        rw [← unspaced_append, strip, List.rdropWhile_append_rtakeWhile]
    _ = unspaced (text.takeWhile isSpace) ++ unspaced (text.dropWhile isSpace) := by
        rw [hleft, List.nil_append]
    _ = unspaced text := by
        rw [← unspaced_append, List.takeWhile_append_dropWhile]

/-! ## Counting -/

theorem isTerminal_not_space {c : CodePoint} (h : isTerminal c = true) : isSpace c = false := by
  simp only [isTerminal, Bool.or_eq_true, decide_eq_true_eq] at h
  rcases h with (rfl | rfl) | rfl <;> decide

/-- The parts between the marks, without their white space. -/
theorem splitOnP_unspaced (text : Str) :
    (unspaced text).splitOnP isTerminal = (text.splitOnP isTerminal).map unspaced := by
  induction text with
  | nil => rfl
  | cons c text ih =>
      obtain ⟨part, parts, hparts⟩ :=
        List.exists_cons_of_ne_nil (List.splitOnP_ne_nil isTerminal text)
      rw [hparts, List.map_cons] at ih
      cases hspace : isSpace c with
      | true =>
          have hterminal : isTerminal c = false := by
            by_contra hc
            rw [isTerminal_not_space (by simpa using hc)] at hspace
            cases hspace
          rw [unspaced_cons_space hspace, ih, List.splitOnP_cons_eq_if_modifyHead, hterminal, hparts]
          simp [unspaced_cons_space hspace]
      | false =>
          have hcons : ∀ s, unspaced (c :: s) = c :: unspaced s := by
            intro s
            rw [unspaced, List.filter_cons_of_pos (by simp [hspace]), unspaced]
          rw [hcons, List.splitOnP_cons_eq_if_modifyHead, List.splitOnP_cons_eq_if_modifyHead, ih,
            hparts]
          split
          · rfl
          · simp [hcons]

/-- White space is not counted. -/
theorem countSentences_eq {text : Str} (h : unspaced text ≠ []) :
    countSentences text =
      max 1 (((unspaced text).splitOnP isTerminal).filter fun part => part ≠ []).length := by
  have hne : text ≠ [] := by
    rintro rfl
    exact h rfl
  have hblank : (fun part => decide (part ≠ [])) ∘ unspaced = fun part => decide (strip part ≠ []) := by
    funext part
    simp [unspaced_eq_nil_iff]
  rw [countSentences, if_neg hne, splitOnP_unspaced, List.filter_map, List.length_map, hblank]

/-- Texts with the same characters but for white space have as many sentences. -/
theorem countSentences_congr {s t : Str} (h : unspaced s = unspaced t) (hne : unspaced t ≠ []) :
    countSentences s = countSentences t := by
  rw [countSentences_eq (h ▸ hne), countSentences_eq hne, h]

/-- A mark at the end is not counted. -/
theorem countSentences_append_dot {text : Str} (h : unspaced text ≠ []) :
    countSentences (text ++ [46]) = countSentences text := by
  have hdot : unspaced (text ++ [46]) = unspaced text ++ 46 :: [] := unspaced_append text [46]
  have hne : unspaced (text ++ [46]) ≠ [] := by
    rw [hdot]
    exact List.append_ne_nil_of_left_ne_nil h _
  rw [countSentences_eq hne, countSentences_eq h, hdot,
    List.splitOnP_append_cons _ _ (show isTerminal 46 = true by decide), List.filter_append]
  simp

/-! ## Cutting -/

/-- The beginning of a text, up to its `n`th white space behind a mark.  `ended` says that the last
character was a mark. -/
def opening (n : Nat) (ended : Bool) : Str → Str
  | [] => []
  | c :: text =>
      if isSpace c && ended then
        if n ≤ 1 then [] else c :: opening (n - 1) false text
      else c :: opening n (isTerminal c) text

theorem isTerminal_of_space {c : CodePoint} (h : isSpace c = true) : isTerminal c = false := by
  by_contra hc
  rw [isTerminal_not_space (by simpa using hc)] at h
  cases h

/-- The first pieces are the opening of the text, but for white space. -/
theorem unspaced_take_splitSentences (acc text : Str) (skipping : Bool) (n : Nat)
    (hacc : skipping = true → acc = []) :
    unspaced ((splitSentences acc skipping text).take (n + 1)).flatten =
      unspaced acc ++ unspaced (opening (n + 1) (acc.getLast?.any isTerminal) text) := by
  induction text generalizing acc skipping n with
  | nil =>
      rw [splitSentences, opening, List.take_succ_cons, List.take_nil, List.flatten_cons,
        List.flatten_nil, unspaced_append]
  | cons c text ih =>
      rw [splitSentences]
      split
      · -- the white space of a cut goes on
        rename_i hskip
        obtain ⟨hskipping, hspace⟩ := Bool.and_eq_true_iff.1 hskip
        obtain rfl := hacc hskipping
        rw [ih [] true n fun _ => rfl, opening, if_neg (by simp), unspaced_cons_space hspace,
          isTerminal_of_space hspace]
        rfl
      · split
        · -- a piece ends
          rename_i hcut
          obtain ⟨hspace, hended⟩ := Bool.and_eq_true_iff.1 hcut
          rw [opening, if_pos (by simp [hspace, hended]), List.take_succ_cons, List.flatten_cons,
            unspaced_append]
          cases n with
          | zero => rfl
          | succ n =>
              rw [ih [] true n fun _ => rfl, if_neg (by omega), unspaced_cons_space hspace]
              rfl
        · rename_i hcut
          rw [ih (acc ++ [c]) false n (by simp), opening, if_neg hcut, List.getLast?_concat,
            unspaced_append, List.append_assoc, ← unspaced_append]
          rfl

theorem unspaced_intercalate_space (pieces : List Str) :
    unspaced ([32].intercalate pieces) = unspaced pieces.flatten := by
  induction pieces with
  | nil => rfl
  | cons piece pieces ih =>
      cases pieces with
      | nil => simp [List.intercalate]
      | cons next pieces =>
          have hspace : unspaced [32] = [] := rfl
          have hrest : unspaced (piece :: next :: pieces).flatten =
              unspaced piece ++ unspaced (next :: pieces).flatten := unspaced_append ..
          rw [List.intercalate_cons_cons, unspaced_append, unspaced_append, ih, hspace,
            List.append_nil, hrest]

/-- The opening of a text that is not blank is not blank. -/
theorem unspaced_opening_ne_nil {text : Str} (h : unspaced text ≠ []) (n : Nat) :
    unspaced (opening n false text) ≠ [] := by
  induction text with
  | nil => exact absurd rfl h
  | cons c text ih =>
      rw [opening, if_neg (by simp)]
      cases hspace : isSpace c with
      | true =>
          rw [unspaced_cons_space hspace, isTerminal_of_space hspace]
          rw [unspaced_cons_space hspace] at h
          exact ih h
      | false =>
          rw [unspaced, List.filter_cons_of_pos (by simp [hspace])]
          exact List.cons_ne_nil _ _

/-- A shortened text is the opening of the text, but for white space and a mark at the end. -/
theorem countSentences_truncateToBudget {text : Str} (h : unspaced text ≠ []) {budget : Nat}
    (hbudget : 1 ≤ budget) :
    unspaced (truncateToBudget text budget) ≠ [] ∧
      countSentences (truncateToBudget text budget) = countSentences (opening budget false text) := by
  obtain ⟨n, rfl⟩ := Nat.exists_eq_add_of_le' hbudget
  have hkept : unspaced (strip ([32].intercalate ((splitSentences [] false text).take (n + 1)))) =
      unspaced (opening (n + 1) false text) := by
    rw [unspaced_strip, unspaced_intercalate_space, unspaced_take_splitSentences [] text false n
      (fun _ => rfl)]
    rfl
  have hopening := unspaced_opening_ne_nil h (n + 1)
  unfold truncateToBudget
  dsimp only
  generalize strip ([32].intercalate ((splitSentences [] false text).take (n + 1))) = result
    at hkept ⊢
  have hcount := countSentences_congr hkept hopening
  rw [← hkept] at hopening
  split
  · rw [countSentences_append_dot hopening, unspaced_append]
    exact ⟨List.append_ne_nil_of_left_ne_nil hopening _, hcount⟩
  · exact ⟨hopening, hcount⟩

/-! ## Corrections -/

section

variable {φ : Type} [Builtins φ]

omit [Builtins φ] in
/-- The words that the governor finds are not blank. -/
theorem unspaced_extractText {d : Obj φ} (h : extractText d ≠ []) :
    unspaced (extractText d) ≠ [] := by
  rw [extractText] at h ⊢
  cases hfound : ["text", "question", "content", "message"].findSome? fun k =>
      nonBlank (fetch (lit k) d) with
  | none => exact absurd (by rw [hfound]; rfl) h
  | some words =>
      obtain ⟨k, -, hk⟩ := List.exists_of_findSome?_eq_some hfound
      rw [Option.getD_some]
      unfold nonBlank at hk
      split at hk
      · split at hk
        · cases hk
        · rename_i hblank
          cases hk
          rw [unspaced_strip]
          exact fun hnil => hblank (unspaced_eq_nil_iff.1 hnil)
      · cases hk

omit [Builtins φ] in
/-- The governor finds a text that is put under its first key. -/
theorem extractText_setKey {text : Str} (h : unspaced text ≠ []) (d : Obj φ) :
    extractText (setKey (lit "text") (.str text) d) = strip text := by
  have hstrip : strip text ≠ [] := fun hblank => h (unspaced_eq_nil_iff.2 hblank)
  rw [extractText, List.findSome?_cons, fetch, getKey_setKey_self, Option.getD_some, nonBlank,
    if_neg hstrip]
  rfl

/-- What the governor shortens, and to what. -/
theorem annotate_eq_modify {lower : Str → Str} {m : PersonalityModel φ} {selfInitiated : Bool}
    {kind : SpeechKind} {params : PyVal φ} {text : Str}
    (h : annotate lower m selfInitiated kind params = .modify text) :
    ∃ d policy, paramsDict params = .ok d ∧ m.policy = .ok policy ∧ extractText d ≠ [] ∧
      policy.verbosityBudget < countSentences (extractText d) ∧
      text = truncateToBudget (extractText d) policy.verbosityBudget := by
  rw [annotate, verdictOf] at h
  cases hd : paramsDict params with
  | error e =>
      rw [hd] at h
      cases h
  | ok d =>
      rw [hd] at h
      cases hpolicy : m.policy with
      | error e =>
          rw [hpolicy] at h
          cases h
      | ok policy =>
          rw [hpolicy] at h
          simp only [bind, Except.bind] at h
          cases hhits : contentHits lower (extractText d) policy.neverSay with
          | error e =>
              rw [hhits] at h
              cases h
          | ok hits =>
              rw [hhits] at h
              simp only [pure, Except.pure] at h
              split at h
              · cases h
              · split at h
                · cases h
                · split at h
                  · rename_i hlong
                    cases h
                    exact ⟨d, policy, rfl, rfl, hlong.1, hlong.2, rfl⟩
                  · cases h

/-- The budget is one sentence at least. -/
theorem budget_pos {m : LivingModel φ} {policy : PersonalityPolicy φ}
    (h : m.governed.policy = .ok policy) : 1 ≤ policy.verbosityBudget := by
  obtain ⟨⟨budget, reluctant⟩, hderived, h⟩ := ok_of_bind h
  obtain ⟨neverSay, -, h⟩ := ok_of_bind h
  cases h
  obtain ⟨product, -, hderived⟩ := ok_of_bind (show m.derived = _ from hderived)
  obtain ⟨rounded, -, hderived⟩ := ok_of_bind hderived
  cases hderived
  show 1 ≤ (max 1 (min 8 rounded)).toNat
  omega

/-- A correction takes effect: afterwards the governor finds no more sentences than its budget, and
corrects them no more. -/
def TakesEffect (lower : Str → Str) (m : PersonalityModel φ) (verdict : PersonalityVerdict)
    (kind : SpeechKind) (params : PyVal φ) : Prop :=
  let (kind', params') := verdict.apply kind params
  (∃ d policy, paramsDict params' = .ok d ∧ m.policy = .ok policy ∧
    countSentences (extractText d) ≤ policy.verbosityBudget) ∧
  ∀ selfInitiated text, annotate lower m selfInitiated kind' params' ≠ .modify text

/-- The opening of a text that has as many white spaces behind a mark as the budget has sentences
has no more sentences than that. -/
def OpensInBudget (m : PersonalityModel φ) (params : PyVal φ) : Prop :=
  ∃ d policy, paramsDict params = .ok d ∧ m.policy = .ok policy ∧
    countSentences (opening policy.verbosityBudget false (extractText d)) ≤ policy.verbosityBudget

/-- For every model, context and decision that the governor shortens: the correction takes effect,
if and only if the opening of the words is within the budget. -/
theorem correction_takes_effect_iff (lower : Str → Str) (m : LivingModel φ) (selfInitiated : Bool)
    (kind : SpeechKind) (params : PyVal φ) (text : Str)
    (h : annotate lower m.governed selfInitiated kind params = .modify text) :
    TakesEffect lower m.governed (.modify text) kind params ↔ OpensInBudget m.governed params := by
  obtain ⟨d, policy, hd, hpolicy, hwords, hlong, rfl⟩ := annotate_eq_modify h
  obtain ⟨hne, hcount⟩ := countSentences_truncateToBudget (unspaced_extractText hwords)
    (budget_pos hpolicy)
  have hafter : PersonalityVerdict.apply
      (.modify (truncateToBudget (extractText d) policy.verbosityBudget)) kind params =
      (kind, .dict (setKey (lit "text")
        (.str (truncateToBudget (extractText d) policy.verbosityBudget)) d)) := by
    rw [PersonalityVerdict.apply, dictOrEmpty_of_paramsDict hd]
  have hfound := extractText_setKey hne d
  have hstripped := countSentences_congr (unspaced_strip
    (truncateToBudget (extractText d) policy.verbosityBudget)) hne
  rw [TakesEffect, hafter]
  constructor
  · rintro ⟨⟨d', policy', hd', hpolicy', hfits⟩, -⟩
    cases hd'
    cases hpolicy.symm.trans hpolicy'
    rw [hfound, hstripped, hcount] at hfits
    exact ⟨d, policy, hd, hpolicy, hfits⟩
  · rintro ⟨d', policy', hd', hpolicy', hfits⟩
    cases hd.symm.trans hd'
    cases hpolicy.symm.trans hpolicy'
    rw [← hcount, ← hstripped, ← hfound] at hfits
    refine ⟨⟨_, policy, rfl, hpolicy, hfits⟩, fun selfInitiated' text' hagain => ?_⟩
    obtain ⟨d', policy', hd', hpolicy', -, hlong', -⟩ := annotate_eq_modify hagain
    cases hd'
    cases hpolicy.symm.trans hpolicy'
    omega

end

/-- A model that says one sentence at a time. -/
def terseModel : LivingModel WholeFloat where
  policy :=
    { boundaries := []
      neverSay := []
      firstPerson := true
      refuseHarmful := true
      greeting := []
      offer := []
      proactivity := ⟨true, true, false⟩ }
  traits := []
  voice := { maxSentences := .int 1, style := .none }

/-- A question with its words. -/
def asked (words : String) : PyVal WholeFloat := .dict (obj [("question", textVal words)])

/-- Of two sentences the first one is kept. -/
theorem second_sentence_dropped :
    annotate lowerLetters terseModel.governed false .askUser (asked "Done. Shall I go on?") =
        .modify (lit "Done.") ∧
      TakesEffect lowerLetters terseModel.governed (.modify (lit "Done.")) .askUser
        (asked "Done. Shall I go on?") := by
  have hmodify : annotate lowerLetters terseModel.governed false .askUser
      (asked "Done. Shall I go on?") = .modify (lit "Done.") := by decide +kernel
  refine ⟨hmodify, (correction_takes_effect_iff _ _ _ _ _ _ hmodify).2 ?_⟩
  have hderived : terseModel.derived = .ok (1, true) := by decide +kernel
  have hpolicy : terseModel.governed.policy = .ok ⟨[], 1, true⟩ := by
    simp only [LivingModel.governed, PersonalityModel.policy, hderived]
    rfl
  exact ⟨_, _, rfl, hpolicy, by decide +kernel⟩

/-- A version number is two sentences and one piece. -/
theorem version_number_kept :
    annotate lowerLetters terseModel.governed false .askUser (asked "Shall I use Python 3.12?") =
        .modify (lit "Shall I use Python 3.12?") ∧
      ¬ TakesEffect lowerLetters terseModel.governed (.modify (lit "Shall I use Python 3.12?"))
        .askUser (asked "Shall I use Python 3.12?") := by
  have hmodify : annotate lowerLetters terseModel.governed false .askUser
      (asked "Shall I use Python 3.12?") = .modify (lit "Shall I use Python 3.12?") := by
    decide +kernel
  refine ⟨hmodify, fun htakes => ?_⟩
  exact htakes.2 false (lit "Shall I use Python 3.12?") (by decide +kernel)

end ShugoCore
