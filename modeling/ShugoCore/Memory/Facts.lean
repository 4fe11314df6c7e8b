import ShugoCore.Lib.Regex
import ShugoCore.Lib.Run
import ShugoCore.Personality.Adoption
import ShugoCore.Security.Sanitised

/-!
# Facts about the user

`FactMemory.remember` of `subsystems/memory.py`.  Patterns render the facts that an utterance states,
and a fact is kept under its text in small letters, with its kind and a count.

That somebody does not like something is a text of its own, so it is kept beside that he likes it, and
the rule that turns a preference into a dislike looks for it under the same text.  And the patterns
overlap, so an utterance can state one fact twice.  The memory is free of contradictions and counts once
if and only if nothing is both liked and disliked, and no utterance states a fact twice
(`preferences_iff`).

`str.lower` and the classes of characters beyond ASCII are parameters.  When a fact was seen and the
file that it is saved in are left out.
-/

namespace ShugoCore

open Py Machine Regex

/-! ## The patterns -/

/-- What the interpreter knows about characters. -/
structure Unicode where
  lower : Str → Str
  /-- `str.isalnum` of one character. -/
  isAlnum : CodePoint → Bool
  /-- `str.isdecimal` of one character. -/
  isDecimal : CodePoint → Bool

/-- A letter as `re.IGNORECASE` compares it with one of ASCII.  Four letters beyond ASCII count as
one. -/
def foldLetter (c : CodePoint) : CodePoint :=
  if 65 ≤ c.val ∧ c.val ≤ 90 then Fin.ofNat 0x110000 (c.val + 32)
  else if c.val = 0x130 ∨ c.val = 0x131 then 105
  else if c.val = 0x17F then 115
  else if c.val = 0x212A then 107
  else c

/-- `[a-z]` or `[A-Z]`. -/
def isLetter (c : CodePoint) : Bool := 97 ≤ (foldLetter c).val && (foldLetter c).val ≤ 122

/-- A character that is written out. -/
def character (c : CodePoint) : Pattern CodePoint := .one fun x => foldLetter x = c

/-- A word that is written out. -/
def word (s : String) : Pattern CodePoint := inTurn ((lit s).map character)

/-- One of some words. -/
def words (ss : List String) : Pattern CodePoint := alts (ss.map word)

/-- A character that can be left out. -/
def optional (c : CodePoint) : Pattern CodePoint := .many (fun x => foldLetter x = c) 0 (some 1) true

/-- `\s+`. -/
def spaces : Pattern CodePoint := .many isSpace 1 none true

/-- `(?:\.|\,|$)`. -/
def clauseEnd : Pattern CodePoint :=
  alts [.one fun c => c = 46, .one fun c => c = 44, .ahead fun s => s = [] || s = [newline]]

namespace Unicode

variable (u : Unicode)

/-- `\w`. -/
def isWord (c : CodePoint) : Bool := u.isAlnum c || c = 95

/-- `\b`. -/
def edge : Pattern CodePoint := .boundary u.isWord

/-- `([A-Z][\w-]*)\b`. -/
def nameGroup : Pattern CodePoint :=
  inTurn [.group (.seq (.one isLetter) (.many (fun c => u.isWord c || c = 45) 0 none true)), u.edge]

/-- `[\w\s]` some times, as few as can be. -/
def phrase (least : Nat) (most : Option Nat) : Pattern CodePoint :=
  .many (fun c => u.isWord c || isSpace c) least most false

/-- `([a-z][\w\s]{1,n}?)(?:\.|\,|$)`. -/
def thingGroup (n : Nat) : Pattern CodePoint :=
  inTurn [.group (.seq (.one isLetter) (u.phrase 1 (some n))), clauseEnd]

end Unicode

/-- `([a-z]+)`. -/
def nounGroup : Pattern CodePoint := .group (.many isLetter 1 none true)

/-- The kinds of facts that are extracted. -/
inductive FactKind where
  | userName
  | preference
  | dislike
  | goal
  | favorite
  | userAttribute
  | selfDescription
  | durationPreference
deriving DecidableEq, Repr

/-- The pattern of things that are liked. -/
def preferencePattern (u : Unicode) : Pattern CodePoint :=
  inTurn [u.edge, word "i", spaces, words ["like", "love", "enjoy", "prefer"], spaces, u.thingGroup 40]

/-- The pattern of things that are not liked. -/
def dislikePattern (u : Unicode) : Pattern CodePoint :=
  inTurn [u.edge, word "i", spaces, word "don", optional 39, word "t", spaces,
    words ["like", "enjoy", "prefer"], spaces, u.thingGroup 40]

/-- `_FACT_PATTERNS`. -/
def factPatterns (u : Unicode) : List (Pattern CodePoint × FactKind) :=
  [(inTurn [u.edge, word "my", spaces, word "name", spaces, word "is", spaces, u.nameGroup], .userName),
    (inTurn [u.edge, word "call", spaces, word "me", spaces, u.nameGroup], .userName),
    (inTurn [u.edge, word "i", optional 39, word "m", spaces, word "called", spaces, u.nameGroup],
      .userName),
    (preferencePattern u, .preference),
    (dislikePattern u, .dislike),
    (inTurn [u.edge, word "i", spaces,
      alts [word "want", word "wanna", word "need", inTurn [word "would", spaces, word "like"]], spaces,
      word "to", spaces, u.thingGroup 50], .goal),
    (inTurn [u.edge, word "my", spaces, word "favorite", spaces, nounGroup, spaces, word "is", spaces,
      .group (u.phrase 1 none), clauseEnd], .favorite),
    (inTurn [u.edge, word "my", spaces, nounGroup, spaces, word "is", spaces,
      .group (u.phrase 1 none), clauseEnd], .userAttribute),
    (inTurn [u.edge, word "i", spaces, word "a", optional 109, spaces,
      .group (u.phrase 2 (some 40)), alts [.one fun c => c = 44, .one fun c => c = 46,
        .ahead fun s => s = [] || s = [newline]]], .selfDescription)]

/-- `_DURATION_RE`. -/
def durationPattern (u : Unicode) : Pattern CodePoint :=
  inTurn [.group (.many u.isDecimal 1 none true), .many isSpace 0 none true,
    .group (words ["minute", "min", "second", "sec", "hour", "hr"]), optional 115, u.edge]

/-! ## Extraction -/

/-- A group of a match. -/
def groupAt (groups : List Str) (i : Nat) : Str := groups.getD i []

/-- `_extract`, what is cut off behind the first clause. -/
def clauseJoiners : List Str :=
  [lit " and ", lit " but ", lit " so ", lit " i ", lit " and i ", lit " i also "]

/-- `s.find(sub)`, if there is one. -/
def findText (sub s : Str) : Option Nat :=
  (List.range (s.length + 1)).find? fun i => sub.isPrefixOf (s.drop i)

/-- The loop over the joiners. -/
def firstClause (lower : Str → Str) : List Str → Str → Str
  | [], capture => capture
  | joiner :: joiners, capture =>
      match findText joiner (lower capture) with
      | some (i + 1) =>
          let capture := strip (capture.take (i + 1))
          if capture.length < 2 then capture else firstClause lower joiners capture
      | _ => firstClause lower joiners capture

/-- The capture of a match that is neither too short nor too long. -/
def captureOf (kind : FactKind) (groups : List Str) : Option Str :=
  let capture := strip ((lit " ").intercalate (groups.filter fun g => g ≠ []))
  let capture := if kind = .userAttribute then strip (groupAt groups 1) else capture
  if capture.length < 2 ∨ 80 < capture.length then none else some capture

/-- What a fact says first. -/
def FactKind.stem : FactKind → Str
  | .userName | .favorite | .userAttribute => lit "User's"
  | .preference => lit "User likes"
  | .dislike => lit "User dislikes"
  | .goal => lit "User wants"
  | .selfDescription => lit "User describes"
  | .durationPreference => lit "User requested"

/-- The text of a fact of which the capture is known. -/
def renderFact (kind : FactKind) (groups : List Str) (capture : Str) : Str :=
  match kind with
  | .userName => lit "User's name is " ++ capture
  | .favorite => lit "User's favorite " ++ groupAt groups 0 ++ lit " is " ++ strip (groupAt groups 1)
  | .userAttribute => lit "User's " ++ groupAt groups 0 ++ lit " is " ++ capture
  | .selfDescription => lit "User describes themselves as " ++ capture
  | .preference => lit "User likes " ++ capture
  | .dislike => lit "User dislikes " ++ capture
  | .goal | .durationPreference => lit "User wants to " ++ capture

/-- What a pattern makes of a text. -/
def extractOne (u : Unicode) (text : Str) (p : Pattern CodePoint × FactKind) : Option (Str × FactKind) :=
  (search p.1 text).bind fun groups =>
    (captureOf p.2 groups).bind fun capture =>
      let capture :=
        if p.2 = .userAttribute ∨ p.2 = .selfDescription then firstClause u.lower clauseJoiners capture
        else capture
      if capture.length < 2 then none else some (renderFact p.2 groups capture, p.2)

/-- The duration that a text asks for. -/
def extractDuration (u : Unicode) (text : Str) : Option (Str × FactKind) :=
  (search (durationPattern u) text).map fun groups =>
    (lit "User requested a " ++ groupAt groups 0 ++ lit " " ++ groupAt groups 1 ++ lit " duration",
      .durationPreference)

/-- `_extract`. -/
def extractFacts (u : Unicode) (utterance : Str) : List (Str × FactKind) :=
  let text := strip utterance
  (factPatterns u).filterMap (extractOne u text) ++ (extractDuration u text).toList

/-! ## The memory -/

/-- `Fact`. -/
structure Fact where
  text : Str
  kind : FactKind
  count : Nat
deriving DecidableEq, Repr

/-- What a fact is kept under. -/
def factKey (u : Unicode) (text : Str) : Str := u.lower (strip text)

/-- The loop of `remember`. -/
def rememberFact (u : Unicode) (facts : Dict Str Fact) (fact : Str × FactKind) : Dict Str Fact :=
  let key := factKey u fact.1
  match Dict.get? facts key with
  | some known =>
      Dict.set facts key { known with
        count := known.count + 1
        kind := if fact.2 = .dislike ∧ known.kind = .preference then .dislike else known.kind }
  | none => Dict.set facts key ⟨strip fact.1, fact.2, 1⟩

/-- `remember`: the memory, and the texts that are returned. -/
def FactMemory.remember (u : Unicode) (facts : Dict Str Fact) (utterance : Str) :
    Dict Str Fact × List Str :=
  if utterance = [] then (facts, [])
  else
    let extracted := extractFacts u utterance
    (extracted.foldl (rememberFact u) facts, extracted.map fun fact => strip fact.1)

/-- One utterance. -/
def hear (u : Unicode) (facts : Dict Str Fact) (utterance : Str) : Dict Str Fact :=
  (FactMemory.remember u facts utterance).1

/-! ## Counting -/

section

variable {u : Unicode}

/-- How often a fact was stated. -/
def countOf (facts : Dict Str Fact) (key : Str) : Nat := ((Dict.get? facts key).map Fact.count).getD 0

/-- A fact is set under its key. -/
theorem rememberFact_eq_set (u : Unicode) (facts : Dict Str Fact) (fact : Str × FactKind) :
    ∃ kept : Fact, rememberFact u facts fact = Dict.set facts (factKey u fact.1) kept ∧
      kept.count = countOf facts (factKey u fact.1) + 1 := by
  rw [rememberFact, countOf]
  split
  · rename_i known hknown
    exact ⟨_, rfl, by rw [hknown]; rfl⟩
  · rename_i hnone
    exact ⟨_, rfl, by rw [hnone]; rfl⟩

theorem countOf_rememberFact (facts : Dict Str Fact) (fact : Str × FactKind) (key : Str) :
    countOf (rememberFact u facts fact) key =
      countOf facts key + if factKey u fact.1 = key then 1 else 0 := by
  obtain ⟨kept, hset, hcount⟩ := rememberFact_eq_set u facts fact
  rw [hset, countOf]
  split
  · rename_i hkey
    rw [← hkey, Dict.get?_set_self]
    exact hcount
  · rename_i hkey
    rw [Dict.get?_set_of_ne _ hkey]
    rfl

theorem countOf_foldl (extracted : List (Str × FactKind)) (facts : Dict Str Fact) (key : Str) :
    countOf (extracted.foldl (rememberFact u) facts) key =
      countOf facts key + (extracted.map fun fact => factKey u fact.1).count key := by
  induction extracted generalizing facts with
  | nil => rfl
  | cons fact extracted ih =>
      rw [List.foldl_cons, ih, countOf_rememberFact, List.map_cons, List.count_cons, Nat.add_assoc]
      simp only [beq_iff_eq, Nat.add_comm]

theorem mem_keys_rememberFact {facts : Dict Str Fact} {fact : Str × FactKind} {key : Str} :
    key ∈ (rememberFact u facts fact).map Prod.fst ↔
      key ∈ facts.map Prod.fst ∨ key = factKey u fact.1 := by
  obtain ⟨kept, hset, -⟩ := rememberFact_eq_set u facts fact
  rw [hset, Dict.keys_set]
  split
  · rename_i hknown
    constructor
    · exact .inl
    · rintro (hkey | rfl)
      · exact hkey
      · exact hknown
  · rw [List.mem_append, List.mem_singleton]

theorem mem_keys_foldl_rememberFact {extracted : List (Str × FactKind)} {facts : Dict Str Fact}
    {key : Str} :
    key ∈ (extracted.foldl (rememberFact u) facts).map Prod.fst ↔
      key ∈ facts.map Prod.fst ∨ ∃ fact ∈ extracted, factKey u fact.1 = key := by
  induction extracted generalizing facts with
  | nil => simp
  | cons fact extracted ih =>
      rw [List.foldl_cons, ih, mem_keys_rememberFact, List.exists_mem_cons_iff, or_assoc,
        eq_comm (a := key)]

/-- Nothing is extracted from nothing. -/
theorem extractFacts_nil : extractFacts u [] = [] := by rfl

theorem hear_eq (facts : Dict Str Fact) (utterance : Str) :
    hear u facts utterance = (extractFacts u utterance).foldl (rememberFact u) facts := by
  rw [hear, FactMemory.remember]
  split
  · rename_i hnil
    rw [hnil, extractFacts_nil]
    rfl
  · rfl

/-- The facts that are kept after some utterances are those that they state. -/
theorem mem_keys_run {us : List Str} {facts : Dict Str Fact} {key : Str} :
    key ∈ (run (hear u) facts us).map Prod.fst ↔
      key ∈ facts.map Prod.fst ∨ ∃ v ∈ us, ∃ fact ∈ extractFacts u v, factKey u fact.1 = key := by
  induction us generalizing facts with
  | nil => simp
  | cons v us ih =>
      rw [run_cons, ih, hear_eq, mem_keys_foldl_rememberFact, List.exists_mem_cons_iff, or_assoc]

/-! ## What a fact says -/

/-- What was said to be liked. -/
def liked (u : Unicode) (utterance : Str) : Option Str :=
  (search (preferencePattern u) (strip utterance)).bind (captureOf .preference)

/-- What was said not to be liked. -/
def disliked (u : Unicode) (utterance : Str) : Option Str :=
  (search (dislikePattern u) (strip utterance)).bind (captureOf .dislike)

/-- A capture is not empty and has no white space around it. -/
theorem captureOf_spec {kind : FactKind} {groups : List Str} {capture : Str}
    (h : captureOf kind groups = some capture) : strip capture = capture ∧ 2 ≤ capture.length := by
  rw [captureOf, Option.ite_none_left_eq_some] at h
  obtain ⟨hlength, hcapture⟩ := h
  rw [not_or, not_lt] at hlength
  have hstrip : strip capture = capture := by
    rw [← Option.some.inj hcapture]
    split
    · exact strip_strip _
    · exact strip_strip _
  rw [Option.some.inj hcapture] at hlength
  exact ⟨hstrip, hlength.1⟩

theorem mem_extractFacts {v : Str} {fact : Str × FactKind} :
    fact ∈ extractFacts u v ↔
      (∃ p ∈ factPatterns u, extractOne u (strip v) p = some fact) ∨
        extractDuration u (strip v) = some fact := by
  rw [extractFacts, List.mem_append, List.mem_filterMap, Option.mem_toList]

theorem extractOne_cases {text : Str} {p : Pattern CodePoint × FactKind} {fact : Str × FactKind}
    (h : extractOne u text p = some fact) :
    ∃ groups capture, fact = (renderFact p.2 groups capture, p.2) := by
  obtain ⟨groups, -, h⟩ := Option.bind_eq_some_iff.1 h
  obtain ⟨capture, -, h⟩ := Option.bind_eq_some_iff.1 h
  rw [Option.ite_none_left_eq_some] at h
  exact ⟨groups, _, (Option.some.inj h.2).symm⟩

theorem likes_text (x : Str) : lit "User likes " ++ x = FactKind.preference.stem ++ 32 :: x := by
  have hlikes : lit "User likes " = lit "User likes" ++ [32] := by decide +kernel
  rw [hlikes, List.append_assoc]
  rfl

theorem dislikes_text (x : Str) : lit "User dislikes " ++ x = FactKind.dislike.stem ++ 32 :: x := by
  have hdislikes : lit "User dislikes " = lit "User dislikes" ++ [32] := by decide +kernel
  rw [hdislikes, List.append_assoc]
  rfl

/-- A text begins as its first part does. -/
theorem exists_rest {s stem : Str} (more : Str) (h : s = stem ++ 32 :: more) (t : Str) :
    ∃ rest, s ++ t = stem ++ 32 :: rest :=
  ⟨more ++ t, by rw [h, List.append_assoc, List.cons_append]⟩

/-- A text begins with what its kind says first. -/
theorem renderFact_stem (kind : FactKind) (groups : List Str) (capture : Str)
    (h : kind ≠ .durationPreference) :
    ∃ rest, renderFact kind groups capture = kind.stem ++ 32 :: rest := by
  cases kind with
  | userName => exact exists_rest (lit "name is ") (by decide +kernel) capture
  | preference => exact ⟨capture, likes_text capture⟩
  | dislike => exact ⟨capture, dislikes_text capture⟩
  | goal => exact exists_rest (lit "to ") (by decide +kernel) capture
  | favorite =>
      rw [renderFact, List.append_assoc, List.append_assoc]
      exact exists_rest (lit "favorite ") (by decide +kernel) _
  | userAttribute =>
      rw [renderFact, List.append_assoc, List.append_assoc]
      exact exists_rest [] (by decide +kernel) _
  | selfDescription => exact exists_rest (lit "themselves as ") (by decide +kernel) capture
  | durationPreference => exact absurd rfl h

theorem kind_ne_duration {p : Pattern CodePoint × FactKind} (h : p ∈ factPatterns u) :
    p.2 ≠ .durationPreference := by
  simp only [factPatterns, List.mem_cons, List.not_mem_nil, or_false] at h
  rcases h with rfl | rfl | rfl | rfl | rfl | rfl | rfl | rfl | rfl <;> simp

theorem extractFacts_stem {v : Str} {fact : Str × FactKind} (h : fact ∈ extractFacts u v) :
    ∃ rest, fact.1 = fact.2.stem ++ 32 :: rest := by
  rcases mem_extractFacts.1 h with ⟨p, hp, hone⟩ | hduration
  · obtain ⟨groups, capture, rfl⟩ := extractOne_cases hone
    exact renderFact_stem p.2 groups capture (kind_ne_duration hp)
  · obtain ⟨groups, -, rfl⟩ := Option.map_eq_some_iff.1 hduration
    dsimp only
    rw [List.append_assoc, List.append_assoc, List.append_assoc]
    exact exists_rest (lit "a ") (by decide +kernel) _

/-- The pattern of what is liked, or of what is not liked. -/
def tastePattern (u : Unicode) : FactKind → Pattern CodePoint
  | .dislike => dislikePattern u
  | _ => preferencePattern u

/-- What was said to be liked, or not to be liked. -/
def tasted (u : Unicode) (kind : FactKind) (utterance : Str) : Option Str :=
  (search (tastePattern u kind) (strip utterance)).bind (captureOf kind)

/-- The kinds of `liked` and `disliked`. -/
def FactKind.IsTaste (kind : FactKind) : Prop := kind = .preference ∨ kind = .dislike

theorem tastePattern_mem {kind : FactKind} (h : kind.IsTaste) :
    (tastePattern u kind, kind) ∈ factPatterns u := by
  rcases h with rfl | rfl <;> simp [factPatterns, tastePattern]

/-- One pattern gives the facts of such a kind. -/
theorem pattern_of_taste {p : Pattern CodePoint × FactKind} (hp : p ∈ factPatterns u)
    (h : p.2.IsTaste) : p.1 = tastePattern u p.2 := by
  revert h
  simp only [factPatterns, List.mem_cons, List.not_mem_nil, or_false] at hp
  rcases hp with rfl | rfl | rfl | rfl | rfl | rfl | rfl | rfl | rfl <;>
    simp [FactKind.IsTaste, tastePattern]

theorem renderFact_taste {kind : FactKind} (h : kind.IsTaste) (groups : List Str) (x : Str) :
    renderFact kind groups x = kind.stem ++ 32 :: x := by
  rcases h with rfl | rfl
  · exact likes_text x
  · exact dislikes_text x

/-- What is extracted without a look at its first clause. -/
theorem extractOne_eq {text : Str} {r : Pattern CodePoint} {kind : FactKind}
    (hkind : ¬ (kind = .userAttribute ∨ kind = .selfDescription)) {fact : Str × FactKind} :
    extractOne u text (r, kind) = some fact ↔
      ∃ groups, search r text = some groups ∧ ∃ capture, captureOf kind groups = some capture ∧
        fact = (renderFact kind groups capture, kind) := by
  rw [extractOne, Option.bind_eq_some_iff]
  refine exists_congr fun groups => and_congr_right fun _ => ?_
  rw [Option.bind_eq_some_iff]
  refine exists_congr fun capture => and_congr_right fun hcapture => ?_
  rw [if_neg hkind, if_neg (not_lt.2 (captureOf_spec hcapture).2), Option.some_inj, eq_comm]

/-- The facts of such a kind. -/
theorem taste_mem_iff {kind : FactKind} (h : kind.IsTaste) {v text : Str} :
    (text, kind) ∈ extractFacts u v ↔ ∃ x ∈ tasted u kind v, text = kind.stem ++ 32 :: x := by
  have hkind : ¬ (kind = .userAttribute ∨ kind = .selfDescription) := by
    rcases h with rfl | rfl <;> decide
  rw [mem_extractFacts]
  constructor
  · rintro (⟨p, hp, hone⟩ | hduration)
    · obtain ⟨groups', capture', heq⟩ := extractOne_cases hone
      have hp2 : p.2 = kind := (congrArg Prod.snd heq).symm
      have hpair : p = (tastePattern u kind, kind) :=
        Prod.ext (by rw [pattern_of_taste hp (hp2 ▸ h), hp2]) hp2
      rw [hpair, extractOne_eq hkind] at hone
      obtain ⟨groups, hgroups, x, hx, htext⟩ := hone
      refine ⟨x, Option.bind_eq_some_iff.2 ⟨groups, hgroups, hx⟩, ?_⟩
      rw [← renderFact_taste h groups x]
      exact congrArg Prod.fst htext
    · obtain ⟨groups, -, heq⟩ := Option.map_eq_some_iff.1 hduration
      have hk : kind = .durationPreference := (congrArg Prod.snd heq).symm
      rw [hk] at h
      rcases h with h | h <;> cases h
  · rintro ⟨x, hx, rfl⟩
    obtain ⟨groups, hgroups, hx⟩ := Option.bind_eq_some_iff.1 hx
    refine .inl ⟨_, tastePattern_mem h, (extractOne_eq hkind).2 ⟨groups, hgroups, x, hx, ?_⟩⟩
    rw [renderFact_taste h]

theorem tasted_spec {kind : FactKind} {v x : Str} (h : x ∈ tasted u kind v) :
    strip x = x ∧ 2 ≤ x.length := by
  obtain ⟨groups, -, hx⟩ := Option.bind_eq_some_iff.1 h
  exact captureOf_spec hx

/-- The capture of one group is a stretch of the text. -/
theorem captureOf_said {r : Pattern CodePoint} (hr : r.balanced = true) (hcount : r.groupCount = 1)
    {kind : FactKind} (hkind : kind ≠ .userAttribute) {text : Str} {groups : List Str}
    (hgroups : search r text = some groups) {x : Str} (hx : captureOf kind groups = some x) :
    x <:+: text := by
  obtain ⟨g, rfl⟩ := List.length_eq_one_iff.1 ((search_length hr hgroups).trans hcount)
  have hg : g <:+: text := search_group hgroups g (List.mem_singleton_self g)
  rw [captureOf, Option.ite_none_left_eq_some, if_neg hkind] at hx
  have hjoined : (lit " ").intercalate ([g].filter fun g => g ≠ []) = g := by
    cases g with
    | nil => rfl
    | cons c g => simp [List.intercalate]
  rw [hjoined] at hx
  rw [← Option.some.inj hx.2]
  exact (strip_isInfix g).trans hg

/-- What is kept as liked, or as disliked, was said. -/
theorem tasted_said {kind : FactKind} (h : kind.IsTaste) {v x : Str} (hx : x ∈ tasted u kind v) :
    x <:+: v := by
  obtain ⟨groups, hgroups, hcapture⟩ := Option.bind_eq_some_iff.1 hx
  refine List.IsInfix.trans ?_ (strip_isInfix v)
  rcases h with rfl | rfl
  · exact captureOf_said rfl rfl (by decide) hgroups hcapture
  · exact captureOf_said rfl rfl (by decide) hgroups hcapture

/-! ## Keys -/

/-- What the key of a text is behind the first words. -/
def keyTail (u : Unicode) (rest : Str) : Str :=
  if rest.rdropWhile isSpace = [] then [] else 32 :: u.lower (rest.rdropWhile isSpace)

theorem rdropWhile_append {p : CodePoint → Bool} (s t : Str) :
    (s ++ t).rdropWhile p = if t.rdropWhile p = [] then s.rdropWhile p else s ++ t.rdropWhile p := by
  have hempty : (t.reverse.dropWhile p).isEmpty = true ↔ t.rdropWhile p = [] := by
    rw [List.isEmpty_iff, List.rdropWhile, List.reverse_eq_nil_iff]
  rw [List.rdropWhile, List.reverse_append, List.dropWhile_append, if_congr hempty rfl rfl]
  split
  · rfl
  · rw [List.reverse_append, List.reverse_reverse]
    rfl

/-- `str.lower` does to ASCII what it is for. -/
def LowersAscii (lower : Str → Str) : Prop :=
  ∀ s : Str, (∀ c ∈ s, c.val < 128) → lower s = lowerLetters s

/-- The first words of a kind, in small letters. -/
def FactKind.lowerStem (kind : FactKind) : Str := lowerLetters kind.stem

theorem stem_ends (kind : FactKind) :
    kind.stem.dropWhile isSpace = kind.stem ∧ kind.stem.rdropWhile isSpace = kind.stem := by
  cases kind <;> decide

/-- The text of a fact without the white space around it. -/
theorem strip_stem (kind : FactKind) (rest : Str) :
    strip (kind.stem ++ 32 :: rest) =
      if rest.rdropWhile isSpace = [] then kind.stem else kind.stem ++ 32 :: rest.rdropWhile isSpace := by
  have hfirst : (kind.stem ++ 32 :: rest).dropWhile isSpace = kind.stem ++ 32 :: rest := by
    have hne : kind.stem ≠ [] := by cases kind <;> decide
    rw [List.dropWhile_append, (stem_ends kind).1, if_neg (by simpa using hne)]
  have hspace : ([32] : Str).rdropWhile isSpace = [] := by decide
  rw [strip, hfirst, List.append_cons, rdropWhile_append]
  split
  · rw [rdropWhile_append, if_pos hspace, (stem_ends kind).2]
  · rw [List.append_assoc]
    rfl

theorem factKey_eq (hascii : LowersAscii u.lower) (hsplits : SplitsAtSpaces u.lower) (kind : FactKind)
    (rest : Str) : factKey u (kind.stem ++ 32 :: rest) = kind.lowerStem ++ keyTail u rest := by
  have hprintable : Printable kind.stem := by cases kind <;> decide
  have hstem : u.lower kind.stem = kind.lowerStem :=
    hascii _ fun c hc => Nat.lt_of_le_of_lt (hprintable c hc).2 (by decide)
  rw [factKey, strip_stem, keyTail]
  split
  · rw [hstem, List.append_nil]
  · rw [hsplits _ _ _ (by decide), hstem]

/-- No first words begin with others. -/
theorem lowerStem_inj {kind kind' : FactKind} (h : kind.lowerStem <+: kind'.lowerStem) :
    kind.lowerStem = kind'.lowerStem := by
  revert h
  cases kind <;> cases kind' <;> decide

/-- Keys of a kind are not those of another, if their first words differ. -/
theorem lowerStem_eq_of_append {kind kind' : FactKind} {s t : Str}
    (h : kind.lowerStem ++ s = kind'.lowerStem ++ t) : kind.lowerStem = kind'.lowerStem ∧ s = t := by
  have hstem : kind.lowerStem = kind'.lowerStem := by
    rcases List.prefix_or_prefix_of_prefix (List.prefix_append _ s) (h ▸ List.prefix_append _ t) with
      hpre | hpre
    · exact lowerStem_inj hpre
    · exact (lowerStem_inj hpre).symm
  rw [hstem, List.append_cancel_left_eq] at h
  exact ⟨hstem, h⟩

theorem eq_of_lowerStem {kind kind' : FactKind} (hkind : kind.IsTaste)
    (h : kind'.lowerStem = kind.lowerStem) : kind' = kind := by
  revert h
  rcases hkind with rfl | rfl <;> cases kind' <;> decide

/-- The tail of a capture. -/
theorem keyTail_of_strip {x : Str} (h : strip x = x ∧ 2 ≤ x.length) : keyTail u x = 32 :: u.lower x := by
  have hend : x.rdropWhile isSpace = x := by
    have := List.rdropWhile_idempotent (p := isSpace) (l := x.dropWhile isSpace)
    rw [← strip, h.1] at this
    exact this
  rw [keyTail, hend, if_neg]
  rintro rfl
  exact absurd h.2 (by decide)

/-! ## Contradictions -/

/-- The memory has this fact. -/
def Holds (u : Unicode) (facts : Dict Str Fact) (text : Str) : Prop :=
  factKey u text ∈ facts.map Prod.fst

/-- Nothing is both liked and disliked. -/
def Consistent (u : Unicode) (facts : Dict Str Fact) : Prop :=
  ∀ x : Str, ¬ (Holds u facts (lit "User likes " ++ x) ∧ Holds u facts (lit "User dislikes " ++ x))

/-- The count of no fact grows by more than one. -/
def CountsOnce (u : Unicode) (facts : Dict Str Fact) (utterance : Str) : Prop :=
  ∀ key, countOf (hear u facts utterance) key ≤ countOf facts key + 1

/-- An utterance states no fact twice. -/
def StatesOnce (u : Unicode) (utterance : Str) : Prop :=
  ((extractFacts u utterance).map fun fact => factKey u fact.1).Nodup

theorem countsOnce_iff (facts : Dict Str Fact) (utterance : Str) :
    CountsOnce u facts utterance ↔ StatesOnce u utterance := by
  rw [StatesOnce, List.nodup_iff_count_le_one]
  refine forall_congr' fun key => ?_
  rw [hear_eq, countOf_foldl, Nat.add_le_add_iff_left]

/-- The first utterance that counts a fact twice is one that states it twice. -/
theorem meets_countsOnce_iff (us : List Str) (facts : Dict Str Fact) :
    Meets (hear u) (CountsOnce u) facts us ↔ ∀ v ∈ us, StatesOnce u v := by
  induction us generalizing facts with
  | nil => simp [Meets]
  | cons v us ih => rw [Meets, ih, countsOnce_iff, List.forall_mem_cons]

theorem Consistent.of_hear {facts : Dict Str Fact} {v : Str} (h : Consistent u (hear u facts v)) :
    Consistent u facts := by
  have hkept : ∀ {text}, Holds u facts text → Holds u (hear u facts v) text := by
    intro text hholds
    rw [Holds, hear_eq, mem_keys_foldl_rememberFact]
    exact .inl hholds
  rintro x ⟨hlikes, hdislikes⟩
  exact h x ⟨hkept hlikes, hkept hdislikes⟩

/-- Facts are not dropped, so a contradiction stays. -/
theorem always_consistent_iff (us : List Str) (facts : Dict Str Fact) :
    Always (hear u) (Consistent u) facts us ↔ Consistent u (run (hear u) facts us) := by
  induction us generalizing facts with
  | nil => exact Iff.rfl
  | cons v us ih =>
      rw [Always, ih, run_cons]
      refine and_iff_right_of_imp fun h => ?_
      exact ((ih (hear u facts v)).2 h).first.of_hear

section

variable (hascii : LowersAscii u.lower) (hsplits : SplitsAtSpaces u.lower)

include hascii hsplits

/-- A memory has what was said to be liked, or not to be liked, up to the case of letters. -/
theorem holds_run_iff {kind : FactKind} (hkind : kind.IsTaste) (us : List Str) (x : Str) :
    Holds u (run (hear u) [] us) (kind.stem ++ 32 :: x) ↔
      ∃ v ∈ us, ∃ y ∈ tasted u kind v, 32 :: u.lower y = keyTail u x := by
  rw [Holds, mem_keys_run, factKey_eq hascii hsplits]
  constructor
  · rintro (hnil | ⟨v, hv, fact, hfact, hkey⟩)
    · cases hnil
    · obtain ⟨rest, hrest⟩ := extractFacts_stem hfact
      rw [hrest, factKey_eq hascii hsplits] at hkey
      obtain ⟨hstem, htail⟩ := lowerStem_eq_of_append hkey
      have hfactKind := eq_of_lowerStem hkind hstem
      rw [hfactKind] at hrest
      have hpair : fact = (kind.stem ++ 32 :: rest, kind) := Prod.ext hrest hfactKind
      rw [hpair, taste_mem_iff hkind] at hfact
      obtain ⟨y, hy, heq⟩ := hfact
      rw [List.append_cancel_left_eq, List.cons_inj_right] at heq
      rw [heq, keyTail_of_strip (tasted_spec hy)] at htail
      exact ⟨v, hv, y, hy, htail⟩
  · rintro ⟨v, hv, y, hy, htail⟩
    refine .inr ⟨v, hv, _, (taste_mem_iff hkind).2 ⟨y, hy, rfl⟩, ?_⟩
    rw [factKey_eq hascii hsplits, keyTail_of_strip (tasted_spec hy), htail]

theorem holds_likes_iff (us : List Str) (x : Str) :
    Holds u (run (hear u) [] us) (lit "User likes " ++ x) ↔
      ∃ v ∈ us, ∃ y ∈ liked u v, 32 :: u.lower y = keyTail u x := by
  rw [likes_text]
  exact holds_run_iff hascii hsplits (.inl rfl) us x

theorem holds_dislikes_iff (us : List Str) (x : Str) :
    Holds u (run (hear u) [] us) (lit "User dislikes " ++ x) ↔
      ∃ v ∈ us, ∃ y ∈ disliked u v, 32 :: u.lower y = keyTail u x := by
  rw [dislikes_text]
  exact holds_run_iff hascii hsplits (.inr rfl) us x

/-- Nothing that was said to be liked was said not to be liked, up to the case of letters. -/
theorem consistent_run_iff (us : List Str) :
    Consistent u (run (hear u) [] us) ↔
      ∀ v ∈ us, ∀ w ∈ us, ∀ x ∈ liked u v, ∀ y ∈ disliked u w, u.lower x ≠ u.lower y := by
  constructor
  · intro h v hv w hw x hx y hy hlower
    have htail : keyTail u x = 32 :: u.lower x := by
      have hliked : x ∈ tasted u .preference v := hx
      exact keyTail_of_strip (tasted_spec hliked)
    refine h x ⟨?_, ?_⟩
    · rw [holds_likes_iff hascii hsplits, htail]
      exact ⟨v, hv, x, hx, rfl⟩
    · rw [holds_dislikes_iff hascii hsplits, htail, hlower]
      exact ⟨w, hw, y, hy, rfl⟩
  · rintro h x ⟨hlikes, hdislikes⟩
    obtain ⟨v, hv, y, hy, htail⟩ := (holds_likes_iff hascii hsplits us x).1 hlikes
    obtain ⟨w, hw, z, hz, htail'⟩ := (holds_dislikes_iff hascii hsplits us x).1 hdislikes
    exact h v hv w hw y hy z hz (List.cons_inj_right 32 |>.1 (htail.trans htail'.symm))

end

/-- For every sequence of utterances: nothing is liked and disliked at any time and no count grows by
more than one, if and only if nothing is said to be liked by one utterance and not to be liked by another,
and none states a fact twice. -/
theorem preferences_iff (hascii : LowersAscii u.lower) (hsplits : SplitsAtSpaces u.lower)
    (us : List Str) :
    (Always (hear u) (Consistent u) [] us ∧ Meets (hear u) (CountsOnce u) [] us) ↔
      (∀ v ∈ us, ∀ w ∈ us, ∀ x ∈ liked u v, ∀ y ∈ disliked u w, u.lower x ≠ u.lower y) ∧
        ∀ v ∈ us, StatesOnce u v := by
  rw [always_consistent_iff, consistent_run_iff hascii hsplits, meets_countsOnce_iff]

end

/-- Characters of which only those of ASCII are letters and digits. -/
def asciiUnicode : Unicode where
  lower := lowerLetters
  isAlnum c := (48 ≤ c.val && c.val ≤ 57) || isLetter c
  isDecimal c := 48 ≤ c.val && c.val ≤ 57

/-- Somebody who likes one thing and does not like another. -/
def jazzAndBlues : List Str := [lit "I like jazz", lit "I don't like blues."]

/-- It is consistent, and every fact is counted once. -/
theorem jazzAndBlues_consistent :
    Always (hear asciiUnicode) (Consistent asciiUnicode) [] jazzAndBlues ∧
      Meets (hear asciiUnicode) (CountsOnce asciiUnicode) [] jazzAndBlues := by
  refine (preferences_iff (fun _ _ => rfl) splitsAtSpaces_lowerLetters jazzAndBlues).2 ⟨?_, ?_⟩
  · decide +kernel
  · simp only [StatesOnce]
    decide +kernel

/-- Somebody who likes jazz, and then does not, and somebody who says his name. -/
theorem jazz_contradicted :
    ¬ Always (hear asciiUnicode) (Consistent asciiUnicode) []
        [lit "I like jazz", lit "I don't like jazz"] ∧
      ¬ Meets (hear asciiUnicode) (CountsOnce asciiUnicode) [] [lit "my name is Alex"] := by
  have hkeys : (run (hear asciiUnicode) [] [lit "I like jazz", lit "I don't like jazz"]).map Prod.fst =
      [lit "user likes jazz", lit "user dislikes jazz"] := by decide +kernel
  have hcount : countOf (hear asciiUnicode [] (lit "my name is Alex")) (lit "user's name is alex") = 2 := by
    decide +kernel
  constructor
  · intro h
    refine h.last (lit "jazz") ⟨?_, ?_⟩
    · rw [Holds, hkeys]
      decide +kernel
    · rw [Holds, hkeys]
      decide +kernel
  · intro h
    have honce := h.1 (lit "user's name is alex")
    rw [hcount] at honce
    exact absurd honce (by decide)

end ShugoCore
