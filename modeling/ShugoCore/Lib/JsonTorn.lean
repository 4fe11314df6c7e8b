import ShugoCore.Lib.JsonReading

/-!
# Texts that were cut

A file of documents, one on each line, is cut at some character and written to
again.  The cut document and what follows it on its line are then read as one
text.  That text is no document: a cut string goes on to the next quote, a cut
number stops at the next brace, and an open bracket stays open.

`Tail` is what can follow the cut so that this holds: nothing, or a dictionary
whose first key begins with a letter.
-/

namespace Py

variable {φ : Type}

/-! ## Fuel -/

section

variable [FloatFormat φ]

/-- One more unit of fuel changes nothing that was read. -/
structure Grows (n : Nat) : Prop where
  value : ∀ {s : Str} {p : Json φ × Str}, parseValue n s = some p → parseValue (n + 1) s = some p
  elems : ∀ {s : Str} {p : List (Json φ) × Str}, parseElems n s = some p →
    parseElems (n + 1) s = some p
  members : ∀ {s : Str} {p : List (Str × Json φ) × Str}, parseMembers n s = some p →
    parseMembers (n + 1) s = some p

theorem Grows.elems_succ {n : Nat} (h : Grows (φ := φ) n) {s : Str} {p : List (Json φ) × Str}
    (hp : parseElems (n + 1) s = some p) : parseElems (n + 1 + 1) s = some p := by
  cases s with
  | nil => cases hp
  | cons c s =>
      rw [parseElems] at hp ⊢
      split_ifs at hp ⊢
      · exact hp
      · simp only [Option.bind_eq_bind, Option.bind_eq_some_iff] at hp ⊢
        obtain ⟨x, hx, xs, hxs, he⟩ := hp
        exact ⟨x, h.value hx, xs, h.elems hxs, he⟩

theorem Grows.members_succ {n : Nat} (h : Grows (φ := φ) n) {s : Str}
    {p : List (Str × Json φ) × Str} (hp : parseMembers (n + 1) s = some p) :
    parseMembers (n + 1 + 1) s = some p := by
  cases s with
  | nil => cases hp
  | cons c s =>
      rw [parseMembers] at hp ⊢
      split_ifs at hp ⊢
      · exact hp
      · simp only [Option.bind_eq_bind, Option.bind_eq_some_iff] at hp ⊢
        obtain ⟨k, hk, x, hx, ms, hms, he⟩ := hp
        exact ⟨k, hk, x, h.value hx, ms, h.members hms, he⟩

theorem Grows.value_succ {n : Nat} (h : Grows (φ := φ) n) {s : Str} {p : Json φ × Str}
    (hp : parseValue (n + 1) s = some p) : parseValue (n + 1 + 1) s = some p := by
  cases s with
  | nil => cases hp
  | cons c s =>
      rw [parseValue] at hp ⊢
      split_ifs at hp ⊢
      · exact hp
      · split at hp
        · cases hp
        · split_ifs at hp ⊢
          · exact hp
          · simp only [Option.bind_eq_bind, Option.bind_eq_some_iff] at hp ⊢
            obtain ⟨x, hx, xs, hxs, he⟩ := hp
            exact ⟨x, h.value hx, xs, h.elems hxs, he⟩
      · split at hp
        · cases hp
        · split_ifs at hp ⊢
          · exact hp
          · simp only [Option.bind_eq_bind, Option.bind_eq_some_iff] at hp ⊢
            obtain ⟨k, hk, x, hx, ms, hms, he⟩ := hp
            exact ⟨k, hk, x, h.value hx, ms, h.members hms, he⟩
      · exact hp

theorem grows (n : Nat) : Grows (φ := φ) n := by
  induction n with
  | zero => exact ⟨nofun, nofun, nofun⟩
  | succ n ih => exact ⟨ih.value_succ, ih.elems_succ, ih.members_succ⟩

theorem parseValue_le {m n : Nat} (h : m ≤ n) {s : Str} {p : Json φ × Str}
    (hp : parseValue m s = some p) : parseValue n s = some p := by
  induction h with
  | refl => exact hp
  | step _ ih => exact (grows _).value ih

/-- Whatever the fuel, what is left after a document is what was written after it. -/
theorem rest_of_render {sep : Separators} (h : sep.Standard) {j x : Json φ} {n : Nat} {s r : Str}
    (hs : Stops s) (hp : parseValue n (render sep j ++ s) = some (x, r)) : r = s := by
  have hread := parseValue_render h j _ (Nat.le_refl _) s hs
  have hp := parseValue_le (Nat.le_max_left n ((render sep j).length + 1)) hp
  have hread := parseValue_le (Nat.le_max_right n ((render sep j).length + 1)) hread
  rw [hread] at hp
  exact (congrArg Prod.snd (Option.some.inj hp)).symm

end

/-! ## The end of a string -/

/-- The text after the first quote that no backslash escapes. -/
def afterQuote : Str → Option Str
  | [] => none
  | c :: s =>
      if c = 34 then some s
      else if c = 92 then
        match s with
        | [] => none
        | _ :: s => afterQuote s
      else afterQuote s

theorem hexValue_ne {c : CodePoint} {d : Nat} (h : hexValue c = some d) : c ≠ 34 ∧ c ≠ 92 := by
  have hquote : hexValue 34 = none := by decide
  have hslash : hexValue 92 = none := by decide
  constructor
  · rintro rfl
    rw [hquote] at h
    cases h
  · rintro rfl
    rw [hslash] at h
    cases h

theorem afterQuote_cons {c : CodePoint} (h : c ≠ 34 ∧ c ≠ 92) (s : Str) :
    afterQuote (c :: s) = afterQuote s := by
  cases s <;> simp [afterQuote, h.1, h.2]

theorem afterQuote_quote (s : Str) : afterQuote (34 :: s) = some s := by
  cases s <;> simp [afterQuote]

theorem afterQuote_escape (e : CodePoint) (s : Str) :
    afterQuote (92 :: e :: s) = afterQuote s := by
  simp [afterQuote]

theorem afterQuote_scanHex {s r : Str} {c : CodePoint} (h : scanHex s = some (c, r)) :
    afterQuote s = afterQuote r := by
  unfold scanHex at h
  split at h
  · rename_i a b c d t
    simp only [Option.bind_eq_bind, Option.bind_eq_some_iff, Option.pure_def, Option.some.injEq,
      Prod.mk.injEq] at h
    obtain ⟨_, ha, _, hb, _, hc, _, hd, -, rfl⟩ := h
    rw [afterQuote_cons (hexValue_ne ha), afterQuote_cons (hexValue_ne hb),
      afterQuote_cons (hexValue_ne hc), afterQuote_cons (hexValue_ne hd)]
  · cases h

theorem afterQuote_scanChar {c b : CodePoint} {s r : Str} (hb : b ≠ 34)
    (h : scanChar (b :: s) = some (c, r)) : afterQuote (b :: s) = afterQuote r := by
  rcases scanChar_cases h with ⟨he, hc⟩ | ⟨e, he, -⟩ | ⟨t, he, ht⟩
  · obtain ⟨rfl, rfl⟩ := List.cons.inj he
    exact afterQuote_cons ⟨hb, hc⟩ s
  · rw [he, afterQuote_escape]
  · rw [he, afterQuote_escape]
    rcases scanUnicode_cases ht with ⟨d, u, l, hd, -, hl, -⟩ | ⟨hc, -⟩
    · obtain ⟨v, rfl, hv, -⟩ := scanLow_cases hl
      rw [afterQuote_scanHex hd, afterQuote_escape, afterQuote_scanHex hv]
    · exact afterQuote_scanHex hc

/-- A string ends at the first quote that is not escaped. -/
theorem afterQuote_scanString {n : Nat} {s t r : Str} (h : scanString n s = some (t, r)) :
    afterQuote s = some r := by
  induction n generalizing s t with
  | zero => cases h
  | succ n ih =>
      cases s with
      | nil => cases h
      | cons b s =>
          rw [scanString] at h
          split at h
          · rename_i hb
            obtain ⟨-, rfl⟩ := Prod.mk.inj (Option.some.inj h)
            rw [hb]
            cases s <;> rfl
          · rename_i hb
            simp only [Option.bind_eq_bind, Option.bind_eq_some_iff, Option.pure_def,
              Option.some.injEq, Prod.mk.injEq, Prod.exists] at h
            obtain ⟨d, u, hu, ds, v, hv, -, rfl⟩ := h
            rw [afterQuote_scanChar hb hu, ih hv]

/-- No quote of the text is unescaped.  A last backslash may escape what follows. -/
def Inside : Str → Prop
  | [] => True
  | [c] => c ≠ 34
  | c :: e :: s => c ≠ 34 ∧ if c = 92 then Inside s else Inside (e :: s)

theorem inside_cons {c : CodePoint} (h : c ≠ 34 ∧ c ≠ 92) (s : Str) : Inside (c :: s) ↔ Inside s := by
  cases s with
  | nil => simp [Inside, h.1]
  | cons e s => simp [Inside, h.1, h.2]

theorem inside_escape (e : CodePoint) (s : Str) : Inside (92 :: e :: s) ↔ Inside s := by
  simp [Inside]

theorem Inside.mono {p s : Str} (h : Inside s) (hp : p <+: s) : Inside p := by
  induction s using Inside.induct generalizing p with
  | case1 => rw [List.prefix_nil.1 hp]; trivial
  | case2 c =>
      cases p with
      | nil => trivial
      | cons b p =>
          obtain ⟨rfl, hrest⟩ := List.cons_prefix_cons.1 hp
          rw [List.prefix_nil.1 hrest]
          exact h
  | case3 c e s ih₂ ih₁ =>
      cases p with
      | nil => trivial
      | cons b p =>
          obtain ⟨rfl, htail⟩ := List.cons_prefix_cons.1 hp
          by_cases hb : b = 92
          · subst hb
            cases p with
            | nil => exact h.1
            | cons e' p =>
                obtain ⟨rfl, hrest⟩ := List.cons_prefix_cons.1 htail
                rw [inside_escape] at h ⊢
                exact ih₂ h hrest
          · have hne : b ≠ 34 ∧ b ≠ 92 := ⟨h.1, hb⟩
            rw [inside_cons hne] at h ⊢
            exact ih₁ h htail

theorem inside_unicodeEscape (n : Nat) (s : Str) : Inside (unicodeEscape n ++ s) ↔ Inside s := by
  have hall : ∀ d : Fin 16, hexDigit d.val ≠ 34 ∧ hexDigit d.val ≠ 92 := by decide
  have hdigit : ∀ m : Nat, hexDigit (m % 16) ≠ 34 ∧ hexDigit (m % 16) ≠ 92 := fun m =>
    hall ⟨m % 16, Nat.mod_lt _ (by decide)⟩
  rw [unicodeEscape, List.cons_append, List.cons_append, inside_escape]
  simp only [List.cons_append, List.nil_append, inside_cons (hdigit _)]

theorem inside_escapeChar (c : CodePoint) (s : Str) : Inside (escapeChar c ++ s) ↔ Inside s := by
  simp only [escapeChar]
  split
  · exact inside_escape _ s
  · rename_i hshort
    split_ifs
    · exact inside_cons (shortEscape_eq_none hshort) s
    · exact inside_unicodeEscape _ s
    · rw [List.append_assoc, inside_unicodeEscape, inside_unicodeEscape]

theorem inside_flatMap (t : Str) : Inside (t.flatMap escapeChar) := by
  induction t with
  | nil => trivial
  | cons c t ih => rw [List.flatMap_cons, inside_escapeChar]; exact ih

/-- A string that was cut goes on to the quote of the next key. -/
theorem afterQuote_inside {p : Str} (h : Inside p) (t : Str) :
    afterQuote (p ++ 123 :: 34 :: t) = some t := by
  have hnext : afterQuote (123 :: 34 :: t) = some t := by
    rw [afterQuote_cons (by decide), afterQuote_quote]
  induction p using Inside.induct with
  | case1 => exact hnext
  | case2 c =>
      by_cases hc : c = 92
      · subst hc
        rw [List.singleton_append, afterQuote_escape, afterQuote_quote]
      · rw [List.singleton_append, afterQuote_cons ⟨h, hc⟩, hnext]
  | case3 c e s ih₂ ih₁ =>
      by_cases hc : c = 92
      · subst hc
        rw [inside_escape] at h
        rw [List.cons_append, List.cons_append, afterQuote_escape, ih₂ h]
      · have hne : c ≠ 34 ∧ c ≠ 92 := ⟨h.1, hc⟩
        rw [inside_cons hne] at h
        rw [List.cons_append, afterQuote_cons hne, ih₁ h]

theorem afterQuote_inside_nil {p : Str} (h : Inside p) : afterQuote p = none := by
  induction p using Inside.induct with
  | case1 => rfl
  | case2 c =>
      have hc : c ≠ 34 := h
      simp [afterQuote, hc]
  | case3 c e s ih₂ ih₁ =>
      by_cases hc : c = 92
      · subst hc
        rw [inside_escape] at h
        rw [afterQuote_escape, ih₂ h]
      · have hne : c ≠ 34 ∧ c ≠ 92 := ⟨h.1, hc⟩
        rw [inside_cons hne] at h
        rw [afterQuote_cons hne, ih₁ h]

/-! ## Constants and numbers -/

/-- What was read is no brace. -/
def Spans (s r : Str) : Prop := ∃ u, s = u ++ r ∧ (123 : CodePoint) ∉ u

theorem Spans.refl (s : Str) : Spans s s := ⟨[], rfl, by simp⟩

theorem Spans.trans {s t r : Str} (h : Spans s t) (h' : Spans t r) : Spans s r := by
  obtain ⟨u, rfl, hu⟩ := h
  obtain ⟨v, rfl, hv⟩ := h'
  refine ⟨u ++ v, (List.append_assoc u v r).symm, ?_⟩
  rw [List.mem_append, not_or]
  exact ⟨hu, hv⟩

theorem Spans.cons {c : CodePoint} (h : c ≠ 123) (s : Str) : Spans (c :: s) s :=
  ⟨[c], rfl, by simpa using h.symm⟩

theorem spans_scanDigits (s : Str) : Spans s (scanDigits s).2 := by
  refine ⟨s.takeWhile isDigit, List.takeWhile_append_dropWhile.symm, fun hmem => ?_⟩
  exact absurd (List.mem_takeWhile_imp hmem) (by decide)

theorem spans_scanFrac (s : Str) : Spans s (scanFrac s).2 := by
  cases s with
  | nil => exact .refl []
  | cons c s =>
      rw [scanFrac]
      split
      · rename_i h
        exact (Spans.cons (by rw [h.1]; decide) s).trans (spans_scanDigits s)
      · exact .refl _

theorem spans_scanSign (s : Str) : Spans s (scanSign s).2 := by
  cases s with
  | nil => exact .refl []
  | cons c s =>
      rw [scanSign]
      split_ifs with h h'
      · exact Spans.cons (by rw [h]; decide) s
      · exact Spans.cons (by rw [h']; decide) s
      · exact .refl _

theorem spans_scanExp (s : Str) : Spans s (scanExp s).2 := by
  cases s with
  | nil => exact .refl []
  | cons c s =>
      dsimp only [scanExp]
      split
      · rename_i h
        have hc : c ≠ 123 := by rcases h.1 with rfl | rfl <;> decide
        exact (Spans.cons hc s).trans ((spans_scanSign s).trans (spans_scanDigits _))
      · exact .refl _

theorem spans_scanInt {s r : Str} {ds : List Nat} (h : scanInt s = some (ds, r)) : Spans s r := by
  cases s with
  | nil => cases h
  | cons c s =>
      rw [scanInt] at h
      split_ifs at h with hc
      · obtain ⟨-, rfl⟩ := Prod.mk.inj (Option.some.inj h)
        exact Spans.cons (by rw [hc]; decide) s
      · have hr : (scanDigits (c :: s)).2 = r := congrArg Prod.snd (Option.some.inj h)
        exact hr ▸ spans_scanDigits (c :: s)

theorem spans_scanMinus (s : Str) : Spans s (scanMinus s).2 := by
  cases s with
  | nil => exact .refl []
  | cons c s =>
      rw [scanMinus]
      split
      · rename_i h
        exact Spans.cons (by rw [h]; decide) s
      · exact .refl _

theorem spans_scanNumber {s r : Str} {l : Literal} (h : scanNumber s = some (l, r)) :
    Spans s r := by
  simp only [scanNumber, Option.bind_eq_bind, Option.bind_eq_some_iff, Option.pure_def,
    Option.some.injEq, Prod.mk.injEq, Prod.exists] at h
  obtain ⟨ds, t, ht, -, rfl⟩ := h
  have hint := (spans_scanMinus s).trans (spans_scanInt ht)
  exact hint.trans ((spans_scanFrac t).trans (spans_scanExp _))

theorem spans_constant {t s : Str} (ht : (123 : CodePoint) ∉ t) (h : t.isPrefixOf s = true) :
    Spans s (s.drop t.length) := by
  obtain ⟨r, rfl⟩ := List.isPrefixOf_iff_prefix.1 h
  exact ⟨t, by simp, ht⟩

theorem spans_parseAtom [FloatFormat φ] {s r : Str} {j : Json φ} (h : parseAtom s = some (j, r)) :
    Spans s r := by
  rw [parseAtom] at h
  split_ifs at h with h₁ h₂ h₃ h₄ h₅ h₆
  · obtain ⟨-, rfl⟩ := Prod.mk.inj (Option.some.inj h)
    exact spans_constant (by decide) h₁
  · obtain ⟨-, rfl⟩ := Prod.mk.inj (Option.some.inj h)
    exact spans_constant (by decide) h₂
  · obtain ⟨-, rfl⟩ := Prod.mk.inj (Option.some.inj h)
    exact spans_constant (by decide) h₃
  · obtain ⟨-, rfl⟩ := Prod.mk.inj (Option.some.inj h)
    exact spans_constant (by decide) h₄
  · obtain ⟨-, rfl⟩ := Prod.mk.inj (Option.some.inj h)
    exact spans_constant (by decide) h₅
  · obtain ⟨-, rfl⟩ := Prod.mk.inj (Option.some.inj h)
    exact spans_constant (by decide) h₆
  · obtain ⟨⟨l, t⟩, hl, he⟩ := Option.map_eq_some_iff.1 h
    obtain ⟨-, rfl⟩ := Prod.mk.inj he
    exact spans_scanNumber hl

/-! ## What can follow a cut -/

/-- A part from the start, but not all of it. -/
def Torn (p s : Str) : Prop := p <+: s ∧ p ≠ s

theorem Torn.append {p a b : Str} (h : Torn p (a ++ b)) :
    Torn p a ∨ ∃ q, p = a ++ q ∧ Torn q b := by
  obtain ⟨⟨r, hr⟩, hne⟩ := h
  rcases List.append_eq_append_iff.1 hr with ⟨q, rfl, hb⟩ | ⟨q, rfl, rfl⟩
  · by_cases hq : q = []
    · refine .inr ⟨[], by simp [hq], ⟨b, rfl⟩, fun hb' => hne ?_⟩
      simp [hq, ← hb']
    · exact .inl ⟨⟨q, rfl⟩, fun he => hq (List.self_eq_append_right.1 he)⟩
  · refine .inr ⟨q, rfl, ⟨r, rfl⟩, fun hq => hne ?_⟩
    rw [← hq]

theorem torn_singleton {q : Str} {c : CodePoint} (h : Torn q [c]) : q = [] := by
  obtain ⟨hpre, hne⟩ := h
  rcases List.prefix_cons_iff.1 hpre with rfl | ⟨t, rfl, ht⟩
  · rfl
  · rw [List.prefix_nil.1 ht] at hne
    exact absurd rfl hne

theorem solid_brace : Solid [123] := ⟨123, [], rfl, by decide⟩

/-- No list, dictionary or key goes on so. -/
def Dead (s : Str) : Prop := ∀ c ∈ (skipWs s).head?, c ≠ 44 ∧ c ≠ 58 ∧ c ≠ 93 ∧ c ≠ 125

theorem dead_nil : Dead [] := by
  intro c hc
  cases hc

theorem dead_cons {c : CodePoint} {s : Str} (hw : isJsonSpace c = false)
    (hc : c ≠ 44 ∧ c ≠ 58 ∧ c ≠ 93 ∧ c ≠ 125) : Dead (c :: s) := by
  intro d hd
  rw [skipWs_solid ⟨c, s, rfl, hw⟩] at hd
  cases hd
  exact hc

section

variable [FloatFormat φ]

theorem parseElems_dead {s : Str} (h : Dead s) (n : Nat) :
    (parseElems n (skipWs s) : Option (List (Json φ) × Str)) = none := by
  cases n with
  | zero => rfl
  | succ n =>
      cases hs : skipWs s with
      | nil => rfl
      | cons c t =>
          have hc := h c (by rw [hs]; rfl)
          rw [parseElems, if_neg hc.2.2.1, if_neg hc.1]

theorem parseMembers_dead {s : Str} (h : Dead s) (n : Nat) :
    (parseMembers n (skipWs s) : Option (List (Str × Json φ) × Str)) = none := by
  cases n with
  | zero => rfl
  | succ n =>
      cases hs : skipWs s with
      | nil => rfl
      | cons c t =>
          have hc := h c (by rw [hs]; rfl)
          rw [parseMembers, if_neg hc.2.2.2, if_neg hc.1]

/-- What can follow a cut on its line: it is nothing or opens a dictionary, nothing
but the end comes after it, and no string ends well in it. -/
structure Tail (φ : Type) [FloatFormat φ] (g : Str) : Prop where
  head : g = [] ∨ ∃ t, g = 123 :: t
  value : ∀ {n : Nat} {x : Json φ} {r : Str}, parseValue n g = some (x, r) → Dead r
  string : ∀ {p r : Str}, Inside p → afterQuote (p ++ g) = some r → Dead r

/-- Nothing follows. -/
theorem tail_nil : Tail φ [] where
  head := .inl rfl
  value := by
    intro n x r h
    cases n <;> cases h
  string := by
    intro p r hp h
    rw [List.append_nil, afterQuote_inside_nil hp] at h
    cases h

/-- A letter of a key. -/
def IsLetter (c : CodePoint) : Prop := 97 ≤ c.val ∧ c.val ≤ 122

instance (c : CodePoint) : Decidable (IsLetter c) := inferInstanceAs (Decidable (_ ∧ _))

theorem dead_letter {c : CodePoint} (h : IsLetter c) (s : Str) : Dead (c :: s) := by
  have hne : ∀ d : CodePoint, ¬ IsLetter d → c ≠ d := by
    rintro d hd rfl
    exact hd h
  apply dead_cons
  · simp only [isJsonSpace, Bool.or_eq_false_iff, decide_eq_false_iff_not]
    exact ⟨⟨⟨hne 32 (by decide), hne 9 (by decide)⟩, hne 10 (by decide)⟩, hne 13 (by decide)⟩
  · exact ⟨hne 44 (by decide), hne 58 (by decide), hne 93 (by decide), hne 125 (by decide)⟩

theorem escapeChar_letter {c : CodePoint} (h : IsLetter c) : escapeChar c = [c] := by
  have hshort : shortEscape c = none := by
    have hne : ∀ d : CodePoint, ¬ IsLetter d → c ≠ d := by
      rintro d hd rfl
      exact hd h
    simp only [shortEscape, if_neg (hne 34 (by decide)), if_neg (hne 92 (by decide)),
      if_neg (hne 8 (by decide)), if_neg (hne 12 (by decide)), if_neg (hne 10 (by decide)),
      if_neg (hne 13 (by decide)), if_neg (hne 9 (by decide))]
  have hrange : 0x20 ≤ c.val ∧ c.val ≤ 0x7E := ⟨le_trans (by decide) h.1, le_trans h.2 (by decide)⟩
  rw [escapeChar, hshort]
  exact if_pos hrange

/-- A dictionary follows whose first key begins with a letter. -/
theorem tail_render {sep : Separators} (h : sep.Standard) {c : CodePoint} (hc : IsLetter c)
    (k : Str) (x : Json φ) (ms : List (Str × Json φ)) :
    Tail φ (render sep (.obj ((c :: k, x) :: ms))) := by
  have htext : ∃ t, render sep (.obj ((c :: k, x) :: ms)) = 123 :: 34 :: c :: t := by
    rw [render, quoted, List.flatMap_cons, escapeChar_letter hc]
    exact ⟨_, rfl⟩
  obtain ⟨t, ht⟩ := htext
  refine ⟨.inr ⟨_, ht⟩, ?_, ?_⟩
  · intro n y r hp
    have hnil : Stops [] := by simp [Stops]
    rw [← List.append_nil (render sep _)] at hp
    rw [rest_of_render h hnil hp]
    exact dead_nil
  · intro p r hp hq
    rw [ht, afterQuote_inside hp, Option.some.injEq] at hq
    rw [← hq]
    exact dead_letter hc t

/-! ## Cut constants and numbers -/

/-- A character of a constant or a number. -/
def Inert (c : CodePoint) : Prop :=
  isJsonSpace c = false ∧ (c ≠ 44 ∧ c ≠ 58 ∧ c ≠ 93 ∧ c ≠ 125) ∧ c ≠ 123 ∧ c ≠ 34 ∧ c ≠ 91

instance (c : CodePoint) : Decidable (Inert c) := inferInstanceAs (Decidable (_ ∧ _))

omit [FloatFormat φ] in
theorem inert_digits {ds : List Nat} (h : ∀ d ∈ ds, d < 10) :
    ∀ c ∈ ds.map Literal.digit, Inert c := by
  have hall : ∀ d : Fin 10, Inert (Literal.digit d.val) := by decide
  intro c hc
  obtain ⟨d, hd, rfl⟩ := List.mem_map.1 hc
  exact hall ⟨d, h d hd⟩

omit [FloatFormat φ] in
theorem inert_text {l : Literal} (h : l.WF) : ∀ c ∈ l.text, Inert c := by
  have hfrac : ∀ c ∈ Literal.fracText l.frac, Inert c := by
    have hds := inert_digits h.frac_digits
    cases hf : l.frac with
    | nil => simp [Literal.fracText]
    | cons d ds =>
        rw [hf] at hds
        exact List.forall_mem_cons.2 ⟨by decide, hds⟩
  have hexp : ∀ c ∈ Literal.expText l.exp, Inert c := by
    cases he : l.exp with
    | none => simp [Literal.expText]
    | some p =>
        obtain ⟨sign, ds⟩ := p
        have hds := inert_digits (h.exp_digits (sign, ds) (by rw [he]; rfl)).2
        refine List.forall_mem_cons.2 ⟨by decide, ?_⟩
        rw [List.forall_mem_append]
        refine ⟨?_, hds⟩
        cases sign with
        | none => exact fun c hc => absurd hc List.not_mem_nil
        | plus => exact List.forall_mem_singleton.2 (by decide)
        | minus => exact List.forall_mem_singleton.2 (by decide)
  rw [Literal.text, List.forall_mem_append, List.forall_mem_append, List.forall_mem_append]
  refine ⟨?_, inert_digits h.int_digits, hfrac, hexp⟩
  cases l.neg with
  | false => exact fun c hc => absurd hc List.not_mem_nil
  | true => exact List.forall_mem_singleton.2 (by decide)

/-- The constants. -/
theorem inert_constant {t : Str}
    (h : t ∈ [nullText, trueText, falseText, nanText, infinityText, negInfinityText]) :
    ∀ c ∈ t, Inert c := by
  simp only [List.mem_cons, List.not_mem_nil, or_false] at h
  rcases h with rfl | rfl | rfl | rfl | rfl | rfl <;>
    simp [nullText, trueText, falseText, nanText, infinityText, negInfinityText, Inert, isJsonSpace]

/-- A cut constant or number is read up to the cut at most. -/
theorem dead_of_torn_atom {g : Str} (hg : Tail φ g) {p : Str} (hne : p ≠ [])
    (hp : ∀ c ∈ p, Inert c) {n : Nat} {x : Json φ} {r : Str}
    (h : parseValue n (p ++ g) = some (x, r)) : Dead r := by
  obtain ⟨c, p, rfl⟩ := List.exists_cons_of_ne_nil hne
  have hc := hp c List.mem_cons_self
  cases n with
  | zero => cases h
  | succ n =>
      rw [List.cons_append, parseValue_atom hc.2.2.2.1 hc.2.2.2.2 hc.2.2.1] at h
      obtain ⟨u, hu, hbrace⟩ := spans_parseAtom h
      have hrest : ∃ q, r = q ++ g ∧ ∀ c ∈ q, Inert c := by
        rw [← List.cons_append] at hu
        rcases List.append_eq_append_iff.1 hu with ⟨w, rfl, hw⟩ | ⟨w, hw, rfl⟩
        · rcases hg.head with rfl | ⟨t, rfl⟩
          · have : w = [] ∧ r = [] := by simpa using hw.symm
            exact ⟨[], by simp [this.2], by simp⟩
          · cases w with
            | nil => exact ⟨[], hw.symm, by simp⟩
            | cons b w =>
                obtain ⟨rfl, -⟩ := List.cons.inj hw
                exact absurd (List.mem_append_right _ List.mem_cons_self) hbrace
        · exact ⟨w, rfl, fun c hc => hp c (hw ▸ List.mem_append_right _ hc)⟩
      obtain ⟨q, rfl, hq⟩ := hrest
      cases q with
      | nil =>
          rcases hg.head with rfl | ⟨t, rfl⟩
          · exact dead_nil
          · exact dead_cons (by decide) (by decide)
      | cons b q =>
          have hb := hq b List.mem_cons_self
          exact dead_cons hb.1 hb.2.1

/-! ## Cut documents -/

theorem skipWs_tail {g : Str} (hg : Tail φ g) : skipWs g = g := by
  rcases hg.head with rfl | ⟨t, rfl⟩
  · rfl
  · exact skipWs_solid ⟨123, t, rfl, by decide⟩

/-- The first character of a cut text is that of the text. -/
theorem skipWs_torn {g : Str} (hg : Tail φ g) {p s : Str} (hs : Solid s) (hp : p <+: s) :
    skipWs (p ++ g) = p ++ g := by
  cases p with
  | nil => exact skipWs_tail hg
  | cons c p =>
      obtain ⟨d, t, rfl, hd⟩ := hs
      obtain ⟨rfl, -⟩ := List.cons_prefix_cons.1 hp
      exact skipWs_solid ⟨c, p ++ g, rfl, hd⟩

/-- A text that does not go on with a digit does not when it is cut either. -/
theorem stops_torn {g : Str} (hg : Tail φ g) {p s : Str} (hs : Stops s) (hp : p <+: s) :
    Stops (p ++ g) := by
  cases p with
  | nil =>
      rcases hg.head with rfl | ⟨t, rfl⟩
      · simp [Stops]
      · intro c hc
        cases hc
        decide
  | cons c p =>
      obtain ⟨r, rfl⟩ := hp
      exact hs

/-- A cut string is read to a place where nothing goes on. -/
theorem dead_of_torn_string {g : Str} (hg : Tail φ g) {p k : Str} (hp : Torn (34 :: p) (quoted k))
    {t r : Str} (h : parseString (p ++ g) = some (t, r)) : Dead r := by
  have hinside : Inside p := by
    have hpre : p <+: k.flatMap escapeChar := by
      obtain ⟨hpre, hne⟩ := hp
      have hpre := (List.cons_prefix_cons.1 hpre).2
      rcases List.prefix_concat_iff.1 (by simpa using hpre) with he | hpre
      · exact absurd (by rw [he]; rfl) hne
      · exact hpre
    exact (inside_flatMap k).mono hpre
  exact hg.string hinside (afterQuote_scanString h)

/-- A cut key is not read. -/
theorem parseKey_torn {g : Str} (hg : Tail φ g) {p k : Str} (hp : Torn p (quoted k)) :
    parseKey (p ++ g) = none := by
  cases p with
  | nil =>
      rcases hg.head with rfl | ⟨t, rfl⟩
      · rfl
      · rw [List.nil_append, parseKey, if_neg (by decide)]
  | cons q p =>
      obtain ⟨rfl, -⟩ := List.cons_prefix_cons.1 hp.1
      rw [List.cons_append, parseKey, if_pos rfl]
      cases hs : parseString (p ++ g) with
      | none => rfl
      | some r =>
          obtain ⟨t, r⟩ := r
          have hdead := dead_of_torn_string hg hp hs
          simp only [Option.bind_eq_bind, Option.bind_some]
          cases hr : skipWs r with
          | nil => rfl
          | cons c u =>
              have hc := hdead c (by rw [hr]; rfl)
              simp [hc.2.1]

/-- After a key comes a colon. -/
theorem parseKey_cases {k s t k' : Str} (h : parseKey (quoted k ++ s) = some (k', t)) :
    ∃ u, skipWs s = 58 :: u ∧ t = skipWs u := by
  have hstr := parseString_quoted k s
  rw [quoted, List.cons_append, parseKey, if_pos rfl] at h
  simp only [List.append_assoc, List.singleton_append, hstr, Option.bind_eq_bind,
    Option.bind_some] at h
  split at h
  · rename_i c u hu
    split_ifs at h with hc
    obtain ⟨-, rfl⟩ := Prod.mk.inj (Option.some.inj h)
    exact ⟨u, by rw [hu, hc], rfl⟩
  · cases h

theorem skipWs_append {w : Str} (hw : ∀ c ∈ w, isJsonSpace c = true) (s : Str) :
    skipWs (w ++ s) = skipWs s := List.dropWhile_append_of_pos hw

theorem dead_tail {g : Str} (hg : Tail φ g) : Dead g := by
  rcases hg.head with rfl | ⟨t, rfl⟩
  · exact dead_nil
  · exact dead_cons (by decide) (by decide)

omit [FloatFormat φ] in
/-- A cut after a comma or before it. -/
theorem torn_item {sep : Separators} {w s p : Str} (hw : sep.item = 44 :: w)
    (hsp : ∀ c ∈ w, isJsonSpace c = true) (hs : Solid s) (hp : Torn p (sep.item ++ s)) :
    p = [] ∨ ∃ w' q, p = 44 :: (w' ++ q) ∧ (∀ c ∈ w', isJsonSpace c = true) ∧ Torn q s := by
  rcases hp.append with hp | ⟨q, rfl, hq⟩
  · cases p with
    | nil => exact .inl rfl
    | cons c w' =>
        rw [hw] at hp
        obtain ⟨rfl, hw'⟩ := List.cons_prefix_cons.1 hp.1
        refine .inr ⟨w', [], by simp, fun c hc => hsp c (hw'.subset hc), List.nil_prefix, ?_⟩
        obtain ⟨c, t, rfl, -⟩ := hs
        exact (List.cons_ne_nil c t).symm
  · exact .inr ⟨w, q, by rw [hw]; rfl, hsp, hq⟩

/-- What is said of a cut value: nothing that it is inside of goes on after it. -/
def TornValue (sep : Separators) (g : Str) (j : Json φ) : Prop :=
  ∀ p : Str, Torn p (render sep j) → ∀ {n : Nat} {x : Json φ} {r : Str},
    parseValue n (p ++ g) = some (x, r) → Dead r

/-- What is said of cut elements: they are not read. -/
def TornElems (sep : Separators) (g : Str) (xs : List (Json φ)) : Prop :=
  ∀ p : Str, Torn p (renderElems sep xs) → ∀ n : Nat,
    (parseElems n (skipWs (p ++ g)) : Option (List (Json φ) × Str)) = none

/-- What is said of cut members: they are not read. -/
def TornMembers (sep : Separators) (g : Str) (ms : List (Str × Json φ)) : Prop :=
  ∀ p : Str, Torn p (renderMembers sep ms) → ∀ n : Nat,
    (parseMembers n (skipWs (p ++ g)) : Option (List (Str × Json φ) × Str)) = none

section

variable {sep : Separators} {g : Str} (hg : Tail φ g)
include hg

/-- Constants and numbers. -/
theorem tornValue_of_inert {j : Json φ} {t : Str} (ht : render sep j = t) (hj : ∀ c ∈ t, Inert c) :
    TornValue sep g j := by
  intro p hp n x r hx
  rw [ht] at hp
  by_cases hne : p = []
  · rw [hne, List.nil_append] at hx
    exact hg.value hx
  · exact dead_of_torn_atom hg hne (fun c hc => hj c (hp.1.subset hc)) hx

theorem tornValue_str (t : Str) : TornValue sep g (.str t : Json φ) := by
  intro p hp n x r hx
  cases p with
  | nil => exact hg.value hx
  | cons q p =>
      obtain ⟨rfl, -⟩ := List.cons_prefix_cons.1 hp.1
      cases n with
      | zero => cases hx
      | succ n =>
          rw [List.cons_append, parseValue, if_pos rfl] at hx
          obtain ⟨⟨u, v⟩, hu, he⟩ := Option.map_eq_some_iff.1 hx
          obtain ⟨-, rfl⟩ := Prod.mk.inj he
          exact dead_of_torn_string hg hp hu

/-- Lists and dictionaries, which are not read when they are cut inside. -/
theorem tornValue_of_open {j : Json φ} {c : CodePoint} {t : Str} (hr : render sep j = c :: t)
    (hno : ∀ {q : Str}, Torn q t → ∀ n : Nat,
      (parseValue (n + 1) (c :: (q ++ g)) : Option (Json φ × Str)) = none) :
    TornValue sep g j := by
  intro p hp n x r hx
  rw [hr] at hp
  cases p with
  | nil => exact hg.value hx
  | cons b q =>
      obtain ⟨rfl, hq⟩ := List.cons_prefix_cons.1 hp.1
      have htorn : Torn q t := ⟨hq, fun he => hp.2 (by rw [he])⟩
      cases n with
      | zero => cases hx
      | succ n =>
          rw [List.cons_append, hno htorn n] at hx
          cases hx

/-- The first character of a cut text, or the brace that follows the cut. -/
theorem head_torn {p s t : Str} {b d : CodePoint} (hb : b ≠ 123) (hhead : ∀ c ∈ s.head?, c ≠ b)
    (hp : p <+: s) (hpg : p ++ g = d :: t) : d ≠ b := by
  cases p with
  | nil =>
      rcases hg.head with rfl | ⟨t', rfl⟩
      · cases hpg
      · obtain ⟨rfl, -⟩ := List.cons.inj hpg
        exact hb.symm
  | cons c p =>
      obtain ⟨rfl, -⟩ := List.cons.inj hpg
      obtain ⟨s', rfl⟩ := hp
      exact hhead c rfl

/-- A list stays open when its elements do. -/
theorem not_list {p s : Str} (hs : Solid s) (hp : p <+: s) (hhead : ∀ c ∈ s.head?, c ≠ 93) {n : Nat}
    (hno : ∀ {y : Json φ} {u : Str}, parseValue n (p ++ g) = some (y, u) →
      (parseElems n (skipWs u) : Option (List (Json φ) × Str)) = none) :
    (parseValue (n + 1) (91 :: (p ++ g)) : Option (Json φ × Str)) = none := by
  rw [parseValue, if_neg (by decide), if_pos rfl, skipWs_torn hg hs hp]
  cases hpg : p ++ g with
  | nil => rfl
  | cons d t =>
      have hd : d ≠ 93 := head_torn hg (by decide) hhead hp hpg
      simp only [if_neg hd]
      cases hy : (parseValue n (d :: t) : Option (Json φ × Str)) with
      | none => rfl
      | some y =>
          obtain ⟨y, u⟩ := y
          rw [← hpg] at hy
          simp only [Option.bind_eq_bind, Option.bind_some, hno hy, Option.bind_none]

/-- A dictionary stays open when its members do. -/
theorem not_dict {p s : Str} (hs : Solid s) (hp : p <+: s) (hhead : ∀ c ∈ s.head?, c ≠ 125) {n : Nat}
    (hno : ∀ {k t u : Str} {y : Json φ}, parseKey (p ++ g) = some (k, t) →
      parseValue n t = some (y, u) →
      (parseMembers n (skipWs u) : Option (List (Str × Json φ) × Str)) = none) :
    (parseValue (n + 1) (123 :: (p ++ g)) : Option (Json φ × Str)) = none := by
  rw [parseValue, if_neg (by decide), if_neg (by decide), if_pos rfl, skipWs_torn hg hs hp]
  cases hpg : p ++ g with
  | nil => rfl
  | cons d t =>
      have hd : d ≠ 125 := head_torn hg (by decide) hhead hp hpg
      simp only [if_neg hd]
      cases hk : parseKey (d :: t) with
      | none => rfl
      | some k =>
          obtain ⟨k, v⟩ := k
          cases hy : (parseValue n v : Option (Json φ × Str)) with
          | none => simp [hy]
          | some y =>
              obtain ⟨y, u⟩ := y
              rw [← hpg] at hk
              simp only [Option.bind_eq_bind, Option.bind_some, hy, hno hk hy, Option.bind_none]

end

section

variable {sep : Separators} (h : sep.Standard) {g : Str} (hg : Tail φ g)
include h hg

/-- A cut in a value or in the elements after it. -/
theorem no_elems {x : Json φ} {xs : List (Json φ)} (hx : TornValue sep g x)
    (hxs : TornElems sep g xs) {p : Str} (hp : Torn p (render sep x ++ renderElems sep xs)) {n : Nat}
    {y : Json φ} {u : Str} (hy : parseValue n (p ++ g) = some (y, u)) :
    (parseElems n (skipWs u) : Option (List (Json φ) × Str)) = none := by
  rcases hp.append with hp | ⟨q, rfl, hq⟩
  · exact parseElems_dead (hx p hp hy) n
  · have hnext := (renderElems_next h xs []).2
    rw [List.append_nil] at hnext
    rw [List.append_assoc] at hy
    rw [rest_of_render h (stops_torn hg hnext hq.1) hy]
    exact hxs q hq n

theorem no_members {x : Json φ} {ms : List (Str × Json φ)} (hx : TornValue sep g x)
    (hms : TornMembers sep g ms) {p : Str} (hp : Torn p (render sep x ++ renderMembers sep ms))
    {n : Nat} {y : Json φ} {u : Str} (hy : parseValue n (p ++ g) = some (y, u)) :
    (parseMembers n (skipWs u) : Option (List (Str × Json φ) × Str)) = none := by
  rcases hp.append with hp | ⟨q, rfl, hq⟩
  · exact parseMembers_dead (hx p hp hy) n
  · have hnext := (renderMembers_next h ms []).2
    rw [List.append_nil] at hnext
    rw [List.append_assoc] at hy
    rw [rest_of_render h (stops_torn hg hnext hq.1) hy]
    exact hms q hq n

/-- A cut after a key: what is left to read is cut too. -/
theorem torn_after_key {x : Json φ} {ms : List (Str × Json φ)} {k q t k' : Str}
    (hq : Torn q (sep.key ++ (render sep x ++ renderMembers sep ms)))
    (hk : parseKey (quoted k ++ (q ++ g)) = some (k', t)) :
    ∃ q', Torn q' (render sep x ++ renderMembers sep ms) ∧ t = q' ++ g := by
  obtain ⟨w, hw, hsp⟩ := h.key
  obtain ⟨u, hu, rfl⟩ := parseKey_cases hk
  have hsolid : Solid (render sep x ++ renderMembers sep ms) := (solid_render sep x).append _
  rcases hq.append with hq | ⟨q', rfl, hq'⟩
  · -- the cut is in the separator
    rw [hw] at hq
    cases q with
    | nil =>
        rw [List.nil_append, skipWs_tail hg] at hu
        rcases hg.head with rfl | ⟨t, rfl⟩
        · cases hu
        · cases hu
    | cons c w' =>
        obtain ⟨rfl, hw'⟩ := List.cons_prefix_cons.1 hq.1
        rw [List.cons_append, skipWs_solid ⟨58, _, rfl, by decide⟩] at hu
        obtain rfl := (List.cons.inj hu).2
        refine ⟨[], ⟨ List.nil_prefix, ?_⟩, ?_⟩
        · obtain ⟨c, s, hs, -⟩ := hsolid
          rw [hs]
          exact (List.cons_ne_nil c s).symm
        · rw [skipWs_append fun c hc => hsp c (hw'.subset hc), skipWs_tail hg, List.nil_append]
  · rw [hw, List.cons_append, List.cons_append, skipWs_solid ⟨58, _, rfl, by decide⟩] at hu
    obtain rfl := (List.cons.inj hu).2
    refine ⟨q', hq', ?_⟩
    rw [List.append_assoc, skipWs_append hsp, skipWs_torn hg hsolid hq'.1]

/-- A member that was cut, or was followed by a cut, is not read. -/
theorem no_member {k : Str} {x : Json φ} {ms : List (Str × Json φ)} (hx : TornValue sep g x)
    (hms : TornMembers sep g ms) {p : Str}
    (hp : Torn p (quoted k ++ (sep.key ++ (render sep x ++ renderMembers sep ms)))) {n : Nat}
    {k' t u : Str} {y : Json φ} (hk : parseKey (p ++ g) = some (k', t))
    (hy : parseValue n t = some (y, u)) :
    (parseMembers n (skipWs u) : Option (List (Str × Json φ) × Str)) = none := by
  rcases hp.append with hp | ⟨q, rfl, hq⟩
  · rw [parseKey_torn hg hp] at hk
    cases hk
  · rw [List.append_assoc] at hk
    obtain ⟨q', hq', rfl⟩ := torn_after_key h hg hq hk
    exact no_members h hg hx hms hq' hy

/-- A dictionary that is cut in its members stays open. -/
theorem open_dict {k : Str} {x : Json φ} {ms : List (Str × Json φ)} (hx : TornValue sep g x)
    (hms : TornMembers sep g ms) {q : Str}
    (hq : Torn q (quoted k ++ (sep.key ++ (render sep x ++ renderMembers sep ms)))) (n : Nat) :
    (parseValue (n + 1) (123 :: (q ++ g)) : Option (Json φ × Str)) = none := by
  refine not_dict hg ((solid_quoted k).append _) hq.1 ?_ fun hk hy => ?_
  · intro d hd
    cases hd
    decide
  · exact no_member h hg hx hms hq hk hy

omit h in
theorem open_empty {q : Str} (hq : Torn q [125]) (n : Nat) :
    (parseValue (n + 1) (123 :: (q ++ g)) : Option (Json φ × Str)) = none := by
  rw [torn_singleton hq]
  refine not_dict hg solid_brace List.nil_prefix (by simp) fun hk _ => ?_
  rw [parseKey_torn hg (k := []) ⟨ List.nil_prefix, (List.cons_ne_nil _ _).symm⟩] at hk
  cases hk

mutual

/-- A cut value: nothing that it is inside of goes on after it. -/
theorem tornValue : ∀ j : Json φ, TornValue sep g j
  | .null => tornValue_of_inert hg (t := nullText) rfl (inert_constant (by simp))
  | .bool true => tornValue_of_inert hg (t := trueText) rfl (inert_constant (by simp))
  | .bool false => tornValue_of_inert hg (t := falseText) rfl (inert_constant (by simp))
  | .int i => tornValue_of_inert hg (t := (Literal.ofInt i).text) rfl (inert_text (Literal.wf_ofInt i))
  | .float .nan => tornValue_of_inert hg (t := nanText) rfl (inert_constant (by simp))
  | .float .posInf => tornValue_of_inert hg (t := infinityText) rfl (inert_constant (by simp))
  | .float .negInf => tornValue_of_inert hg (t := negInfinityText) rfl (inert_constant (by simp))
  | .float (.finite x) => 
      tornValue_of_inert hg (t := (FloatFormat.repr x).text) rfl (inert_text (FloatFormat.repr_wf x))
  | .str s => tornValue_str hg s
  | .arr [] => by
      apply tornValue_of_open hg (t := [93]) rfl
      intro q hq n
      rw [torn_singleton hq]
      refine not_list hg solid_brace List.nil_prefix (by simp) fun hy => ?_
      exact parseElems_dead (hg.value hy) n
  | .arr (x :: xs) => by
      apply tornValue_of_open hg (t := render sep x ++ renderElems sep xs) rfl
      intro q hq n
      obtain ⟨c, t, ht, hc⟩ := render_head sep x
      refine not_list hg ((solid_render sep x).append _) hq.1 ?_ fun hy => ?_
      · rw [ht]
        intro d hd
        cases hd
        exact hc.2.1
      · exact no_elems h hg (tornValue x) (tornElems xs) hq hy
  | .obj [] => tornValue_of_open hg (t := [125]) rfl fun hq => open_empty hg hq
  | .obj ((k, x) :: ms) =>
      tornValue_of_open hg
        (t := quoted k ++ (sep.key ++ (render sep x ++ renderMembers sep ms))) rfl
        fun hq => open_dict h hg (tornValue x) (tornMembers ms) hq

/-- Cut elements are not read. -/
theorem tornElems : ∀ xs : List (Json φ), TornElems sep g xs
  | [] => by
      intro p hp n
      rw [torn_singleton hp]
      exact parseElems_dead (dead_tail hg) n
  | x :: xs => by
      intro p hp n
      obtain ⟨w, hw, hsp⟩ := h.item
      have hsolid : Solid (render sep x ++ renderElems sep xs) := (solid_render sep x).append _
      rcases torn_item hw hsp hsolid hp with rfl | ⟨w', q, rfl, hsp', hq⟩
      · exact parseElems_dead (dead_tail hg) n
      · rw [List.cons_append, skipWs_solid ⟨44, _, rfl, by decide⟩]
        cases n with
        | zero => rfl
        | succ n =>
            rw [parseElems, if_neg (by decide), if_pos rfl, List.append_assoc, skipWs_append hsp',
              skipWs_torn hg hsolid hq.1]
            cases hy : (parseValue n (q ++ g) : Option (Json φ × Str)) with
            | none => rfl
            | some y =>
                obtain ⟨y, u⟩ := y
                simp only [Option.bind_eq_bind, Option.bind_some,
                  no_elems h hg (tornValue x) (tornElems xs) hq hy, Option.bind_none]

/-- Cut members are not read. -/
theorem tornMembers : ∀ ms : List (Str × Json φ), TornMembers sep g ms
  | [] => by
      intro p hp n
      rw [torn_singleton hp]
      exact parseMembers_dead (dead_tail hg) n
  | (k, x) :: ms => by
      intro p hp n
      obtain ⟨w, hw, hsp⟩ := h.item
      have hsolid : Solid (quoted k ++ (sep.key ++ (render sep x ++ renderMembers sep ms))) :=
        (solid_quoted k).append _
      rcases torn_item hw hsp hsolid hp with rfl | ⟨w', q, rfl, hsp', hq⟩
      · exact parseMembers_dead (dead_tail hg) n
      · rw [List.cons_append, skipWs_solid ⟨44, _, rfl, by decide⟩]
        cases n with
        | zero => rfl
        | succ n =>
            rw [parseMembers, if_neg (by decide), if_pos rfl, List.append_assoc,
              skipWs_append hsp', skipWs_torn hg hsolid hq.1]
            cases hk : parseKey (q ++ g) with
            | none => rfl
            | some k' =>
                obtain ⟨k', v⟩ := k'
                cases hy : (parseValue n v : Option (Json φ × Str)) with
                | none => simp [hy]
                | some y =>
                    obtain ⟨y, u⟩ := y
                    simp only [Option.bind_eq_bind, Option.bind_some, hy,
                      no_member h hg (tornValue x) (tornMembers ms) hq hk hy, Option.bind_none]

end

/-- A cut dictionary is no value, whatever follows. -/
theorem parseValue_torn {ms : List (Str × Json φ)} {p : Str} (hp : Torn p (render sep (.obj ms)))
    (hne : p ≠ []) (n : Nat) : (parseValue n (p ++ g) : Option (Json φ × Str)) = none := by
  have htorn : ∀ {c : CodePoint} {q rest : Str}, Torn (c :: q) (123 :: rest) → c = 123 ∧ Torn q rest := by
    intro c q rest hp
    obtain ⟨rfl, hq⟩ := List.cons_prefix_cons.1 hp.1
    exact ⟨rfl, hq, fun he => hp.2 (by rw [he])⟩
  obtain ⟨c, q, rfl⟩ := List.exists_cons_of_ne_nil hne
  cases n with
  | zero => rfl
  | succ n =>
      rcases ms with _ | ⟨⟨k, x⟩, ms⟩
      · obtain ⟨rfl, hq⟩ := htorn (by simpa only [render] using hp)
        exact open_empty hg hq n
      · obtain ⟨rfl, hq⟩ := htorn (by simpa only [render] using hp)
        exact open_dict h hg (tornValue h hg x) (tornMembers h hg ms) hq n

/-- The line that a cut leaves is no document: the dictionary on it is not whole, or
something follows it. -/
theorem parse_cut {ms : List (Str × Json φ)} {p : Str} (hp : p <+: render sep (.obj ms))
    (hne : p ≠ []) (hcut : p ≠ render sep (.obj ms) ∨ g ≠ []) :
    (parse (p ++ g) : Option (Json φ)) = none := by
  have hhead : ∃ q, p ++ g = 123 :: q := by
    obtain ⟨t, ht⟩ := render_obj_ends sep ms
    obtain ⟨c, q, rfl⟩ := List.exists_cons_of_ne_nil hne
    rw [ht] at hp
    obtain ⟨rfl, -⟩ := List.cons_prefix_cons.1 hp
    exact ⟨q ++ g, rfl⟩
  obtain ⟨q, hq⟩ := hhead
  have hskip : skipWs (p ++ g) = p ++ g := by
    rw [hq]
    exact skipWs_solid ⟨123, q, rfl, by decide⟩
  have hbom : (p ++ g).head? ≠ some 0xFEFF := by
    rw [hq, List.head?_cons, ne_eq, Option.some.injEq]
    decide
  rw [parse, if_neg hbom, hskip]
  by_cases he : p = render sep (.obj ms)
  · -- the dictionary is whole, and `g` follows it
    have hg' := hcut.resolve_left (not_not.2 he)
    cases hx : (parseValue ((p ++ g).length + 1) (p ++ g) : Option (Json φ × Str)) with
    | none => rfl
    | some y =>
        obtain ⟨y, r⟩ := y
        have hstops : Stops g := stops_torn hg (s := []) (by simp [Stops]) List.nil_prefix
        rw [he] at hx
        have hr := rest_of_render h hstops hx
        simp only [Option.bind_eq_bind, Option.bind_some, hr, skipWs_tail hg, if_neg hg']
  · rw [parseValue_torn h hg ⟨hp, he⟩ hne]
    rfl

end

/-! ## Cut lines -/

omit [FloatFormat φ] in
theorem strip_prefix_of_solid {c : CodePoint} {q : Str} (hc : isSpace c = false) :
    strip (c :: q) <+: c :: q ∧ strip (c :: q) ≠ [] := by
  rw [strip, List.dropWhile_cons_of_neg (by simp [hc])]
  refine ⟨ List.rdropWhile_prefix _ _, fun hnil => ?_⟩
  have hall := List.rdropWhile_eq_nil_iff.1 hnil c List.mem_cons_self
  rw [hc] at hall
  cases hall

/-- A line that was cut is no document. -/
theorem loads_torn {sep : Separators} (h : sep.Standard) {m : List (Str × Json φ)} {p : Str}
    (hp : Torn p (render sep (.obj m))) (hne : p ≠ []) :
    (loads (strip p) : Option (PyVal φ)) = none := by
  obtain ⟨c, q, rfl⟩ := List.exists_cons_of_ne_nil hne
  obtain ⟨t, ht⟩ := render_obj_ends sep m
  have hc : c = 123 := by
    have hpre := hp.1
    rw [ht] at hpre
    exact (List.cons_prefix_cons.1 hpre).1
  obtain ⟨hpre, hnil⟩ := strip_prefix_of_solid (c := c) (q := q) (by rw [hc]; decide)
  have hcut : strip (c :: q) ≠ render sep (.obj m) := by
    intro he
    have hlen := hpre.length_le
    rw [he] at hlen
    exact hp.2 (hp.1.eq_of_length (le_antisymm hp.1.length_le hlen))
  have hparse := parse_cut h tail_nil (hpre.trans hp.1) hnil (.inl hcut)
  rw [List.append_nil] at hparse
  rw [loads, hparse]
  rfl

/-- Nor is a line that was cut and written to again. -/
theorem loads_glued {sep : Separators} (h : sep.Standard) {ms ms' : List (Str × Json φ)} {p k : Str}
    {c : CodePoint} {x : Json φ} (hc : IsLetter c) (hp : p <+: render sep (.obj ms)) (hne : p ≠ []) :
    (loads (strip (p ++ render sep (.obj ((c :: k, x) :: ms')))) : Option (PyVal φ)) = none := by
  have htail := tail_render h hc k x ms'
  have hstrip : strip (p ++ render sep (.obj ((c :: k, x) :: ms'))) =
      p ++ render sep (.obj ((c :: k, x) :: ms')) := by
    obtain ⟨b, q, rfl⟩ := List.exists_cons_of_ne_nil hne
    obtain ⟨t, ht⟩ := render_obj_ends sep ms
    rw [ht] at hp
    obtain ⟨rfl, -⟩ := List.cons_prefix_cons.1 hp
    obtain ⟨u, hu⟩ := render_obj_ends sep ((c :: k, x) :: ms')
    rw [hu]
    have hends := strip_of_ends (c := 123) (d := 125) (by decide) (by decide) (q ++ 123 :: u)
    simpa using hends
  obtain ⟨u, hu⟩ := render_obj_ends sep ((c :: k, x) :: ms')
  rw [hstrip, loads, parse_cut h htail hp hne (.inr (by rw [hu]; exact List.cons_ne_nil _ _))]
  rfl

end

end Py
