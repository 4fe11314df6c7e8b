import ShugoCore.Lib.JsonTorn

/-!
# Whitespace after a document

A document is read the same without the whitespace around it, and a dictionary begins with the
brace that is its first character and ends with the one that is its last (`parse_obj_trim`).

Whitespace ends a number and a constant, and no string ends inside of it.  So each scanner reads
from a text with whitespace behind it what it reads from the text alone.
-/

namespace Py

variable {φ : Type}

/-- Whitespace only. -/
def Blank (w : Str) : Prop := ∀ c ∈ w, isJsonSpace c = true

theorem blank_nil : Blank [] := fun _ hc => by cases hc

/-- Whitespace is a blank, a tab or the end of a line. -/
theorem isJsonSpace_cases {c : CodePoint} (h : isJsonSpace c = true) :
    c = 32 ∨ c = 9 ∨ c = 10 ∨ c = 13 := by
  simp only [isJsonSpace, Bool.or_eq_true, decide_eq_true_eq] at h
  tauto

theorem hexValue_space {c : CodePoint} (h : isJsonSpace c = true) : hexValue c = none := by
  rcases isJsonSpace_cases h with rfl | rfl | rfl | rfl <;> decide

theorem isDigit_space {c : CodePoint} (h : isJsonSpace c = true) : isDigit c = false := by
  rcases isJsonSpace_cases h with rfl | rfl | rfl | rfl <;> decide

theorem shortUnescape_space {c : CodePoint} (h : isJsonSpace c = true) : shortUnescape c = none := by
  rcases isJsonSpace_cases h with rfl | rfl | rfl | rfl <;> decide

/-- No character of the syntax is whitespace. -/
theorem ne_of_isJsonSpace {c d : CodePoint} (h : isJsonSpace c = true) (hd : isJsonSpace d = false) :
    c ≠ d := by
  rintro rfl
  rw [h] at hd
  cases hd

/-- A character takes a part of the text. -/
theorem length_scanChar {s r : Str} {c : CodePoint} (h : scanChar s = some (c, r)) :
    r.length < s.length := by
  rcases scanChar_cases h with ⟨rfl, -⟩ | ⟨e, rfl, -⟩ | ⟨t, rfl, ht⟩
  · exact Nat.lt_succ_self _
  · exact Nat.lt_succ_of_lt (Nat.lt_succ_self _)
  · have hsuffix : r <:+ t := by
      rcases scanUnicode_cases ht with ⟨d, u, l, hd, -, hl, -⟩ | ⟨hc, -⟩
      · exact (suffix_scanLow hl).trans (suffix_scanHex hd)
      · exact suffix_scanHex hc
    exact Nat.lt_succ_of_le (hsuffix.length_le.trans (Nat.le_succ _))

/-! ## Strings -/

section Scanners

variable {w : Str} (hw : Blank w)
include hw

theorem scanHex_blank (s : Str) :
    scanHex (s ++ w) = (scanHex s).map (Prod.map id (· ++ w)) := by
  have hspace : ∀ c ∈ w, hexValue c = none := fun c hc => hexValue_space (hw c hc)
  rcases s with _ | ⟨a, _ | ⟨b, _ | ⟨c, _ | ⟨d, s⟩⟩⟩⟩
  · rcases w with _ | ⟨x, _ | ⟨y, _ | ⟨z, _ | ⟨u, t⟩⟩⟩⟩ <;> simp [scanHex, hspace]
  · rcases w with _ | ⟨x, _ | ⟨y, _ | ⟨z, t⟩⟩⟩ <;> simp [scanHex, hspace]
  · rcases w with _ | ⟨x, _ | ⟨y, t⟩⟩ <;> simp [scanHex, hspace]
  · rcases w with _ | ⟨x, t⟩ <;> simp [scanHex, hspace]
  · simp only [scanHex, List.cons_append]
    cases hexValue a <;> cases hexValue b <;> cases hexValue c <;> cases hexValue d <;> simp

theorem scanLow_blank (s : Str) :
    scanLow (s ++ w) = (scanLow s).map (Prod.map id (· ++ w)) := by
  have hslash : ∀ c ∈ w, c ≠ 92 := fun c hc => ne_of_isJsonSpace (hw c hc) (by decide)
  have hletter : ∀ c ∈ w, c ≠ 117 := fun c hc => ne_of_isJsonSpace (hw c hc) (by decide)
  rcases s with _ | ⟨b, _ | ⟨u, s⟩⟩
  · rcases w with _ | ⟨x, _ | ⟨y, t⟩⟩ <;> simp [scanLow, hslash]
  · rcases w with _ | ⟨x, t⟩ <;> simp [scanLow, hletter]
  · simp only [scanLow, List.cons_append]
    split
    · rw [scanHex_blank hw]
      cases scanHex s with
      | none => rfl
      | some p => cases hp : isLow p.1 <;> simp [Option.filter, hp]
    · rfl

theorem scanPair_blank (c : CodePoint) (s : Str) :
    scanPair c (s ++ w) = Prod.map id (· ++ w) (scanPair c s) := by
  simp only [scanPair, scanLow_blank hw]
  cases scanLow s <;> rfl

theorem scanUnicode_blank (s : Str) :
    scanUnicode (s ++ w) = (scanUnicode s).map (Prod.map id (· ++ w)) := by
  simp only [scanUnicode, scanHex_blank hw]
  cases scanHex s with
  | none => rfl
  | some p =>
      simp only [Option.map_some, Prod.map_fst, Prod.map_snd, id_eq, scanPair_blank hw]
      split <;> rfl

theorem scanChar_blank (c : CodePoint) (s : Str) :
    scanChar (c :: (s ++ w)) = (scanChar (c :: s)).map (Prod.map id (· ++ w)) := by
  simp only [scanChar]
  split
  · cases s with
    | nil =>
        rcases hv : w with _ | ⟨x, t⟩
        · rfl
        · have hx := hw x (hv ▸ List.mem_cons_self)
          simp [ne_of_isJsonSpace hx (show isJsonSpace 117 = false by decide),
            shortUnescape_space hx]
    | cons e s =>
        simp only [List.cons_append]
        split
        · exact scanUnicode_blank hw s
        · cases shortUnescape e <;> rfl
  · split <;> rfl

/-- There is no quote in whitespace. -/
theorem afterQuote_blank : afterQuote w = none := by
  induction w with
  | nil => rfl
  | cons x w ih =>
      have hx := hw x List.mem_cons_self
      rw [afterQuote_cons ⟨ne_of_isJsonSpace hx (by decide), ne_of_isJsonSpace hx (by decide)⟩]
      exact ih fun c hc => hw c (List.mem_cons_of_mem x hc)

/-- A string that is closed is closed before the whitespace. -/
theorem scanString_blank {n m : Nat} {s t r' : Str} (h : scanString n (s ++ w) = some (t, r'))
    (hm : s.length < m) : ∃ r, r' = r ++ w ∧ r <:+ s ∧ scanString m s = some (t, r) := by
  induction n generalizing s t m with
  | zero => cases h
  | succ n ih =>
      cases s with
      | nil =>
          have hopen := afterQuote_scanString h
          rw [List.nil_append, afterQuote_blank hw] at hopen
          cases hopen
      | cons c s =>
          obtain ⟨m, rfl⟩ : ∃ k, m = k + 1 := ⟨m - 1, by simp only [List.length_cons] at hm; omega⟩
          rw [List.cons_append, scanString] at h
          rw [scanString]
          split_ifs at h ⊢
          · obtain ⟨rfl, rfl⟩ := Prod.mk.inj (Option.some.inj h)
            exact ⟨s, rfl, List.suffix_cons c s, rfl⟩
          · rename_i hquote
            simp only [Option.bind_eq_bind, Option.bind_eq_some_iff, Option.pure_def,
              Option.some.injEq, Prod.mk.injEq, Prod.exists] at h ⊢
            obtain ⟨d, u', hd, ds, v', hds, rfl, rfl⟩ := h
            rw [scanChar_blank hw] at hd
            obtain ⟨⟨d', u⟩, hdu, he⟩ := Option.map_eq_some_iff.1 hd
            obtain ⟨rfl, rfl⟩ := Prod.mk.inj he
            have hlength := length_scanChar hdu
            simp only [List.length_cons] at hm hlength
            obtain ⟨r, rfl, hr, hread⟩ := ih hds (m := m) (by omega)
            exact ⟨r, rfl, hr.trans (suffix_scanChar hdu), d', u, hdu, ds, r, hread, rfl, rfl⟩

theorem parseString_blank {s t r' : Str} (h : parseString (s ++ w) = some (t, r')) :
    ∃ r, r' = r ++ w ∧ r <:+ s ∧ parseString s = some (t, r) :=
  scanString_blank hw h (Nat.lt_succ_self _)

/-! ## Numbers and constants -/

theorem scanDigits_blank (s : Str) :
    scanDigits (s ++ w) = Prod.map id (· ++ w) (scanDigits s) := by
  have hdigit : ∀ c ∈ w, isDigit c = false := fun c hc => isDigit_space (hw c hc)
  induction s with
  | nil =>
      cases w with
      | nil => rfl
      | cons x t => simp [scanDigits, hdigit]
  | cons c s ih =>
      simp only [scanDigits, Prod.map_apply, id_eq, Prod.mk.injEq] at ih
      cases hc : isDigit c <;> simp [scanDigits, hc, ih]

theorem scanFrac_blank (s : Str) : scanFrac (s ++ w) = Prod.map id (· ++ w) (scanFrac s) := by
  cases s with
  | nil =>
      cases w with
      | nil => rfl
      | cons x t =>
          have hx : x ≠ 46 := ne_of_isJsonSpace (hw x List.mem_cons_self) (by decide)
          simp [scanFrac, hx]
  | cons c s =>
      simp only [scanFrac, List.cons_append, scanDigits_blank hw, Prod.map_fst, id_eq]
      split <;> rfl

theorem scanSign_blank (s : Str) : scanSign (s ++ w) = Prod.map id (· ++ w) (scanSign s) := by
  cases s with
  | nil =>
      cases w with
      | nil => rfl
      | cons x t =>
          have hplus : x ≠ 43 := ne_of_isJsonSpace (hw x List.mem_cons_self) (by decide)
          have hminus : x ≠ 45 := ne_of_isJsonSpace (hw x List.mem_cons_self) (by decide)
          simp [scanSign, hplus, hminus]
  | cons c s =>
      simp only [scanSign, List.cons_append]
      split_ifs <;> rfl

theorem scanExp_blank (s : Str) : scanExp (s ++ w) = Prod.map id (· ++ w) (scanExp s) := by
  cases s with
  | nil =>
      cases w with
      | nil => rfl
      | cons x t =>
          have hlower : x ≠ 101 := ne_of_isJsonSpace (hw x List.mem_cons_self) (by decide)
          have hupper : x ≠ 69 := ne_of_isJsonSpace (hw x List.mem_cons_self) (by decide)
          simp [scanExp, hlower, hupper]
  | cons c s =>
      simp only [scanExp, List.cons_append, scanSign_blank hw, Prod.map_fst, Prod.map_snd, id_eq,
        scanDigits_blank hw]
      split <;> rfl

theorem scanInt_blank (s : Str) : scanInt (s ++ w) = (scanInt s).map (Prod.map id (· ++ w)) := by
  cases s with
  | nil =>
      cases w with
      | nil => rfl
      | cons x t =>
          have hzero : x ≠ 48 := ne_of_isJsonSpace (hw x List.mem_cons_self) (by decide)
          simp [scanInt, hzero, isDigit_space (hw x List.mem_cons_self)]
  | cons c s =>
      simp only [scanInt, List.cons_append]
      split_ifs
      · rfl
      · rw [← List.cons_append, scanDigits_blank hw]
        rfl
      · rfl

theorem scanMinus_blank (s : Str) : scanMinus (s ++ w) = Prod.map id (· ++ w) (scanMinus s) := by
  cases s with
  | nil =>
      cases w with
      | nil => rfl
      | cons x t =>
          have hminus : x ≠ 45 := ne_of_isJsonSpace (hw x List.mem_cons_self) (by decide)
          simp [scanMinus, hminus]
  | cons c s =>
      simp only [scanMinus, List.cons_append]
      split <;> rfl

theorem scanNumber_blank (s : Str) :
    scanNumber (s ++ w) = (scanNumber s).map (Prod.map id (· ++ w)) := by
  simp only [scanNumber, scanMinus_blank hw, Prod.map_fst, Prod.map_snd, id_eq, scanInt_blank hw]
  cases scanInt (scanMinus s).2 with
  | none => rfl
  | some p => simp [scanFrac_blank hw, scanExp_blank hw]

/-- A constant stands before the whitespace. -/
theorem isPrefixOf_blank {t : Str} (ht : t.any isJsonSpace = false) (s : Str) :
    t.isPrefixOf (s ++ w) = t.isPrefixOf s := by
  induction t generalizing s with
  | nil => rfl
  | cons a t ih =>
      obtain ⟨ha, ht⟩ := Bool.or_eq_false_iff.1 ht
      cases s with
      | nil =>
          cases w with
          | nil => rfl
          | cons x w =>
              have hx : a ≠ x := (ne_of_isJsonSpace (hw x List.mem_cons_self) ha).symm
              simp [List.isPrefixOf, hx]
      | cons b s =>
          simp only [List.cons_append, List.isPrefixOf]
          rw [ih ht]

omit hw in
theorem drop_of_isPrefixOf {t s : Str} {n : Nat} (hn : t.length = n) (h : t.isPrefixOf s = true) :
    (s ++ w).drop n = s.drop n ++ w := by
  have hlength : n ≤ s.length := by
    rw [← hn]
    exact (List.isPrefixOf_iff_prefix.1 h).length_le
  exact List.drop_append_of_le_length hlength

theorem parseAtom_blank [FloatFormat φ] (s : Str) :
    (parseAtom (s ++ w) : Option (Json φ × Str)) = (parseAtom s).map (Prod.map id (· ++ w)) := by
  simp only [parseAtom, isPrefixOf_blank hw (t := nullText) (by decide),
    isPrefixOf_blank hw (t := trueText) (by decide),
      isPrefixOf_blank hw (t := falseText) (by decide),
    isPrefixOf_blank hw (t := nanText) (by decide), isPrefixOf_blank hw
      (t := infinityText) (by decide),
    isPrefixOf_blank hw (t := negInfinityText) (by decide), scanNumber_blank hw]
  split_ifs with hnull htrue hfalse hnan hinf hneg
  · rw [drop_of_isPrefixOf (n := 4) rfl hnull]
    rfl
  · rw [drop_of_isPrefixOf (n := 4) rfl htrue]
    rfl
  · rw [drop_of_isPrefixOf (n := 5) rfl hfalse]
    rfl
  · rw [drop_of_isPrefixOf (n := 3) rfl hnan]
    rfl
  · rw [drop_of_isPrefixOf (n := 8) rfl hinf]
    rfl
  · rw [drop_of_isPrefixOf (n := 9) rfl hneg]
    rfl
  · cases scanNumber s <;> rfl

/-! ## Documents -/

/-- What is left of a text without its leading whitespace, if not all of it is whitespace. -/
theorem skipWs_blank {s t : Str} {c : CodePoint} (h : skipWs (s ++ w) = c :: t) :
    ∃ u, t = u ++ w ∧ skipWs s = c :: u := by
  induction s with
  | nil =>
      have hall : skipWs ([] ++ w) = [] := List.dropWhile_eq_nil_iff.2 hw
      rw [hall] at h
      cases h
  | cons d s ih =>
      rw [skipWs, List.cons_append, List.dropWhile_cons] at h
      rw [skipWs, List.dropWhile_cons]
      split_ifs at h ⊢
      · exact ih h
      · obtain ⟨rfl, rfl⟩ := List.cons.inj h
        exact ⟨s, rfl, rfl⟩

theorem parseKey_blank {s k t : Str} {c : CodePoint} (h : parseKey (s ++ w) = some (k, c :: t)) :
    ∃ u, t = u ++ w ∧ c :: u <:+ s ∧ parseKey s = some (k, c :: u) := by
  cases s with
  | nil =>
      cases w with
      | nil => cases h
      | cons x w =>
          rw [List.nil_append, parseKey,
            if_neg (ne_of_isJsonSpace (hw x List.mem_cons_self) (by decide))] at h
          cases h
  | cons q s =>
      rw [List.cons_append, parseKey] at h
      rw [parseKey]
      split_ifs at h ⊢
      rw [Option.bind_eq_bind, Option.bind_eq_some_iff] at h
      obtain ⟨⟨k', v'⟩, hkey, hrest⟩ := h
      obtain ⟨v, rfl, hv, hread⟩ := parseString_blank hw hkey
      dsimp only at hrest
      split at hrest
      · rename_i d u' hu'
        split_ifs at hrest with hcolon
        obtain ⟨rfl, hskip⟩ := Prod.mk.inj (Option.some.inj hrest)
        obtain ⟨u, rfl, hu⟩ := skipWs_blank hw hu'
        obtain ⟨r, rfl, hr⟩ := skipWs_blank hw hskip
        have hsuffix : c :: r <:+ v := by
          have hru : c :: r <:+ u := hr ▸ suffix_skipWs u
          have huv : d :: u <:+ v := hu ▸ suffix_skipWs v
          exact (hru.trans (List.suffix_cons d u)).trans huv
        refine ⟨r, rfl, (hsuffix.trans hv).trans (List.suffix_cons q s), ?_⟩
        simp [hread, hu, hcolon, hr]
      · cases hrest

end Scanners

section

variable [FloatFormat φ] {w : Str}

/-- What the readers read from a text with whitespace behind it, they read from the text, and with
any fuel that is enough for its length. -/
structure Trims (φ : Type) [FloatFormat φ] (w : Str) (n : Nat) : Prop where
  value : ∀ {m : Nat} {c : CodePoint} {s r' : Str} {j : Json φ},
    parseValue n (c :: (s ++ w)) = some (j, r') → s.length + 1 < m →
      ∃ r, r' = r ++ w ∧ r <:+ c :: s ∧ parseValue m (c :: s) = some (j, r)
  elems : ∀ {m : Nat} {c : CodePoint} {s r' : Str} {xs : List (Json φ)},
    parseElems n (c :: (s ++ w)) = some (xs, r') → s.length + 1 < m →
      ∃ r, r' = r ++ w ∧ r <:+ c :: s ∧ parseElems m (c :: s) = some (xs, r)
  members : ∀ {m : Nat} {c : CodePoint} {s r' : Str} {ms : List (Str × Json φ)},
    parseMembers n (c :: (s ++ w)) = some (ms, r') → s.length + 1 < m →
      ∃ r, r' = r ++ w ∧ 125 :: r <:+ c :: s ∧ parseMembers m (c :: s) = some (ms, r)

/-- Nothing is read where there is nothing. -/
theorem parseElems_cons_of_eq_some {n : Nat} {s : Str} {p : List (Json φ) × Str}
    (h : parseElems n s = some p) : ∃ c t, s = c :: t := by
  cases s with
  | nil => cases n <;> cases h
  | cons c t => exact ⟨c, t, rfl⟩

theorem parseMembers_cons_of_eq_some {n : Nat} {s : Str} {p : List (Str × Json φ) × Str}
    (h : parseMembers n s = some p) : ∃ c t, s = c :: t := by
  cases s with
  | nil => cases n <;> cases h
  | cons c t => exact ⟨c, t, rfl⟩

theorem parseValue_cons_of_eq_some {n : Nat} {s : Str} {p : Json φ × Str}
    (h : parseValue n s = some p) : ∃ c t, s = c :: t := by
  cases s with
  | nil => cases n <;> cases h
  | cons c t => exact ⟨c, t, rfl⟩

theorem parseKey_cons_of_eq_some {s : Str} {p : Str × Str} (h : parseKey s = some p) :
    ∃ c t, s = c :: t := by
  cases s with
  | nil => cases h
  | cons c t => exact ⟨c, t, rfl⟩

/-- A value and the elements after it. -/
theorem Trims.cons {n m : Nat} (hw : Blank w) (h : Trims φ w n) {c : CodePoint} {s t' r' : Str}
    {x : Json φ} {xs : List (Json φ)} (hx : parseValue n (c :: (s ++ w)) = some (x, t'))
    (hxs : parseElems n (skipWs t') = some (xs, r')) (hm : s.length + 1 < m) :
    ∃ t r, r' = r ++ w ∧ r <:+ c :: s ∧ parseValue m (c :: s) = some (x, t) ∧
      parseElems m (skipWs t) = some (xs, r) := by
  obtain ⟨t, rfl, ht, hread⟩ := h.value hx hm
  obtain ⟨d, u', hu'⟩ := parseElems_cons_of_eq_some hxs
  obtain ⟨u, rfl, hu⟩ := skipWs_blank hw hu'
  rw [hu'] at hxs
  have hsuffix : d :: u <:+ c :: s := (hu ▸ suffix_skipWs t).trans ht
  have hlength := hsuffix.length_le
  simp only [List.length_cons] at hlength
  obtain ⟨r, rfl, hr, hrest⟩ := h.elems hxs (m := m) (by omega)
  exact ⟨t, r, rfl, hr.trans hsuffix, hread, by rw [hu, hrest]⟩

/-- A key with its value, and the members after it. -/
theorem Trims.member {n m : Nat} (hw : Blank w) (h : Trims φ w n) {s t' u' r' k : Str} {x : Json φ}
    {ms : List (Str × Json φ)} (hk : parseKey (s ++ w) = some (k, t'))
    (hx : parseValue n t' = some (x, u')) (hms : parseMembers n (skipWs u') = some (ms, r'))
    (hm : s.length < m) :
    ∃ t u r, r' = r ++ w ∧ 125 :: r <:+ s ∧ parseKey s = some (k, t) ∧
      parseValue m t = some (x, u) ∧ parseMembers m (skipWs u) = some (ms, r) := by
  obtain ⟨c, v', rfl⟩ := parseValue_cons_of_eq_some hx
  obtain ⟨v, rfl, hv, hkey⟩ := parseKey_blank hw hk
  have hlength := hv.length_le
  simp only [List.length_cons] at hlength
  obtain ⟨u, rfl, hu, hread⟩ := h.value hx (m := m) (by omega)
  obtain ⟨d, q', hq'⟩ := parseMembers_cons_of_eq_some hms
  obtain ⟨q, rfl, hq⟩ := skipWs_blank hw hq'
  rw [hq'] at hms
  have hsuffix : d :: q <:+ s := ((hq ▸ suffix_skipWs u).trans hu).trans hv
  have hshort := hsuffix.length_le
  simp only [List.length_cons] at hshort
  obtain ⟨r, rfl, hr, hrest⟩ := h.members hms (m := m) (by omega)
  exact ⟨c :: v, u, r, rfl, hr.trans hsuffix, hkey, hread, by rw [hq, hrest]⟩

theorem Trims.elems_succ {n m : Nat} (hw : Blank w) (h : Trims φ w n) {c : CodePoint} {s r' : Str}
    {xs : List (Json φ)} (hp : parseElems (n + 1) (c :: (s ++ w)) = some (xs, r'))
    (hm : s.length + 1 < m + 1) :
    ∃ r, r' = r ++ w ∧ r <:+ c :: s ∧ parseElems (m + 1) (c :: s) = some (xs, r) := by
  rw [parseElems] at hp
  rw [parseElems]
  split_ifs at hp ⊢
  · obtain ⟨rfl, rfl⟩ := Prod.mk.inj (Option.some.inj hp)
    exact ⟨s, rfl, List.suffix_cons c s, rfl⟩
  · simp only [Option.bind_eq_bind, Option.bind_eq_some_iff, Option.pure_def,
      Option.some.injEq, Prod.mk.injEq, Prod.exists] at hp ⊢
    obtain ⟨x, t', hx, ys, u', hys, rfl, rfl⟩ := hp
    obtain ⟨d, q', hq'⟩ := parseValue_cons_of_eq_some hx
    obtain ⟨q, rfl, hq⟩ := skipWs_blank hw hq'
    rw [hq'] at hx
    have hsuffix : d :: q <:+ s := hq ▸ suffix_skipWs s
    have hshort := hsuffix.length_le
    simp only [List.length_cons] at hshort
    obtain ⟨t, r, rfl, hr, hread, hrest⟩ := h.cons hw hx hys (m := m) (by omega)
    exact ⟨r, rfl, (hr.trans hsuffix).trans (List.suffix_cons c s), x,
      t, by rw [hq, hread], ys, r, hrest, rfl, rfl⟩

theorem Trims.members_succ {n m : Nat} (hw : Blank w) (h : Trims φ w n) {c : CodePoint} {s r' : Str}
    {ms : List (Str × Json φ)} (hp : parseMembers (n + 1) (c :: (s ++ w)) = some (ms, r'))
    (hm : s.length + 1 < m + 1) :
    ∃ r, r' = r ++ w ∧ 125 :: r <:+ c :: s ∧ parseMembers (m + 1) (c :: s) = some (ms, r) := by
  rw [parseMembers] at hp
  rw [parseMembers]
  split_ifs at hp ⊢ with hbrace
  · obtain ⟨rfl, rfl⟩ := Prod.mk.inj (Option.some.inj hp)
    exact ⟨s, rfl, hbrace ▸ List.suffix_rfl, rfl⟩
  · simp only [Option.bind_eq_bind, Option.bind_eq_some_iff, Option.pure_def,
      Option.some.injEq, Prod.mk.injEq, Prod.exists] at hp ⊢
    obtain ⟨k, t', hk, x, u', hx, ys, v', hys, rfl, rfl⟩ := hp
    obtain ⟨d, q', hq'⟩ := parseKey_cons_of_eq_some hk
    obtain ⟨q, rfl, hq⟩ := skipWs_blank hw hq'
    rw [hq', ← List.cons_append] at hk
    have hsuffix : d :: q <:+ s := hq ▸ suffix_skipWs s
    have hshort := hsuffix.length_le
    obtain ⟨t, u, r, rfl, hr, hkey, hread, hrest⟩ := h.member hw hk hx hys (m := m) (by omega)
    exact ⟨r, rfl, (hr.trans hsuffix).trans (List.suffix_cons c s), k,
      t, by rw [hq, hkey], x, u, hread, ys, r, hrest, rfl, rfl⟩

theorem Trims.value_succ {n m : Nat} (hw : Blank w) (h : Trims φ w n) {c : CodePoint} {s r' : Str}
    {j : Json φ} (hp : parseValue (n + 1) (c :: (s ++ w)) = some (j, r'))
    (hm : s.length + 1 < m + 1) :
    ∃ r, r' = r ++ w ∧ r <:+ c :: s ∧ parseValue (m + 1) (c :: s) = some (j, r) := by
  rw [parseValue] at hp
  rw [parseValue]
  split_ifs at hp ⊢
  · -- a string
    obtain ⟨⟨t, u'⟩, ht, he⟩ := Option.map_eq_some_iff.1 hp
    obtain ⟨rfl, rfl⟩ := Prod.mk.inj he
    obtain ⟨u, rfl, hu, hread⟩ := parseString_blank hw ht
    exact ⟨u, rfl, hu.trans (List.suffix_cons c s), by rw [hread]; rfl⟩
  · -- a list
    split at hp
    · cases hp
    · rename_i d q' hq'
      obtain ⟨q, rfl, hq⟩ := skipWs_blank hw hq'
      have hsuffix : d :: q <:+ s := hq ▸ suffix_skipWs s
      have hshort := hsuffix.length_le
      simp only [List.length_cons] at hshort
      simp only [hq]
      split_ifs at hp ⊢
      · obtain ⟨rfl, rfl⟩ := Prod.mk.inj (Option.some.inj hp)
        exact ⟨q, rfl, ((List.suffix_cons d q).trans hsuffix).trans (List.suffix_cons c s), rfl⟩
      · simp only [Option.bind_eq_bind, Option.bind_eq_some_iff, Option.pure_def,
          Option.some.injEq, Prod.mk.injEq, Prod.exists] at hp ⊢
        obtain ⟨x, t', hx, ys, u', hys, rfl, rfl⟩ := hp
        obtain ⟨t, r, rfl, hr, hread, hrest⟩ := h.cons hw hx hys (m := m) (by omega)
        exact ⟨r, rfl, (hr.trans hsuffix).trans (List.suffix_cons c s), x, t, hread, ys, r,
          hrest, rfl, rfl⟩
  · -- a dictionary
    split at hp
    · cases hp
    · rename_i d q' hq'
      obtain ⟨q, rfl, hq⟩ := skipWs_blank hw hq'
      have hsuffix : d :: q <:+ s := hq ▸ suffix_skipWs s
      have hshort := hsuffix.length_le
      simp only [List.length_cons] at hshort
      simp only [hq]
      split_ifs at hp ⊢
      · obtain ⟨rfl, rfl⟩ := Prod.mk.inj (Option.some.inj hp)
        exact ⟨q, rfl, ((List.suffix_cons d q).trans hsuffix).trans (List.suffix_cons c s), rfl⟩
      · simp only [Option.bind_eq_bind, Option.bind_eq_some_iff, Option.pure_def,
          Option.some.injEq, Prod.mk.injEq, Prod.exists] at hp ⊢
        obtain ⟨k, t', hk, x, u', hx, ys, v', hys, rfl, rfl⟩ := hp
        rw [← List.cons_append] at hk
        obtain ⟨t, u, r, rfl, hr, hkey, hread, hrest⟩ :=
          h.member hw hk hx hys (m := m) (by simp only [List.length_cons]; omega)
        exact ⟨r, rfl, (((List.suffix_cons 125 r).trans hr).trans hsuffix).trans
          (List.suffix_cons c s), k, t,
          hkey, x, u, hread, ys, r, hrest, rfl, rfl⟩
  · -- a constant or a number
    rw [← List.cons_append, parseAtom_blank hw] at hp
    obtain ⟨⟨j', r⟩, hread, he⟩ := Option.map_eq_some_iff.1 hp
    obtain ⟨rfl, rfl⟩ := Prod.mk.inj he
    exact ⟨r, rfl, (joinDoc_parseAtom hread).2, hread⟩

theorem trims (hw : Blank w) (n : Nat) : Trims φ w n := by
  induction n with
  | zero => exact ⟨(fun h => by cases h), (fun h => by cases h), (fun h => by cases h)⟩
  | succ n ih =>
      refine ⟨fun {m} _ _ _ _ hp hm => ?_, fun {m} _ _ _ _ hp hm => ?_, fun {m} _ _ _ _ hp hm => ?_⟩
      · obtain ⟨m, rfl⟩ : ∃ k, m = k + 1 := ⟨m - 1, by omega⟩
        exact ih.value_succ hw hp hm
      · obtain ⟨m, rfl⟩ : ∃ k, m = k + 1 := ⟨m - 1, by omega⟩
        exact ih.elems_succ hw hp hm
      · obtain ⟨m, rfl⟩ : ∃ k, m = k + 1 := ⟨m - 1, by omega⟩
        exact ih.members_succ hw hp hm

/-- A constant or a number is no dictionary. -/
theorem parseAtom_ne_obj {s r : Str} {ms : List (Str × Json φ)} :
    parseAtom s ≠ some (.obj ms, r) := by
  intro h
  rw [parseAtom] at h
  split_ifs at h
  all_goals first
    | cases h
    | obtain ⟨⟨l, t⟩, -, he⟩ := Option.map_eq_some_iff.1 h
      have hj := congrArg Prod.fst he
      simp only [ofLiteral] at hj
      split at hj <;> cases hj

/-- A dictionary stands between braces. -/
theorem braces_of_parseValue {n : Nat} {c : CodePoint} {s r : Str} {ms : List (Str × Json φ)}
    (h : parseValue n (c :: s) = some (.obj ms, r)) : c = 123 ∧ 125 :: r <:+ s := by
  cases n with
  | zero => cases h
  | succ n =>
      rw [parseValue] at h
      split_ifs at h with hquote hbracket hbrace
      · obtain ⟨p, -, he⟩ := Option.map_eq_some_iff.1 h
        cases he
      · split at h
        · cases h
        · split_ifs at h
          · cases h
          · simp only [Option.bind_eq_bind, Option.bind_eq_some_iff, Option.pure_def,
              Option.some.injEq, Prod.mk.injEq, reduceCtorEq, false_and, and_false,
              exists_false] at h
      · refine ⟨hbrace, ?_⟩
        split at h
        · cases h
        · rename_i d q hq
          have hsuffix : d :: q <:+ s := hq ▸ suffix_skipWs s
          split_ifs at h with hend
          · obtain ⟨-, rfl⟩ := Prod.mk.inj (Option.some.inj h)
            exact hend ▸ hsuffix
          · simp only [Option.bind_eq_bind, Option.bind_eq_some_iff, Option.pure_def,
              Option.some.injEq, Prod.mk.injEq, Prod.exists] at h
            obtain ⟨k, t, hk, x, u, hx, ys, v, hys, -, rfl⟩ := h
            rw [← List.append_nil (d :: q)] at hk
            obtain ⟨-, -, r, rfl, hr, -⟩ :=
              (trims blank_nil n).member blank_nil hk hx hys (Nat.lt_succ_self _)
            rw [List.append_nil]
            exact hr.trans hsuffix
      · exact absurd h parseAtom_ne_obj

/-- A text that is read as a dictionary is one between braces, with whitespace around it. -/
theorem parse_obj_trim {text : Str} {ms : List (Str × Json φ)} (h : parse text = some (.obj ms)) :
    ∃ w₁ b w₂, Blank w₁ ∧ Blank w₂ ∧ text = w₁ ++ (123 :: (b ++ [125]) ++ w₂) ∧
      parse (123 :: (b ++ [125])) = some (.obj ms) := by
  rw [parse] at h
  split_ifs at h
  simp only [Option.bind_eq_bind, Option.bind_eq_some_iff, Prod.exists] at h
  obtain ⟨j, w, hread, hend⟩ := h
  split_ifs at hend with hblank
  obtain rfl : j = .obj ms := Option.some.inj hend
  have hw : Blank w := List.dropWhile_eq_nil_iff.1 hblank
  obtain ⟨c, s, hs⟩ := parseValue_cons_of_eq_some hread
  rw [hs] at hread
  obtain ⟨rfl, b, rfl⟩ := braces_of_parseValue hread
  have hsplit : b ++ 125 :: w = b ++ [125] ++ w := by simp
  rw [hsplit] at hread hs
  obtain ⟨r, hr, -, hread'⟩ := (trims hw _).value hread (Nat.lt_succ_self _)
  obtain rfl : r = [] := by
    have hlength := congrArg List.length hr
    rw [List.length_append] at hlength
    exact List.length_eq_zero_iff.1 (by omega)
  refine ⟨text.takeWhile isJsonSpace, b, w, fun c hc => (List.mem_takeWhile_imp hc), hw, ?_, ?_⟩
  · rw [List.cons_append, ← hs]
    exact List.takeWhile_append_dropWhile.symm
  · have hsolid : skipWs (123 :: (b ++ [125])) = 123 :: (b ++ [125]) :=
      skipWs_solid ⟨123, _, rfl, by decide⟩
    have hfuel : parseValue ((123 :: (b ++ [125])).length + 1) (123 :: (b ++ [125])) =
        some (Json.obj ms, []) := hread'
    rw [parse, if_neg (by simp), hsolid, hfuel]
    rfl

end

end Py
