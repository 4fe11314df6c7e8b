import ShugoCore.Lib.Json

/-!
# Reading back what was written

`parse` after `render` gives the document back, except that a surrogate pair in
a string has become one character.  The proof follows the grammar: escapes,
strings, numbers, then values by recursion on the document, each with the text
that follows it.
-/

namespace Py

variable {φ : Type}

/-! ## Escapes -/

theorem hexValue_hexDigit {d : Nat} (h : d < 16) : hexValue (hexDigit d) = some d := by
  have hall : ∀ d : Fin 16, hexValue (hexDigit d.val) = some d.val := by decide
  exact hall ⟨d, h⟩

/-- Four digits are read back as the number they were written for. -/
theorem scanHex_digits {n : Nat} (h : n < 0x10000) (s : Str) :
    scanHex (hexDigit (n / 4096 % 16) :: hexDigit (n / 256 % 16) :: hexDigit (n / 16 % 16) ::
      hexDigit (n % 16) :: s) = some (Fin.ofNat 0x110000 n, s) := by
  have hsum : n / 4096 % 16 * 4096 + n / 256 % 16 * 256 + n / 16 % 16 * 16 + n % 16 = n := by
    omega
  simp only [scanHex, hexValue_hexDigit (Nat.mod_lt _ (by decide : 0 < 16)), Option.bind_eq_bind,
    Option.bind_some, Option.pure_def, hsum]

theorem scanLow_unicodeEscape {n : Nat} (h : n < 0x10000) (s : Str) :
    scanLow (unicodeEscape n ++ s) =
      if isLow (Fin.ofNat 0x110000 n) then some (Fin.ofNat 0x110000 n, s) else none := by
  simp only [unicodeEscape, List.cons_append, List.nil_append, scanLow, and_self, if_true,
    scanHex_digits h, Option.filter_some]

theorem scanChar_unicodeEscape {n : Nat} (h : n < 0x10000) (s : Str) :
    scanChar (unicodeEscape n ++ s) =
      some (if isHigh (Fin.ofNat 0x110000 n) then scanPair (Fin.ofNat 0x110000 n) s
        else (Fin.ofNat 0x110000 n, s)) := by
  simp only [unicodeEscape, List.cons_append, List.nil_append, scanChar, if_true, scanUnicode,
    scanHex_digits h, Option.map_some]

theorem shortUnescape_shortEscape {c e : CodePoint} (h : shortEscape c = some e) :
    shortUnescape e = some c ∧ e ≠ 117 := by
  unfold shortEscape at h
  split_ifs at h with h1 h2 h3 h4 h5 h6 h7 <;> cases h <;> subst c <;> decide

theorem shortEscape_eq_none {c : CodePoint} (h : shortEscape c = none) : c ≠ 34 ∧ c ≠ 92 := by
  unfold shortEscape at h
  split_ifs at h with h1 h2
  exact ⟨h1, h2⟩

/-- Beyond ASCII there are no short escapes. -/
theorem shortEscape_of_ge {c : CodePoint} (h : 0x80 ≤ c.val) : shortEscape c = none := by
  simp only [shortEscape]
  split_ifs with h1 h2 h3 h4 h5 h6 h7 <;> first | rfl | (subst c; exact absurd h (by decide))

/-- Surrogates have no short escape and are not printable. -/
theorem escapeChar_of_surrogate {c : CodePoint} (h : isSurrogate c = true) :
    escapeChar c = unicodeEscape c.val := by
  have hb : 0xD800 ≤ c.val ∧ c.val ≤ 0xDFFF := by simpa [isSurrogate] using h
  simp only [escapeChar, shortEscape_of_ge (show 0x80 ≤ c.val by omega)]
  rw [if_neg (by omega), if_pos (by omega)]

/-- A character beyond the basic plane is written as its two halves. -/
theorem escapeChar_of_astral {c : CodePoint} (h : 0x10000 ≤ c.val) :
    escapeChar c = unicodeEscape (0xD800 + (c.val - 0x10000) / 0x400) ++
      unicodeEscape (0xDC00 + (c.val - 0x10000) % 0x400) := by
  simp only [escapeChar, shortEscape_of_ge (show 0x80 ≤ c.val by omega)]
  rw [if_neg (by omega), if_neg (by omega)]

theorem ofNat_val (c : CodePoint) : Fin.ofNat 0x110000 c.val = c :=
  Fin.ext (Nat.mod_eq_of_lt c.isLt)

/-- A character that does not start a pair is read back. -/
theorem scanChar_escapeChar {c : CodePoint} (h : isHigh c = false) (s : Str) :
    scanChar (escapeChar c ++ s) = some (c, s) := by
  cases hshort : shortEscape c with
  | some e =>
      obtain ⟨hun, hne⟩ := shortUnescape_shortEscape hshort
      simp [escapeChar, hshort, scanChar, hne, hun]
  | none =>
      obtain ⟨-, hne⟩ := shortEscape_eq_none hshort
      simp only [escapeChar, hshort]
      split_ifs with hprint hbmp
      · have hge : ¬ c.val < 0x20 := by omega
        simp [scanChar, hne, hge]
      · rw [scanChar_unicodeEscape hbmp, ofNat_val, h]
        simp
      · -- Two escapes, for the two halves of the character.
        have hlt := c.isLt
        have hhigh : (Fin.ofNat 0x110000 (0xD800 + (c.val - 0x10000) / 0x400)).val =
            0xD800 + (c.val - 0x10000) / 0x400 := Nat.mod_eq_of_lt (by omega)
        have hlow : (Fin.ofNat 0x110000 (0xDC00 + (c.val - 0x10000) % 0x400)).val =
            0xDC00 + (c.val - 0x10000) % 0x400 := Nat.mod_eq_of_lt (by omega)
        have hh : isHigh (Fin.ofNat 0x110000 (0xD800 + (c.val - 0x10000) / 0x400)) = true := by
          rw [isHigh_iff, hhigh]
          omega
        have hl : isLow (Fin.ofNat 0x110000 (0xDC00 + (c.val - 0x10000) % 0x400)) = true := by
          rw [isLow_iff, hlow]
          omega
        have hjoin : joinPair (Fin.ofNat 0x110000 (0xD800 + (c.val - 0x10000) / 0x400))
            (Fin.ofNat 0x110000 (0xDC00 + (c.val - 0x10000) % 0x400)) = c := by
          apply Fin.ext
          rw [joinPair_val hh hl, hhigh, hlow]
          omega
        rw [List.append_assoc, scanChar_unicodeEscape (by omega), hh, if_pos rfl, scanPair,
          scanLow_unicodeEscape (by omega), hl, if_pos rfl]
        simp only [hjoin]

/-- A leading surrogate is read back with what follows it. -/
theorem scanChar_escapeChar_high {c : CodePoint} (h : isHigh c = true) (s : Str) :
    scanChar (escapeChar c ++ s) = some (scanPair c s) := by
  have hb := isHigh_iff.1 h
  have hs : isSurrogate c = true := by
    simp only [isSurrogate, Bool.and_eq_true, decide_eq_true_eq]
    omega
  rw [escapeChar_of_surrogate hs, scanChar_unicodeEscape (by omega), ofNat_val, h, if_pos rfl]

/-- An escape is that of a trailing surrogate exactly when its character is one. -/
theorem scanLow_escapeChar (c : CodePoint) (s : Str) :
    scanLow (escapeChar c ++ s) = if isLow c then some (c, s) else none := by
  cases hl : isLow c with
  | true =>
      have hb := isLow_iff.1 hl
      have hs : isSurrogate c = true := by
        simp only [isSurrogate, Bool.and_eq_true, decide_eq_true_eq]
        omega
      rw [escapeChar_of_surrogate hs, scanLow_unicodeEscape (by omega), ofNat_val, hl]
  | false =>
      rw [if_neg Bool.false_ne_true]
      cases hshort : shortEscape c with
      | some e =>
          have hne := (shortUnescape_shortEscape hshort).2
          simp [escapeChar, hshort, scanLow, hne]
      | none =>
          have hne := (shortEscape_eq_none hshort).2
          simp only [escapeChar, hshort]
          split_ifs with hprint hbmp
          · cases s with
            | nil => rfl
            | cons d s => simp [scanLow, hne]
          · rw [scanLow_unicodeEscape hbmp, ofNat_val, hl]
            rfl
          · -- The first half of an astral character is a leading surrogate.
            have hlt := c.isLt
            have hval : (Fin.ofNat 0x110000 (0xD800 + (c.val - 0x10000) / 0x400)).val =
                0xD800 + (c.val - 0x10000) / 0x400 := Nat.mod_eq_of_lt (by omega)
            have hnl : isLow (Fin.ofNat 0x110000 (0xD800 + (c.val - 0x10000) / 0x400)) = false := by
              rw [Bool.eq_false_iff]
              intro hc
              rw [isLow_iff, hval] at hc
              omega
            rw [List.append_assoc, scanLow_unicodeEscape (by omega), hnl]
            rfl

/-! ## Strings -/

theorem escapeChar_ne_nil (c : CodePoint) : escapeChar c ≠ [] := by
  simp only [escapeChar]
  split
  · simp
  · split_ifs <;> simp [unicodeEscape]

/-- The escape of a character does not begin with a quote. -/
theorem escapeChar_head (c : CodePoint) : ∃ d s, escapeChar c = d :: s ∧ d ≠ 34 := by
  simp only [escapeChar]
  split
  · exact ⟨_, _, rfl, by decide⟩
  · rename_i hshort
    split_ifs
    · exact ⟨_, _, rfl, (shortEscape_eq_none hshort).1⟩
    · exact ⟨_, _, rfl, by decide⟩
    · exact ⟨_, _, rfl, by decide⟩

/-- What follows a leading surrogate in the text of a string. -/
theorem scanPair_flatMap (c : CodePoint) (t s : Str) :
    scanPair c (t.flatMap escapeChar ++ 34 :: s) =
      match t with
      | [] => (c, 34 :: s)
      | l :: t =>
          if isLow l then (joinPair c l, t.flatMap escapeChar ++ 34 :: s)
          else (c, (l :: t).flatMap escapeChar ++ 34 :: s) := by
  cases t with
  | nil => cases s <;> simp [scanPair, scanLow]
  | cons l t =>
      rw [List.flatMap_cons, List.append_assoc, scanPair, scanLow_escapeChar]
      cases hl : isLow l <;> simp [hl]

theorem scanString_step {c d : CodePoint} {r r' : Str}
    (h : scanChar (escapeChar c ++ r) = some (d, r')) (n : Nat) :
    scanString (n + 1) (escapeChar c ++ r) = (scanString n r').map fun p => (d :: p.1, p.2) := by
  obtain ⟨e, t, he, hne⟩ := escapeChar_head c
  rw [he, List.cons_append] at h ⊢
  rw [scanString, if_neg hne, h]
  simp only [Option.bind_eq_bind, Option.bind_some, Option.pure_def]
  cases scanString n r' <;> rfl

/-- A string is read back joined. -/
theorem scanString_flatMap (t : Str) {n : Nat} (hn : (t.flatMap escapeChar).length < n) (s : Str) :
    scanString n (t.flatMap escapeChar ++ 34 :: s) = some (join t, s) := by
  obtain ⟨n, rfl⟩ : ∃ m, n = m + 1 := ⟨n - 1, by omega⟩
  -- The recursion is that of `join`, with the fuel left over in each case.
  fun_induction join t generalizing n with
  | case1 => simp [scanString]
  | case2 c =>
      have hlen := List.length_pos_of_ne_nil (escapeChar_ne_nil c)
      simp only [List.flatMap_cons, List.flatMap_nil, List.append_nil] at hn ⊢
      have hchar : scanChar (escapeChar c ++ 34 :: s) = some (c, 34 :: s) := by
        cases hc : isHigh c with
        | false => exact scanChar_escapeChar hc _
        | true =>
            rw [scanChar_escapeChar_high hc]
            exact congrArg some (scanPair_flatMap c [] s)
      obtain ⟨n, rfl⟩ : ∃ m, n = m + 1 := ⟨n - 1, by omega⟩
      rw [scanString_step hchar]
      simp [scanString]
  | case3 h l t hp ih =>
      rw [Bool.and_eq_true] at hp
      have hlen := List.length_pos_of_ne_nil (escapeChar_ne_nil h)
      simp only [List.flatMap_cons, List.length_append, List.append_assoc] at hn ⊢
      have hchar : scanChar (escapeChar h ++ (escapeChar l ++ (t.flatMap escapeChar ++ 34 :: s))) =
          some (joinPair h l, t.flatMap escapeChar ++ 34 :: s) := by
        rw [scanChar_escapeChar_high hp.1]
        have hpair := scanPair_flatMap h (l :: t) s
        rw [List.flatMap_cons, List.append_assoc] at hpair
        rw [hpair]
        simp [hp.2]
      obtain ⟨n, rfl⟩ : ∃ m, n = m + 1 := ⟨n - 1, by omega⟩
      rw [scanString_step hchar, ih n (by omega)]
      rfl
  | case4 h l t hp ih =>
      have hlen := List.length_pos_of_ne_nil (escapeChar_ne_nil h)
      rw [List.flatMap_cons, List.append_assoc]
      rw [List.flatMap_cons, List.length_append] at hn
      have hchar : scanChar (escapeChar h ++ ((l :: t).flatMap escapeChar ++ 34 :: s)) =
          some (h, (l :: t).flatMap escapeChar ++ 34 :: s) := by
        cases hh : isHigh h with
        | false => exact scanChar_escapeChar hh _
        | true =>
            have hl : isLow l = false := by simpa [hh] using hp
            rw [scanChar_escapeChar_high hh, scanPair_flatMap]
            simp [hl]
      obtain ⟨n, rfl⟩ : ∃ m, n = m + 1 := ⟨n - 1, by omega⟩
      rw [scanString_step hchar, ih n (by omega)]
      rfl

/-- A string literal is read back joined. -/
theorem parseString_quoted (t s : Str) :
    parseString (t.flatMap escapeChar ++ 34 :: s) = some (join t, s) := by
  rw [parseString, scanString_flatMap]
  simp only [List.length_append, List.length_cons]
  omega

/-! ## Numbers -/

/-- The text does not go on with a digit, a point or an exponent. -/
def Stops (s : Str) : Prop := ∀ c ∈ s.head?, isDigit c = false ∧ c ≠ 46 ∧ c ≠ 101 ∧ c ≠ 69

namespace Literal

theorem digit_val {d : Nat} (h : d < 10) : (digit d).val = 48 + d :=
  Nat.mod_eq_of_lt (by omega)

theorem isDigit_digit {d : Nat} (h : d < 10) : isDigit (digit d) = true := by
  simp only [isDigit, digit_val h, Bool.and_eq_true, decide_eq_true_eq]
  omega

/-- A run of digits before something else is read back. -/
theorem scanDigits_map {ds : List Nat} (hd : ∀ d ∈ ds, d < 10) {s : Str}
    (hs : ∀ c ∈ s.head?, isDigit c = false) : scanDigits (ds.map digit ++ s) = (ds, s) := by
  have hall : ∀ c ∈ ds.map digit, isDigit c = true := by
    simp only [List.mem_map]
    rintro c ⟨d, hm, rfl⟩
    exact isDigit_digit (hd d hm)
  have hstop : s.takeWhile isDigit = [] ∧ s.dropWhile isDigit = s := by
    cases s with
    | nil => exact ⟨rfl, rfl⟩
    | cons c s => simp [hs c rfl]
  have hvals : (ds.map digit).map (fun c => c.val - 48) = ds := by
    rw [List.map_map]
    refine (List.map_congr_left ?_).trans (List.map_id ds)
    intro d hm
    simp [digit_val (hd d hm)]
  simp only [scanDigits, List.takeWhile_append_of_pos hall, List.dropWhile_append_of_pos hall,
    hstop.1, hstop.2, List.append_nil, hvals]

theorem scanFrac_fracText {ds : List Nat} (hd : ∀ d ∈ ds, d < 10) {s : Str}
    (hs : ∀ c ∈ s.head?, isDigit c = false ∧ c ≠ 46) : scanFrac (fracText ds ++ s) = (ds, s) := by
  cases ds with
  | nil =>
      cases s with
      | nil => rfl
      | cons c s => simp [fracText, scanFrac, (hs c rfl).2]
  | cons d ds =>
      have hscan := scanDigits_map hd (fun c hc => (hs c hc).1)
      simp only [fracText, List.cons_append, scanFrac, hscan]
      simp

theorem scanExp_expText {e : Option (ExpSign × List Nat)}
    (he : ∀ p ∈ e, p.2 ≠ [] ∧ ∀ d ∈ p.2, d < 10) {s : Str} (hs : Stops s) :
    scanExp (expText e ++ s) = (e, s) := by
  cases e with
  | none =>
      cases s with
      | nil => rfl
      | cons c s => simp [expText, scanExp, (hs c rfl).2.2.1, (hs c rfl).2.2.2]
  | some p =>
      obtain ⟨sign, ds⟩ := p
      obtain ⟨hne, hd⟩ := he (sign, ds) rfl
      have hscan := scanDigits_map hd (fun c hc => (hs c hc).1)
      have hsign : scanSign (signText sign ++ (ds.map digit ++ s)) = (sign, ds.map digit ++ s) := by
        cases sign with
        | plus => rfl
        | minus => rfl
        | none =>
            cases ds with
            | nil => exact absurd rfl hne
            | cons d ds =>
                have hdig := isDigit_digit (hd d List.mem_cons_self)
                have hp : digit d ≠ 43 := by
                  intro h
                  rw [h] at hdig
                  exact absurd hdig (by decide)
                have hm : digit d ≠ 45 := by
                  intro h
                  rw [h] at hdig
                  exact absurd hdig (by decide)
                simp [signText, scanSign, hp, hm]
      simp [expText, scanExp, hsign, hscan, hne]

theorem scanInt_map {ds : List Nat} (hd : ∀ d ∈ ds, d < 10)
    (hh : ds = [0] ∨ ∃ d ds', ds = d :: ds' ∧ d ≠ 0) {s : Str}
    (hs : ∀ c ∈ s.head?, isDigit c = false) : scanInt (ds.map digit ++ s) = some (ds, s) := by
  rcases hh with rfl | ⟨d, ds', rfl, hne⟩
  · rfl
  · have hlt := hd d List.mem_cons_self
    have hnz : digit d ≠ 48 := by
      intro h
      have hv := congrArg Fin.val h
      rw [digit_val hlt] at hv
      simp at hv
      exact hne hv
    have hscan := scanDigits_map hd hs
    rw [List.map_cons, List.cons_append] at hscan ⊢
    rw [scanInt, if_neg hnz, if_pos (isDigit_digit hlt), hscan]

theorem wf_ofInt (i : Int) : (ofInt i).WF where
  int_digits := by
    intro d hd
    simp only [ofInt] at hd
    split_ifs at hd with h
    · simp at hd
      omega
    · rw [List.mem_reverse] at hd
      exact Nat.digits_lt_base (by decide) hd
  int_head := by
    by_cases h : i = 0
    · exact .inl (by simp [ofInt, h])
    · right
      have hn : i.natAbs ≠ 0 := by omega
      have hne : Nat.digits 10 i.natAbs ≠ [] := Nat.digits_ne_nil_iff_ne_zero.2 hn
      refine ⟨_, (Nat.digits 10 i.natAbs).dropLast.reverse, ?_, Nat.getLast_digit_ne_zero 10 hn⟩
      simp only [ofInt, if_neg h]
      conv_lhs => rw [← List.dropLast_append_getLast hne]
      rw [List.reverse_append]
      rfl
  frac_digits := by simp [ofInt]
  exp_digits := by simp [ofInt]

theorem toInt_ofInt (i : Int) : (ofInt i).toInt = i := by
  by_cases h : i = 0
  · subst h
    rfl
  · simp only [toInt, ofInt, if_neg h, List.reverse_reverse, Nat.ofDigits_digits]
    split_ifs with hneg
    · have : i < 0 := by simpa using hneg
      omega
    · have : ¬ i < 0 := by simpa using hneg
      omega

theorem expText_head (e : Option (ExpSign × List Nat)) {s : Str} (hs : Stops s) :
    ∀ c ∈ (expText e ++ s).head?, isDigit c = false ∧ c ≠ 46 := by
  cases e with
  | none => exact fun c hc => ⟨(hs c hc).1, (hs c hc).2.1⟩
  | some p =>
      intro c hc
      cases hc
      decide

theorem fracText_head (ds : List Nat) {s : Str}
    (hs : ∀ c ∈ s.head?, isDigit c = false ∧ c ≠ 46) :
    ∀ c ∈ (fracText ds ++ s).head?, isDigit c = false := by
  cases ds with
  | nil => exact fun c hc => (hs c hc).1
  | cons d ds =>
      intro c hc
      cases hc
      decide

/-- A well-formed literal begins with a minus sign or with a digit. -/
theorem WF.int_cons {l : Literal} (h : l.WF) : ∃ d ds, l.int = d :: ds ∧ d < 10 := by
  have hd := h.int_digits
  rcases h.int_head with he | ⟨d, ds, he, -⟩
  · exact ⟨0, [], he, by decide⟩
  · rw [he] at hd
    exact ⟨d, ds, he, hd d List.mem_cons_self⟩

theorem scanMinus_text {l : Literal} (h : l.WF) (s : Str) :
    scanMinus ((if l.neg then [45] else []) ++ (l.int.map digit ++ s)) =
      (l.neg, l.int.map digit ++ s) := by
  cases l.neg with
  | true => simp [scanMinus]
  | false =>
      obtain ⟨d, ds, he, hlt⟩ := h.int_cons
      have hne : digit d ≠ 45 := by
        intro hd
        have hdig := isDigit_digit hlt
        rw [hd] at hdig
        exact absurd hdig (by decide)
      simp [he, scanMinus, hne]

/-- A literal before something else is read back. -/
theorem scanNumber_text {l : Literal} (h : l.WF) {s : Str} (hs : Stops s) :
    scanNumber (l.text ++ s) = some (l, s) := by
  have hexp := expText_head l.exp hs
  have hfrac := fracText_head l.frac hexp
  simp only [scanNumber, text, List.append_assoc, scanMinus_text h,
    scanInt_map h.int_digits h.int_head hfrac, scanFrac_fracText h.frac_digits hexp,
    scanExp_expText h.exp_digits hs, Option.bind_eq_bind, Option.bind_some, Option.pure_def]

/-- A literal is read as a number and as none of the constants. -/
theorem parseAtom_text [FloatFormat φ] {l : Literal} (h : l.WF) {s : Str} (hs : Stops s) :
    parseAtom (l.text ++ s) = some ((ofLiteral l : Json φ), s) := by
  obtain ⟨d, ds, he, hlt⟩ := h.int_cons
  have hv := digit_val hlt
  have hne : ∀ c : CodePoint, 58 ≤ c.val → c ≠ digit d := by
    rintro c hc rfl
    omega
  have hminus : (45 : CodePoint) ≠ digit d := by
    intro hd
    rw [← hd] at hv
    exact absurd hv (by simp; omega)
  have hhead : ∃ t, l.text ++ s = digit d :: t ∨ l.text ++ s = 45 :: digit d :: t := by
    cases hneg : l.neg with
    | true => exact ⟨_, .inr (by simp only [text, hneg, he]; rfl)⟩
    | false => exact ⟨_, .inl (by simp only [text, hneg, he]; rfl)⟩
  have hscan := scanNumber_text h hs
  rw [parseAtom, hscan]
  obtain ⟨t, ht | ht⟩ := hhead
  · simp [ht, nullText, trueText, falseText, nanText, infinityText, negInfinityText, hne, hminus]
  · simp [ht, nullText, trueText, falseText, nanText, infinityText, negInfinityText, hne]

end Literal

/-! ## Documents -/

mutual

/-- A document with every string joined. -/
def joinDoc : Json φ → Json φ
  | .null => .null
  | .bool b => .bool b
  | .int i => .int i
  | .float x => .float x
  | .str s => .str (join s)
  | .arr xs => .arr (joinElems xs)
  | .obj ms => .obj (joinMembers ms)

/-- Element by element. -/
def joinElems : List (Json φ) → List (Json φ)
  | [] => []
  | x :: xs => joinDoc x :: joinElems xs

/-- Member by member, keys included. -/
def joinMembers : List (Str × Json φ) → List (Str × Json φ)
  | [] => []
  | (k, x) :: ms => (join k, joinDoc x) :: joinMembers ms

end

/-- Separators that a reader skips: a comma and a colon, each with spaces after it. -/
structure Separators.Standard (sep : Separators) : Prop where
  item : ∃ w, sep.item = 44 :: w ∧ ∀ c ∈ w, isJsonSpace c = true
  key : ∃ w, sep.key = 58 :: w ∧ ∀ c ∈ w, isJsonSpace c = true

theorem standard_spaced : spaced.Standard :=
  ⟨⟨[32], rfl, by simp [isJsonSpace]⟩, ⟨[32], rfl, by simp [isJsonSpace]⟩⟩

theorem standard_compact : compact.Standard :=
  ⟨⟨[], rfl, by simp⟩, ⟨[], rfl, by simp⟩⟩

/-- The text begins with something that is no space. -/
def Solid (s : Str) : Prop := ∃ c t, s = c :: t ∧ isJsonSpace c = false

theorem skipWs_solid {s : Str} (h : Solid s) : skipWs s = s := by
  obtain ⟨c, t, rfl, hc⟩ := h
  rw [skipWs, List.dropWhile_cons_of_neg (by simp [hc])]

theorem skipWs_spaces {w s : Str} (hw : ∀ c ∈ w, isJsonSpace c = true) (h : Solid s) :
    skipWs (w ++ s) = s := by
  rw [skipWs, List.dropWhile_append_of_pos hw]
  exact skipWs_solid h

theorem Solid.append {s : Str} (h : Solid s) (t : Str) : Solid (s ++ t) := by
  obtain ⟨c, s, rfl, hc⟩ := h
  exact ⟨c, s ++ t, rfl, hc⟩

theorem solid_quoted (s : Str) : Solid (quoted s) := ⟨34, _, rfl, by decide⟩

/-- A character that a value may begin with: in ASCII, no space and no closing
bracket. -/
def OpensValue (c : CodePoint) : Prop := isJsonSpace c = false ∧ c ≠ 93 ∧ c.val < 0x80

instance (c : CodePoint) : Decidable (OpensValue c) := inferInstanceAs (Decidable (_ ∧ _))

theorem Literal.text_head {l : Literal} (h : l.WF) : ∃ c t, l.text = c :: t ∧ OpensValue c := by
  obtain ⟨d, ds, he, hlt⟩ := h.int_cons
  cases hneg : l.neg with
  | true => exact ⟨45, _, by simp only [text, hneg, he]; rfl, by decide⟩
  | false =>
      have hall : ∀ d : Fin 10, OpensValue (digit d.val) := by decide
      exact ⟨digit d, _, by simp only [text, hneg, he]; rfl, hall ⟨d, hlt⟩⟩

theorem render_head [FloatFormat φ] (sep : Separators) (j : Json φ) :
    ∃ c t, render sep j = c :: t ∧ OpensValue c := by
  cases j with
  | null => exact ⟨_, _, rfl, by decide⟩
  | bool b => cases b <;> exact ⟨_, _, rfl, by decide⟩
  | int i => exact Literal.text_head (Literal.wf_ofInt i)
  | float x =>
      cases x with
      | nan => exact ⟨_, _, rfl, by decide⟩
      | posInf => exact ⟨_, _, rfl, by decide⟩
      | negInf => exact ⟨_, _, rfl, by decide⟩
      | finite x => exact Literal.text_head (FloatFormat.repr_wf x)
  | str s => exact ⟨34, _, rfl, by decide⟩
  | arr xs => cases xs <;> exact ⟨_, _, rfl, by decide⟩
  | obj ms => rcases ms with _ | ⟨⟨k, x⟩, ms⟩ <;> exact ⟨_, _, rfl, by decide⟩

section

variable [FloatFormat φ]

theorem solid_render (sep : Separators) (j : Json φ) : Solid (render sep j) := by
  obtain ⟨c, t, he, hc⟩ := render_head sep j
  exact ⟨c, t, he, hc.1⟩

/-- What follows a value inside a list or a dictionary. -/
theorem renderElems_next {sep : Separators} (h : sep.Standard) (xs : List (Json φ)) (s : Str) :
    Solid (renderElems sep xs ++ s) ∧ Stops (renderElems sep xs ++ s) := by
  obtain ⟨w, hw, -⟩ := h.item
  cases xs with
  | nil =>
      refine ⟨⟨93, s, rfl, by decide⟩, ?_⟩
      intro c hc
      cases hc
      decide
  | cons x xs =>
      rw [renderElems, hw]
      refine ⟨⟨44, _, rfl, by decide⟩, ?_⟩
      intro c hc
      cases hc
      decide

theorem renderMembers_next {sep : Separators} (h : sep.Standard) (ms : List (Str × Json φ))
    (s : Str) : Solid (renderMembers sep ms ++ s) ∧ Stops (renderMembers sep ms ++ s) := by
  obtain ⟨w, hw, -⟩ := h.item
  rcases ms with _ | ⟨⟨k, x⟩, ms⟩
  · refine ⟨⟨125, s, rfl, by decide⟩, ?_⟩
    intro c hc
    cases hc
    decide
  · rw [renderMembers, hw]
    refine ⟨⟨44, _, rfl, by decide⟩, ?_⟩
    intro c hc
    cases hc
    decide

end

/-- A key and its colon are read back. -/
theorem parseKey_quoted {sep : Separators} (h : sep.Standard) (k : Str) {s : Str} (hs : Solid s) :
    parseKey (quoted k ++ (sep.key ++ s)) = some (join k, s) := by
  obtain ⟨w, hw, hsp⟩ := h.key
  have hstr := parseString_quoted k (sep.key ++ s)
  have hskip : skipWs (sep.key ++ s) = 58 :: (w ++ s) := by
    rw [hw]
    exact skipWs_solid ⟨58, _, rfl, by decide⟩
  simp only [quoted, List.cons_append, List.append_assoc, List.nil_append, parseKey, if_true, hstr,
    Option.bind_eq_bind, Option.bind_some, hskip, skipWs_spaces hsp hs]

section

variable [FloatFormat φ]

/-- A text that begins like no string, list or dictionary is an atom. -/
theorem parseValue_atom {c : CodePoint} (hq : c ≠ 34) (hl : c ≠ 91) (ho : c ≠ 123) (n : Nat)
    (s : Str) : parseValue (n + 1) (c :: s) = (parseAtom (c :: s) : Option (Json φ × Str)) := by
  rw [parseValue, if_neg hq, if_neg hl, if_neg ho]

theorem Literal.parseValue_text {l : Literal} (h : l.WF) {s : Str} (hs : Stops s) (n : Nat) :
    parseValue (n + 1) (l.text ++ s) = some ((ofLiteral l : Json φ), s) := by
  obtain ⟨d, ds, he, hlt⟩ := h.int_cons
  have hatom := parseAtom_text (φ := φ) h hs
  have hhead : ∃ c t, l.text ++ s = c :: t ∧ c.val < 58 ∧ c ≠ 34 := by
    cases hneg : l.neg with
    | true => exact ⟨45, _, by simp only [text, hneg, he]; rfl, by decide, by decide⟩
    | false =>
        have hall : ∀ d : Fin 10, (digit d.val).val < 58 ∧ digit d.val ≠ 34 := by decide
        exact ⟨digit d, _, by simp only [text, hneg, he]; rfl, hall ⟨d, hlt⟩⟩
  obtain ⟨c, t, ht, hc, hq⟩ := hhead
  rw [ht] at hatom ⊢
  rw [parseValue_atom hq (by rintro rfl; exact absurd hc (by decide))
    (by rintro rfl; exact absurd hc (by decide)), hatom]

theorem parseValue_arr {n : Nat} {r s s₁ s₂ : Str} {d : CodePoint} {x : Json φ}
    {xs : List (Json φ)} (hr : skipWs r = d :: s) (hd : d ≠ 93)
    (hx : parseValue n (d :: s) = some (x, s₁))
    (hxs : parseElems n (skipWs s₁) = some (xs, s₂)) :
    parseValue (n + 1) (91 :: r) = some (.arr (x :: xs), s₂) := by
  rw [parseValue, if_neg (by decide), if_pos rfl]
  simp only [hr, if_neg hd, hx, hxs, Option.bind_eq_bind, Option.bind_some, Option.pure_def]

theorem parseValue_obj {n : Nat} {r s s₁ s₂ s₃ : Str} {d : CodePoint} {k : Str} {x : Json φ}
    {ms : List (Str × Json φ)} (hr : skipWs r = d :: s) (hd : d ≠ 125)
    (hk : parseKey (d :: s) = some (k, s₁)) (hx : parseValue n s₁ = some (x, s₂))
    (hms : parseMembers n (skipWs s₂) = some (ms, s₃)) :
    parseValue (n + 1) (123 :: r) = some (.obj ((k, x) :: ms), s₃) := by
  rw [parseValue, if_neg (by decide), if_neg (by decide), if_pos rfl]
  simp only [hr, if_neg hd, hk, hx, hms, Option.bind_eq_bind, Option.bind_some, Option.pure_def]

theorem ofLiteral_ofInt (i : Int) : (ofLiteral (Literal.ofInt i) : Json φ) = .int i := by
  rw [ofLiteral, if_neg (by simp [Literal.isFloat, Literal.ofInt]), Literal.toInt_ofInt]

theorem ofLiteral_repr (x : φ) : (ofLiteral (FloatFormat.repr x) : Json φ) = .float (.finite x) := by
  rw [ofLiteral, if_pos (FloatFormat.repr_isFloat x), FloatFormat.read_repr]

mutual

/-- A value before something else is read back joined. -/
theorem parseValue_render {sep : Separators} (h : sep.Standard) :
    ∀ (j : Json φ) (n : Nat), (render sep j).length ≤ n → ∀ s, Stops s →
      parseValue (n + 1) (render sep j ++ s) = some (joinDoc j, s)
  | .null, _, _, _, _ => rfl
  | .bool true, _, _, _, _ => rfl
  | .bool false, _, _, _, _ => rfl
  | .int i, n, _, s, hs => by
      rw [render, Literal.parseValue_text (Literal.wf_ofInt i) hs, ofLiteral_ofInt]
      rfl
  | .float .nan, _, _, _, _ => rfl
  | .float .posInf, _, _, _, _ => rfl
  | .float .negInf, _, _, _, _ => rfl
  | .float (.finite x), n, _, s, hs => by
      rw [render, floatText, Literal.parseValue_text (FloatFormat.repr_wf x) hs, ofLiteral_repr]
      rfl
  | .str t, n, _, s, _ => by
      have hstr := parseString_quoted t s
      simp only [render, quoted, List.cons_append, List.append_assoc, List.nil_append, parseValue,
        if_true, hstr, Option.map_some, joinDoc]
  | .arr [], _, _, _, _ => by
      simp [render, parseValue, skipWs, isJsonSpace, joinDoc, joinElems]
  | .arr (x :: xs), n, hn, s, _ => by
      simp only [render, List.length_cons, List.length_append] at hn
      obtain ⟨n, rfl⟩ : ∃ m, n = m + 1 := ⟨n - 1, by omega⟩
      obtain ⟨hsolid, hstops⟩ := renderElems_next h xs s
      have hx := parseValue_render h x n (by omega) _ hstops
      have hxs := parseElems_render h xs n (by omega) s
      have hskip := skipWs_solid ((solid_render sep x).append (renderElems sep xs ++ s))
      obtain ⟨c, t, ht, hc⟩ := render_head sep x
      rw [ht, List.cons_append] at hx hskip
      rw [render, List.cons_append, List.append_assoc, ht, List.cons_append]
      exact parseValue_arr hskip hc.2.1 hx (by rw [skipWs_solid hsolid, hxs])
  | .obj [], _, _, _, _ => by
      simp [render, parseValue, skipWs, isJsonSpace, joinDoc, joinMembers]
  | .obj ((k, x) :: ms), n, hn, s, _ => by
      simp only [render, List.length_cons, List.length_append] at hn
      obtain ⟨n, rfl⟩ : ∃ m, n = m + 1 := ⟨n - 1, by omega⟩
      obtain ⟨hsolid, hstops⟩ := renderMembers_next h ms s
      have hx := parseValue_render h x n (by omega) _ hstops
      have hms := parseMembers_render h ms n (by omega) s
      have hkey := parseKey_quoted h k ((solid_render sep x).append (renderMembers sep ms ++ s))
      have hskip := skipWs_solid
        ((solid_quoted k).append (sep.key ++ (render sep x ++ (renderMembers sep ms ++ s))))
      rw [quoted, List.cons_append] at hkey hskip
      rw [render, List.cons_append, List.append_assoc, List.append_assoc, List.append_assoc, quoted,
        List.cons_append]
      exact parseValue_obj hskip (by decide) hkey hx (by rw [skipWs_solid hsolid, hms])

/-- Elements up to the closing bracket are read back joined. -/
theorem parseElems_render {sep : Separators} (h : sep.Standard) :
    ∀ (xs : List (Json φ)) (n : Nat), (renderElems sep xs).length ≤ n → ∀ s,
      parseElems (n + 1) (renderElems sep xs ++ s) = some (joinElems xs, s)
  | [], n, _, s => by simp [renderElems, parseElems, joinElems]
  | x :: xs, n, hn, s => by
      obtain ⟨w, hw, hsp⟩ := h.item
      simp only [renderElems, hw, List.cons_append, List.length_cons, List.length_append] at hn ⊢
      obtain ⟨n, rfl⟩ : ∃ m, n = m + 1 := ⟨n - 1, by omega⟩
      obtain ⟨hsolid, hstops⟩ := renderElems_next h xs s
      have hx := parseValue_render h x n (by omega) _ hstops
      have hxs := parseElems_render h xs n (by omega) s
      have hskip := skipWs_spaces hsp ((solid_render sep x).append (renderElems sep xs ++ s))
      simp only [List.append_assoc, parseElems, if_true, hskip, hx, skipWs_solid hsolid, hxs,
        Option.bind_eq_bind, Option.bind_some, Option.pure_def, joinElems]
      rfl

/-- Members up to the closing brace are read back joined. -/
theorem parseMembers_render {sep : Separators} (h : sep.Standard) :
    ∀ (ms : List (Str × Json φ)) (n : Nat), (renderMembers sep ms).length ≤ n → ∀ s,
      parseMembers (n + 1) (renderMembers sep ms ++ s) = some (joinMembers ms, s)
  | [], n, _, s => by simp [renderMembers, parseMembers, joinMembers]
  | (k, x) :: ms, n, hn, s => by
      obtain ⟨w, hw, hsp⟩ := h.item
      simp only [renderMembers, hw, List.cons_append, List.length_cons, List.length_append] at hn ⊢
      obtain ⟨n, rfl⟩ : ∃ m, n = m + 1 := ⟨n - 1, by omega⟩
      obtain ⟨hsolid, hstops⟩ := renderMembers_next h ms s
      have hx := parseValue_render h x n (by omega) _ hstops
      have hms := parseMembers_render h ms n (by omega) s
      have hskip := skipWs_spaces hsp
        ((solid_quoted k).append (sep.key ++ (render sep x ++ (renderMembers sep ms ++ s))))
      have hkey := parseKey_quoted h k ((solid_render sep x).append (renderMembers sep ms ++ s))
      simp only [List.append_assoc, parseMembers, if_true, hskip, hkey, hx, skipWs_solid hsolid,
        hms, Option.bind_eq_bind, Option.bind_some, Option.pure_def, joinMembers]
      rfl

end

/-- Reading what was written gives the document with its strings joined. -/
theorem parse_render {sep : Separators} (h : sep.Standard) (j : Json φ) :
    parse (render sep j) = some (joinDoc j) := by
  have hval := parseValue_render h j _ (Nat.le_refl _) [] (by simp [Stops])
  rw [List.append_nil] at hval
  have hbom : (render sep j).head? ≠ some 0xFEFF := by
    obtain ⟨c, t, ht, hc⟩ := render_head sep j
    rw [ht, List.head?_cons, ne_eq, Option.some.injEq]
    rintro rfl
    exact absurd hc.2.2 (by decide)
  rw [parse, if_neg hbom, skipWs_solid (solid_render sep j), hval]
  rfl

end

/-! ## The text of a joined document -/

/-- A surrogate pair and the character it stands for are written alike. -/
theorem escapeChar_joinPair {h l : CodePoint} (hh : isHigh h = true) (hl : isLow l = true) :
    escapeChar (joinPair h l) = escapeChar h ++ escapeChar l := by
  have hv := joinPair_val hh hl
  have hge := joinPair_bounds hh hl
  generalize joinPair h l = c at hv hge
  rw [isHigh_iff] at hh
  rw [isLow_iff] at hl
  have hsh : isSurrogate h = true := by
    simp only [isSurrogate, Bool.and_eq_true, decide_eq_true_eq]
    omega
  have hsl : isSurrogate l = true := by
    simp only [isSurrogate, Bool.and_eq_true, decide_eq_true_eq]
    omega
  have hhigh : 0xD800 + (c.val - 0x10000) / 0x400 = h.val := by omega
  have hlow : 0xDC00 + (c.val - 0x10000) % 0x400 = l.val := by omega
  rw [escapeChar_of_surrogate hsh, escapeChar_of_surrogate hsl, escapeChar_of_astral hge, hhigh,
    hlow]

theorem flatMap_escapeChar_join (s : Str) :
    (join s).flatMap escapeChar = s.flatMap escapeChar := by
  fun_induction join s with
  | case1 => rfl
  | case2 c => rfl
  | case3 h l s hp ih =>
      rw [Bool.and_eq_true] at hp
      simp only [List.flatMap_cons, ih, escapeChar_joinPair hp.1 hp.2, List.append_assoc]
  | case4 h l s hp ih => simp only [List.flatMap_cons, ih]

theorem quoted_join (s : Str) : quoted (join s) = quoted s := by
  rw [quoted, quoted, flatMap_escapeChar_join]

section

variable [FloatFormat φ]

mutual

theorem render_joinDoc (sep : Separators) : ∀ j : Json φ, render sep (joinDoc j) = render sep j
  | .null | .bool _ | .int _ | .float _ => rfl
  | .str s => quoted_join s
  | .arr [] => rfl
  | .arr (x :: xs) => by
      simp only [joinDoc, joinElems, render, render_joinDoc sep x, renderElems_joinElems sep xs]
  | .obj [] => rfl
  | .obj ((k, x) :: ms) => by
      simp only [joinDoc, joinMembers, render, quoted_join, render_joinDoc sep x,
        renderMembers_joinMembers sep ms]

theorem renderElems_joinElems (sep : Separators) :
    ∀ xs : List (Json φ), renderElems sep (joinElems xs) = renderElems sep xs
  | [] => rfl
  | x :: xs => by
      simp only [joinElems, renderElems, render_joinDoc sep x, renderElems_joinElems sep xs]

theorem renderMembers_joinMembers (sep : Separators) :
    ∀ ms : List (Str × Json φ), renderMembers sep (joinMembers ms) = renderMembers sep ms
  | [] => rfl
  | (k, x) :: ms => by
      simp only [joinMembers, renderMembers, quoted_join, render_joinDoc sep x,
        renderMembers_joinMembers sep ms]

end

/-- Two documents have the same text exactly when they are the same once joined. -/
theorem render_eq_iff {sep : Separators} (h : sep.Standard) {j k : Json φ} :
    render sep j = render sep k ↔ joinDoc j = joinDoc k := by
  constructor
  · intro he
    have hp := parse_render h j
    rw [he, parse_render h k] at hp
    exact (Option.some.inj hp).symm
  · intro he
    rw [← render_joinDoc sep j, he, render_joinDoc]

end

/-! ## The characters of a document -/

theorem Printable.append {s t : Str} (hs : Printable s) (ht : Printable t) : Printable (s ++ t) := by
  intro c hc
  rcases List.mem_append.1 hc with hc | hc
  · exact hs c hc
  · exact ht c hc

theorem Printable.cons {c : CodePoint} {s : Str} (hc : 0x20 ≤ c.val ∧ c.val ≤ 0x7E)
    (hs : Printable s) : Printable (c :: s) := by
  intro d hd
  rcases List.mem_cons.1 hd with rfl | hd
  · exact hc
  · exact hs d hd

theorem printable_nil : Printable [] := fun _ hc => by cases hc

theorem printable_unicodeEscape (n : Nat) : Printable (unicodeEscape n) := by
  have hall : ∀ d : Fin 16, 0x20 ≤ (hexDigit d.val).val ∧ (hexDigit d.val).val ≤ 0x7E := by decide
  have hd : ∀ m : Nat, 0x20 ≤ (hexDigit (m % 16)).val ∧ (hexDigit (m % 16)).val ≤ 0x7E :=
    fun m => hall ⟨m % 16, Nat.mod_lt _ (by decide)⟩
  exact .cons (by decide) (.cons (by decide) (.cons (hd _) (.cons (hd _) (.cons (hd _)
    (.cons (hd _) printable_nil)))))

theorem printable_escapeChar (c : CodePoint) : Printable (escapeChar c) := by
  cases hshort : shortEscape c with
  | some e =>
      have he : 0x20 ≤ e.val ∧ e.val ≤ 0x7E := by
        unfold shortEscape at hshort
        split_ifs at hshort with h1 h2 h3 h4 h5 h6 h7 <;> cases hshort <;> decide
      simp only [escapeChar, hshort]
      exact .cons (by decide) (.cons he printable_nil)
  | none =>
      simp only [escapeChar, hshort]
      split_ifs with hprint hbmp
      · exact .cons hprint printable_nil
      · exact printable_unicodeEscape _
      · exact (printable_unicodeEscape _).append (printable_unicodeEscape _)

theorem printable_quoted (s : Str) : Printable (quoted s) := by
  refine .cons (by decide) (.append ?_ (.cons (by decide) printable_nil))
  intro c hc
  obtain ⟨d, -, hd⟩ := List.mem_flatMap.1 hc
  exact printable_escapeChar d c hd

namespace Literal

theorem printable_digits {ds : List Nat} (h : ∀ d ∈ ds, d < 10) : Printable (ds.map digit) := by
  intro c hc
  obtain ⟨d, hd, rfl⟩ := List.mem_map.1 hc
  rw [digit_val (h d hd)]
  have := h d hd
  omega

theorem printable_text {l : Literal} (h : l.WF) : Printable l.text := by
  refine .append ?_ (.append (printable_digits h.int_digits) (.append ?_ ?_))
  · cases l.neg
    · exact printable_nil
    · exact .cons (by decide) printable_nil
  · have hd := h.frac_digits
    cases hf : l.frac with
    | nil => exact printable_nil
    | cons d ds =>
        rw [hf] at hd
        exact .cons (by decide) (printable_digits hd)
  · have hd := h.exp_digits
    cases he : l.exp with
    | none => exact printable_nil
    | some p =>
        rw [he] at hd
        refine .cons (by decide) (.append ?_ (printable_digits (hd p rfl).2))
        cases p.1
        · exact printable_nil
        · exact .cons (by decide) printable_nil
        · exact .cons (by decide) printable_nil

end Literal

section

variable [FloatFormat φ]

theorem printable_floatText (x : PyFloat φ) : Printable (floatText x) := by
  cases x with
  | nan => exact (by decide : Printable nanText)
  | posInf => exact (by decide : Printable infinityText)
  | negInf => exact (by decide : Printable negInfinityText)
  | finite x => exact Literal.printable_text (FloatFormat.repr_wf x)

mutual

/-- `json.dumps` writes printable ASCII. -/
theorem printable_render {sep : Separators} (hi : Printable sep.item) (hk : Printable sep.key) :
    ∀ j : Json φ, Printable (render sep j)
  | .null => (by decide : Printable nullText)
  | .bool true => (by decide : Printable trueText)
  | .bool false => (by decide : Printable falseText)
  | .int i => Literal.printable_text (Literal.wf_ofInt i)
  | .float x => printable_floatText x
  | .str s => printable_quoted s
  | .arr [] => .cons (by decide) (.cons (by decide) printable_nil)
  | .arr (x :: xs) =>
      .cons (by decide) (.append (printable_render hi hk x) (printable_renderElems hi hk xs))
  | .obj [] => .cons (by decide) (.cons (by decide) printable_nil)
  | .obj ((k, x) :: ms) =>
      .cons (by decide) (.append (printable_quoted k) (.append hk
        (.append (printable_render hi hk x) (printable_renderMembers hi hk ms))))

theorem printable_renderElems {sep : Separators} (hi : Printable sep.item)
    (hk : Printable sep.key) : ∀ xs : List (Json φ), Printable (renderElems sep xs)
  | [] => .cons (by decide) printable_nil
  | x :: xs =>
      .append hi (.append (printable_render hi hk x) (printable_renderElems hi hk xs))

theorem printable_renderMembers {sep : Separators} (hi : Printable sep.item)
    (hk : Printable sep.key) : ∀ ms : List (Str × Json φ), Printable (renderMembers sep ms)
  | [] => .cons (by decide) printable_nil
  | (k, x) :: ms =>
      .append hi (.append (printable_quoted k) (.append hk
        (.append (printable_render hi hk x) (printable_renderMembers hi hk ms))))

end

theorem renderMembers_ends (sep : Separators) (ms : List (Str × Json φ)) :
    ∃ t, renderMembers sep ms = t ++ [125] := by
  induction ms with
  | nil => exact ⟨[], rfl⟩
  | cons m ms ih =>
      obtain ⟨t, ht⟩ := ih
      refine ⟨sep.item ++ (quoted m.1 ++ (sep.key ++ (render sep m.2 ++ t))), ?_⟩
      rw [renderMembers, ht]
      simp only [List.append_assoc]

/-- A dictionary is written between braces. -/
theorem render_obj_ends (sep : Separators) (ms : List (Str × Json φ)) :
    ∃ t, render sep (.obj ms) = 123 :: (t ++ [125]) := by
  rcases ms with _ | ⟨⟨k, x⟩, ms⟩
  · exact ⟨[], rfl⟩
  · obtain ⟨t, ht⟩ := renderMembers_ends sep ms
    refine ⟨quoted k ++ (sep.key ++ (render sep x ++ t)), ?_⟩
    rw [render, ht]
    simp only [List.append_assoc]

theorem printable_compact (j : Json φ) : Printable (render compact j) :=
  printable_render (.cons (by decide) printable_nil) (.cons (by decide) printable_nil) j

theorem printable_spaced (j : Json φ) : Printable (render spaced j) :=
  printable_render (.cons (by decide) (.cons (by decide) printable_nil))
    (.cons (by decide) (.cons (by decide) printable_nil)) j

end

end Py
