import ShugoCore.Lib.JsonKeys

/-!
# What is read from a text

A text without surrogates can still name one by an escape.  What is read from such
a text never has a leading surrogate before a trailing one: the two escapes would
have been read as one character.

`Same` is equality of values up to the order of the items of their dictionaries.
Two documents whose values are written alike are read as the same value.
-/

namespace Py

variable {φ : Type}

theorem Plain.suffix {s r : Str} (h : Plain s) (hr : r <:+ s) : Plain r :=
  fun c hc => h c (hr.subset hc)

/-! ## The rest of a text is a part of it -/

theorem plain_strip {s : Str} (h : Plain s) : Plain (strip s) := by
  intro c hc
  have hmem := ( List.rdropWhile_prefix _ _).subset hc
  exact h c ((List.dropWhile_suffix _).subset hmem)

theorem mem_universalNewlines {b : Bool} {s : Str} {c : CodePoint}
    (h : c ∈ universalNewlines b s) : c ∈ s ∨ c = newline := by
  induction s generalizing b with
  | nil => cases h
  | cons d s ih =>
      rw [universalNewlines] at h
      split_ifs at h
      · rcases List.mem_cons.1 h with rfl | h
        · exact .inr rfl
        · exact (ih h).imp_left (List.mem_cons_of_mem d)
      · exact (ih h).imp_left (List.mem_cons_of_mem d)
      · rcases List.mem_cons.1 h with rfl | h
        · exact .inl List.mem_cons_self
        · exact (ih h).imp_left (List.mem_cons_of_mem d)

theorem mem_splitLines {s l : Str} {c : CodePoint} (hl : l ∈ splitLines s) (hc : c ∈ l) : c ∈ s := by
  induction s generalizing l with
  | nil => cases hl
  | cons d s ih =>
      rw [splitLines] at hl
      split at hl
      · rcases List.mem_cons.1 hl with rfl | hl
        · cases hc
        · exact List.mem_cons_of_mem d (ih hl hc)
      · cases hs : splitLines s with
        | nil =>
            rw [hs] at hl
            obtain rfl := List.mem_singleton.1 hl
            rw [List.mem_singleton.1 hc]
            exact List.mem_cons_self
        | cons k ks =>
            rw [hs] at hl
            rcases List.mem_cons.1 hl with rfl | hl
            · rcases List.mem_cons.1 hc with rfl | hc
              · exact List.mem_cons_self
              · exact List.mem_cons_of_mem d (ih (hs ▸ List.mem_cons_self) hc)
            · exact List.mem_cons_of_mem d (ih (hs ▸ List.mem_cons_of_mem k hl) hc)

theorem plain_fileLines {s l : Str} (h : Plain s) (hl : l ∈ fileLines s) : Plain l := by
  intro c hc
  rcases mem_universalNewlines (mem_splitLines hl hc) with hmem | rfl
  · exact h c hmem
  · decide

theorem suffix_skipWs (s : Str) : skipWs s <:+ s := List.dropWhile_suffix _

theorem suffix_scanHex {s r : Str} {c : CodePoint} (h : scanHex s = some (c, r)) : r <:+ s := by
  unfold scanHex at h
  split at h
  · rename_i a b c d t
    cases ha : hexValue a <;> cases hb : hexValue b <;> cases hc : hexValue c <;>
      cases hd : hexValue d <;> simp [ha, hb, hc, hd] at h
    obtain ⟨-, rfl⟩ := h
    exact ⟨[a, b, c, d], rfl⟩
  · cases h

theorem scanLow_cases {s r : Str} {c : CodePoint} (h : scanLow s = some (c, r)) :
    ∃ t, s = 92 :: 117 :: t ∧ scanHex t = some (c, r) ∧ isLow c = true := by
  unfold scanLow at h
  split at h
  · rename_i b u t
    split at h
    · rename_i hu
      obtain ⟨rfl, rfl⟩ := hu
      rw [Option.filter_eq_some_iff] at h
      exact ⟨t, rfl, h⟩
    · cases h
  · cases h

/-- What follows `\u` is a pair, a leading surrogate alone, or another character. -/
theorem scanUnicode_cases {s r : Str} {c : CodePoint} (h : scanUnicode s = some (c, r)) :
    (∃ d t l, scanHex s = some (d, t) ∧ isHigh d = true ∧ scanLow t = some (l, r) ∧
      c = joinPair d l) ∨
    scanHex s = some (c, r) ∧ (isHigh c = true → scanLow r = none) := by
  rw [scanUnicode, Option.map_eq_some_iff] at h
  obtain ⟨⟨d, t⟩, hd, he⟩ := h
  dsimp only at he
  split at he
  · rename_i hhigh
    unfold scanPair at he
    split at he
    · rename_i l u hl
      obtain ⟨rfl, rfl⟩ := Prod.mk.inj he
      exact .inl ⟨d, t, l, hd, hhigh, hl, rfl⟩
    · rename_i hl
      obtain ⟨rfl, rfl⟩ := Prod.mk.inj he
      exact .inr ⟨hd, fun _ => hl⟩
  · rename_i hhigh
    obtain ⟨rfl, rfl⟩ := Prod.mk.inj he
    exact .inr ⟨hd, fun h => absurd h hhigh⟩

/-- A character is itself, an escape of two characters, or a `\u` escape. -/
theorem scanChar_cases {s r : Str} {c : CodePoint} (h : scanChar s = some (c, r)) :
    s = c :: r ∧ c ≠ 92 ∨ (∃ e, s = 92 :: e :: r ∧ shortUnescape e = some c) ∨
      ∃ t, s = 92 :: 117 :: t ∧ scanUnicode t = some (c, r) := by
  unfold scanChar at h
  split at h
  · cases h
  · rename_i b s
    split at h
    · rename_i hb
      subst hb
      split at h
      · cases h
      · rename_i e s
        split at h
        · rename_i hu
          subst hu
          exact .inr (.inr ⟨s, rfl, h⟩)
        · rw [Option.map_eq_some_iff] at h
          obtain ⟨d, hd, he⟩ := h
          obtain ⟨rfl, rfl⟩ := Prod.mk.inj he
          exact .inr (.inl ⟨e, rfl, hd⟩)
    · rename_i hb
      split at h
      · cases h
      · obtain ⟨rfl, rfl⟩ := Prod.mk.inj (Option.some.inj h)
        exact .inl ⟨rfl, hb⟩

theorem suffix_scanLow {s r : Str} {c : CodePoint} (h : scanLow s = some (c, r)) : r <:+ s := by
  obtain ⟨t, rfl, ht, -⟩ := scanLow_cases h
  exact (suffix_scanHex ht).trans ⟨[92, 117], rfl⟩

theorem suffix_scanChar {s r : Str} {c : CodePoint} (h : scanChar s = some (c, r)) : r <:+ s := by
  rcases scanChar_cases h with ⟨rfl, -⟩ | ⟨e, rfl, -⟩ | ⟨t, rfl, ht⟩
  · exact ⟨[c], rfl⟩
  · exact ⟨[92, e], rfl⟩
  · refine List.IsSuffix.trans ?_ ⟨[92, 117], rfl⟩
    rcases scanUnicode_cases ht with ⟨d, u, l, hd, -, hl, -⟩ | ⟨hc, -⟩
    · exact (suffix_scanLow hl).trans (suffix_scanHex hd)
    · exact suffix_scanHex hc

/-! ## Strings -/

theorem not_surrogate {c : CodePoint} (h : isSurrogate c = false) :
    isHigh c = false ∧ isLow c = false := by
  simp only [isSurrogate, isHigh, isLow, Bool.and_eq_false_iff, decide_eq_false_iff_not] at h ⊢
  omega

/-- What a two-character escape stands for. -/
theorem shortUnescape_ascii {e d : CodePoint} (h : shortUnescape e = some d) :
    isHigh d = false ∧ isLow d = false := by
  unfold shortUnescape at h
  split_ifs at h <;> cases h <;> decide

/-- A leading surrogate is read only where no trailing one follows. -/
theorem scanLow_of_high {s r : Str} {c : CodePoint} (hs : Plain s)
    (h : scanChar s = some (c, r)) (hc : isHigh c = true) : scanLow r = none := by
  rcases scanChar_cases h with ⟨rfl, -⟩ | ⟨e, rfl, he⟩ | ⟨t, rfl, ht⟩
  · rw [(not_surrogate (hs c List.mem_cons_self)).1] at hc
    cases hc
  · rw [(shortUnescape_ascii he).1] at hc
    cases hc
  · rcases scanUnicode_cases ht with ⟨d, u, l, -, hd, hl, rfl⟩ | ⟨-, hnone⟩
    · obtain ⟨-, -, -, hlow⟩ := scanLow_cases hl
      rw [not_isHigh_of_ge (joinPair_bounds hd hlow)] at hc
      cases hc
    · exact hnone hc

/-- A trailing surrogate is read only from its own escape. -/
theorem scanLow_of_low {s r : Str} {c : CodePoint} (hs : Plain s)
    (h : scanChar s = some (c, r)) (hc : isLow c = true) : scanLow s ≠ none := by
  rcases scanChar_cases h with ⟨rfl, -⟩ | ⟨e, rfl, he⟩ | ⟨t, rfl, ht⟩
  · rw [(not_surrogate (hs c List.mem_cons_self)).2] at hc
    cases hc
  · rw [(shortUnescape_ascii he).2] at hc
    cases hc
  · rcases scanUnicode_cases ht with ⟨d, u, l, -, hd, hl, rfl⟩ | ⟨hhex, -⟩
    · obtain ⟨-, -, -, hlow⟩ := scanLow_cases hl
      rw [not_isLow_of_ge (joinPair_bounds hd hlow)] at hc
      cases hc
    · simp [scanLow, hhex, Option.filter, hc]

/-- The string that is read from a text without surrogates is joined. -/
theorem joined_scanString {n : Nat} {s t r : Str} (hs : Plain s)
    (h : scanString n s = some (t, r)) :
    Joined t ∧ r <:+ s ∧ ∀ c ∈ t.head?, isLow c = true → scanLow s ≠ none := by
  induction n generalizing s t r with
  | zero => cases h
  | succ n ih =>
      cases s with
      | nil => cases h
      | cons b s =>
          rw [scanString] at h
          split at h
          · obtain ⟨rfl, rfl⟩ := Prod.mk.inj (Option.some.inj h)
            exact ⟨trivial, ⟨[b], rfl⟩, by simp⟩
          · cases hc : scanChar (b :: s) with
            | none => simp [hc] at h
            | some p =>
                obtain ⟨d, u⟩ := p
                have hu := suffix_scanChar hc
                cases hds : scanString n u with
                | none => simp [hc, hds] at h
                | some q =>
                    obtain ⟨ds, v⟩ := q
                    obtain ⟨hjoined, hv, hhead⟩ := ih (hs.suffix hu) hds
                    simp only [hc, hds, Option.bind_eq_bind, Option.bind_some, Option.pure_def,
                      Option.some.injEq, Prod.mk.injEq] at h
                    obtain ⟨rfl, rfl⟩ := h
                    refine ⟨?_, hv.trans hu, ?_⟩
                    · cases ds with
                      | nil => trivial
                      | cons l ds =>
                          refine ⟨?_, hjoined⟩
                          rintro ⟨hd, hl⟩
                          exact hhead l rfl hl (scanLow_of_high hs hc hd)
                    · rintro c hmem hlow
                      obtain rfl : d = c := Option.some.inj hmem
                      exact scanLow_of_low hs hc hlow

/-! ## Numbers and constants -/

theorem suffix_scanDigits (s : Str) : (scanDigits s).2 <:+ s := List.dropWhile_suffix _

theorem suffix_scanFrac (s : Str) : (scanFrac s).2 <:+ s := by
  cases s with
  | nil => exact List.suffix_rfl
  | cons c s =>
      rw [scanFrac]
      split
      · exact (suffix_scanDigits s).trans (List.suffix_cons c s)
      · exact List.suffix_rfl

theorem suffix_scanSign (s : Str) : (scanSign s).2 <:+ s := by
  cases s with
  | nil => exact List.suffix_rfl
  | cons c s =>
      rw [scanSign]
      split_ifs
      · exact List.suffix_cons c s
      · exact List.suffix_cons c s
      · exact List.suffix_rfl

theorem suffix_scanExp (s : Str) : (scanExp s).2 <:+ s := by
  cases s with
  | nil => exact List.suffix_rfl
  | cons c s =>
      dsimp only [scanExp]
      split
      · have hsign := suffix_scanSign s
        exact (suffix_scanDigits _).trans (hsign.trans (List.suffix_cons c s))
      · exact List.suffix_rfl

theorem suffix_scanInt {s r : Str} {ds : List Nat} (h : scanInt s = some (ds, r)) : r <:+ s := by
  cases s with
  | nil => cases h
  | cons c s =>
      rw [scanInt] at h
      split_ifs at h
      · obtain ⟨-, rfl⟩ := Prod.mk.inj (Option.some.inj h)
        exact List.suffix_cons c s
      · have hr : (scanDigits (c :: s)).2 = r := congrArg Prod.snd (Option.some.inj h)
        exact hr ▸ suffix_scanDigits (c :: s)

theorem suffix_scanMinus (s : Str) : (scanMinus s).2 <:+ s := by
  cases s with
  | nil => exact List.suffix_rfl
  | cons c s =>
      rw [scanMinus]
      split
      · exact List.suffix_cons c s
      · exact List.suffix_rfl

theorem suffix_scanNumber {s r : Str} {l : Literal} (h : scanNumber s = some (l, r)) : r <:+ s := by
  simp only [scanNumber, Option.bind_eq_bind, Option.bind_eq_some_iff, Option.pure_def,
    Option.some.injEq, Prod.mk.injEq, Prod.exists] at h
  obtain ⟨ds, t, ht, -, rfl⟩ := h
  have hfrac := suffix_scanFrac t
  have hint := (suffix_scanInt ht).trans (suffix_scanMinus s)
  exact (suffix_scanExp _).trans (hfrac.trans hint)

section

variable [FloatFormat φ]

theorem joinDoc_ofLiteral (l : Literal) : joinDoc (ofLiteral l : Json φ) = ofLiteral l := by
  rw [ofLiteral]
  split <;> rfl

theorem joinDoc_parseAtom {s r : Str} {j : Json φ} (h : parseAtom s = some (j, r)) :
    joinDoc j = j ∧ r <:+ s := by
  rw [parseAtom] at h
  split_ifs at h
  all_goals first
    | obtain ⟨rfl, rfl⟩ := Prod.mk.inj (Option.some.inj h)
      exact ⟨rfl, List.drop_suffix _ _⟩
    | obtain ⟨⟨l, t⟩, hl, he⟩ := Option.map_eq_some_iff.1 h
      obtain ⟨rfl, rfl⟩ := Prod.mk.inj he
      exact ⟨joinDoc_ofLiteral l, suffix_scanNumber hl⟩

/-! ## Documents -/

theorem parseString_joined {s t r : Str} (hs : Plain s) (h : parseString s = some (t, r)) :
    join t = t ∧ r <:+ s := by
  obtain ⟨ht, hr, -⟩ := joined_scanString hs h
  exact ⟨join_of_joined ht, hr⟩

theorem parseKey_joined {s k r : Str} (hs : Plain s) (h : parseKey s = some (k, r)) :
    join k = k ∧ r <:+ s := by
  cases s with
  | nil => cases h
  | cons q s =>
      rw [parseKey] at h
      split_ifs at h
      cases hk : parseString s with
      | none => simp [hk] at h
      | some p =>
          obtain ⟨k', t⟩ := p
          have hq : s <:+ q :: s := List.suffix_cons q s
          obtain ⟨hjoin, ht⟩ := parseString_joined (hs.suffix hq) hk
          simp only [hk, Option.bind_eq_bind, Option.bind_some] at h
          split at h
          · rename_i c u hu
            split_ifs at h
            obtain ⟨rfl, rfl⟩ := Prod.mk.inj (Option.some.inj h)
            have hcu : u <:+ t := (List.suffix_cons c u).trans (hu ▸ suffix_skipWs t)
            exact ⟨hjoin, (suffix_skipWs u).trans (hcu.trans (ht.trans hq))⟩
          · cases h

/-- What one of the three readers reads: a joined document, and a part of the text
is left. -/
structure ReadsJoined (n : Nat) : Prop where
  value : ∀ {s r : Str} {j : Json φ}, Plain s → parseValue n s = some (j, r) →
    joinDoc j = j ∧ r <:+ s
  elems : ∀ {s r : Str} {xs : List (Json φ)}, Plain s → parseElems n s = some (xs, r) →
    joinElems xs = xs ∧ r <:+ s
  members : ∀ {s r : Str} {ms : List (Str × Json φ)}, Plain s → parseMembers n s = some (ms, r) →
    joinMembers ms = ms ∧ r <:+ s

/-- A value and the elements after it. -/
theorem ReadsJoined.cons {n : Nat} (h : ReadsJoined (φ := φ) n) {s t r : Str} {x : Json φ}
    {xs : List (Json φ)} (hs : Plain s) (hx : parseValue n s = some (x, t))
    (hxs : parseElems n (skipWs t) = some (xs, r)) : joinElems (x :: xs) = x :: xs ∧ r <:+ s := by
  obtain ⟨hjx, ht⟩ := h.value hs hx
  have hw := (suffix_skipWs t).trans ht
  obtain ⟨hjxs, hr⟩ := h.elems (hs.suffix hw) hxs
  exact ⟨by rw [joinElems, hjx, hjxs], hr.trans hw⟩

/-- A key with its value, and the members after it. -/
theorem ReadsJoined.member {n : Nat} (h : ReadsJoined (φ := φ) n) {s t u r k : Str} {x : Json φ}
    {ms : List (Str × Json φ)} (hs : Plain s) (hk : parseKey s = some (k, t))
    (hx : parseValue n t = some (x, u)) (hms : parseMembers n (skipWs u) = some (ms, r)) :
    joinMembers ((k, x) :: ms) = (k, x) :: ms ∧ r <:+ s := by
  obtain ⟨hjk, ht⟩ := parseKey_joined hs hk
  obtain ⟨hjx, hu⟩ := h.value (hs.suffix ht) hx
  have hw := (suffix_skipWs u).trans (hu.trans ht)
  obtain ⟨hjms, hr⟩ := h.members (hs.suffix hw) hms
  exact ⟨by rw [joinMembers, hjk, hjx, hjms], hr.trans hw⟩

theorem ReadsJoined.elems_succ {n : Nat} (h : ReadsJoined (φ := φ) n) {s r : Str}
    {xs : List (Json φ)} (hs : Plain s) (hp : parseElems (n + 1) s = some (xs, r)) :
    joinElems xs = xs ∧ r <:+ s := by
  cases s with
  | nil => cases hp
  | cons c s =>
      have hc : s <:+ c :: s := List.suffix_cons c s
      have hw := (suffix_skipWs s).trans hc
      rw [parseElems] at hp
      split_ifs at hp
      · obtain ⟨rfl, rfl⟩ := Prod.mk.inj (Option.some.inj hp)
        exact ⟨rfl, hc⟩
      · simp only [Option.bind_eq_bind, Option.bind_eq_some_iff, Option.pure_def,
          Option.some.injEq, Prod.mk.injEq, Prod.exists] at hp
        obtain ⟨x, t, hx, ys, u, hys, rfl, rfl⟩ := hp
        obtain ⟨hj, hr⟩ := h.cons (hs.suffix hw) hx hys
        exact ⟨hj, hr.trans hw⟩

theorem ReadsJoined.members_succ {n : Nat} (h : ReadsJoined (φ := φ) n) {s r : Str}
    {ms : List (Str × Json φ)} (hs : Plain s) (hp : parseMembers (n + 1) s = some (ms, r)) :
    joinMembers ms = ms ∧ r <:+ s := by
  cases s with
  | nil => cases hp
  | cons c s =>
      have hc : s <:+ c :: s := List.suffix_cons c s
      have hw := (suffix_skipWs s).trans hc
      rw [parseMembers] at hp
      split_ifs at hp
      · obtain ⟨rfl, rfl⟩ := Prod.mk.inj (Option.some.inj hp)
        exact ⟨rfl, hc⟩
      · simp only [Option.bind_eq_bind, Option.bind_eq_some_iff, Option.pure_def,
          Option.some.injEq, Prod.mk.injEq, Prod.exists] at hp
        obtain ⟨k, t, hk, x, u, hx, ys, v, hys, rfl, rfl⟩ := hp
        obtain ⟨hj, hr⟩ := h.member (hs.suffix hw) hk hx hys
        exact ⟨hj, hr.trans hw⟩

theorem ReadsJoined.value_succ {n : Nat} (h : ReadsJoined (φ := φ) n) {s r : Str}
    {j : Json φ} (hs : Plain s) (hp : parseValue (n + 1) s = some (j, r)) :
    joinDoc j = j ∧ r <:+ s := by
  cases s with
  | nil => cases hp
  | cons c s =>
      have hc : s <:+ c :: s := List.suffix_cons c s
      have hw := (suffix_skipWs s).trans hc
      rw [parseValue] at hp
      split_ifs at hp
      · -- a string
        obtain ⟨⟨t, u⟩, ht, he⟩ := Option.map_eq_some_iff.1 hp
        obtain ⟨rfl, rfl⟩ := Prod.mk.inj he
        obtain ⟨hj, hu⟩ := parseString_joined (hs.suffix hc) ht
        exact ⟨congrArg Json.str hj, hu.trans hc⟩
      · -- a list
        split at hp
        · cases hp
        · rename_i d t hd
          rw [hd] at hw
          split_ifs at hp
          · obtain ⟨rfl, rfl⟩ := Prod.mk.inj (Option.some.inj hp)
            exact ⟨rfl, (List.suffix_cons d t).trans hw⟩
          · simp only [Option.bind_eq_bind, Option.bind_eq_some_iff, Option.pure_def,
              Option.some.injEq, Prod.mk.injEq, Prod.exists] at hp
            obtain ⟨x, u, hx, xs, v, hxs, rfl, rfl⟩ := hp
            obtain ⟨hj, hr⟩ := h.cons (hs.suffix hw) hx hxs
            exact ⟨congrArg Json.arr hj, hr.trans hw⟩
      · -- a dictionary
        split at hp
        · cases hp
        · rename_i d t hd
          rw [hd] at hw
          split_ifs at hp
          · obtain ⟨rfl, rfl⟩ := Prod.mk.inj (Option.some.inj hp)
            exact ⟨rfl, (List.suffix_cons d t).trans hw⟩
          · simp only [Option.bind_eq_bind, Option.bind_eq_some_iff, Option.pure_def,
              Option.some.injEq, Prod.mk.injEq, Prod.exists] at hp
            obtain ⟨k, u, hk, x, v, hx, ms, w, hms, rfl, rfl⟩ := hp
            obtain ⟨hj, hr⟩ := h.member (hs.suffix hw) hk hx hms
            exact ⟨congrArg Json.obj hj, hr.trans hw⟩
      · exact joinDoc_parseAtom hp

theorem readsJoined (n : Nat) : ReadsJoined (φ := φ) n := by
  induction n with
  | zero => exact ⟨nofun, nofun, nofun⟩
  | succ n ih => exact ⟨ih.value_succ, ih.elems_succ, ih.members_succ⟩

/-- The document that is read from a text without surrogates is joined. -/
theorem joinDoc_parse {s : Str} {j : Json φ} (hs : Plain s) (h : parse s = some j) :
    joinDoc j = j := by
  rw [parse] at h
  split_ifs at h
  simp only [Option.bind_eq_bind, Option.bind_eq_some_iff, Prod.exists] at h
  obtain ⟨k, r, hk, hr⟩ := h
  split_ifs at hr
  obtain rfl : k = j := Option.some.inj hr
  exact ((readsJoined _).value (hs.suffix (suffix_skipWs s)) hk).1

end

/-! ## Values up to the order of their items -/

/-- Equality up to the order of the items of dictionaries. -/
inductive Same : PyVal φ → PyVal φ → Prop where
  | none : Same .none .none
  | bool (b : Bool) : Same (.bool b) (.bool b)
  | int (i : Int) : Same (.int i) (.int i)
  | float (x : PyFloat φ) : Same (.float x) (.float x)
  | str (s : Str) : Same (.str s) (.str s)
  | list {xs ys : List (PyVal φ)} (h : List.Forall₂ Same xs ys) : Same (.list xs) (.list ys)
  | dict {d e d' : List (Key φ × PyVal φ)} (order : d.Perm e)
      (keys : e.map Prod.fst = d'.map Prod.fst)
      (values : List.Forall₂ Same (e.map Prod.snd) (d'.map Prod.snd)) : Same (.dict d) (.dict d')

theorem perm_of_sortMembers {ms ms' : List (Str × Json φ)} (h : sortMembers ms = sortMembers ms') :
    ms.Perm ms' := by
  have hleft : (sortMembers ms).Perm ms := List.perm_insertionSort _ _
  have hright : (sortMembers ms').Perm ms' := List.perm_insertionSort _ _
  exact hleft.symm.trans (h ▸ hright)

/-- The dictionary of members with their values read. -/
def loadDict (ms : List (Str × Json φ)) : List (Key φ × PyVal φ) :=
  ms.map fun m => (.str m.1, load m.2)

/-- Members that are written alike, one by one. -/
theorem same_of_map_canon {ms ms' : List (Str × Json φ)}
    (h : ms.map (fun m => (m.1, canon m.2)) = ms'.map fun m => (m.1, canon m.2))
    (hsame : ∀ m ∈ ms, ∀ j', canon m.2 = canon j' → Same (load m.2) (load j')) :
    (loadDict ms).map Prod.fst = (loadDict ms').map Prod.fst ∧
      List.Forall₂ Same ((loadDict ms).map Prod.snd) ((loadDict ms').map Prod.snd) := by
  induction ms generalizing ms' with
  | nil =>
      cases ms' with
      | nil => exact ⟨rfl, .nil⟩
      | cons m' ms' => cases h
  | cons m ms ih =>
      cases ms' with
      | nil => cases h
      | cons m' ms' =>
          rw [List.map_cons, List.map_cons, List.cons.injEq, Prod.mk.injEq] at h
          obtain ⟨⟨hkey, hcanon⟩, hrest⟩ := h
          obtain ⟨hkeys, hvalues⟩ := ih hrest fun m hm => hsame m (List.mem_cons_of_mem _ hm)
          constructor
          · exact congrArg₂ List.cons (congrArg Key.str hkey) hkeys
          · exact .cons (hsame m List.mem_cons_self _ hcanon) hvalues

/-- Members that are written alike have the same values, in whatever order. -/
theorem same_of_perm {ms ms' : List (Str × Json φ)}
    (h : (ms.map fun m => (m.1, canon m.2)).Perm (ms'.map fun m => (m.1, canon m.2)))
    (hsame : ∀ m ∈ ms, ∀ j', canon m.2 = canon j' → Same (load m.2) (load j')) :
    Same (.dict (loadDict ms)) (.dict (loadDict ms')) := by
  have hcomp := congrFun₂ (List.eq_map_comp_perm fun m : Str × Json φ => (m.1, canon m.2))
    (ms'.map fun m => (m.1, canon m.2)) ms
  obtain ⟨l, hl, hperm⟩ := hcomp.mpr h.symm
  obtain ⟨hkeys, hvalues⟩ := same_of_map_canon hl.symm fun m hm => hsame m (hperm.mem_iff.1 hm)
  exact .dict (hperm.symm.map _) hkeys hvalues

theorem perm_of_canon_obj {ms ms' : List (Str × Json φ)}
    (h : canon (.obj ms) = canon (.obj ms')) :
    ((Dict.ofPairs ms).map fun m => (m.1, canon m.2)).Perm
      ((Dict.ofPairs ms').map fun m => (m.1, canon m.2)) := by
  rw [canon, canon, Json.obj.injEq, canonMembers_eq_map, canonMembers_eq_map, ← Dict.map_ofPairs,
    ← Dict.map_ofPairs] at h
  exact perm_of_sortMembers h

/-- The items of the dictionary that is read, by document. -/
theorem load_obj (ms : List (Str × Json φ)) :
    load (.obj ms) = .dict (loadDict (Dict.ofPairs ms)) := by
  rw [load, loadMembers_eq_map, ← Dict.map_ofPairs, List.map_map]
  rfl

/-- A dictionary that was read is written. -/
theorem encode_loadDict [FloatFormat φ] (ms : List (Str × Json φ)) :
    encode (.dict (loadDict ms)) = some (.obj (sortMembers (ms.map fun m => (m.1, canon m.2)))) := by
  apply encode_dict_str
  rw [loadDict, encodeItems_str ms fun m _ => encode_load m.2, List.map_map]
  rfl

/-- A part of a dictionary that was read is one that was read. -/
theorem filter_loadDict (p : Key φ → Bool) (ms : List (Str × Json φ)) :
    (loadDict ms).filter (fun i => p i.1) = loadDict (ms.filter fun m => p (.str m.1)) := by
  rw [loadDict, loadDict, List.filter_map]
  rfl

mutual

/-- Documents that are written alike once read are read as the same value. -/
theorem same_of_canon : ∀ {j j' : Json φ}, canon j = canon j' → Same (load j) (load j')
  | .null, j', h => by
      cases j' <;> cases h
      exact .none
  | .bool b, j', h => by
      cases j' <;> cases h
      exact .bool b
  | .int i, j', h => by
      cases j' <;> cases h
      exact .int i
  | .float x, j', h => by
      cases j' <;> cases h
      exact .float x
  | .str s, j', h => by
      cases j' <;> cases h
      exact .str s
  | .arr xs, j', h => by
      cases j' with
      | arr xs' => exact .list (same_of_canonElems (Json.arr.inj h))
      | null | bool _ | int _ | float _ | str _ | obj _ => cases h
  | .obj ms, j', h => by
      cases j' with
      | obj ms' =>
          rw [load_obj, load_obj]
          apply same_of_perm (perm_of_canon_obj h)
          intro m hm j' hj'
          exact same_of_canonMembers ms m (Dict.mem_ofPairs hm) hj'
      | null | bool _ | int _ | float _ | str _ | arr _ => cases h

theorem same_of_canonElems :
    ∀ {xs xs' : List (Json φ)}, canonElems xs = canonElems xs' →
      List.Forall₂ Same (loadList xs) (loadList xs')
  | [], xs', h => by
      cases xs' with
      | nil => exact .nil
      | cons x xs' => cases h
  | x :: xs, xs', h => by
      cases xs' with
      | nil => cases h
      | cons x' xs' =>
          rw [canonElems, canonElems, List.cons.injEq] at h
          exact .cons (same_of_canon h.1) (same_of_canonElems h.2)

theorem same_of_canonMembers :
    ∀ (ms : List (Str × Json φ)), ∀ m ∈ ms, ∀ {j' : Json φ}, canon m.2 = canon j' →
      Same (load m.2) (load j')
  | (k, x) :: ms, m, hm, j', h => by
      rw [List.mem_cons] at hm
      by_cases hm' : m = (k, x)
      · subst hm'
        exact same_of_canon h
      · exact same_of_canonMembers ms m (hm.resolve_left hm') h

end

end Py
