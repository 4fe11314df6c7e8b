import Mathlib.Data.List.DropRight
import Mathlib.Data.List.Lex

/-!
# Text as Python holds it

A `str` is a list of code points.  Surrogates are code points like any other, so
a `str` may hold one alone, or a pair that stands beside each other without being
one character.  `join` is what becomes of such a pair when the text is written
with `\u` escapes and read again.

Comparison of texts is by code point, which is the lexicographic order on lists.
A file opened as text has its line ends translated and is read line by line.
-/

namespace Py

/-- A code point, surrogates included. -/
abbrev CodePoint := Fin 0x110000

/-- A `str`. -/
abbrev Str := List CodePoint

-- What numerals and membership tests of code points and texts rest on, under a name.
instance codePointNeZero : @NeZero Nat Zero.ofOfNat0 0x110000 := ⟨by decide⟩
instance codePointLawfulBEq : LawfulBEq CodePoint := inferInstance
instance strLawfulBEq : LawfulBEq Str := inferInstance

/-- The text of a literal. -/
def lit (s : String) : Str := s.toList.map fun c => Fin.ofNat 0x110000 c.toNat

theorem toNat_lt (c : Char) : c.toNat < 0x110000 := by
  rcases c.valid with h | ⟨-, h⟩
  · exact Nat.lt_trans h (by decide)
  · exact h

/-- Different literals are different texts. -/
@[simp] theorem lit_inj {a b : String} : lit a = lit b ↔ a = b := by
  constructor
  · intro h
    have hinj : Function.Injective fun c : Char => (Fin.ofNat 0x110000 c.toNat : CodePoint) := by
      intro c d hcd
      have hv := congrArg Fin.val hcd
      simp only [Fin.ofNat, Nat.mod_eq_of_lt (toNat_lt c), Nat.mod_eq_of_lt (toNat_lt d)] at hv
      exact Char.toNat_inj.1 hv
    exact String.toList_inj.1 (List.map_injective_iff.2 hinj h)
  · rintro rfl
    rfl

/-! ## Surrogates -/

/-- A leading surrogate. -/
def isHigh (c : CodePoint) : Bool := 0xD800 ≤ c.val && c.val ≤ 0xDBFF

/-- A trailing surrogate. -/
def isLow (c : CodePoint) : Bool := 0xDC00 ≤ c.val && c.val ≤ 0xDFFF

/-- Either surrogate.  `str.encode("utf-8")` raises on these. -/
def isSurrogate (c : CodePoint) : Bool := 0xD800 ≤ c.val && c.val ≤ 0xDFFF

/-- The character that a leading and a trailing surrogate stand for. -/
def joinPair (h l : CodePoint) : CodePoint :=
  Fin.ofNat 0x110000 (0x10000 + (h.val - 0xD800) * 0x400 + (l.val - 0xDC00))

/-- Replace each leading surrogate that a trailing one follows by their character. -/
def join : Str → Str
  | [] => []
  | [c] => [c]
  | h :: l :: s =>
      if isHigh h && isLow l then joinPair h l :: join s else h :: join (l :: s)

/-- A text without surrogates. -/
def Plain (s : Str) : Prop := ∀ c ∈ s, isSurrogate c = false

instance (s : Str) : Decidable (Plain s) := List.decidableBAll _ s

theorem Plain.append {s t : Str} (hs : Plain s) (ht : Plain t) : Plain (s ++ t) := by
  intro c hc
  rcases List.mem_append.1 hc with hc | hc
  · exact hs c hc
  · exact ht c hc

theorem isHigh_iff {c : CodePoint} : isHigh c = true ↔ 0xD800 ≤ c.val ∧ c.val ≤ 0xDBFF := by
  simp [isHigh]

theorem isLow_iff {c : CodePoint} : isLow c = true ↔ 0xDC00 ≤ c.val ∧ c.val ≤ 0xDFFF := by
  simp [isLow]

theorem joinPair_val {h l : CodePoint} (hh : isHigh h = true) (hl : isLow l = true) :
    (joinPair h l).val = 0x10000 + (h.val - 0xD800) * 0x400 + (l.val - 0xDC00) := by
  rw [isHigh_iff] at hh
  rw [isLow_iff] at hl
  simp only [joinPair, Fin.ofNat]
  omega

/-- A joined pair is no surrogate. -/
theorem joinPair_bounds {h l : CodePoint} (hh : isHigh h = true) (hl : isLow l = true) :
    0x10000 ≤ (joinPair h l).val := by
  rw [joinPair_val hh hl]
  omega

theorem not_isHigh_of_ge {c : CodePoint} (h : 0x10000 ≤ c.val) : isHigh c = false := by
  rw [Bool.eq_false_iff]
  intro hc
  rw [isHigh_iff] at hc
  omega

theorem not_isLow_of_ge {c : CodePoint} (h : 0x10000 ≤ c.val) : isLow c = false := by
  rw [Bool.eq_false_iff]
  intro hc
  rw [isLow_iff] at hc
  omega

/-- No leading surrogate is followed by a trailing one. -/
def Joined : Str → Prop
  | [] => True
  | [_] => True
  | h :: l :: s => ¬ (isHigh h = true ∧ isLow l = true) ∧ Joined (l :: s)

theorem join_of_joined {s : Str} (h : Joined s) : join s = s := by
  induction s with
  | nil => rfl
  | cons c s ih =>
      cases s with
      | nil => rfl
      | cons l s =>
          have hn : (isHigh c && isLow l) = false := by
            rw [Bool.eq_false_iff]
            intro hc
            exact h.1 (by simpa using hc)
          rw [join, hn, if_neg Bool.false_ne_true, ih h.2]

theorem joined_of_plain {s : Str} (h : Plain s) : Joined s := by
  induction s with
  | nil => trivial
  | cons c s ih =>
      cases s with
      | nil => trivial
      | cons l s =>
          refine ⟨?_, ih fun d hd => h d (List.mem_cons_of_mem _ hd)⟩
          rintro ⟨hc, -⟩
          have hs := h c List.mem_cons_self
          rw [isHigh_iff] at hc
          rw [isSurrogate] at hs
          simp only [Bool.and_eq_false_iff, decide_eq_false_iff_not] at hs
          omega

/-- A literal has no surrogates. -/
theorem plain_lit (s : String) : Plain (lit s) := by
  intro c hc
  obtain ⟨d, -, rfl⟩ := List.mem_map.1 hc
  have hval : (Fin.ofNat 0x110000 d.toNat : CodePoint).val = d.toNat :=
    Nat.mod_eq_of_lt (toNat_lt d)
  rw [isSurrogate, hval]
  rcases d.valid with h | ⟨h, -⟩
  · exact Bool.and_eq_false_iff.2 (.inl (decide_eq_false (Nat.not_le.2 h)))
  · exact Bool.and_eq_false_iff.2 (.inr (decide_eq_false (Nat.not_le.2 h)))

@[simp] theorem join_lit (s : String) : join (lit s) = lit s :=
  join_of_joined (joined_of_plain (plain_lit s))

theorem join_ne_nil {s : Str} (h : s ≠ []) : join s ≠ [] := by
  fun_cases join s with
  | case1 => exact absurd rfl h
  | case2 c => exact List.cons_ne_nil _ _
  | case3 h l s hp => exact List.cons_ne_nil _ _
  | case4 h l s hp => exact List.cons_ne_nil _ _

/-- The first character of a joined text is no trailing surrogate unless that of
the text is. -/
theorem join_head_low {s : Str} {c : CodePoint} {t : Str} (h : join s = c :: t)
    (hc : isLow c = true) : ∃ u, s = c :: u := by
  cases s with
  | nil => cases h
  | cons d s =>
      cases s with
      | nil =>
          cases h
          exact ⟨_, rfl⟩
      | cons l s =>
          rw [join] at h
          split at h
          · rename_i hp
            rw [Bool.and_eq_true] at hp
            injection h with hhead
            rw [← hhead, not_isLow_of_ge (joinPair_bounds hp.1 hp.2)] at hc
            exact absurd hc Bool.false_ne_true
          · cases h
            exact ⟨_, rfl⟩

theorem joined_join (s : Str) : Joined (join s) := by
  fun_induction join s with
  | case1 => trivial
  | case2 c => trivial
  | case3 h l s hp ih =>
      rw [Bool.and_eq_true] at hp
      cases hj : join s with
      | nil => trivial
      | cons d t =>
          rw [hj] at ih
          refine ⟨?_, ih⟩
          rw [not_isHigh_of_ge (joinPair_bounds hp.1 hp.2)]
          rintro ⟨hc, -⟩
          cases hc
  | case4 h l s hp ih =>
      cases hj : join (l :: s) with
      | nil => trivial
      | cons d t =>
          rw [hj] at ih
          refine ⟨?_, ih⟩
          rintro ⟨hh, hd⟩
          obtain ⟨u, hu⟩ := join_head_low hj hd
          cases hu
          exact hp (by simp [hh, hd])

@[simp] theorem join_join (s : Str) : join (join s) = join s := join_of_joined (joined_join s)

/-! ## Whitespace and lines -/

/-- `str.isspace` of one character. -/
def isSpace (c : CodePoint) : Bool :=
  (9 ≤ c.val && c.val ≤ 13) || (28 ≤ c.val && c.val ≤ 32) || c.val = 0x85 || c.val = 0xA0 ||
    c.val = 0x1680 || (0x2000 ≤ c.val && c.val ≤ 0x200A) || c.val = 0x2028 || c.val = 0x2029 ||
    c.val = 0x202F || c.val = 0x205F || c.val = 0x3000

/-- `str.strip()`. -/
def strip (s : Str) : Str := (s.dropWhile isSpace).rdropWhile isSpace

@[simp] theorem strip_strip (s : Str) : strip (strip s) = strip s := by
  have hhead : (strip s).dropWhile isSpace = strip s := by
    rw [List.dropWhile_eq_self_iff]
    intro hlen
    have hpre : strip s <+: s.dropWhile isSpace := List.rdropWhile_prefix _ _
    have hlen' : 0 < (s.dropWhile isSpace).length := lt_of_lt_of_le hlen hpre.length_le
    have hget : (strip s)[0] = (s.dropWhile isSpace)[0] := hpre.getElem hlen
    rw [hget]
    exact List.dropWhile_get_zero_not isSpace s hlen'
  have hend : (strip s).rdropWhile isSpace = strip s := List.rdropWhile_idempotent _ _
  rw [strip, hhead, hend]

/-- A text with a character that is no space is not empty without its spaces. -/
theorem strip_ne_nil {s : Str} {c : CodePoint} (hc : c ∈ s) (hspace : isSpace c = false) : strip s ≠ [] := by
  intro h
  rw [strip, List.rdropWhile_eq_nil_iff] at h
  rw [← List.takeWhile_append_dropWhile (p := isSpace) (l := s)] at hc
  have hall : isSpace c = true := by
    rcases List.mem_append.1 hc with hc | hc
    · exact List.mem_takeWhile_imp hc
    · exact h c hc
  rw [hall] at hspace
  cases hspace

/-- `str.rstrip()`. -/
def rstrip (s : Str) : Str := s.rdropWhile isSpace

/-- `s.rfind(sub)`, if there is one. -/
def rfind (sub s : Str) : Option Nat :=
  (List.range (s.length + 1)).reverse.find? fun i => sub.isPrefixOf (s.drop i)

/-- `str.lower()`, as far as a comparison with a text of ASCII characters can tell.
Beyond `A` to `Z` only the Kelvin sign has such a letter alone for its small letter. -/
def lowerLetters (s : Str) : Str :=
  s.map fun c =>
    if 65 ≤ c.val ∧ c.val ≤ 90 then Fin.ofNat 0x110000 (c.val + 32)
    else if c.val = 0x212A then 107 else c

/-- The line feed. -/
abbrev newline : CodePoint := 10

/-- The carriage return. -/
abbrev carriageReturn : CodePoint := 13

/-- Reading as text turns `\r\n` and `\r` into `\n`.  The flag says that the last
character was a carriage return. -/
def universalNewlines (afterReturn : Bool) : Str → Str
  | [] => []
  | c :: s =>
      if c = carriageReturn then newline :: universalNewlines true s
      else if c = newline && afterReturn then universalNewlines false s
      else c :: universalNewlines false s

/-- The lines of a text without their line feeds.  A last line need not have one. -/
def splitLines : Str → List Str
  | [] => []
  | c :: s =>
      if c = newline then [] :: splitLines s
      else match splitLines s with
        | [] => [[c]]
        | l :: ls => (c :: l) :: ls

/-- The lines that iterating over a text file gives. -/
def fileLines (content : Str) : List Str := splitLines (universalNewlines false content)

/-- Printable ASCII: what `json.dumps` writes. -/
def Printable (s : Str) : Prop := ∀ c ∈ s, 0x20 ≤ c.val ∧ c.val ≤ 0x7E

instance (s : Str) : Decidable (Printable s) := List.decidableBAll _ s

theorem Printable.plain {s : Str} (h : Printable s) : Plain s := by
  intro c hc
  have hb := h c hc
  simp only [isSurrogate, Bool.and_eq_false_iff, decide_eq_false_iff_not]
  omega

theorem universalNewlines_line {l : Str} (h : Printable l) (s : Str) :
    universalNewlines false (l ++ newline :: s) = l ++ newline :: universalNewlines false s := by
  induction l with
  | nil =>
      have hne : newline ≠ carriageReturn := by decide
      simp [universalNewlines, hne]
  | cons c l ih =>
      have hc := h c List.mem_cons_self
      have hcr : c ≠ carriageReturn := by rintro rfl; exact absurd hc.1 (by decide)
      have hnl : c ≠ newline := by rintro rfl; exact absurd hc.1 (by decide)
      simp [universalNewlines, hcr, hnl, ih fun d hd => h d (List.mem_cons_of_mem _ hd)]

theorem splitLines_line {l : Str} (h : Printable l) (s : Str) :
    splitLines (l ++ newline :: s) = l :: splitLines s := by
  induction l with
  | nil => simp [splitLines]
  | cons c l ih =>
      have hc := h c List.mem_cons_self
      have hnl : c ≠ newline := by rintro rfl; exact absurd hc.1 (by decide)
      simp [splitLines, hnl, ih fun d hd => h d (List.mem_cons_of_mem _ hd)]

theorem Printable.ne_newline {l : Str} (h : Printable l) {c : CodePoint} (hc : c ∈ l) :
    c ≠ newline ∧ c ≠ carriageReturn := by
  have hb := h c hc
  constructor
  · rintro rfl
    exact absurd hb.1 (by decide)
  · rintro rfl
    exact absurd hb.1 (by decide)

theorem fileLines_line {l : Str} (h : Printable l) (s : Str) :
    fileLines (l ++ newline :: s) = l :: fileLines s := by
  rw [fileLines, universalNewlines_line h, splitLines_line h, fileLines]

/-- A last line without its line feed. -/
theorem fileLines_last {l : Str} (h : Printable l) (hne : l ≠ []) : fileLines l = [l] := by
  have hread : universalNewlines false l = l := by
    clear hne
    induction l with
    | nil => rfl
    | cons c l ih =>
        obtain ⟨hnl, hcr⟩ := h.ne_newline (c := c) List.mem_cons_self
        rw [universalNewlines, if_neg hcr, if_neg (by simp [hnl]),
          ih fun d hd => h d (List.mem_cons_of_mem _ hd)]
  rw [fileLines, hread]
  clear hread
  induction l with
  | nil => exact absurd rfl hne
  | cons c l ih =>
      obtain ⟨hnl, -⟩ := h.ne_newline (c := c) List.mem_cons_self
      rw [splitLines, if_neg hnl]
      cases l with
      | nil => rfl
      | cons d l =>
          rw [ih (fun d hd => h d (List.mem_cons_of_mem _ hd)) (List.cons_ne_nil d l)]

/-- Whole lines are read line by line, whatever follows them. -/
theorem fileLines_flatMap_append (lines : List Str) (h : ∀ l ∈ lines, Printable l) (s : Str) :
    fileLines ((lines.flatMap fun l => l ++ [newline]) ++ s) = lines ++ fileLines s := by
  induction lines with
  | nil => rfl
  | cons l lines ih =>
      have hrest := ih fun k hk => h k (List.mem_cons_of_mem _ hk)
      rw [List.flatMap_cons, List.append_assoc, List.append_assoc, List.singleton_append,
        fileLines_line (h l List.mem_cons_self), hrest]
      rfl

/-- A file of printable lines is read back line by line. -/
theorem fileLines_flatMap (lines : List Str) (h : ∀ l ∈ lines, Printable l) :
    fileLines (lines.flatMap fun l => l ++ [newline]) = lines := by
  have hlines := fileLines_flatMap_append lines h []
  rw [List.append_nil] at hlines
  rw [hlines]
  exact List.append_nil lines

/-- A text that begins and ends with a character that is no space is its own strip. -/
theorem strip_of_ends {c d : CodePoint} (hc : isSpace c = false) (hd : isSpace d = false)
    (s : Str) : strip (c :: (s ++ [d])) = c :: (s ++ [d]) := by
  rw [strip, List.dropWhile_cons_of_neg (by simp [hc]), ← List.cons_append,
    List.rdropWhile_concat_neg _ _ _ (by simp [hd])]

end Py
