import Mathlib.Data.List.Chain
import ShugoCore.Lib.PyBuiltins
import ShugoCore.Security

/-!
# Sanitised text

`sanitize_text` takes the control and the invisible characters out of a text, strips it, and cuts it
off.  What it has before the cut is settled: another round changes nothing.  The cut comes last, and a
text that is cut off behind a blank ends with it, which the next round strips.

So a second round gives the same text if and only if no whitespace stands before the cut
(`sanitised_iff`).  A third round never changes anything (`sanitizeText_twice`).
-/

namespace ShugoCore

open Py

/-! ## The text before the cut -/

/-- What `sanitize_text` cuts off. -/
def cleanedText (text : Str) : Str :=
  strip (collapseSpaces ((text.map fun c => if isControl c then 32 else c).filter fun c =>
    !isInvisible c))

theorem sanitizeText_eq (text : Str) (maxLength : Int) :
    sanitizeText text maxLength = (cleanedText text).take maxLength.toNat := by
  have hnat : (max 0 maxLength).toNat = maxLength.toNat := by omega
  rw [← hnat]
  rfl

theorem length_sanitizeText (s : Str) (n : Nat) : (sanitizeText s n).length ≤ n := by
  rw [sanitizeText_eq, Int.toNat_natCast]
  exact List.length_take_le n _

theorem mem_collapseSpaces {s : Str} {c : CodePoint} (h : c ∈ collapseSpaces s) : c ∈ s := by
  fun_induction collapseSpaces s with
  | case1 => exact h
  | case2 d => exact h
  | case3 d e s hspace ih => exact List.mem_cons_of_mem _ (ih h)
  | case4 d e s hspace ih =>
      rcases List.mem_cons.1 h with rfl | h
      · exact List.mem_cons_self
      · exact List.mem_cons_of_mem _ (ih h)

theorem strip_isInfix (s : Str) : strip s <:+: s :=
  (List.rdropWhile_prefix _ _).isInfix.trans (List.dropWhile_suffix _).isInfix

/-- No blank follows another one. -/
def Spaced (s : Str) : Prop := s.IsChain fun c d => ¬ (c = 32 ∧ d = 32)

/-- A text that collapses to one that begins with a character begins with it. -/
theorem collapseSpaces_cons (c : CodePoint) (s : Str) : ∃ t, collapseSpaces (c :: s) = c :: t := by
  induction s generalizing c with
  | nil => exact ⟨[], rfl⟩
  | cons d s ih =>
      rw [collapseSpaces]
      split
      · rename_i hblank
        obtain ⟨t, ht⟩ := ih d
        rw [hblank.1, ← hblank.2]
        exact ⟨t, ht⟩
      · exact ⟨_, rfl⟩

theorem spaced_collapseSpaces (s : Str) : Spaced (collapseSpaces s) := by
  fun_induction collapseSpaces s with
  | case1 => exact .nil
  | case2 c => exact .singleton c
  | case3 c d s hblank ih => exact ih
  | case4 c d s hblank ih =>
      obtain ⟨t, ht⟩ := collapseSpaces_cons d s
      rw [ht] at ih ⊢
      exact .cons_cons hblank ih

theorem collapseSpaces_of_spaced {s : Str} (h : Spaced s) : collapseSpaces s = s := by
  fun_induction collapseSpaces s with
  | case1 => rfl
  | case2 c => rfl
  | case3 c d s hblank ih => exact absurd hblank (List.isChain_cons_cons.1 h).1
  | case4 c d s hblank ih => rw [ih (List.isChain_cons_cons.1 h).2]

/-- A text that a round leaves as it is, but for the blanks at its ends. -/
structure Tidy (s : Str) : Prop where
  controlFree : ∀ c ∈ s, isControl c = false
  visible : ∀ c ∈ s, isInvisible c = false
  spaced : Spaced s

theorem Tidy.of_isInfix {s t : Str} (h : Tidy t) (hst : s <:+: t) : Tidy s where
  controlFree c hc := h.controlFree c (hst.subset hc)
  visible c hc := h.visible c (hst.subset hc)
  spaced := by
    obtain ⟨front, back, rfl⟩ := hst
    exact h.spaced.left_of_append.right_of_append

theorem isControl_blank : isControl 32 = false := by decide

theorem tidy_cleanedText (text : Str) : Tidy (cleanedText text) := by
  refine Tidy.of_isInfix ?_ (strip_isInfix _)
  refine ⟨?_, ?_, spaced_collapseSpaces _⟩
  · intro c hc
    obtain ⟨d, -, rfl⟩ := List.mem_map.1 (List.mem_of_mem_filter (mem_collapseSpaces hc))
    split
    · exact isControl_blank
    · rename_i hd
      exact Bool.eq_false_iff.2 hd
  · intro c hc
    simpa using List.of_mem_filter (mem_collapseSpaces hc)

theorem cleanedText_of_tidy {s : Str} (h : Tidy s) : cleanedText s = strip s := by
  have hmap : (s.map fun c => if isControl c then 32 else c) = s := by
    conv_rhs => rw [← List.map_id s]
    refine List.map_congr_left ?_
    intro c hc
    rw [h.controlFree c hc]
    rfl
  have hfilter : (s.filter fun c => !isInvisible c) = s := by
    rw [List.filter_eq_self]
    intro c hc
    rw [h.visible c hc]
    rfl
  rw [cleanedText, hmap, hfilter, collapseSpaces_of_spaced h.spaced]

@[simp] theorem strip_cleanedText (text : Str) : strip (cleanedText text) = cleanedText text :=
  strip_strip _

/-- The beginning of a stripped text has blanks at its end only. -/
theorem strip_take {s : Str} (h : strip s = s) (k : Nat) : strip (s.take k) = rstrip (s.take k) := by
  have hhead : s.dropWhile isSpace = s := by
    have hlen : s.length ≤ (s.dropWhile isSpace).length := by
      conv_lhs => rw [← h]
      exact (List.rdropWhile_prefix _ _).length_le
    exact (List.dropWhile_suffix _).eq_of_length_le hlen
  rw [strip, rstrip]
  congr 1
  rw [List.dropWhile_eq_self_iff] at hhead ⊢
  intro hlen
  rw [List.getElem_take]
  exact hhead (lt_of_lt_of_le hlen (List.length_take_le' _ _))

/-! ## Another round -/

/-- A second round strips what the cut has left at the end. -/
theorem sanitizeText_sanitizeText (text : Str) (n : Int) :
    sanitizeText (sanitizeText text n) n = rstrip (sanitizeText text n) := by
  have htidy : Tidy (sanitizeText text n) := by
    rw [sanitizeText_eq]
    exact (tidy_cleanedText text).of_isInfix (List.take_prefix _ _).isInfix
  rw [sanitizeText_eq (sanitizeText text n), cleanedText_of_tidy htidy, sanitizeText_eq,
    strip_take (strip_cleanedText text)]
  refine List.take_of_length_le ?_
  exact (List.rdropWhile_prefix _ _).length_le.trans (List.length_take_le _ _)

/-- A third round changes nothing. -/
theorem sanitizeText_twice (text : Str) (n : Int) :
    sanitizeText (sanitizeText (sanitizeText text n) n) n = sanitizeText (sanitizeText text n) n := by
  rw [sanitizeText_sanitizeText (sanitizeText text n), sanitizeText_sanitizeText]
  exact List.rdropWhile_idempotent _ _

/-- Whitespace stands before the cut. -/
def BlankAtCut (text : Str) (n : Int) : Prop :=
  0 < n ∧ ∃ c ∈ (cleanedText text)[(n - 1).toNat]?, isSpace c = true

instance (text : Str) (n : Int) : Decidable (BlankAtCut text n) :=
  have : Decidable (∃ c ∈ (cleanedText text)[(n - 1).toNat]?, isSpace c = true) :=
    Option.decidableExistsMem _
  inferInstanceAs (Decidable (_ ∧ _))

theorem rstrip_eq_self_iff {s : Str} : rstrip s = s ↔ ∀ c ∈ s.getLast?, isSpace c = false := by
  rw [rstrip, List.rdropWhile_eq_self_iff]
  constructor
  · intro h c hc
    obtain ⟨hne, rfl⟩ := List.mem_getLast?_eq_getLast hc
    exact Bool.eq_false_iff.2 (h hne)
  · intro h hne
    rw [h _ (List.getLast?_eq_some_getLast hne)]
    exact Bool.false_ne_true

/-- The last character of a stripped text is no blank. -/
theorem not_isSpace_last {s : Str} (h : strip s = s) : ∀ c ∈ s.getLast?, isSpace c = false := by
  refine rstrip_eq_self_iff.1 ?_
  conv_rhs => rw [← h]
  rw [← List.take_length (l := s), ← strip_take h, List.take_length]

theorem settled_iff (text : Str) (n : Int) :
    sanitizeText (sanitizeText text n) n = sanitizeText text n ↔ ¬ BlankAtCut text n := by
  rw [sanitizeText_sanitizeText, rstrip_eq_self_iff, sanitizeText_eq, List.getLast?_take, BlankAtCut]
  have hlast := not_isSpace_last (strip_cleanedText text)
  by_cases hn : 0 < n
  · have hpred : n.toNat - 1 = (n - 1).toNat := by omega
    rw [if_neg (by omega), hpred]
    cases hcut : (cleanedText text)[(n - 1).toNat]? with
    | none => simpa [hn] using hlast
    | some c => simp [hn]
  · rw [if_pos (by omega)]
    simp [hn]

/-! ## What is asked of a sanitiser -/

/-- `\x80-\x9f`: the control characters beyond ASCII, which are not in the pattern. -/
def isHighControl (c : CodePoint) : Bool := 0x80 ≤ c.val && c.val ≤ 0x9F

/-- A sanitised value is settled, no longer than the bound, and free of control characters. -/
structure Sanitised {φ : Type} [Builtins φ] (control : CodePoint → Bool) (v : PyVal φ) (n : Int) :
    Prop where
  settled : sanitizeText (sanitizeText (strOf v) n) n = sanitizeText (strOf v) n
  bounded : ((sanitizeText (strOf v) n).length : Int) ≤ n
  controlFree : ∀ c ∈ sanitizeText (strOf v) n, control c = false

theorem controlFree_sanitizeText (text : Str) (n : Int) :
    ∀ c ∈ sanitizeText text n, isControl c = false := by
  intro c hc
  rw [sanitizeText_eq] at hc
  exact (tidy_cleanedText text).controlFree c (List.mem_of_mem_take hc)

theorem length_sanitizeText_le_iff (text : Str) (n : Int) :
    ((sanitizeText text n).length : Int) ≤ n ↔ 0 ≤ n := by
  constructor
  · intro h
    omega
  · intro h
    obtain ⟨k, rfl⟩ := Int.eq_ofNat_of_zero_le h
    exact_mod_cast length_sanitizeText text k

/-- For every value and bound: what `sanitize_text` returns is settled, bounded and free of the
control characters of its pattern if and only if the bound is not negative and no whitespace stands
before the cut; and free of those beyond ASCII if there are none before the cut. -/
theorem sanitised_iff {φ : Type} [Builtins φ] (v : PyVal φ) (n : Int) :
    (Sanitised isControl v n ↔ 0 ≤ n ∧ ¬ BlankAtCut (strOf v) n) ∧
    (Sanitised (fun c => isControl c || isHighControl c) v n ↔
      0 ≤ n ∧ ¬ BlankAtCut (strOf v) n ∧
        ∀ c ∈ (cleanedText (strOf v)).take n.toNat, isHighControl c = false) := by
  have hlength := length_sanitizeText_le_iff (strOf v) n
  have hsettled := settled_iff (strOf v) n
  have hcontrol := controlFree_sanitizeText (strOf v) n
  constructor
  · constructor
    · intro h
      exact ⟨hlength.1 h.bounded, hsettled.1 h.settled⟩
    · rintro ⟨hn, hcut⟩
      exact ⟨hsettled.2 hcut, hlength.2 hn, hcontrol⟩
  · rw [← sanitizeText_eq]
    constructor
    · intro h
      refine ⟨hlength.1 h.bounded, hsettled.1 h.settled, ?_⟩
      intro c hc
      exact (Bool.or_eq_false_iff.1 (h.controlFree c hc)).2
    · rintro ⟨hn, hcut, hhigh⟩
      refine ⟨hsettled.2 hcut, hlength.2 hn, ?_⟩
      intro c hc
      exact Bool.or_eq_false_iff.2 ⟨hcontrol c hc, hhigh c hc⟩

/-- A text that is cut off behind a blank is another one after the next round. -/
theorem tea_pot_unsettled :
    sanitizeText (lit "tea pot") 4 = lit "tea " ∧ sanitizeText (lit "tea ") 4 = lit "tea" ∧
      ∀ {φ : Type} [Builtins φ], ¬ Sanitised isControl (.str (lit "tea pot") : PyVal φ) 4 := by
  refine ⟨by decide, by decide, ?_⟩
  intro φ _ h
  have hsettled : sanitizeText (sanitizeText (lit "tea pot") 4) 4 = sanitizeText (lit "tea pot") 4 :=
    h.settled
  exact absurd hsettled (by decide)

end ShugoCore
