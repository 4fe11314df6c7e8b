import ShugoCore.Lib.PyText
import ShugoCore.Lib.Sha256

/-!
# A file of lines that is cut

A file to which whole lines are appended is cut at some byte.  What is left is
some of its lines, and perhaps a part of the next.
-/

namespace Py

/-- The text of a file with these lines. -/
def linesText (lines : List Str) : Str := lines.flatMap fun l => l ++ [newline]

theorem linesText_append (ls rest : List Str) :
    linesText (ls ++ rest) = linesText ls ++ linesText rest := List.flatMap_append

theorem linesText_cons (l : Str) (ls : List Str) :
    linesText (l :: ls) = l ++ newline :: linesText ls := by
  simp [linesText]

/-- Whole lines are read first. -/
theorem fileLines_linesText_append {lines : List Str} (h : ∀ l ∈ lines, Printable l) (s : Str) :
    fileLines (linesText lines ++ s) = lines ++ fileLines s := fileLines_flatMap_append lines h s

theorem fileLines_linesText {lines : List Str} (h : ∀ l ∈ lines, Printable l) :
    fileLines (linesText lines) = lines := fileLines_flatMap lines h

/-! ## The cut -/

/-- What a crash leaves of a file that is being written. -/
def crash (content : Str) (n : Nat) : Str := content.take n

/-- How many of the lines are whole in the first characters.  The line feed of a
line need not be there. -/
def wholeLines : List Str → Nat → Nat
  | [], _ => 0
  | l :: lines, n => if l.length ≤ n then wholeLines lines (n - (l.length + 1)) + 1 else 0

/-- What is left after a cut: some lines, and perhaps a part of the next. -/
inductive Cut (lines : List Str) (n : Nat) : Prop where
  | between (ls rest : List Str) (hlines : lines = ls ++ rest)
      (hleft : crash (linesText lines) n = linesText ls)
      (hwhole : (∀ l ∈ lines, l ≠ []) → wholeLines lines n = ls.length)
  | inside (ls rest : List Str) (l part : Str) (hlines : lines = ls ++ l :: rest)
      (hleft : crash (linesText lines) n = linesText ls ++ part) (hpart : part <+: l)
      (hne : part ≠ [])
      (hwhole : (∀ l ∈ lines, l ≠ []) →
        wholeLines lines n = if part = l then ls.length + 1 else ls.length)

theorem cut_crash (lines : List Str) (n : Nat) : Cut lines n := by
  induction lines generalizing n with
  | nil => exact .between [] [] rfl (by simp [linesText, crash]) fun _ => rfl
  | cons l lines ih =>
      rcases Nat.lt_trichotomy n l.length with hn | rfl | hn
      · -- in the line
        have hleft : crash (linesText (l :: lines)) n = l.take n := by
          rw [linesText_cons, crash, List.take_append_of_le_length (Nat.le_of_lt hn)]
        have hwhole : wholeLines (l :: lines) n = 0 := if_neg (Nat.not_le.2 hn)
        by_cases hzero : l.take n = []
        · exact .between [] (l :: lines) rfl (by rw [hleft, hzero]; rfl) fun _ => hwhole
        · refine .inside [] lines l _ rfl hleft ( List.take_prefix n l) hzero fun _ => ?_
          have hne : l.take n ≠ l := by
            intro he
            have hlen := congrArg List.length he
            rw [List.length_take] at hlen
            omega
          rw [hwhole, if_neg hne]
          rfl
      · -- before its line feed
        have hleft : crash (linesText (l :: lines)) l.length = l := by
          rw [linesText_cons, crash, List.take_left]
        have hwhole : (∀ k ∈ l :: lines, k ≠ []) → wholeLines (l :: lines) l.length = 1 := by
          intro hne
          have hrest : wholeLines lines 0 = 0 := by
            cases lines with
            | nil => rfl
            | cons k lines =>
                have hk : 0 < k.length := List.length_pos_of_ne_nil (hne k (by simp))
                exact if_neg (by omega)
          rw [wholeLines, if_pos (Nat.le_refl _)]
          have hsub : l.length - (l.length + 1) = 0 := by omega
          rw [hsub, hrest]
        by_cases hzero : l = []
        · refine .between [] (l :: lines) rfl (by rw [hleft, hzero]; rfl) fun hne => ?_
          exact absurd hzero (hne l List.mem_cons_self)
        · refine .inside [] lines l l rfl hleft (List.prefix_refl l) hzero fun hne => ?_
          rw [hwhole hne, if_pos rfl]
          rfl
      · -- after it
        obtain ⟨m, rfl⟩ : ∃ m, n = l.length + (m + 1) := ⟨n - l.length - 1, by omega⟩
        have htake : ∀ s, (l ++ newline :: s).take (l.length + (m + 1)) = l ++ newline :: s.take m := by
          intro s
          rw [List.take_length_add_append, List.take_succ_cons]
        have hcount : wholeLines (l :: lines) (l.length + (m + 1)) = wholeLines lines m + 1 := by
          rw [wholeLines, if_pos (by omega)]
          have hsub : l.length + (m + 1) - (l.length + 1) = m := by omega
          rw [hsub]
        rcases ih m with ⟨ls, rest, hlines, hleft, hwhole⟩ |
          ⟨ls, rest, k, part, hlines, hleft, hpart, hne, hwhole⟩
        · refine .between (l :: ls) rest (by rw [hlines]; rfl) ?_ fun hne => ?_
          · rw [linesText_cons, crash, htake, ← crash, hleft, linesText_cons]
          · rw [hcount, hwhole fun k hk => hne k (List.mem_cons_of_mem _ hk)]
            rfl
        · refine .inside (l :: ls) rest k part (by rw [hlines]; rfl) ?_ hpart hne fun hne => ?_
          · rw [linesText_cons, crash, htake, ← crash, hleft, linesText_cons]
            simp
          · rw [hcount, hwhole fun k hk => hne k (List.mem_cons_of_mem _ hk)]
            split <;> rfl

/-- The text ends with a line, or there is none. -/
def AtLineEnd (text : Str) : Prop := text = [] ∨ text.getLast? = some newline

instance (text : Str) : Decidable (AtLineEnd text) := inferInstanceAs (Decidable (_ ∨ _))

theorem atLineEnd_linesText (ls : List Str) : AtLineEnd (linesText ls) := by
  rcases List.eq_nil_or_concat ls with rfl | ⟨ks, k, rfl⟩
  · exact .inl rfl
  · right
    rw [List.concat_eq_append, linesText_append, linesText_cons]
    simp [linesText]

theorem not_atLineEnd_inside (ls : List Str) {part : Str} (hp : Printable part) (hne : part ≠ []) :
    ¬ AtLineEnd (linesText ls ++ part) := by
  rintro (hnil | hlast)
  · exact hne (List.append_eq_nil_iff.1 hnil).2
  · rw [List.getLast?_append_of_ne_nil _ hne] at hlast
    exact (hp.ne_newline (List.mem_of_getLast? hlast)).1 rfl

/-- The line feeds of a text count its lines. -/
theorem count_newline {ls : List Str} (h : ∀ l ∈ ls, Printable l) :
    (linesText ls).count newline = ls.length := by
  induction ls with
  | nil => rfl
  | cons l ls ih =>
      have hline : l.count newline = 0 := by
        rw [List.count_eq_zero]
        exact fun hmem => ((h l List.mem_cons_self).ne_newline hmem).1 rfl
      rw [linesText_cons, List.count_append, hline, List.count_cons_self,
        ih fun k hk => h k (List.mem_cons_of_mem _ hk), List.length_cons, Nat.zero_add]

/-! ## Bytes -/

theorem utf8_ascii {s : Str} (h : ∀ c ∈ s, c.val < 0x80) : utf8 s = s.map Fin.val := by
  induction s with
  | nil => rfl
  | cons c s ih =>
      rw [utf8, List.flatMap_cons, if_pos (h c List.mem_cons_self)]
      exact congrArg (c.val :: ·) (ih fun d hd => h d (List.mem_cons_of_mem _ hd))

/-- Lines that are ASCII have a byte for each character, so that a cut at a byte is
a cut at a character. -/
theorem utf8_crash {lines : List Str} (h : ∀ l ∈ lines, Printable l) (n : Nat) :
    utf8 (crash (linesText lines) n) = (utf8 (linesText lines)).take n := by
  have htext : ∀ c ∈ linesText lines, c.val < 0x80 := by
    intro c hc
    obtain ⟨l, hl, hc⟩ := List.mem_flatMap.1 hc
    rcases List.mem_append.1 hc with hc | hc
    · have hb := h l hl c hc
      omega
    · rw [List.mem_singleton.1 hc]
      decide
  rw [crash, utf8_ascii htext, utf8_ascii fun c hc => htext c ((List.take_subset n _) hc),
    List.map_take]

end Py
