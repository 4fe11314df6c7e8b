import ShugoCore.Mesh.Speech
import ShugoCore.Security.Sanitised

/-!
# Texts that are cut off to be spoken

`truncate_sentence` of `human_interaction.py`, for any limit.  A text that is too long ends after the
last mark of a sentence in the second half of what fits, or before the last blank there, or where the
limit is.  A mark with a blank behind it is preferred; failing that, any mark will do, and so a number
or a URL is cut after its dot.  The blank is the ASCII one, so other whitespace is not seen.

A text is cut off whole if and only if neither happens (`truncated_iff`).
-/

namespace ShugoCore

open Py

/-! ## Any limit -/

/-- `s.rfind(sub)`, which is -1 if there is none. -/
def rfindIndex (sub s : Str) : Int := (rfind sub s).elim (-1) Nat.cast

/-- `s[:n]`, where a negative `n` counts from the end. -/
def sliceTo (s : Str) (n : Int) : Str :=
  if 0 ≤ n then s.take n.toNat else s.take (s.length - n.natAbs)

/-- `truncate_sentence`. -/
def truncateSentenceTo (text : Str) (limit : Int) : Str :=
  let cleaned := sanitizeText text (max (limit * 2) limit)
  if cleaned.length ≤ limit then cleaned
  else
    let cut := sliceTo cleaned limit
    let ends := [". ", "! ", "? ", ".", "!", "?"].map fun sep => rfindIndex (lit sep) cut
    match ends.find? fun pos => limit / 2 < pos with
    | some pos => rstrip (sliceTo cut (pos + 1))
    | none =>
        let pos := rfindIndex [32] cut
        if limit / 2 < pos then rstrip (sliceTo cut pos) else rstrip cut

/-- The last place of a text, past half of the limit, where the first of these stands that stands
there at all. -/
def pastHalf (limit : Nat) (cut : Str) (seps : List Str) : Option Nat :=
  seps.findSome? fun sep => (rfind sep cut).filter fun pos => limit / 2 < pos

theorem sliceTo_natCast (s : Str) (n : Nat) : sliceTo s n = s.take n := by
  rw [sliceTo, if_pos (Int.natCast_nonneg n), Int.toNat_natCast]

theorem find?_rfindIndex (limit : Nat) (cut : Str) (seps : List String) :
    (seps.map fun sep => rfindIndex (lit sep) cut).find? (fun pos => (limit : Int) / 2 < pos) =
      (pastHalf limit cut (seps.map lit)).map Nat.cast := by
  induction seps with
  | nil => rfl
  | cons sep seps ih =>
      rw [List.map_cons, List.map_cons, List.find?_cons, ih, pastHalf, pastHalf, List.findSome?_cons]
      cases hfind : rfind (lit sep) cut with
      | none =>
          have hneg : ¬ (limit : Int) / 2 < -1 := by omega
          simp [rfindIndex, hfind, hneg]
      | some pos =>
          have hcast : (limit : Int) / 2 < pos ↔ limit / 2 < pos := by omega
          by_cases hpos : limit / 2 < pos
          · simp [rfindIndex, hfind, hcast.2 hpos, Option.filter, hpos]
          · have hneg := mt hcast.1 hpos
            simp [rfindIndex, hfind, hneg, Option.filter, hpos]

/-- For a limit that is not negative it is the truncation of the executors. -/
theorem truncateSentenceTo_natCast (text : Str) (limit : Nat) :
    truncateSentenceTo text limit = truncateSentence text limit := by
  have hmax : max ((limit : Int) * 2) limit = ((limit * 2 : Nat) : Int) := by omega
  have hends : sentenceEnd limit ((sanitizeText text ((limit : Int) * 2)).take limit) = pastHalf limit
      ((sanitizeText text ((limit : Int) * 2)).take limit)
        ([". ", "! ", "? ", ".", "!", "?"].map lit) := rfl
  simp only [truncateSentenceTo, truncateSentence, hmax, Nat.cast_le, sliceTo_natCast,
    find?_rfindIndex, Nat.cast_mul, Nat.cast_ofNat, hends]
  split
  · rfl
  · cases pastHalf limit ((sanitizeText text ((limit : Int) * 2)).take limit)
        ([". ", "! ", "? ", ".", "!", "?"].map lit) with
    | some pos => exact congrArg rstrip (sliceTo_natCast _ (pos + 1))
    | none =>
        dsimp only [Option.map_none]
        rw [rfindIndex]
        cases rfind [32] ((sanitizeText text ((limit : Int) * 2)).take limit) with
        | none =>
            have hneg : ¬ (limit : Int) / 2 < -1 := by omega
            simp [hneg]
        | some pos =>
            have hcast : (limit : Int) / 2 < pos ↔ limit / 2 < pos := by omega
            by_cases hpos : limit / 2 < pos
            · simp [hcast.2 hpos, Option.filter, hpos, sliceTo_natCast]
            · simp [mt hcast.1 hpos, Option.filter, hpos]

/-! ## Where the text is cut -/

/-- The marks of a sentence with a blank behind them. -/
def spacedMarks : List Str := [". ", "! ", "? "].map lit

/-- The marks of a sentence. -/
def bareMarks : List Str := [".", "!", "?"].map lit

/-- How much of a text that is too long is looked at, before what is left is stripped. -/
def cutPoint (limit : Nat) (cut : Str) : Nat :=
  match pastHalf limit cut (spacedMarks ++ bareMarks) with
  | some pos => pos + 1
  | none => (pastHalf limit cut [[32]]).getD limit

theorem pastHalf_append (limit : Nat) (cut : Str) (seps seps' : List Str) :
    pastHalf limit cut (seps ++ seps') =
      (pastHalf limit cut seps).or (pastHalf limit cut seps') := List.findSome?_append

/-- Something of the list stands at the place that is found. -/
theorem pastHalf_some {limit : Nat} {cut : Str} {seps : List Str} {pos : Nat}
    (h : pastHalf limit cut seps = some pos) : ∃ sep ∈ seps, sep <+: cut.drop pos := by
  obtain ⟨sep, hsep, hfind⟩ := List.exists_of_findSome?_eq_some h
  obtain ⟨hfind, -⟩ := Option.filter_eq_some_iff.1 hfind
  have hpre : sep.isPrefixOf (cut.drop pos) = true :=
    List.find?_some (p := fun i => sep.isPrefixOf (cut.drop i)) hfind
  exact ⟨sep, hsep, List.isPrefixOf_iff_prefix.1 hpre⟩

/-- The character at a place where a text goes on. -/
theorem getElem?_of_begins {cut : Str} {pos : Nat} {c : CodePoint} {sep : Str}
    (h : c :: sep <+: cut.drop pos) : cut[pos]? = some c := by
  obtain ⟨rest, hrest⟩ := h
  have hhead : (cut.drop pos)[0]? = some c := by
    rw [← hrest]
    rfl
  rwa [List.getElem?_drop, Nat.add_zero] at hhead

theorem lt_of_getElem?_take {s : Str} {limit pos : Nat} {c : CodePoint}
    (h : (s.take limit)[pos]? = some c) : pos < limit ∧ s[pos]? = some c := by
  rw [List.getElem?_take] at h
  split at h
  · rename_i hlt
    exact ⟨hlt, h⟩
  · cases h

theorem isSpace_mark : ∀ sep ∈ spacedMarks ++ bareMarks, sep.head?.any (fun c => !isSpace c) = true := by
  decide

/-- A mark of a sentence stands at a place that was found for one. -/
theorem mark_of_pastHalf {limit : Nat} {s : Str} {pos : Nat}
    (h : pastHalf limit (s.take limit) (spacedMarks ++ bareMarks) = some pos) :
    pos < limit ∧ ∃ c, s[pos]? = some c ∧ isSpace c = false := by
  obtain ⟨sep, hsep, hpre⟩ := pastHalf_some h
  have hmark := isSpace_mark sep hsep
  cases sep with
  | nil => cases hmark
  | cons c rest =>
      obtain ⟨hlt, hget⟩ := lt_of_getElem?_take (getElem?_of_begins hpre)
      exact ⟨hlt, c, hget, by simpa using hmark⟩

/-- A blank stands behind a mark that was found with one. -/
theorem blank_of_spacedMark {limit : Nat} {s : Str} {pos : Nat}
    (h : pastHalf limit (s.take limit) spacedMarks = some pos) : s[pos + 1]? = some 32 := by
  obtain ⟨sep, hsep, hpre⟩ := pastHalf_some h
  have hblank : ∀ sep ∈ spacedMarks, sep.tail = [32] := by decide
  have htail : [32] <+: (s.take limit).drop (pos + 1) := by
    obtain ⟨rest, hrest⟩ := hpre
    cases sep with
    | nil => cases hblank _ hsep
    | cons m sep =>
        refine ⟨rest, ?_⟩
        rw [← hblank _ hsep, ← List.drop_drop, ← hrest]
        rfl
  exact (lt_of_getElem?_take (getElem?_of_begins htail)).2

theorem blank_of_pastHalf {limit : Nat} {s : Str} {pos : Nat}
    (h : pastHalf limit (s.take limit) [[32]] = some pos) : pos < limit ∧ s[pos]? = some 32 := by
  obtain ⟨sep, hsep, hpre⟩ := pastHalf_some h
  cases List.mem_singleton.1 hsep
  exact lt_of_getElem?_take (getElem?_of_begins hpre)

theorem cutPoint_le {limit : Nat} (s : Str) : cutPoint limit (s.take limit) ≤ limit := by
  rw [cutPoint]
  split
  · rename_i pos hpos
    exact (mark_of_pastHalf hpos).1
  · cases hblank : pastHalf limit (s.take limit) [[32]] with
    | none => exact le_rfl
    | some pos => exact (blank_of_pastHalf hblank).1.le

/-- A text that is too long is cut, and stripped at the end. -/
theorem truncateSentence_eq (text : Str) (limit : Nat) :
    truncateSentence text limit =
      let cleaned := sanitizeText text (limit * 2)
      if cleaned.length ≤ limit then cleaned
      else rstrip (cleaned.take (cutPoint limit (cleaned.take limit))) := by
  rw [truncateSentence]
  dsimp only
  generalize sanitizeText text (limit * 2) = s
  have htake : (s.take limit).take (cutPoint limit (s.take limit)) =
      s.take (cutPoint limit (s.take limit)) := by
    rw [List.take_take, Nat.min_eq_left (cutPoint_le s)]
  rw [← htake, cutPoint]
  have hends : sentenceEnd limit (s.take limit) =
      pastHalf limit (s.take limit) (spacedMarks ++ bareMarks) := rfl
  have hblank : (rfind [32] (s.take limit)).filter (fun pos => limit / 2 < pos) =
      pastHalf limit (s.take limit) [[32]] := by
    rw [pastHalf, List.findSome?_singleton]
  rw [hends, hblank]
  split
  · rfl
  · cases pastHalf limit (s.take limit) (spacedMarks ++ bareMarks) with
    | some pos => rfl
    | none =>
        cases pastHalf limit (s.take limit) [[32]] with
        | some pos => rfl
        | none =>
            dsimp only [Option.getD_none]
            rw [List.take_take, Nat.min_self]

/-! ## Where a text may end -/

/-- A prefix of this length ends at a whitespace boundary: what follows it is whitespace, if anything
does. -/
def EndsAtSpace (s : Str) (e : Nat) : Prop := ∀ c ∈ s[e]?, isSpace c = true

instance (s : Str) (e : Nat) : Decidable (EndsAtSpace s e) :=
  Option.decidableForallMem s[e]?

/-- A prefix of this length ends right after a mark of a sentence that whitespace follows. -/
def EndsAfterMark (s : Str) (e : Nat) : Prop :=
  ∃ pos m c, e = pos + 1 ∧ s[pos]? = some m ∧ [m] ∈ bareMarks ∧ s[e]? = some c ∧ isSpace c = true

theorem EndsAfterMark.endsAtSpace {s : Str} {e : Nat} (h : EndsAfterMark s e) : EndsAtSpace s e := by
  obtain ⟨pos, m, c, -, -, -, hnext, hspace⟩ := h
  intro d hd
  cases hnext.symm.trans hd
  exact hspace

/-- The text has a whitespace boundary past half of the limit and within it. -/
def Breakable (limit : Int) (s : Str) : Prop :=
  ∃ q : Nat, limit / 2 < q ∧ (q : Int) ≤ limit ∧ ∃ c ∈ s[q]?, isSpace c = true

/-- A text is truncated to a prefix of the sanitised one, within the limit, which cuts no word or
number if that can be avoided in the second half. -/
structure Truncated (text : Str) (limit : Int) : Prop where
  begins : truncateSentenceTo text limit <+: sanitizeText text (max (limit * 2) limit)
  bounded : ((truncateSentenceTo text limit).length : Int) ≤ limit
  whole : limit < (sanitizeText text (max (limit * 2) limit)).length →
    Breakable limit (sanitizeText text (max (limit * 2) limit)) →
    EndsAtSpace (sanitizeText text (max (limit * 2) limit)) (truncateSentenceTo text limit).length ∨
      EndsAfterMark (sanitizeText text (max (limit * 2) limit)) (truncateSentenceTo text limit).length

/-- What is stripped at the end of a cut text leaves whitespace behind it. -/
theorem endsAtSpace_rstrip {s : Str} {k : Nat} (hk : k ≤ s.length) :
    EndsAtSpace s (rstrip (s.take k)).length ↔
      EndsAtSpace s k ∨ ∃ c ∈ (s.take k).getLast?, isSpace c = true := by
  by_cases hself : rstrip (s.take k) = s.take k
  · have hlast := rstrip_eq_self_iff.1 hself
    rw [hself, List.length_take, Nat.min_eq_left hk, or_iff_left]
    rintro ⟨c, hc, hspace⟩
    rw [hlast c hc] at hspace
    cases hspace
  · have hsplit : rstrip (s.take k) ++ (s.take k).rtakeWhile isSpace = s.take k :=
      List.rdropWhile_append_rtakeWhile
    have hright : ∃ c ∈ (s.take k).getLast?, isSpace c = true := by
      by_contra hnone
      refine hself (rstrip_eq_self_iff.2 ?_)
      intro c hc
      exact Bool.eq_false_iff.2 fun hspace => hnone ⟨c, hc, hspace⟩
    refine iff_of_true ?_ (.inr hright)
    intro c hc
    cases htail : (s.take k).rtakeWhile isSpace with
    | nil =>
        rw [htail, List.append_nil] at hsplit
        exact absurd hsplit hself
    | cons d tail =>
        have hnext : s[(rstrip (s.take k)).length]? = some d := by
          rw [← List.take_append_drop k s]
          nth_rewrite 1 [← hsplit]
          rw [List.append_assoc, htail, List.getElem?_append_right (le_of_eq ?_)]
          · simp
          · rw [List.take_append_drop]
        cases hnext.symm.trans hc
        refine List.mem_rtakeWhile_imp (l := s.take k) ?_
        rw [htail]
        exact List.mem_cons_self

/-- A text that is too long and could end at whitespace, but does not: no mark with a blank stands in
the second half, and either the mark that stands there goes on with something else, or no mark and no
blank stands there and the limit falls into a word. -/
structure Mangled (limit : Nat) (s : Str) : Prop where
  long : limit < s.length
  breakable : Breakable limit s
  unmarked : pastHalf limit (s.take limit) spacedMarks = none
  broken : match pastHalf limit (s.take limit) bareMarks with
    | some pos => ¬ EndsAtSpace s (pos + 1)
    | none => pastHalf limit (s.take limit) [[32]] = none ∧ ¬ EndsAtSpace s limit ∧
        ∀ c ∈ (s.take limit).getLast?, isSpace c = false

/-- Where the text is cut, whitespace follows or it is stripped before, unless it is mangled. -/
theorem endsAtSpace_cut_iff {limit : Nat} {s : Str} (hlong : limit < s.length)
    (hbreak : Breakable limit s) :
    EndsAtSpace s (rstrip (s.take (cutPoint limit (s.take limit)))).length ↔ ¬ Mangled limit s := by
  have hmarked : ∀ pos, pastHalf limit (s.take limit) (spacedMarks ++ bareMarks) = some pos →
      (EndsAtSpace s (rstrip (s.take (pos + 1))).length ↔ EndsAtSpace s (pos + 1)) := by
    intro pos hpos
    obtain ⟨hlt, c, hget, hc⟩ := mark_of_pastHalf hpos
    rw [endsAtSpace_rstrip (by omega), or_iff_left]
    rintro ⟨d, hd, hspace⟩
    rw [List.getLast?_take, if_neg (Nat.succ_ne_zero _), Nat.add_sub_cancel, hget] at hd
    cases hd
    rw [hc] at hspace
    cases hspace
  rw [cutPoint]
  cases hspaced : pastHalf limit (s.take limit) spacedMarks with
  | some pos =>
      have hends : pastHalf limit (s.take limit) (spacedMarks ++ bareMarks) = some pos := by
        rw [pastHalf_append, hspaced]
        rfl
      rw [hends]
      refine iff_of_true ((hmarked pos hends).2 ?_) ?_
      · intro c hc
        cases (blank_of_spacedMark hspaced).symm.trans hc
        decide
      · intro h
        rw [h.unmarked] at hspaced
        cases hspaced
  | none =>
      have hends : pastHalf limit (s.take limit) (spacedMarks ++ bareMarks) =
          pastHalf limit (s.take limit) bareMarks := by
        rw [pastHalf_append, hspaced]
        rfl
      have hiff : Mangled limit s ↔ match pastHalf limit (s.take limit) bareMarks with
          | some pos => ¬ EndsAtSpace s (pos + 1)
          | none => pastHalf limit (s.take limit) [[32]] = none ∧ ¬ EndsAtSpace s limit ∧
              ∀ c ∈ (s.take limit).getLast?, isSpace c = false :=
        ⟨Mangled.broken, fun h => ⟨hlong, hbreak, hspaced, h⟩⟩
      rw [hiff, hends]
      cases hbare : pastHalf limit (s.take limit) bareMarks with
      | some pos =>
          rw [hbare] at hends
          dsimp only
          rw [not_not]
          exact hmarked pos hends
      | none =>
          dsimp only
          cases hblank : pastHalf limit (s.take limit) [[32]] with
          | some pos =>
              obtain ⟨hlt, hget⟩ := blank_of_pastHalf hblank
              refine iff_of_true ((endsAtSpace_rstrip (by dsimp only [Option.getD_some]; omega)).2 (.inl ?_)) ?_
              · intro c hc
                cases hget.symm.trans hc
                decide
              · rintro ⟨h, -⟩
                cases h
          | none =>
              rw [Option.getD_none, endsAtSpace_rstrip hlong.le]
              constructor
              · rintro (hspace | ⟨c, hc, hspace⟩) ⟨-, hword, hlast⟩
                · exact hword hspace
                · rw [hlast c hc] at hspace
                  cases hspace
              · intro h
                by_contra hnone
                rw [not_or] at hnone
                refine h ⟨rfl, hnone.1, ?_⟩
                intro c hc
                exact Bool.eq_false_iff.2 fun hspace => hnone.2 ⟨c, hc, hspace⟩

/-- For every text and limit: the truncated text is a prefix of the sanitised one within the limit,
and ends at whitespace if the second half has some, if and only if the limit is not negative and the
text is not mangled. -/
theorem truncated_iff (text : Str) (limit : Int) :
    Truncated text limit ↔
      0 ≤ limit ∧ ¬ Mangled limit.toNat (sanitizeText text (max (limit * 2) limit)) := by
  by_cases hneg : limit < 0
  · refine iff_of_false ?_ ?_
    · intro h
      have hbounded := h.bounded
      omega
    · rintro ⟨h, -⟩
      omega
  · obtain ⟨n, rfl⟩ := Int.eq_ofNat_of_zero_le (not_lt.1 hneg)
    have hmax : max ((n : Int) * 2) n = n * 2 := by omega
    have heq := truncateSentence_eq text n
    rw [← truncateSentenceTo_natCast] at heq
    rw [and_iff_right (Int.natCast_nonneg n), Int.toNat_natCast, hmax]
    dsimp only at heq
    split at heq
    · rename_i hshort
      refine iff_of_true ⟨?_, ?_, ?_⟩ ?_
      · rw [heq, hmax]
      · rw [heq]
        exact_mod_cast hshort
      · intro hlong
        rw [hmax] at hlong
        omega
      · intro h
        exact absurd h.long (not_lt.2 hshort)
    · rename_i hlong
      have hlong := not_le.1 hlong
      have hcut : cutPoint n ((sanitizeText text (n * 2)).take n) ≤ n := cutPoint_le _
      have hbegins : truncateSentenceTo text n <+:
          (sanitizeText text (n * 2)).take (cutPoint n ((sanitizeText text (n * 2)).take n)) := by
        rw [heq]
        exact List.rdropWhile_prefix _ _
      constructor
      · intro h hmangled
        have hwhole := h.whole
        rw [hmax, heq] at hwhole
        rcases hwhole (by exact_mod_cast hlong) hmangled.breakable with hends | hends
        · exact (endsAtSpace_cut_iff hlong hmangled.breakable).1 hends hmangled
        · exact (endsAtSpace_cut_iff hlong hmangled.breakable).1 hends.endsAtSpace hmangled
      · intro hfine
        refine ⟨?_, ?_, ?_⟩
        · rw [hmax]
          exact hbegins.trans (List.take_prefix _ _)
        · have hlen := hbegins.length_le
          rw [List.length_take] at hlen
          omega
        · intro _ hbreak
          rw [hmax] at hbreak ⊢
          rw [heq]
          exact .inl ((endsAtSpace_cut_iff hlong hbreak).2 hfine)

/-- A number is cut after its dot. -/
theorem price_cut_in_two :
    truncateSentenceTo (lit "it is 12.50 now") 12 = lit "it is 12." ∧
      ¬ Truncated (lit "it is 12.50 now") 12 := by
  have hcut : truncateSentenceTo (lit "it is 12.50 now") 12 = lit "it is 12." := by decide
  have hsanitised : sanitizeText (lit "it is 12.50 now") (max (12 * 2) 12) = lit "it is 12.50 now" := by
    decide
  refine ⟨hcut, ?_⟩
  intro h
  have hwhole := h.whole
  rw [hcut, hsanitised] at hwhole
  have hblank : (lit "it is 12.50 now")[11]? = some 32 := by decide
  have hbreak : Breakable 12 (lit "it is 12.50 now") :=
    ⟨11, by decide, by decide, 32, hblank, by decide⟩
  have hends : ¬ EndsAtSpace (lit "it is 12.50 now") 9 := by decide
  rcases hwhole (by decide) hbreak with hspace | hmark
  · exact hends hspace
  · exact hends hmark.endsAtSpace

end ShugoCore
