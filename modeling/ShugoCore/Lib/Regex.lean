import Mathlib.Data.List.Infix

/-!
# Matching with priorities

A backtracking matcher tries what a pattern can match in a fixed order and takes the first match.  Here
a pattern gives the list of its matches in that order.  The first of the list is the match that is
found, and what comes later is what the matcher would fall back to.

A cursor is the character before a position, the text behind it, and the groups that were closed so far
in their order.  Repetition is of single characters, and every group of a pattern takes part in each of
its matches.

A match has as many groups as its pattern (`search_length`), and they are stretches of the text
(`search_group`).
-/

namespace Regex

variable {α : Type}

/-- A pattern over characters. -/
inductive Pattern (α : Type) where
  | one (p : α → Bool)
  /-- A number of characters, the most of them first if it is greedy. -/
  | many (p : α → Bool) (least : Nat) (most : Option Nat) (greedy : Bool)
  | empty
  | seq (r s : Pattern α)
  | alt (r s : Pattern α)
  | group (r : Pattern α)
  /-- A place with a character of a word on one side alone. -/
  | boundary (word : α → Bool)
  /-- A place with such a text behind it. -/
  | ahead (test : List α → Bool)

/-- A position in a text, with the groups that were closed before it. -/
structure Cursor (α : Type) where
  before : Option α
  rest : List α
  groups : List (List α)

/-- The position some characters further on. -/
def Cursor.advance (c : Cursor α) (k : Nat) : Cursor α :=
  ⟨(c.rest.take k).getLast?.or c.before, c.rest.drop k, c.groups⟩

/-- How many characters a repetition can take, in the order in which they are tried. -/
def counts (p : α → Bool) (least : Nat) (most : Option Nat) (greedy : Bool) (s : List α) : List Nat :=
  let longest := (s.takeWhile p).length
  let longest := (most.map (min longest)).getD longest
  let ks := (List.range (longest + 1)).filter fun k => least ≤ k
  if greedy then ks.reverse else ks

/-- The ends of the matches of a pattern, in the order in which they are tried. -/
def run : Pattern α → Cursor α → List (Cursor α)
  | .one p, c => if c.rest.head?.any p then [c.advance 1] else []
  | .many p least most greedy, c => (counts p least most greedy c.rest).map c.advance
  | .empty, c => [c]
  | .seq r s, c => (run r c).flatMap (run s)
  | .alt r s, c => run r c ++ run s c
  | .group r, c => (run r c).map fun d =>
      { d with groups := d.groups ++ [c.rest.take (c.rest.length - d.rest.length)] }
  | .boundary word, c => if c.before.any word = c.rest.head?.any word then [] else [c]
  | .ahead test, c => if test c.rest then [c] else []

/-- The first match of a pattern in the text behind a character, from left to right. -/
def searchFrom (r : Pattern α) : Option α → List α → Option (Cursor α)
  | before, [] => (run r ⟨before, [], []⟩).head?
  | before, a :: s =>
      match run r ⟨before, a :: s, []⟩ with
      | d :: _ => some d
      | [] => searchFrom r (some a) s

/-- `search`: the groups of the first match in a text. -/
def search (r : Pattern α) (s : List α) : Option (List (List α)) :=
  (searchFrom r none s).map Cursor.groups

/-- Patterns one after the other. -/
def inTurn (rs : List (Pattern α)) : Pattern α := rs.foldr .seq .empty

/-- One of some patterns. -/
def alts : List (Pattern α) → Pattern α
  | [] => .ahead fun _ => false
  | [r] => r
  | r :: rs => .alt r (alts rs)

/-- How many groups a pattern has. -/
def Pattern.groupCount : Pattern α → Nat
  | .group r => r.groupCount + 1
  | .seq r s => r.groupCount + s.groupCount
  | .alt r _ => r.groupCount
  | _ => 0

/-- Alternatives have the same number of groups. -/
def Pattern.balanced : Pattern α → Bool
  | .group r => r.balanced
  | .seq r s => r.balanced && s.balanced
  | .alt r s => r.balanced && s.balanced && r.groupCount == s.groupCount
  | _ => true

/-! ## What a match takes -/

/-- A cursor further on: the rest is an end of the rest before, and a new group is a stretch of it. -/
structure Onward (c d : Cursor α) : Prop where
  rest : d.rest <:+ c.rest
  groups : ∀ g ∈ d.groups, g ∈ c.groups ∨ g <:+: c.rest

theorem Onward.refl (c : Cursor α) : Onward c c := ⟨List.suffix_rfl, fun _ hg => .inl hg⟩

theorem Onward.trans {c d e : Cursor α} (h : Onward c d) (h' : Onward d e) : Onward c e := by
  refine ⟨h'.rest.trans h.rest, ?_⟩
  intro g hg
  rcases h'.groups g hg with hg | hg
  · exact h.groups g hg
  · exact .inr (hg.trans h.rest.isInfix)

theorem onward_advance (c : Cursor α) (k : Nat) : Onward c (c.advance k) :=
  ⟨List.drop_suffix k c.rest, fun _ hg => .inl hg⟩

/-- A match of a pattern ends further on. -/
theorem onward_of_run {r : Pattern α} {c d : Cursor α} (h : d ∈ run r c) : Onward c d := by
  induction r generalizing c d with
  | one p =>
      rw [run] at h
      split at h
      · rw [List.mem_singleton.1 h]
        exact onward_advance c 1
      · cases h
  | many p least most greedy =>
      obtain ⟨k, -, rfl⟩ := List.mem_map.1 h
      exact onward_advance c k
  | empty =>
      rw [List.mem_singleton.1 h]
      exact .refl c
  | seq r s ihr ihs =>
      obtain ⟨e, he, hd⟩ := List.mem_flatMap.1 h
      exact (ihr he).trans (ihs hd)
  | alt r s ihr ihs =>
      rcases List.mem_append.1 h with h | h
      · exact ihr h
      · exact ihs h
  | group r ih =>
      obtain ⟨e, he, rfl⟩ := List.mem_map.1 h
      refine ⟨(ih he).rest, ?_⟩
      intro g hg
      rcases List.mem_append.1 hg with hg | hg
      · exact (ih he).groups g hg
      · rw [List.mem_singleton.1 hg]
        exact .inr (List.take_prefix _ _).isInfix
  | boundary word =>
      rw [run] at h
      split at h
      · cases h
      · rw [List.mem_singleton.1 h]
        exact .refl c
  | ahead test =>
      rw [run] at h
      split at h
      · rw [List.mem_singleton.1 h]
        exact .refl c
      · cases h

/-- A match of a pattern closes its groups. -/
theorem length_groups_of_run {r : Pattern α} (hr : r.balanced = true) {c d : Cursor α}
    (h : d ∈ run r c) : d.groups.length = c.groups.length + r.groupCount := by
  induction r generalizing c d with
  | one p =>
      rw [run] at h
      split at h
      · rw [List.mem_singleton.1 h]
        rfl
      · cases h
  | many p least most greedy =>
      obtain ⟨k, -, rfl⟩ := List.mem_map.1 h
      rfl
  | empty =>
      rw [List.mem_singleton.1 h]
      rfl
  | seq r s ihr ihs =>
      obtain ⟨hr, hs⟩ := Bool.and_eq_true_iff.1 hr
      obtain ⟨e, he, hd⟩ := List.mem_flatMap.1 h
      rw [ihs hs hd, ihr hr he, Nat.add_assoc]
      rfl
  | alt r s ihr ihs =>
      obtain ⟨hboth, hcount⟩ := Bool.and_eq_true_iff.1 hr
      obtain ⟨hr, hs⟩ := Bool.and_eq_true_iff.1 hboth
      rcases List.mem_append.1 h with h | h
      · exact ihr hr h
      · rw [ihs hs h, ← beq_iff_eq.1 hcount]
        rfl
  | group r ih =>
      obtain ⟨e, he, rfl⟩ := List.mem_map.1 h
      rw [List.length_append, ih hr he, List.length_singleton, Nat.add_assoc]
      rfl
  | boundary word =>
      rw [run] at h
      split at h
      · cases h
      · rw [List.mem_singleton.1 h]
        rfl
  | ahead test =>
      rw [run] at h
      split at h
      · rw [List.mem_singleton.1 h]
        rfl
      · cases h

/-- What is found is a match at some position. -/
theorem run_of_searchFrom {r : Pattern α} {before : Option α} {s : List α} {d : Cursor α}
    (h : searchFrom r before s = some d) :
    ∃ before' s', s' <:+ s ∧ d ∈ run r ⟨before', s', []⟩ := by
  induction s generalizing before with
  | nil => exact ⟨before, [], List.suffix_rfl, List.mem_of_mem_head? h⟩
  | cons a s ih =>
      rw [searchFrom] at h
      split at h
      · rename_i e es hrun
        cases h
        exact ⟨before, a :: s, List.suffix_rfl, hrun ▸ List.mem_cons_self⟩
      · obtain ⟨before', s', hs, hd⟩ := ih h
        exact ⟨before', s', hs.trans (List.suffix_cons a s), hd⟩

/-- A group of the match that is found is a stretch of the text. -/
theorem search_group {r : Pattern α} {s : List α} {groups : List (List α)}
    (h : search r s = some groups) : ∀ g ∈ groups, g <:+: s := by
  obtain ⟨d, hd, rfl⟩ := Option.map_eq_some_iff.1 h
  obtain ⟨before, s', hs, hrun⟩ := run_of_searchFrom hd
  intro g hg
  rcases (onward_of_run hrun).groups g hg with hnil | hinfix
  · cases hnil
  · exact hinfix.trans hs.isInfix

/-- The match that is found has the groups of the pattern. -/
theorem search_length {r : Pattern α} (hr : r.balanced = true) {s : List α} {groups : List (List α)}
    (h : search r s = some groups) : groups.length = r.groupCount := by
  obtain ⟨d, hd, rfl⟩ := Option.map_eq_some_iff.1 h
  obtain ⟨before, s', -, hrun⟩ := run_of_searchFrom hd
  exact (length_groups_of_run hr hrun).trans (Nat.zero_add _)

end Regex
