import ShugoCore.Lib.Binary64
import ShugoCore.Memory.Maintenance

/-!
# Context budgets

`ContextBudget` of `token_budget.py`: a number of tokens for each section of the context, and texts
that are cut to it.  A cut text ends in a marker of thirteen characters, and at least fourteen
characters stand before it.  So it has twenty-seven characters or more, which is seven tokens.

A section of fewer tokens is exceeded by every text that is cut for it (`truncate_fits_iff`).
-/

namespace ShugoCore

open Py

/-- `CHARS_PER_TOKEN`. -/
def charsPerToken : Nat := 4

/-- `_ELLIPSIS`. -/
def ellipsis : Str := lit " …[truncated]"

/-- The tokens of a section.  A limit is never zero. -/
abbrev TokenLimit := { n : Int // 1 ≤ n }

/-- An allocation: a number of tokens, or a share of all of them.  Python compares both with one. -/
inductive Allocation where
  | tokens (n : Int)
  | share (x : PyFloat ℚ)
deriving DecidableEq, Repr

/-- `DEFAULT_ALLOCATIONS`. -/
def defaultAllocations : Dict Str Allocation :=
  [(lit "scratchpad", .share (.nearest (3 / 10))),
    (lit "memory_context", .share (.nearest (1 / 4))),
    (lit "task", .share (.nearest (3 / 20))),
    (lit "prompt", .share (.nearest (1 / 5))),
    (lit "params", .share (.nearest (1 / 10)))]

theorem TokenLimit.floor (n : Int) : 1 ≤ max 1 n := le_max_left 1 n

/-- `max(1, n)`. -/
def TokenLimit.atLeastOne (n : Int) : TokenLimit := ⟨max 1 n, TokenLimit.floor n⟩

/-- `int(x)`. -/
def intOfFloat : PyFloat ℚ → Except Exn Int
  | .finite q => .ok (if q < 0 then ⌈q⌉ else ⌊q⌋)
  | .nan => .error .valueError
  | .posInf | .negInf => .error .overflowError

/-- The limit that an allocation gives a section.  What is at least one is cut off to at least
one. -/
def Allocation.limit (totalTokens : Int) : Allocation → Except Exn TokenLimit
  | .tokens n => .ok (.atLeastOne (if 1 ≤ n then n else totalTokens * n))
  | .share x =>
      if PyFloat.le (.finite 1) x then do return .atLeastOne (← intOfFloat x)
      else do
        let total ← PyFloat.ofInt totalTokens
        return .atLeastOne (← intOfFloat (total.mul x))

/-- `ContextBudget`. -/
structure ContextBudget where
  totalTokens : Int
  limits : Dict Str TokenLimit

namespace ContextBudget

/-- `__init__`. -/
def new (totalTokens : Int) (allocations : Dict Str Allocation) : Except Exn ContextBudget := do
  let totalTokens := max 256 totalTokens
  let shares := allocations.foldl (fun d i => Dict.set d i.1 i.2) defaultAllocations
  let limits ← shares.mapM fun i => do return (i.1, ← i.2.limit totalTokens)
  return ⟨totalTokens, limits⟩

/-- `limit`. -/
def limit (b : ContextBudget) (name : Str) : Int :=
  match Dict.get? b.limits name with
  | some n => n
  | none => 0

/-- `set_limit`. -/
def setLimit (b : ContextBudget) (name : Str) (tokens : Int) : ContextBudget :=
  { b with limits := Dict.set b.limits name (.atLeastOne tokens) }

/-- `fits`. -/
def fits (b : ContextBudget) (name text : Str) : Bool := estimateTokens text ≤ b.limit name

/-- `max_chars` of `truncate`. -/
def maxChars (limit : Int) : Int :=
  max (ellipsis.length + 1) (limit * charsPerToken - ellipsis.length)

/-- `truncate`. -/
def truncate (b : ContextBudget) (name text : Str) : Str :=
  if b.limit name ≤ 0 then []
  else if estimateTokens text ≤ b.limit name then text
  else text.take (maxChars (b.limit name)).toNat ++ ellipsis

/-- `usage`: what is used of each section, and its limit. -/
def usage (b : ContextBudget) (texts : Dict Str Str) : Dict Str (Nat × Int) :=
  texts.map fun i => (i.1, estimateTokens i.2, b.limit i.1)

/-- What is wanted of a text that is truncated: it fits, and is left alone if it did before. -/
structure Truncated (b : ContextBudget) (name text : Str) : Prop where
  fits : (estimateTokens (b.truncate name text) : Int) ≤ b.limit name
  unchanged : (estimateTokens text : Int) ≤ b.limit name → b.truncate name text = text

/-! ## Limits -/

theorem limit_nonneg (b : ContextBudget) (name : Str) : 0 ≤ b.limit name := by
  rw [limit]
  split
  · rename_i n hn
    exact Int.le_trans Int.one_nonneg n.2
  · exact le_rfl

/-- Every limit can be set. -/
theorem limit_setLimit (b : ContextBudget) (name : Str) {tokens : Int} (h : 1 ≤ tokens) :
    (b.setLimit name tokens).limit name = tokens := by
  rw [limit, setLimit, Dict.get?_set_self]
  exact max_eq_right h

/-! ## Texts -/

theorem length_ellipsis : ellipsis.length = 13 := by decide

/-- A text fits a number of tokens if its characters do. -/
theorem estimateTokens_le_iff (text : Str) {n : Int} (h : 1 ≤ n) :
    (estimateTokens text : Int) ≤ n ↔ (text.length : Int) ≤ 4 * n := by
  cases text with
  | nil =>
      have hzero : estimateTokens [] = 0 := rfl
      rw [hzero]
      simp only [List.length_nil]
      omega
  | cons c text =>
      have hcount : estimateTokens (c :: text) = max 1 ((text.length + 1 + 3) / 4) := rfl
      rw [hcount, List.length_cons]
      omega

/-- A text that is cut has all characters that the budget has room for before the marker, but
never fewer than fourteen. -/
theorem truncate_eq_cut {b : ContextBudget} {name text : Str} (hlimit : 1 ≤ b.limit name)
    (hlong : ¬ (estimateTokens text : Int) ≤ b.limit name) :
    b.truncate name text = text.take (max 14 (b.limit name * 4 - 13)).toNat ++ ellipsis := by
  have hchars : maxChars (b.limit name) = max 14 (b.limit name * 4 - 13) := by
    rw [maxChars, length_ellipsis]
    rfl
  rw [truncate, if_neg (by omega), if_neg hlong, hchars]

/-- A cut text fits if and only if the limit has room for the marker and what stands before
it. -/
theorem cut_fits_iff {b : ContextBudget} {name text : Str} (hlimit : 1 ≤ b.limit name)
    (hlong : ¬ (estimateTokens text : Int) ≤ b.limit name) :
    (estimateTokens (b.truncate name text) : Int) ≤ b.limit name ↔ 7 ≤ b.limit name := by
  have hlength := (estimateTokens_le_iff text hlimit).not.1 hlong
  rw [truncate_eq_cut hlimit hlong, estimateTokens_le_iff _ hlimit, List.length_append,
    List.length_take, length_ellipsis]
  omega

/-- For every budget, section and text: a truncated text fits its section and a text that fits is
left alone, if and only if the section has no tokens at all, or at least seven, or the text fits
already. -/
theorem truncate_fits_iff (b : ContextBudget) (name text : Str) :
    b.Truncated name text ↔
      b.limit name = 0 ∨ 7 ≤ b.limit name ∨ (estimateTokens text : Int) ≤ b.limit name := by
  have hnonneg := b.limit_nonneg name
  by_cases hzero : b.limit name = 0
  · have hcut : b.truncate name text = [] := by rw [truncate, if_pos (by omega)]
    refine iff_of_true ⟨?_, fun hfits => ?_⟩ (.inl hzero)
    · rw [hcut, hzero]
      exact le_rfl
    · have hempty : text = [] := by
        rw [hzero] at hfits
        cases text with
        | nil => rfl
        | cons c text =>
            have hpos : 1 ≤ estimateTokens (c :: text) := le_max_left _ _
            omega
      rw [hcut, hempty]
  · have hlimit : 1 ≤ b.limit name := by omega
    by_cases hfits : (estimateTokens text : Int) ≤ b.limit name
    · have hsame : b.truncate name text = text := by
        rw [truncate, if_neg (by omega), if_pos hfits]
      refine iff_of_true ⟨?_, fun _ => hsame⟩ (.inr (.inr hfits))
      rw [hsame]
      exact hfits
    · rw [← cut_fits_iff hlimit hfits]
      constructor
      · intro h
        exact .inr (.inl h.fits)
      · rintro (h | h | h)
        · exact absurd h hzero
        · exact ⟨h, fun hshort => absurd hshort hfits⟩
        · exact absurd h hfits

/-- A section of one token. -/
def tinyBudget : ContextBudget := (⟨256, []⟩ : ContextBudget).setLimit (lit "task") 1

/-- Five letters are eighteen characters then. -/
theorem hello_overflows : ¬ tinyBudget.Truncated (lit "task") (lit "hello") := by
  intro h
  have hfits := h.fits
  revert hfits
  decide +kernel

end ContextBudget

end ShugoCore
