import Mathlib.Algebra.Order.BigOperators.Group.List
import ShugoCore.Memory.Maintenance

/-!
# The account of the scratchpad

`Scratchpad` of `memory_system.py` keeps the number of its tokens by hand.  An entry that is dropped
for the token ceiling is taken off the number, but one that the full deque drops is not, and neither
is what a flush clears.  What was not taken off stays in the number for good, so the ceiling soon
drops entries that fit it.

The number is the sum of the entries that are held, and an entry that fits is readable, exactly as
long as what a full deque drops and what a flush clears has no tokens (`scratchpad_accounted_iff`).
-/

namespace ShugoCore

open Py Machine

namespace Scratchpad

/-! ## The pad -/

/-- `Scratchpad`. -/
def new (maxEntries maxTokens : Int) : Scratchpad where
  maxEntries := (max 1 maxEntries).toNat
  maxTokens := (max 64 maxTokens).toNat
  entries := []
  tokenCount := 0

/-- `flush`. -/
def flush (pad : Scratchpad) : Scratchpad := { pad with entries := [] }

/-- `read`. -/
def read (pad : Scratchpad) : List Str := pad.entries.map Prod.snd

/-- The calls that change a pad. -/
inductive Call where
  | write (now : Seconds) (text : Str)
  | flush

/-- One call: the pad, and the entry that it wrote. -/
def step (s : Scratchpad × Option Str) : Call → Scratchpad × Option Str
  | .write now text => (s.1.write now text, some (sanitizeText text 512))
  | .flush => (s.1.flush, none)

/-- The tokens of some entries. -/
def tokens (entries : List (IsoSeconds × Str)) : Nat := (entries.map fun e => estimateTokens e.2).sum

/-- The count is that of the entries, and what was just written can be read if it fits. -/
structure Accounted (s : Scratchpad × Option Str) : Prop where
  count : s.1.tokenCount = tokens s.1.entries
  readable : ∀ text ∈ s.2, estimateTokens text ≤ s.1.maxTokens → s.1.read.getLast? = some text

/-- What leaves the pad unnoticed has no tokens: the oldest entry of a full pad at a write, and all
entries at a flush. -/
def NoneUncounted (s : Scratchpad × Option Str) : Call → Prop
  | .write _ _ => s.1.maxEntries ≤ s.1.entries.length → ∀ e ∈ s.1.entries.head?, e.2 = []
  | .flush => ∀ e ∈ s.1.entries, e.2 = []

/-- There is room for an entry, and no more entries than there is room for. -/
structure Bounded (s : Scratchpad × Option Str) : Prop where
  room : 1 ≤ s.1.maxEntries
  length : s.1.entries.length ≤ s.1.maxEntries

/-! ## Tokens -/

@[simp] theorem tokens_nil : tokens [] = 0 := rfl

@[simp] theorem tokens_cons (e : IsoSeconds × Str) (entries : List (IsoSeconds × Str)) :
    tokens (e :: entries) = estimateTokens e.2 + tokens entries := by
  simp [tokens]

@[simp] theorem tokens_append (xs ys : List (IsoSeconds × Str)) :
    tokens (xs ++ ys) = tokens xs + tokens ys := by
  simp [tokens]

@[simp] theorem estimateTokens_eq_zero {text : Str} : estimateTokens text = 0 ↔ text = [] := by
  cases text with
  | nil => simp [estimateTokens]
  | cons c text =>
      simp only [estimateTokens, List.isEmpty_cons, Bool.false_eq_true, if_false,
        reduceCtorEq, iff_false]
      omega

theorem tokens_eq_zero {entries : List (IsoSeconds × Str)} :
    tokens entries = 0 ↔ ∀ e ∈ entries, e.2 = [] := by
  rw [tokens, List.sum_eq_zero_iff, List.forall_mem_map]
  simp only [estimateTokens_eq_zero]

/-- The loop takes what it drops off the count. -/
theorem evictTokens_balance (maxTokens : Nat) (entries : List (IsoSeconds × Str)) (count : Int) :
    (evictTokens maxTokens entries count).2 - tokens (evictTokens maxTokens entries count).1 =
      count - tokens entries := by
  induction entries generalizing count with
  | nil => rfl
  | cons e entries ih =>
      simp only [evictTokens]
      split
      · rw [ih, tokens_cons]
        push_cast
        ring
      · rfl

theorem length_evictTokens_le (maxTokens : Nat) (entries : List (IsoSeconds × Str)) (count : Int) :
    (evictTokens maxTokens entries count).1.length ≤ entries.length := by
  induction entries generalizing count with
  | nil => exact le_rfl
  | cons e entries ih =>
      simp only [evictTokens]
      split
      · exact (ih _).trans (Nat.le_succ _)
      · exact le_rfl

/-- With the right count, the loop leaves the last entry if that one fits. -/
theorem getLast?_evictTokens {maxTokens : Nat} {e : IsoSeconds × Str}
    (he : estimateTokens e.2 ≤ maxTokens) (entries : List (IsoSeconds × Str)) {count : Int}
    (hcount : count = tokens (entries ++ [e])) :
    (evictTokens maxTokens (entries ++ [e]) count).1.getLast? = some e := by
  induction entries generalizing count with
  | nil =>
      have hfits : ¬ (maxTokens : Int) < count := by
        simp only [List.nil_append, tokens_cons, tokens_nil, add_zero] at hcount
        omega
      simp [evictTokens, hfits]
  | cons e' entries ih =>
      rw [List.cons_append, tokens_cons] at hcount
      simp only [List.cons_append, evictTokens]
      split
      · refine ih ?_
        push_cast at hcount
        omega
      · simp [List.getLast?_cons]

/-! ## One call -/

/-- What the deque drops to hold one more entry. -/
def dropped (pad : Scratchpad) : List (IsoSeconds × Str) :=
  pad.entries.take (pad.entries.length + 1 - pad.maxEntries)

/-- What it keeps. -/
def kept (pad : Scratchpad) : List (IsoSeconds × Str) :=
  pad.entries.drop (pad.entries.length + 1 - pad.maxEntries)

theorem tokens_dropped_add_kept (pad : Scratchpad) :
    tokens pad.dropped + tokens pad.kept = tokens pad.entries := by
  rw [← tokens_append, dropped, kept, List.take_append_drop]

/-- The new entry is not dropped by the deque. -/
theorem write_eq {pad : Scratchpad} (hroom : 1 ≤ pad.maxEntries) (now : Seconds) (text : Str) :
    let e := (utcNowIso now, sanitizeText text 512)
    let evicted := evictTokens pad.maxTokens (pad.kept ++ [e]) (pad.tokenCount + estimateTokens e.2)
    pad.write now text = { pad with entries := evicted.1, tokenCount := evicted.2 } := by
  have hle : pad.entries.length + 1 - pad.maxEntries ≤ pad.entries.length := by omega
  simp only [write, kept, List.drop_append_of_le_length hle]

theorem Bounded.step {s : Scratchpad × Option Str} (h : Bounded s) (c : Call) :
    Bounded (step s c) := by
  cases c with
  | flush => exact ⟨h.room, Nat.zero_le _⟩
  | write now text =>
      refine ⟨h.room, ?_⟩
      simp only [Scratchpad.step, write]
      refine (length_evictTokens_le _ _ _).trans ?_
      have hroom := h.room
      simp only [List.length_drop, List.length_append, List.length_cons, List.length_nil]
      omega

/-- What the deque drops has no tokens if and only if it is an empty text, or nothing. -/
theorem tokens_dropped_iff {s : Scratchpad × Option Str} (h : Bounded s) (now : Seconds)
    (text : Str) :
    tokens s.1.dropped = 0 ↔ NoneUncounted s (.write now text) := by
  have hroom := h.room
  have hlength := h.length
  rw [tokens_eq_zero, NoneUncounted, dropped]
  by_cases hfull : s.1.maxEntries ≤ s.1.entries.length
  · have hone : s.1.entries.length + 1 - s.1.maxEntries = 1 := by omega
    rw [hone]
    cases hentries : s.1.entries with
    | nil => simp
    | cons e entries =>
        rw [hentries, List.length_cons] at hfull
        simp [hfull]
  · have hzero : s.1.entries.length + 1 - s.1.maxEntries = 0 := by omega
    simp [hzero, hfull]

theorem accounted_write {s : Scratchpad × Option Str} (hb : Bounded s) (h : Accounted s)
    (now : Seconds) (text : Str) :
    Accounted (step s (.write now text)) ↔ NoneUncounted s (.write now text) := by
  rw [← tokens_dropped_iff hb now text]
  have hsplit := s.1.tokens_dropped_add_kept
  have hcount := h.count
  simp only [step, write_eq hb.room]
  generalize hentry : (utcNowIso now, sanitizeText text 512) = e
  have hwritten : sanitizeText text 512 = e.2 := by rw [← hentry]
  rw [hwritten]
  have hbalance :=
    evictTokens_balance s.1.maxTokens (s.1.kept ++ [e]) (s.1.tokenCount + estimateTokens e.2)
  simp only [tokens_append, tokens_cons, tokens_nil, add_zero] at hbalance
  push_cast at hbalance
  constructor
  · intro haccounted
    have hkept := haccounted.count
    dsimp only at hkept
    omega
  · intro hdropped
    refine ⟨?_, ?_⟩
    · dsimp only
      omega
    · rintro written ⟨⟩ hfits
      have htotal : s.1.tokenCount + estimateTokens e.2 = tokens (s.1.kept ++ [e]) := by
        simp only [tokens_append, tokens_cons, tokens_nil, add_zero]
        omega
      rw [read, List.getLast?_map, getLast?_evictTokens hfits s.1.kept htotal]
      rfl

/-- A call keeps the account if and only if nothing leaves uncounted. -/
theorem accounted_step {s : Scratchpad × Option Str} (hb : Bounded s) (h : Accounted s) (c : Call) :
    Accounted (step s c) ↔ NoneUncounted s c := by
  cases c with
  | write now text => exact accounted_write hb h now text
  | flush =>
      rw [NoneUncounted, ← tokens_eq_zero]
      have hcount := h.count
      constructor
      · intro haccounted
        have hflushed := haccounted.count
        simp only [step, flush, tokens_nil] at hflushed
        omega
      · intro hzero
        refine ⟨?_, fun text htext => by cases htext⟩
        simp only [step, flush, tokens_nil]
        omega

end Scratchpad

/-- For every sequence of writes and flushes, of a pad with any limits, the account is right at every
point if and only if nothing leaves the pad uncounted. -/
theorem scratchpad_accounted_iff (maxEntries maxTokens : Int) (calls : List Scratchpad.Call) :
    Always Scratchpad.step Scratchpad.Accounted (.new maxEntries maxTokens, none) calls ↔
      Meets Scratchpad.step Scratchpad.NoneUncounted (.new maxEntries maxTokens, none) calls := by
  refine always_iff_meets (I := Scratchpad.Bounded) (fun s c h => h.step c)
    (fun s c hb h => Scratchpad.accounted_step hb h c) ⟨?_, Nat.zero_le _⟩ ⟨rfl, ?_⟩
  · simp only [Scratchpad.new]
    omega
  · rintro text ⟨⟩

/-- A thought of sixty-four tokens. -/
def longThought : Str := List.replicate 256 97

/-- What fills the pad is flushed, and then two letters do not fit any more. -/
theorem letters_after_flush :
    ¬ Always Scratchpad.step Scratchpad.Accounted (.new 256 64, none)
        [.write 0 longThought, .flush, .write 1 (lit "hi")] ∧
      (run Scratchpad.step (.new 256 64, none)
        [.write 0 longThought, .flush, .write 1 (lit "hi")]).1.read = [] := by
  have hrun : (run Scratchpad.step (.new 256 64, none)
      [.write 0 longThought, .flush, .write 1 (lit "hi")]).1.read = [] := by decide +kernel
  refine ⟨fun h => ?_, hrun⟩
  have hlast := h.last.readable (lit "hi") rfl (by decide)
  rw [hrun] at hlast
  cases hlast

end ShugoCore
