import Mathlib.Algebra.BigOperators.Group.List.Basic
import Mathlib.Data.List.Nodup
import Mathlib.Data.List.Range
import Mathlib.Tactic.Linarith
import Mathlib.Tactic.Ring

/-!
# Splitting a range into parts

The numbers from zero up to an extent are split into a number of parts.  Each part but the last has
the extent divided by the number of parts, rounded down, and the last one has the rest.

The lengths of the parts always add up to the extent, and no number is in two of them.  Two parts
may be the same range: when there are more parts than numbers, all but the last one are empty and
start at zero (`nodup_iff`).  The extent may be negative, and there is nothing to be split then; the
last part may even so have numbers in it (`covers_iff`).
-/

namespace EvenSplit

/-- The length of all parts but the last. -/
def chunk (extent : Int) (n : Nat) : Int := extent / n

/-- The part with a number, from where to before where. -/
def part (extent : Int) (n s : Nat) : Int × Int :=
  (s * chunk extent n, if s + 1 = n then extent else (s + 1) * chunk extent n)

/-- All parts. -/
def parts (extent : Int) (n : Nat) : List (Int × Int) := (List.range n).map (part extent n)

/-- A number is in a range. -/
def Inside (p : Int) (r : Int × Int) : Prop := r.1 ≤ p ∧ p < r.2

/-- A number is in no two of some ranges. -/
def Apart (rs : List (Int × Int)) : Prop := rs.Pairwise fun a b => ∀ p, ¬ (Inside p a ∧ Inside p b)

/-- Some ranges have exactly the numbers from zero up to an extent. -/
def Covers (extent : Int) (rs : List (Int × Int)) : Prop :=
  ∀ p, (∃ r ∈ rs, Inside p r) ↔ 0 ≤ p ∧ p < extent

theorem part_of_lt {extent : Int} {n s : Nat} (h : s + 1 < n) :
    part extent n s = (s * chunk extent n, (s + 1) * chunk extent n) := by
  rw [part, if_neg (by omega)]

theorem part_last (extent : Int) (m : Nat) :
    part extent (m + 1) m = (m * chunk extent (m + 1), extent) := by
  rw [part, if_pos rfl]

theorem parts_succ (extent : Int) (m : Nat) :
    parts extent (m + 1) =
      (List.range m).map (fun s : Nat => ((s : Int) * chunk extent (m + 1),
        ((s : Int) + 1) * chunk extent (m + 1))) ++
        [(m * chunk extent (m + 1), extent)] := by
  rw [parts, List.range_succ, List.map_append, List.map_singleton, part_last]
  congr 1
  refine List.map_congr_left fun s hs => part_of_lt ?_
  have hlt := List.mem_range.1 hs
  omega

/-- An extent is its chunks and what is left over, which is less than the number of parts. -/
theorem extent_eq (extent : Int) (m : Nat) :
    ∃ r, 0 ≤ r ∧ r < (m : Int) + 1 ∧ r = extent % ((m + 1 : Nat) : Int) ∧
      extent = (m + 1) * chunk extent (m + 1) + r := by
  have hpos : (0 : Int) < ((m + 1 : Nat) : Int) := by omega
  refine ⟨_, Int.emod_nonneg _ hpos.ne', ?_, rfl, ?_⟩
  · have hlt := Int.emod_lt_of_pos extent hpos
    push_cast at hlt
    exact hlt
  · have hsum := Int.mul_ediv_add_emod extent ((m + 1 : Nat) : Int)
    rw [chunk]
    push_cast at hsum ⊢
    exact hsum.symm

/-! ## Lengths -/

/-- The lengths of the parts add up. -/
theorem sum_parts (extent : Int) {n : Nat} (h : 0 < n) :
    ((parts extent n).map fun r => r.2 - r.1).sum = extent := by
  obtain ⟨m, rfl⟩ := Nat.exists_eq_succ_of_ne_zero h.ne'
  have hsame : (List.range m).map ((fun r : Int × Int => r.2 - r.1) ∘ fun s : Nat =>
      ((s : Int) * chunk extent (m + 1), ((s : Int) + 1) * chunk extent (m + 1))) =
      List.replicate m (chunk extent (m + 1)) := by
    rw [List.eq_replicate_iff]
    refine ⟨by rw [List.length_map, List.length_range], fun x hx => ?_⟩
    obtain ⟨s, -, rfl⟩ := List.mem_map.1 hx
    simp only [Function.comp_apply]
    ring
  rw [Nat.succ_eq_add_one, parts_succ, List.map_append, List.map_map, hsame, List.sum_append,
    List.sum_replicate]
  simp

/-! ## Numbers -/

theorem apart_parts (extent : Int) (n : Nat) : Apart (parts extent n) := by
  rw [Apart, parts, List.pairwise_map]
  refine List.pairwise_lt_range.imp_of_mem fun {a b} ha hb hlt p hboth => ?_
  obtain ⟨⟨hstart, hend⟩, hstart', -⟩ := hboth
  have hbn := List.mem_range.1 hb
  rw [part_of_lt (by omega)] at hstart hend
  simp only [part] at hstart hend hstart'
  -- a part is empty, or no later one begins before its end
  rcases le_or_gt 0 (chunk extent n) with hchunk | hchunk
  · have hle : ((a : Int) + 1) * chunk extent n ≤ b * chunk extent n :=
      mul_le_mul_of_nonneg_right (by omega) hchunk
    omega
  · have hempty : ((a : Int) + 1) * chunk extent n < a * chunk extent n := by
      rw [add_mul, one_mul]
      omega
    omega

/-- A number from zero on that is before the last part is in the part that it is divided to. -/
theorem inside_div {extent : Int} {n : Nat} {p : Int} (hpos : 0 ≤ p) {m : Nat}
    (hlt : p < m * chunk extent n) :
    ∃ s : Nat, s < m ∧ Inside p ((s : Int) * chunk extent n, ((s : Int) + 1) * chunk extent n) := by
  have hchunk : 0 < chunk extent n := by
    by_contra hle
    have hneg : (m : Int) * chunk extent n ≤ 0 :=
      mul_nonpos_of_nonneg_of_nonpos (Int.natCast_nonneg m) (not_lt.1 hle)
    omega
  obtain ⟨s, hs⟩ := Int.eq_ofNat_of_zero_le (Int.ediv_nonneg hpos hchunk.le)
  have hmul := Int.mul_ediv_add_emod p (chunk extent n)
  have hnonneg := Int.emod_nonneg p hchunk.ne'
  have hless := Int.emod_lt_of_pos p hchunk
  rw [hs] at hmul
  have hstart : (s : Int) * chunk extent n ≤ p := by
    rw [mul_comm]
    omega
  have hend : p < ((s : Int) + 1) * chunk extent n := by
    rw [add_mul, one_mul, mul_comm]
    omega
  refine ⟨s, ?_, hstart, hend⟩
  have hsm : (s : Int) * chunk extent n < m * chunk extent n := lt_of_le_of_lt hstart hlt
  have hlt' := lt_of_mul_lt_mul_right hsm hchunk.le
  omega

/-- The parts have exactly the numbers of the range, unless the extent is negative and the last part
begins before its end. -/
theorem covers_iff (extent : Int) {n : Nat} (h : 0 < n) :
    Covers extent (parts extent n) ↔ 0 ≤ extent ∨ extent % n + extent / n ≤ 0 := by
  obtain ⟨m, rfl⟩ := Nat.exists_eq_succ_of_ne_zero h.ne'
  rw [Nat.succ_eq_add_one]
  obtain ⟨r, hr, hlt, hmod, hextent⟩ := extent_eq extent m
  have hchunk : extent / ((m + 1 : Nat) : Int) = chunk extent (m + 1) := rfl
  rw [← hmod, hchunk]
  have hlast : extent = m * chunk extent (m + 1) + (chunk extent (m + 1) + r) := by
    rw [add_mul, one_mul] at hextent
    omega
  have hmem : ∀ p, (∃ r ∈ parts extent (m + 1), Inside p r) ↔
      (∃ s : Nat, s < m ∧ Inside p ((s : Int) * chunk extent (m + 1),
        ((s : Int) + 1) * chunk extent (m + 1))) ∨ Inside p (m * chunk extent (m + 1), extent) := by
    intro p
    rw [parts_succ]
    simp [or_and_right, exists_or]
  constructor
  · intro hcover
    by_contra hneg
    rw [not_or, not_le, not_le] at hneg
    -- the last part has the number it starts at
    have hin := (hcover (m * chunk extent (m + 1))).1
      ((hmem _).2 (.inr ⟨le_rfl, by omega⟩))
    omega
  · rintro (hextent' | hempty) p
    · have hnonneg : 0 ≤ chunk extent (m + 1) := Int.ediv_nonneg hextent' (Int.natCast_nonneg _)
      have hm : 0 ≤ (m : Int) * chunk extent (m + 1) :=
        mul_nonneg (Int.natCast_nonneg m) hnonneg
      rw [hmem]
      constructor
      · rintro (⟨s, hs, hstart, hend⟩ | ⟨hstart, hend⟩)
        · have hs0 : 0 ≤ (s : Int) * chunk extent (m + 1) :=
            mul_nonneg (Int.natCast_nonneg s) hnonneg
          have hle : ((s : Int) + 1) * chunk extent (m + 1) ≤ m * chunk extent (m + 1) :=
            mul_le_mul_of_nonneg_right (by omega) hnonneg
          simp only at hstart hend
          exact ⟨by omega, by omega⟩
        · exact ⟨by simp only at hstart; omega, hend⟩
      · rintro ⟨hpos, hpe⟩
        rcases lt_or_ge p (m * chunk extent (m + 1)) with hp | hp
        · exact .inl (inside_div hpos hp)
        · exact .inr ⟨hp, hpe⟩
    · have hchunk0 : chunk extent (m + 1) ≤ 0 := by omega
      rw [hmem]
      constructor
      · rintro (⟨s, hs, hstart, hend⟩ | ⟨hstart, hend⟩)
        · simp only at hstart hend
          rw [add_mul, one_mul] at hend
          omega
        · simp only at hstart hend
          omega
      · rintro ⟨hpos, hpe⟩
        have hm : (m : Int) * chunk extent (m + 1) ≤ 0 :=
          mul_nonpos_of_nonneg_of_nonpos (Int.natCast_nonneg m) hchunk0
        omega

/-! ## Parts that are the same -/

/-- No two parts are the same range, unless there are more of them than numbers. -/
theorem nodup_iff (extent : Int) {n : Nat} (h : 0 < n) :
    (parts extent n).Nodup ↔ extent < 0 ∨ (n : Int) ≤ max 1 extent ∨ n = 2 ∧ extent = 1 := by
  obtain ⟨m, rfl⟩ := Nat.exists_eq_succ_of_ne_zero h.ne'
  rw [Nat.succ_eq_add_one]
  obtain ⟨r, hr, hlt, -, hextent⟩ := extent_eq extent m
  by_cases hchunk : chunk extent (m + 1) = 0
  · -- all parts begin at zero
    have hsmall : extent = r := by rw [hextent, hchunk, mul_zero, zero_add]
    have hparts : parts extent (m + 1) = List.replicate m (0, 0) ++ [(0, extent)] := by
      rw [parts_succ, hchunk, mul_zero]
      congr 1
      rw [List.eq_replicate_iff]
      refine ⟨by rw [List.length_map, List.length_range], fun x hx => ?_⟩
      obtain ⟨s, -, rfl⟩ := List.mem_map.1 hx
      rw [mul_zero, mul_zero]
    rw [hparts, List.nodup_append, List.nodup_replicate]
    simp only [List.nodup_singleton, List.mem_singleton, true_and, List.mem_replicate]
    constructor
    · rintro ⟨hm, hne⟩
      rcases Nat.eq_zero_or_pos m with rfl | hm0
      · exact .inr (.inl (by simp))
      · have hm1 : m = 1 := by omega
        have hne' : extent ≠ 0 := by
          rintro hzero
          exact hne (0, 0) ⟨by omega, rfl⟩ (0, extent) rfl (by rw [hzero])
        subst hm1
        refine .inr (.inr ⟨rfl, ?_⟩)
        push_cast at hlt
        omega
    · rintro (hneg | hle | ⟨hm, hone⟩)
      · omega
      · have hm0 : m = 0 := by
          push_cast at hle
          omega
        subst hm0
        exact ⟨Nat.zero_le 1, fun a ha => absurd ha.1 (by simp)⟩
      · refine ⟨by omega, fun a ha b hb hab => ?_⟩
        rw [ha.2, hb, Prod.mk.injEq] at hab
        omega
  · refine iff_of_true ?_ ?_
    · refine List.Nodup.map_on (fun a ha b hb hab => ?_) List.nodup_range
      have hstart := congrArg Prod.fst hab
      simp only [part] at hstart
      exact_mod_cast mul_right_cancel₀ hchunk hstart
    · rcases lt_or_ge extent 0 with hneg | hpos
      · exact .inl hneg
      · refine .inr (.inl (le_max_of_le_right ?_))
        have hchunk' : 1 ≤ chunk extent (m + 1) := by
          have hnonneg : 0 ≤ chunk extent (m + 1) := Int.ediv_nonneg hpos (Int.natCast_nonneg _)
          omega
        have hle : ((m : Int) + 1) * 1 ≤ (m + 1) * chunk extent (m + 1) :=
          mul_le_mul_of_nonneg_left hchunk' (by omega)
        push_cast
        omega

end EvenSplit
