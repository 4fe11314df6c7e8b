import Mathlib.Algebra.Order.Field.Power
import Mathlib.Data.Rat.Floor
import ShugoCore.Lib.PyBuiltins

/-!
# Arithmetic of floats

A float is a NaN, an infinity or the rational number that it is.  Sums and products are exact
ones, rounded to the nearest number with 53 binary digits and an exponent in range, and of two
that are equally near to the one that is even.  A zero has no sign.

Comparisons with a NaN fail.  So `min(hi, x)` is `hi` for a NaN, and to cut a number off at two
numbers gives a number whatever it was (`isFinite_clamp`).
-/

namespace Py

/-- `round(q)`: the nearest integer, and the even one of two. -/
def roundHalfEven (q : ℚ) : Int :=
  if q - ⌊q⌋ < 1 / 2 then ⌊q⌋
  else if 1 / 2 < q - ⌊q⌋ then ⌊q⌋ + 1
  else if ⌊q⌋ % 2 = 0 then ⌊q⌋
  else ⌊q⌋ + 1

/-- The exponent of the first binary digit of a number. -/
def binaryExponent (q : ℚ) : Int :=
  let e := (Nat.log2 q.num.natAbs : Int) - Nat.log2 q.den
  if (2 : ℚ) ^ e ≤ |q| then e else e - 1

/-- The distance of floats of the size of a number. -/
def spacing (q : ℚ) : ℚ := 2 ^ max (binaryExponent q - 52) (-1074)

theorem floor_le_roundHalfEven (q : ℚ) : ⌊q⌋ ≤ roundHalfEven q := by
  simp only [roundHalfEven]
  split
  · exact le_rfl
  · split
    · omega
    · split <;> omega

theorem spacing_pos (q : ℚ) : 0 < spacing q := zpow_pos two_pos _

/-- The first binary digit of an integer. -/
theorem binaryExponent_natCast {n : Nat} (h : 0 < n) : binaryExponent n = Nat.log2 n := by
  have hlog : (2 : ℚ) ^ (Nat.log2 n : Int) ≤ |(n : ℚ)| := by
    rw [zpow_natCast, Nat.abs_cast]
    exact_mod_cast Nat.log2_self_le h.ne'
  have hone : Nat.log2 1 = 0 := by decide
  simp only [binaryExponent]
  rw [Rat.num_natCast, Rat.den_natCast, Int.natAbs_natCast, hone, Nat.cast_zero, sub_zero, if_pos hlog]

theorem roundHalfEven_intCast (z : Int) : roundHalfEven (z : ℚ) = z := by
  simp [roundHalfEven]

/-- The numbers that are rounded to zero: up to one half. -/
theorem roundHalfEven_eq_zero_iff {q : ℚ} : roundHalfEven q = 0 ↔ |q| ≤ 1 / 2 := by
  have hlow := Int.floor_le q
  have hhigh := Int.lt_floor_add_one q
  have hzero : ⌊q⌋ = 0 → (⌊q⌋ : ℚ) = 0 := fun h => by rw [h, Int.cast_zero]
  have hone : ⌊q⌋ = -1 → (⌊q⌋ : ℚ) = -1 := fun h => by rw [h]; norm_num
  rw [abs_le]
  constructor
  · intro h
    simp only [roundHalfEven] at h
    split_ifs at h with hdown hup heven
    · have := hzero h
      constructor <;> linarith
    · have := hone (by omega)
      constructor <;> linarith
    · have := hzero h
      constructor <;> linarith
    · have := hone (by omega)
      constructor <;> linarith
  · rintro ⟨hlo, hhi⟩
    have hfloor : ⌊q⌋ = 0 ∨ ⌊q⌋ = -1 := by
      have h1 : -1 ≤ ⌊q⌋ := Int.le_floor.2 (by push_cast; linarith)
      have h2 : ⌊q⌋ < 1 := Int.floor_lt.2 (by push_cast; linarith)
      omega
    simp only [roundHalfEven]
    rcases hfloor with hf | hf
    · have := hzero hf
      split_ifs <;> first | omega | linarith
    · have := hone hf
      split_ifs <;> first | omega | linarith

/-- The zeros behind a number count as digits. -/
theorem log2_mul_two_pow {m : Nat} (h : m ≠ 0) (k : Nat) :
    Nat.log2 (m * 2 ^ k) = Nat.log2 m + k := by
  induction k with
  | zero => simp
  | succ k ih =>
      have hne : m * 2 ^ k ≠ 0 := mul_ne_zero h (pow_ne_zero k two_ne_zero)
      rw [pow_succ, ← mul_assoc, mul_comm _ 2, Nat.log2_two_mul hne, ih, add_assoc]

/-- In units of the spacing around it, a number with at most 53 binary digits before its zeros is an
integer. -/
theorem div_spacing_natCast {m : Nat} (hpos : 0 < m) (hm : m < 2 ^ 53) (k : Nat) :
    ((m * 2 ^ k : Nat) : ℚ) / spacing ((m * 2 ^ k : Nat) : ℚ) =
      ((m * 2 ^ (52 - Nat.log2 m) : Int) : ℚ) := by
  have hn : 0 < m * 2 ^ k := mul_pos hpos (pow_pos two_pos k)
  have hlog : Nat.log2 m ≤ 52 := by
    have := (Nat.log2_lt hpos.ne').2 hm
    omega
  have hspacing : spacing ((m * 2 ^ k : Nat) : ℚ) = 2 ^ ((Nat.log2 m : Int) + k - 52) := by
    rw [spacing, binaryExponent_natCast hn, log2_mul_two_pow hpos.ne',
      max_eq_left (by push_cast; omega)]
    push_cast
    rfl
  rw [hspacing, div_eq_iff (zpow_ne_zero _ two_ne_zero)]
  push_cast
  rw [mul_assoc, ← zpow_natCast, ← zpow_natCast, ← zpow_add₀ two_ne_zero]
  congr 2
  push_cast [Nat.cast_sub hlog]
  ring

/-- Around a positive integer the floats are no farther apart than it is from zero. -/
theorem spacing_natCast_le {n : Nat} (h : 0 < n) : spacing n ≤ n := by
  have hexp : max (binaryExponent n - 52) (-1074) ≤ (Nat.log2 n : Int) := by
    rw [binaryExponent_natCast h]
    omega
  calc spacing n ≤ (2 : ℚ) ^ (Nat.log2 n : Int) := zpow_le_zpow_right₀ one_le_two hexp
    _ ≤ n := by
      rw [zpow_natCast]
      exact_mod_cast Nat.log2_self_le h.ne'

/-- A positive number is at least the power of two of its first binary digit. -/
theorem two_zpow_binaryExponent_le {q : ℚ} (hq : 0 < q) : (2 : ℚ) ^ binaryExponent q ≤ q := by
  simp only [binaryExponent]
  split
  · rename_i h
    rwa [abs_of_pos hq] at h
  · have hnum : q.num.natAbs ≠ 0 := by
      rw [Int.natAbs_ne_zero]
      exact (Rat.num_pos.2 hq).ne'
    have hlow : ((2 : ℚ) ^ Nat.log2 q.num.natAbs) ≤ q.num := by
      have hle : (2 ^ Nat.log2 q.num.natAbs : Int) ≤ q.num := by
        have := Nat.log2_self_le hnum
        have hpos := Rat.num_pos.2 hq
        zify at this
        rwa [abs_of_pos hpos] at this
      exact_mod_cast hle
    have hhigh : (q.den : ℚ) ≤ 2 ^ (Nat.log2 q.den + 1) := by
      exact_mod_cast (Nat.lt_log2_self (n := q.den)).le
    have hden : (0 : ℚ) < q.den := by exact_mod_cast q.den_pos
    have hexp : (2 : ℚ) ^ ((Nat.log2 q.num.natAbs : Int) - Nat.log2 q.den - 1) =
        2 ^ Nat.log2 q.num.natAbs / 2 ^ (Nat.log2 q.den + 1) := by
      rw [sub_sub, zpow_sub₀ two_ne_zero, zpow_natCast]
      norm_cast
    calc (2 : ℚ) ^ ((Nat.log2 q.num.natAbs : Int) - Nat.log2 q.den - 1)
        = 2 ^ Nat.log2 q.num.natAbs / 2 ^ (Nat.log2 q.den + 1) := hexp
      _ ≤ q.num / q.den := by gcongr
      _ = q := Rat.num_div_den q

theorem spacing_le {q : ℚ} (h : (2 : ℚ) ^ (-1074 : Int) ≤ q) : spacing q ≤ q := by
  have hq : 0 < q := (zpow_pos two_pos _).trans_le h
  rw [spacing]
  rcases max_choice (binaryExponent q - 52) (-1074) with hmax | hmax <;> rw [hmax]
  · exact (zpow_le_zpow_right₀ one_le_two (by omega)).trans (two_zpow_binaryExponent_le hq)
  · exact h

namespace PyFloat

/-- The float that is nearest to a number. -/
def nearest (q : ℚ) : PyFloat ℚ :=
  let x := roundHalfEven (q / spacing q) * spacing q
  if (2 : ℚ) ^ 1024 ≤ x then .posInf
  else if x ≤ -2 ^ 1024 then .negInf
  else .finite x

/-- `float(n)` of an integer. -/
def ofInt (n : Int) : Except Exn (PyFloat ℚ) :=
  match nearest n with
  | .finite x => .ok (.finite x)
  | .nan | .posInf | .negInf => .error .overflowError

/-- A number with at most 53 binary digits before its zeros is a float, if it is not too large. -/
theorem nearest_natCast {m : Nat} (hpos : 0 < m) (hm : m < 2 ^ 53) (k : Nat) :
    nearest ((m * 2 ^ k : Nat) : ℚ) =
      if 2 ^ 1024 ≤ m * 2 ^ k then .posInf else .finite ((m * 2 ^ k : Nat) : ℚ) := by
  have hexact : (roundHalfEven (((m * 2 ^ k : Nat) : ℚ) / spacing ((m * 2 ^ k : Nat) : ℚ)) : ℚ) *
      spacing ((m * 2 ^ k : Nat) : ℚ) = ((m * 2 ^ k : Nat) : ℚ) := by
    rw [div_spacing_natCast hpos hm, roundHalfEven_intCast, ← div_spacing_natCast hpos hm,
      div_mul_cancel₀]
    exact (spacing_pos _).ne'
  have hlarge : (2 : ℚ) ^ 1024 ≤ ((m * 2 ^ k : Nat) : ℚ) ↔ 2 ^ 1024 ≤ m * 2 ^ k := by
    rw [← Nat.cast_le (α := ℚ), Nat.cast_pow, Nat.cast_ofNat]
  have hnonneg : ¬ ((m * 2 ^ k : Nat) : ℚ) ≤ -2 ^ 1024 :=
    not_le.2 ((neg_neg_of_pos (pow_pos two_pos 1024)).trans_le (Nat.cast_nonneg _))
  rw [nearest]
  rw [hexact, if_neg hnonneg, if_congr hlarge rfl rfl]

/-- A power of two is a float below the thousand and twenty-fourth. -/
theorem ofInt_two_pow (k : Nat) :
    ofInt (2 ^ k) = if k < 1024 then .ok (.finite (2 ^ k)) else .error .overflowError := by
  have hnearest := nearest_natCast one_pos (m := 1) (by decide) k
  have hlarge : 2 ^ 1024 ≤ 2 ^ k ↔ ¬ k < 1024 := by
    rw [Nat.pow_le_pow_iff_right Nat.one_lt_two, not_lt]
  have hcast : (((2 : Int) ^ k : Int) : ℚ) = ((2 ^ k : Nat) : ℚ) := by push_cast; rfl
  rw [one_mul, if_congr hlarge rfl rfl] at hnearest
  rw [ofInt, hcast, hnearest]
  by_cases hk : k < 1024
  · rw [if_pos hk, if_neg (not_not.2 hk)]
    push_cast
    rfl
  · rw [if_neg hk, if_pos hk]

theorem ofInt_cases (n : Int) : (∃ x, ofInt n = .ok x) ∨ ofInt n = .error .overflowError := by
  rw [ofInt]
  split
  · exact .inl ⟨_, rfl⟩
  · exact .inr rfl
  · exact .inr rfl
  · exact .inr rfl

/-- A number that is not too small is not rounded to zero. -/
theorem nearest_pos {q : ℚ} (h : (2 : ℚ) ^ (-1074 : Int) ≤ q) {x : ℚ}
    (hx : nearest q = .finite x) : 0 < x := by
  have hratio : 1 ≤ q / spacing q := (one_le_div (spacing_pos q)).2 (spacing_le h)
  have hfloor : 1 ≤ ⌊q / spacing q⌋ := Int.le_floor.2 (by exact_mod_cast hratio)
  have hround : 0 < roundHalfEven (q / spacing q) :=
    lt_of_lt_of_le (by omega) (hfloor.trans (floor_le_roundHalfEven _))
  have hpos : (0 : ℚ) < roundHalfEven (q / spacing q) * spacing q :=
    mul_pos (by exact_mod_cast hround) (spacing_pos q)
  simp only [nearest] at hx
  split at hx
  · cases hx
  · split at hx
    · cases hx
    · cases hx
      exact hpos

/-- `x < y`. -/
def lt : PyFloat ℚ → PyFloat ℚ → Bool
  | .finite x, .finite y => x < y
  | .negInf, .finite _ | .negInf, .posInf | .finite _, .posInf => true
  | _, _ => false

/-- `x <= y`. -/
def le : PyFloat ℚ → PyFloat ℚ → Bool
  | .finite x, .finite y => x ≤ y
  | .negInf, .negInf | .negInf, .finite _ | .negInf, .posInf => true
  | .finite _, .posInf | .posInf, .posInf => true
  | _, _ => false

/-- `max(x, y)`: the first one, unless the second one is greater. -/
def max (x y : PyFloat ℚ) : PyFloat ℚ := if lt x y then y else x

/-- `min(x, y)`: the first one, unless the second one is less. -/
def min (x y : PyFloat ℚ) : PyFloat ℚ := if lt y x then y else x

/-- `max(lo, min(hi, x))`. -/
def clamp (lo hi x : PyFloat ℚ) : PyFloat ℚ := max lo (min hi x)

@[simp] theorem max_finite (x y : ℚ) : max (.finite x) (.finite y) = .finite (x ⊔ y) := by
  simp only [max, lt, decide_eq_true_eq]
  split
  · rename_i h
    rw [max_eq_right h.le]
  · rename_i h
    rw [max_eq_left (not_lt.1 h)]

@[simp] theorem min_finite (x y : ℚ) : min (.finite x) (.finite y) = .finite (x ⊓ y) := by
  simp only [min, lt, decide_eq_true_eq]
  split
  · rename_i h
    rw [min_eq_right h.le]
  · rename_i h
    rw [min_eq_left (not_lt.1 h)]

@[simp] theorem clamp_finite (lo hi x : ℚ) :
    clamp (.finite lo) (.finite hi) (.finite x) = .finite (lo ⊔ (hi ⊓ x)) := by
  simp only [clamp, min_finite, max_finite]

/-- `math.isnan(x) or math.isinf(x)` does not hold. -/
def isFinite : PyFloat ℚ → Bool
  | .finite _ => true
  | .nan | .posInf | .negInf => false

/-- `-x`. -/
def neg : PyFloat ℚ → PyFloat ℚ
  | .finite x => .finite (-x)
  | .posInf => .negInf
  | .negInf => .posInf
  | .nan => .nan

/-- `x + y`. -/
def add : PyFloat ℚ → PyFloat ℚ → PyFloat ℚ
  | .finite x, .finite y => nearest (x + y)
  | .posInf, .posInf | .posInf, .finite _ | .finite _, .posInf => .posInf
  | .negInf, .negInf | .negInf, .finite _ | .finite _, .negInf => .negInf
  | _, _ => .nan

/-- An infinity with the sign of a number. -/
def signedInf (q : ℚ) : PyFloat ℚ := if q = 0 then .nan else if 0 < q then .posInf else .negInf

/-- `x * y`. -/
def mul : PyFloat ℚ → PyFloat ℚ → PyFloat ℚ
  | .finite x, .finite y => nearest (x * y)
  | .finite x, .posInf | .posInf, .finite x => signedInf x
  | .finite x, .negInf | .negInf, .finite x => neg (signedInf x)
  | .posInf, .posInf | .negInf, .negInf => .posInf
  | .posInf, .negInf | .negInf, .posInf => .negInf
  | .nan, _ | _, .nan => .nan

/-- `x - y`. -/
def sub (x y : PyFloat ℚ) : PyFloat ℚ := add x (neg y)

/-- `abs(x)`. -/
def abs : PyFloat ℚ → PyFloat ℚ
  | .finite x => .finite |x|
  | .posInf | .negInf => .posInf
  | .nan => .nan

/-- `x / y` for a `y` that is not zero. -/
def div : PyFloat ℚ → PyFloat ℚ → PyFloat ℚ
  | .finite x, .finite y => nearest (x / y)
  | .finite _, .posInf | .finite _, .negInf => .finite 0
  | .posInf, .finite y => signedInf y
  | .negInf, .finite y => neg (signedInf y)
  | _, _ => .nan

/-- `round(x)`. -/
def roundToInt : PyFloat ℚ → Except Exn Int
  | .finite x => .ok (roundHalfEven x)
  | .nan => .error .valueError
  | .posInf | .negInf => .error .overflowError

/-- A number is between two bounds. -/
def Within (bounds : PyFloat ℚ × PyFloat ℚ) (x : PyFloat ℚ) : Prop :=
  le bounds.1 x = true ∧ le x bounds.2 = true

instance (bounds : PyFloat ℚ × PyFloat ℚ) (x : PyFloat ℚ) : Decidable (Within bounds x) :=
  inferInstanceAs (Decidable (_ ∧ _))

/-- Two comparisons that fail show that a number is inside, if there is no NaN among the three. -/
theorem within_iff {bounds : PyFloat ℚ × PyFloat ℚ} {x : PyFloat ℚ}
    (h : (lt x bounds.1 || lt bounds.2 x) = false) :
    Within bounds x ↔ x ≠ .nan ∧ bounds.1 ≠ .nan ∧ bounds.2 ≠ .nan := by
  obtain ⟨lo, hi⟩ := bounds
  cases lo <;> cases hi <;> cases x <;> simp_all [Within, lt, le]

/-- Without a NaN one of two numbers is at most the other. -/
theorem le_iff_not_lt {x y : PyFloat ℚ} (hx : x ≠ .nan) (hy : y ≠ .nan) :
    le x y = true ↔ lt y x = false := by
  cases x <;> cases y <;> simp_all [lt, le]

/-- A positive integer is a positive float. -/
theorem ofInt_pos {n : Int} (h : 0 < n) {x : PyFloat ℚ} (hx : ofInt n = .ok x) :
    ∃ q, x = .finite q ∧ 0 < q := by
  lift n to Nat using h.le
  have hn : 0 < n := by exact_mod_cast h
  have hratio : (1 : ℚ) ≤ n / spacing n := (one_le_div (spacing_pos _)).2 (spacing_natCast_le hn)
  have hround : 0 < roundHalfEven ((n : ℚ) / spacing n) :=
    lt_of_lt_of_le (Int.floor_pos.2 hratio) (floor_le_roundHalfEven _)
  have hpos : (0 : ℚ) < roundHalfEven ((n : ℚ) / spacing n) * spacing n :=
    mul_pos (by exact_mod_cast hround) (spacing_pos _)
  unfold ofInt nearest at hx
  rw [Int.cast_natCast] at hx
  dsimp only at hx
  split at hx
  · rename_i y hy
    split at hy
    · cases hy
    · split at hy
      · cases hy
      · cases hx
        cases hy
        exact ⟨_, rfl, hpos⟩
  · cases hx
  · cases hx
  · cases hx

/-- Between bounds that are numbers there is a number. -/
theorem isFinite_clamp {lo hi : PyFloat ℚ} (hlo : lo.isFinite = true) (hhi : hi.isFinite = true)
    (x : PyFloat ℚ) : (clamp lo hi x).isFinite = true := by
  simp only [clamp, max, min]
  cases lo <;> cases hi <;> cases x <;> simp_all [lt, isFinite] <;> grind

end PyFloat

/-- An integer that is too large for a float. -/
def TooLarge {φ : Type} (value : PyVal φ) : Prop :=
  ∃ i, value = .int i ∧ PyFloat.ofInt i = .error .overflowError

/-- `float` of a text. -/
class FloatReader where
  floatOfText : Str → Option (PyFloat ℚ)

/-- `float(v)`. -/
def toFloat {φ : Type} [Builtins φ] [FloatReader] : PyVal φ → Except Exn (PyFloat ℚ)
  | .bool b => .ok (.finite (if b then 1 else 0))
  | .int i => PyFloat.ofInt i
  | .float (.finite x) => .ok (.finite (FloatFormat.value x))
  | .float .nan => .ok .nan
  | .float .posInf => .ok .posInf
  | .float .negInf => .ok .negInf
  | .str s => match FloatReader.floatOfText s with
      | some x => .ok x
      | none => .error .valueError
  | .none | .list _ | .dict _ => .error .typeError

end Py
