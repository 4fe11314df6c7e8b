import Mathlib.Algebra.Order.Field.Basic
import Mathlib.Tactic.Linarith
import Mathlib.Tactic.Ring

/-!
# Token buckets

A bucket fills at a rate up to its capacity, and a token is taken from it when it holds one. Between
two times of any distance no more tokens are taken than the capacity and what flows in between them
(`Within.le`).
-/

variable {K : Type} [Field K] [LinearOrder K]

/-- A bucket that was taken from: what it held after that, and the time. -/
structure TokenBucket (K : Type) where
  tokens : K
  last : K

namespace TokenBucket

/-- What a bucket holds at a time. -/
def level (capacity rate : K) (b : TokenBucket K) (now : K) : K :=
  min capacity (b.tokens + (now - b.last) * rate)

/-- The bucket after a token is taken, if it holds one. -/
def take (capacity rate : K) (b : TokenBucket K) (now : K) : Option (TokenBucket K) :=
  if 1 ≤ b.level capacity rate now then some ⟨b.level capacity rate now - 1, now⟩ else none

/-- With `n` tokens taken from `first` to `final`, the bucket, or none if it was never taken from,
has no more left than there can be. -/
inductive Within (capacity rate first final : K) : Option (TokenBucket K) → Nat → Prop where
  | full : Within capacity rate first final none 0
  | before {b : TokenBucket K} (h : b.last < first) : Within capacity rate first final (some b) 0
  | between {b : TokenBucket K} {n : Nat} (hfirst : first ≤ b.last) (hfinal : b.last ≤ final)
      (hpos : 0 ≤ b.tokens) (h : n + b.tokens ≤ capacity + rate * (b.last - first)) :
      Within capacity rate first final (some b) n
  | after {b : TokenBucket K} {n : Nat} (hfinal : final < b.last)
      (h : n ≤ capacity + rate * (final - first)) :
      Within capacity rate first final (some b) n

/-- What a token at a time adds to those from `first` to `final`. -/
def counted (first final now : K) : Nat := if first ≤ now ∧ now ≤ final then 1 else 0

variable [IsStrictOrderedRing K] {capacity rate first final created now : K} {n : Nat}

/-- No more tokens are taken than there can be. -/
theorem Within.le {b : Option (TokenBucket K)} (h : Within capacity rate first final b n)
    (hcapacity : 0 ≤ capacity) (hrate : 0 ≤ rate) (hle : first ≤ final) :
    (n : K) ≤ capacity + rate * (final - first) := by
  have hflow : 0 ≤ rate * (final - first) := mul_nonneg hrate (sub_nonneg.2 hle)
  cases h with
  | full | before => simpa using add_nonneg hcapacity hflow
  | @between b n hfirst hfinal hpos h =>
      have hmore : rate * (b.last - first) ≤ rate * (final - first) :=
        mul_le_mul_of_nonneg_left (sub_le_sub_right hfinal first) hrate
      linarith
  | after hfinal h => exact h

/-- A token is taken from a bucket with one, and no more is in it than what flowed in and than fits.
-/
theorem take_some {b b' : TokenBucket K} (h : b.take capacity rate now = some b') :
    b'.last = now ∧ 0 ≤ b'.tokens ∧ b'.tokens + 1 ≤ capacity ∧
      b'.tokens + 1 ≤ b.tokens + (now - b.last) * rate := by
  rw [take] at h
  split at h
  · rename_i hone
    cases h
    refine ⟨rfl, sub_nonneg.2 hone, ?_, ?_⟩
    · rw [sub_add_cancel]
      exact min_le_left _ _
    · rw [sub_add_cancel]
      exact min_le_right _ _
  · cases h

/-- A token that is taken leaves no more than there can be. -/
theorem Within.take {b : Option (TokenBucket K)} {b' : TokenBucket K}
    (h : Within capacity rate first final b n) (hcapacity : 0 ≤ capacity) (hrate : 0 ≤ rate)
    (hle : first ≤ final) (hlast : ∀ b₀ ∈ b, b₀.last ≤ now)
    (htake : (b.getD ⟨capacity, created⟩).take capacity rate now = some b') :
    Within capacity rate first final (some b') (n + counted first final now) := by
  obtain ⟨rfl, hpos, hfits, hflow⟩ := take_some htake
  rcases lt_or_ge b'.last first with hearly | hfirst
  · have hnone : counted first final b'.last = 0 := if_neg fun h => absurd h.1 (not_le.2 hearly)
    rw [hnone]
    cases h with
    | full | before => exact .before hearly
    | between hfirst => exact absurd (hearly.trans_le hfirst) (not_lt.2 (hlast _ rfl))
    | after hfinal => exact absurd (hearly.trans_le (hle.trans hfinal.le)) (not_lt.2 (hlast _ rfl))
  rcases lt_or_ge final b'.last with hlate | hfinal
  · have hnone : counted first final b'.last = 0 := if_neg fun h => absurd h.2 (not_le.2 hlate)
    rw [hnone]
    exact .after hlate (h.le hcapacity hrate hle)
  · have hone : counted first final b'.last = 1 := if_pos ⟨hfirst, hfinal⟩
    have hsince : 0 ≤ rate * (b'.last - first) := mul_nonneg hrate (sub_nonneg.2 hfirst)
    rw [hone]
    refine .between hfirst hfinal hpos ?_
    push_cast
    cases h with
    | full | before =>
        rw [Nat.cast_zero]
        linarith
    | @between b₀ n hfirst₀ hfinal₀ hpos₀ h₀ =>
        have hsplit : rate * (b'.last - first) = rate * (b₀.last - first) +
            (b'.last - b₀.last) * rate := by ring
        rw [Option.getD_some] at hflow
        linarith
    | after hfinal₀ => exact absurd (hfinal.trans_lt hfinal₀) (not_lt.2 (hlast _ rfl))

end TokenBucket
