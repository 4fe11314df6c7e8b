import Mathlib.Analysis.SpecialFunctions.Pow.Real
import ShugoCore.Memory.Maintenance

/-!
# Forgetting

`decay` of `memory_system.py` and of `pg_memory.py` in exact arithmetic. A pass multiplies the
stored salience by what is left after the whole time since the last access, and stores the product.
The next pass multiplies that again by what is left after the whole time. So the salience depends on
how often the managers of a store run their passes.

It is what the half-life says after every pass, exactly as long as only the first pass after the
access takes effect, and no pass without an effect lets time go by (`forgetting_schedule_iff`).

The tables of `FactTable` hold the salience as a rational number. Where their power is exact, they
fade as the facts here do (`ofKept_decayRow`).
-/

namespace ShugoCore

open Machine

/-- A fact: its salience, and the time of its last access, if `fromisoformat` reads it. -/
structure FadingFact where
  salience : ℝ
  lastAccessed : Option ℝ

/-- A pass of one of the managers of a store. -/
structure DecayPass where
  manager : Nat
  now : ℝ

namespace FadingFact

/-- The half-life that `decay` uses. -/
noncomputable def halfLife (halfLifeHours : ℝ) : ℝ :=
  if halfLifeHours ≤ 0 then 1 / 10 ^ 9 else halfLifeHours

/-- What is left of one after some seconds. -/
noncomputable def left (halfLifeHours seconds : ℝ) : ℝ :=
  (1 / 2) ^ (seconds / 3600 / halfLife halfLifeHours)

/-- One row of `decay`. -/
noncomputable def decayRow (halfLifeHours now : ℝ) (f : FadingFact) : FadingFact :=
  match f.lastAccessed with
  | none => f
  | some accessed =>
      let hours := max 0 ((now - accessed) / 3600)
      if hours ≤ 0 then f
      else
        let salience := f.salience * (1 / 2) ^ (hours / halfLife halfLifeHours)
        if 1 / 10 ^ 9 < |salience - f.salience| then { f with salience } else f

/-- `SemanticMemory.decay`. -/
noncomputable def decay (halfLifeHours now : ℝ) (facts : List FadingFact) : List FadingFact :=
  facts.map (decayRow halfLifeHours now)

/-- `PgSemanticMemory.decay`. -/
noncomputable def pgDecay (halfLifeHours now : ℝ) (facts : List FadingFact) : List FadingFact :=
  facts.map (decayRow halfLifeHours now)

/-! ## One pass -/

section Hours

variable {K : Type} [Field K] [LinearOrder K] [IsStrictOrderedRing K] {now accessed : K}

theorem hours_of_lt (h : accessed < now) :
    max 0 ((now - accessed) / 3600) = (now - accessed) / 3600 :=
  max_eq_right (div_nonneg (sub_nonneg.2 h.le) (by norm_num))

/-- The age is zero for an access that lies ahead. -/
theorem hours_nonpos_iff : max 0 ((now - accessed) / 3600) ≤ 0 ↔ now ≤ accessed := by
  constructor
  · intro h
    by_contra hlater
    have hpos : 0 < (now - accessed) / 3600 := div_pos (sub_pos.2 (not_le.1 hlater)) (by norm_num)
    exact absurd (le_trans (le_max_right _ _) h) (not_le.2 hpos)
  · intro h
    exact max_le le_rfl (div_nonpos_of_nonpos_of_nonneg (sub_nonpos.2 h) (by norm_num))

end Hours

theorem halfLife_pos (halfLifeHours : ℝ) : 0 < halfLife halfLifeHours := by
  rw [halfLife]
  split
  · norm_num
  · rename_i h
    exact not_le.1 h

theorem left_pos (halfLifeHours seconds : ℝ) : 0 < left halfLifeHours seconds :=
  Real.rpow_pos_of_pos (by norm_num) _

@[simp] theorem left_zero (halfLifeHours : ℝ) : left halfLifeHours 0 = 1 := by
  simp [left]

/-- What is left tells how long it took. -/
theorem left_inj {halfLifeHours a b : ℝ} : left halfLifeHours a = left halfLifeHours b ↔ a = b := by
  constructor
  · intro h
    have hexp := Real.rpow_right_inj (x := (1 / 2 : ℝ)) (by norm_num) (by norm_num) |>.1 h
    have hdiv := (div_left_inj' (halfLife_pos halfLifeHours).ne').1 hexp
    exact (div_left_inj' (by norm_num : (3600 : ℝ) ≠ 0)).1 hdiv
  · rintro rfl
    rfl

/-- A pass takes effect: time has gone by since the access, and what fades is more than the
threshold. -/
def Fades (halfLifeHours now accessed salience : ℝ) : Prop :=
  accessed < now ∧ 1 / 10 ^ 9 < |salience * left halfLifeHours (now - accessed) - salience|

theorem decayRow_fades {halfLifeHours now accessed salience : ℝ}
    (h : Fades halfLifeHours now accessed salience) :
    decayRow halfLifeHours now ⟨salience, some accessed⟩ =
      ⟨salience * left halfLifeHours (now - accessed), some accessed⟩ := by
  have hhours : ¬ max 0 ((now - accessed) / 3600) ≤ 0 :=
    fun hle => not_le.2 h.1 (hours_nonpos_iff.1 hle)
  have hthreshold := h.2
  rw [left] at hthreshold
  rw [hours_of_lt h.1] at hhours
  simp only [decayRow, hours_of_lt h.1, if_neg hhours, if_pos hthreshold]
  rfl

theorem decayRow_keeps {halfLifeHours now accessed salience : ℝ}
    (h : ¬ Fades halfLifeHours now accessed salience) :
    decayRow halfLifeHours now ⟨salience, some accessed⟩ = ⟨salience, some accessed⟩ := by
  simp only [decayRow]
  split
  · rfl
  · rename_i hhours
    have hlater : accessed < now := not_le.1 fun hle => hhours (hours_nonpos_iff.2 hle)
    rw [hours_of_lt hlater]
    exact if_neg fun hthreshold => h ⟨hlater, hthreshold⟩

/-- No pass changes the time of the access. -/
theorem decayRow_lastAccessed (halfLifeHours now : ℝ) (f : FadingFact) :
    (decayRow halfLifeHours now f).lastAccessed = f.lastAccessed := by
  obtain ⟨salience, _ | accessed⟩ := f
  · rfl
  · by_cases h : Fades halfLifeHours now accessed salience
    · rw [decayRow_fades h]
    · rw [decayRow_keeps h]

end FadingFact

/-! ## Passes in a row -/

/-- A fact, and the time up to which it has faded. -/
structure Fading where
  fact : FadingFact
  lastPass : ℝ

namespace Fading

open FadingFact

/-- A fact that was just accessed. -/
def start (salience accessed : ℝ) : Fading := ⟨⟨salience, some accessed⟩, accessed⟩

noncomputable def step (halfLifeHours : ℝ) (s : Fading) (pass : DecayPass) : Fading :=
  ⟨s.fact.decayRow halfLifeHours pass.now, pass.now⟩

/-- The salience is what is left after the time since the access. -/
def OnCurve (halfLifeHours salience accessed : ℝ) (s : Fading) : Prop :=
  s.fact.salience = salience * left halfLifeHours (s.lastPass - accessed)

/-- A pass that takes effect is the first one since the access, and no time has gone by at one that
takes none. -/
def FirstAlone (halfLifeHours accessed : ℝ) (s : Fading) (pass : DecayPass) : Prop :=
  s.fact.salience = 0 ∨
    (Fades halfLifeHours pass.now accessed s.fact.salience ∧ s.lastPass = accessed) ∨
    (¬ Fades halfLifeHours pass.now accessed s.fact.salience ∧ pass.now = s.lastPass)

/-- A pass leaves the salience on the curve if and only if it is alone. -/
theorem onCurve_step_iff {halfLifeHours salience accessed : ℝ} {s : Fading} {pass : DecayPass}
    (haccessed : s.fact.lastAccessed = some accessed)
    (h : OnCurve halfLifeHours salience accessed s) :
    OnCurve halfLifeHours salience accessed (step halfLifeHours s pass) ↔
      FirstAlone halfLifeHours accessed s pass := by
  obtain ⟨⟨stored, _⟩, lastPass⟩ := s
  obtain rfl : _ = some accessed := haccessed
  have hstored : stored = salience * left halfLifeHours (lastPass - accessed) := h
  have hzero : stored = 0 ↔ salience = 0 := by
    rw [hstored, mul_eq_zero, or_iff_left (left_pos _ _).ne']
  simp only [OnCurve, FirstAlone, step]
  by_cases hfades : Fades halfLifeHours pass.now accessed stored
  · have hleft := (left_pos halfLifeHours (pass.now - accessed)).ne'
    have hage : left halfLifeHours (lastPass - accessed) = 1 ↔ lastPass = accessed := by
      rw [← left_zero halfLifeHours, left_inj, sub_eq_zero]
    have hsame : stored = salience ↔ stored = 0 ∨ lastPass = accessed := by
      rw [hzero, hstored, mul_right_eq_self₀, hage, or_comm]
    rw [decayRow_fades hfades]
    simp only [mul_left_inj' hleft, hsame, hfades, true_and, not_true_eq_false, false_and, or_false]
  · have hsame : stored = salience * left halfLifeHours (pass.now - accessed) ↔
        stored = 0 ∨ pass.now = lastPass := by
      rw [hzero, hstored, mul_eq_mul_left_iff, left_inj, sub_left_inj, or_comm,
        eq_comm (a := lastPass)]
    rw [decayRow_keeps hfades]
    simp only [hsame, hfades, false_and, not_false_eq_true, true_and, false_or]

/-- The salience is what the half-life says after every pass of a schedule, if and only if each pass
of it is alone. -/
theorem forgetting_schedule_iff (halfLifeHours salience accessed : ℝ) (passes : List DecayPass) :
    Always (step halfLifeHours) (OnCurve halfLifeHours salience accessed)
      (start salience accessed) passes ↔
      Meets (step halfLifeHours) (FirstAlone halfLifeHours accessed)
        (start salience accessed) passes := by
  have hinv : ∀ (s : Fading) (pass : DecayPass), s.fact.lastAccessed = some accessed →
      (step halfLifeHours s pass).fact.lastAccessed = some accessed :=
    fun s pass h => (decayRow_lastAccessed halfLifeHours pass.now s.fact).trans h
  have hstep : ∀ (s : Fading) (pass : DecayPass), s.fact.lastAccessed = some accessed →
      OnCurve halfLifeHours salience accessed s →
        (OnCurve halfLifeHours salience accessed (step halfLifeHours s pass) ↔
          FirstAlone halfLifeHours accessed s pass) :=
    fun s pass haccessed h => onCurve_step_iff haccessed h
  refine always_iff_meets hinv hstep rfl ?_
  simp [OnCurve, start]

/-- Two managers each run a pass, after one half-life and after two, and one eighth is left. -/
theorem two_passes_fade_twice :
    (run (step 72) (start 1 0) [⟨0, 72 * 3600⟩, ⟨1, 144 * 3600⟩]).fact.salience = 1 / 8 ∧
      ¬ OnCurve 72 1 0 (run (step 72) (start 1 0) [⟨0, 72 * 3600⟩, ⟨1, 144 * 3600⟩]) := by
  have hlife : halfLife 72 = 72 := if_neg (by norm_num)
  have hone : left 72 (72 * 3600 - 0) = 1 / 2 := by
    rw [left, hlife]
    norm_num
  have htwo : left 72 (144 * 3600 - 0) = 1 / 4 := by
    rw [left, hlife]
    norm_num
  have hfirst : Fades 72 (72 * 3600) 0 1 := by
    refine ⟨by norm_num, ?_⟩
    rw [hone]
    norm_num
  have hsecond : Fades 72 (144 * 3600) 0 (1 / 2) := by
    refine ⟨by norm_num, ?_⟩
    rw [htwo]
    norm_num
  have hrun : run (step 72) (start 1 0) [⟨0, 72 * 3600⟩, ⟨1, 144 * 3600⟩] =
      ⟨⟨1 / 8, some 0⟩, 144 * 3600⟩ := by
    simp only [run_cons, run_nil, step, start, decayRow_fades hfirst, hone, one_mul,
      decayRow_fades hsecond, htwo]
    norm_num
  rw [hrun, OnCurve, htwo]
  norm_num

end Fading

/-! ## Tables -/

namespace FadingFact

/-- A row whose last access is `accessed` and whose salience is a rational number. -/
noncomputable def ofKept {μ : Type} (row : KeptFact μ) : FadingFact :=
  ⟨row.salience, row.lastAccessed.map (Rat.cast : ℚ → ℝ)⟩

/-- A table of rational saliences fades as one of real ones, where the power is exact. -/
theorem ofKept_decayRow {μ : Type} {f : Forgetting} {now : Seconds} {row : KeptFact μ}
    (hexact : ∀ accessed ∈ row.lastAccessed,
      ((FactTable.fadedSalience f row ((now - accessed) / 3600) : ℚ) : ℝ) =
        row.salience * left f.halfLifeHours (now - accessed)) :
    ofKept (FactTable.decayRow f now row) = decayRow f.halfLifeHours now (ofKept row) := by
  cases haccessed : row.lastAccessed with
  | none => simp only [FactTable.decayRow, ofKept, decayRow, haccessed, Option.map_none]
  | some accessed =>
      have hfaded := hexact accessed haccessed
      have hthreshold : 1 / 10 ^ 9 < |FactTable.fadedSalience f row
          ((now - accessed) / 3600) - row.salience| ↔
          (1 / 10 ^ 9 : ℝ) < |(row.salience : ℝ) * left f.halfLifeHours
          (now - accessed) - row.salience| := by
        rw [← hfaded, ← Rat.cast_lt (K := ℝ)]
        push_cast
        exact Iff.rfl
      have hreal : ofKept row = ⟨row.salience, some (accessed : ℝ)⟩ := by
        rw [ofKept, haccessed, Option.map_some]
      rw [hreal]
      by_cases hfades : Fades f.halfLifeHours now accessed row.salience
      · have hlater : accessed < now := by exact_mod_cast hfades.1
        have hhours : ¬ max 0 ((now - accessed) / 3600) ≤ 0 :=
          fun hle => not_le.2 hlater (hours_nonpos_iff.1 hle)
        rw [hours_of_lt hlater] at hhours
        rw [decayRow_fades hfades]
        simp only [FactTable.decayRow, haccessed, hours_of_lt hlater, if_neg hhours,
          if_pos (hthreshold.2 hfades.2), ofKept, hfaded, Option.map_some]
      · have hkept : FactTable.decayRow f now row = row := by
          simp only [FactTable.decayRow, haccessed]
          split
          · rfl
          · rename_i hhours
            have hlater : accessed < now := not_le.1 fun hle => hhours (hours_nonpos_iff.2 hle)
            rw [hours_of_lt hlater]
            exact if_neg fun h => hfades ⟨by exact_mod_cast hlater, hthreshold.1 h⟩
        rw [decayRow_keeps hfades, hkept, hreal]

/-- On both backends, the passes over a table are passes over each of its facts. -/
theorem run_decay (halfLifeHours : ℝ) (passes : List DecayPass) (facts : List FadingFact) :
    run (fun facts (pass : DecayPass) => decay halfLifeHours pass.now facts) facts passes =
        facts.map
          (fun f => run (fun f (pass : DecayPass) => decayRow halfLifeHours pass.now f) f passes) ∧
      run (fun facts (pass : DecayPass) => pgDecay halfLifeHours pass.now facts) facts passes =
        facts.map fun f =>
          run (fun f (pass : DecayPass) => decayRow halfLifeHours pass.now f) f passes := by
  induction passes generalizing facts with
  | nil => simp
  | cons pass passes ih =>
      obtain ⟨hdecay, hpgDecay⟩ := ih (facts.map (decayRow halfLifeHours pass.now))
      rw [List.map_map] at hdecay hpgDecay
      exact ⟨hdecay, hpgDecay⟩

/-- The fact of a run is that of the table. -/
theorem fact_run (halfLifeHours : ℝ) (passes : List DecayPass) (s : Fading) :
    (run (Fading.step halfLifeHours) s passes).fact =
      run (fun f (pass : DecayPass) => decayRow halfLifeHours pass.now f) s.fact passes := by
  induction passes generalizing s with
  | nil => rfl
  | cons pass passes ih => exact ih (Fading.step halfLifeHours s pass)

end FadingFact

end ShugoCore
