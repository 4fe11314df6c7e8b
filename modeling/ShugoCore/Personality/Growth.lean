import Mathlib.Algebra.Order.Group.MinMax
import ShugoCore.Lib.Dict
import ShugoCore.Lib.Run
import ShugoCore.Personality.Persona

/-!
# Growth

`apply_delta` of `personality/model.py` moves the traits of a model, and `synthesize_deltas` and
`grow_from_memory` of `personality/growth.py` say by how much.  Arithmetic is exact here, apart from
the roundings of the code.

A move is cut to the rate and a value to its range (`abs_grownValue_sub`).  The value that is stored
is the exact one.  The move that is recorded is rounded to six digits, and a call whose moves all
round to zero is not recorded.  So every change leaves a trace if and only if no call asks for a move
that is too small to be seen, or finds too little room for a larger one (`growth_upheld_iff`).

What is synthesized from memory are hundredths, and these are seen (`memory_growth_traced`).
-/

namespace ShugoCore

open Py Machine

/-! ## The model -/

/-- `GROWTH_RATE`. -/
def growthRate : ℚ := 1 / 10

/-- `TraitState`, with exact numbers. -/
structure GrowingTrait where
  value : ℚ
  confidence : ℚ
  evidenceCount : Int
  lastGen : Int
deriving DecidableEq, Repr

/-- `TraitState.__init__`. -/
def GrowingTrait.new (value confidence : ℚ) (evidenceCount lastGen : Int) : GrowingTrait where
  value := max 0 (min 1 value)
  confidence := max 0 (min 1 confidence)
  evidenceCount := evidenceCount
  lastGen := lastGen

/-- An entry of the history. -/
structure Growth where
  gen : Int
  note : Str
  deltas : Dict Str ℚ
  grownAt : ℚ
deriving DecidableEq, Repr

/-- A `PersonalityModel`, as far as growth looks at it.  The policy is of any type. -/
structure GrowingModel (π : Type) where
  generation : Int
  policy : π
  traits : Dict Str GrowingTrait
  history : List Growth
  updatedAt : ℚ
deriving DecidableEq, Repr

/-- The deltas of a call: a dictionary has each key once. -/
abbrev Deltas := { d : Dict Str ℚ // (d.map Prod.fst).Nodup }

/-- A call of `apply_delta`, and the time of it. -/
structure GrowthCall where
  deltas : Deltas
  note : Str
  now : ℚ

/-- `BASELINE_TRAITS`. -/
def baselines : Dict Str ℚ :=
  [(lit "warmth", 1 / 2), (lit "humor", 2 / 5), (lit "curiosity", 1 / 2),
    (lit "verbosity", 1 / 2), (lit "formality", 3 / 10), (lit "proactivity", 3 / 10)]

variable {π : Type}

/-- `genesis`. -/
def GrowingModel.genesis (policy : π) (now : ℚ) : GrowingModel π where
  generation := 0
  policy := policy
  traits := baselines.map fun trait => (trait.1, .new trait.2 0 0 0)
  history := [⟨0, lit "genesis (baby state)", [], now⟩]
  updatedAt := now

/-! ## `apply_delta` -/

/-- The new value of a trait. -/
def grownValue (value delta : ℚ) : ℚ :=
  max 0 (min 1 (value + max (-growthRate) (min growthRate delta)))

/-- `round(x, 6)`. -/
def roundedMove (x : ℚ) : ℚ := roundHalfEven (x * 10 ^ 6) / 10 ^ 6

/-- An entry of `pending`. -/
structure PendingMove where
  trait : Str
  state : GrowingTrait
  newValue : ℚ
  move : ℚ

/-- The entry of a trait that is known. -/
def PendingMove.of (trait : Str) (state : GrowingTrait) (delta : ℚ) : PendingMove where
  trait := trait
  state := state
  newValue := grownValue state.value delta
  move := roundedMove (grownValue state.value delta - state.value)

/-- The state of a trait after an observation. -/
def PendingMove.observed (p : PendingMove) : GrowingTrait :=
  { p.state with
    evidenceCount := p.state.evidenceCount + 1
    confidence := min 1 (p.state.confidence + 1 / 10)
    value := p.newValue }

namespace GrowingModel

/-- The first loop: unknown traits are left out. -/
def pending (m : GrowingModel π) (deltas : Dict Str ℚ) : List PendingMove :=
  deltas.filterMap fun item => (Dict.get? m.traits item.1).map fun state => .of item.1 state item.2

/-- The second loop, as it fills `applied`. -/
def applied (pending : List PendingMove) : Dict Str ℚ :=
  pending.foldl (fun d p => if p.move ≠ 0 then Dict.set d p.trait p.move else d) []

/-- The second loop, as it changes the traits. -/
def observe (traits : Dict Str GrowingTrait) (pending : List PendingMove) : Dict Str GrowingTrait :=
  pending.foldl (fun d p => Dict.set d p.trait p.observed) traits

/-- The last loop: the traits that moved get the new generation. -/
def stamp (generation : Int) (applied : Dict Str ℚ) (traits : Dict Str GrowingTrait)
    (pending : List PendingMove) : Dict Str GrowingTrait :=
  pending.foldl
    (fun d p =>
      if p.trait ∈ applied.map Prod.fst then
        Dict.set d p.trait { p.observed with lastGen := generation }
      else d)
    traits

/-- `apply_delta`: the model it leaves, and what it returns. -/
def applyDelta (m : GrowingModel π) (c : GrowthCall) : GrowingModel π × Dict Str ℚ :=
  let pending := m.pending c.deltas
  let traits := observe m.traits pending
  let applied := applied pending
  if applied = [] then ({ m with traits := traits }, [])
  else
    ({ m with
        generation := m.generation + 1
        updatedAt := c.now
        traits := stamp (m.generation + 1) applied traits pending
        history := m.history ++ [⟨m.generation + 1, c.note, applied, c.now⟩] },
      applied)

/-- The model after a call. -/
def grow (m : GrowingModel π) (c : GrowthCall) : GrowingModel π := (m.applyDelta c).1

/-! ## What is asked of growth -/

/-- Every trait is in its range. -/
def Bounded (m : GrowingModel π) : Prop :=
  ∀ k s, Dict.get? m.traits k = some s → 0 ≤ s.value ∧ s.value ≤ 1

/-- The generation is the number of entries that are not of a birth. -/
def Counted (m : GrowingModel π) : Prop :=
  m.generation = (m.history.filter fun e => e.gen ≠ 0).length

/-- The model has the same traits, and no trait has moved by more than the rate. -/
def Gradual (m m' : GrowingModel π) : Prop :=
  m'.traits.map Prod.fst = m.traits.map Prod.fst ∧
  ∀ k s s', Dict.get? m.traits k = some s → Dict.get? m'.traits k = some s' →
    |s'.value - s.value| ≤ growthRate

/-- For every trait whose value has changed, an entry that names it has been appended. -/
def Traced (m m' : GrowingModel π) : Prop :=
  ∀ k s s', Dict.get? m.traits k = some s → Dict.get? m'.traits k = some s' → s'.value ≠ s.value →
    ∃ e, m'.history = m.history ++ [e] ∧ k ∈ e.deltas.map Prod.fst

/-- How far a value can move in the direction of a delta. -/
def roomFor (value delta : ℚ) : ℚ := if 0 < delta then 1 - value else value

/-- No trait of the model is asked for a move that exists and rounds to zero. -/
def Perceptible (m : GrowingModel π) (c : GrowthCall) : Prop :=
  ∀ k s δ, Dict.get? m.traits k = some s → (k, δ) ∈ c.deltas.1 →
    δ = 0 ∨ roomFor s.value δ = 0 ∨
      1 / 2000000 < |δ| ∧ 1 / 2000000 < roomFor s.value δ

end GrowingModel

/-! ## One trait -/

theorem growthRate_pos : 0 < growthRate := by norm_num [growthRate]

theorem grownValue_mem (value delta : ℚ) : 0 ≤ grownValue value delta ∧ grownValue value delta ≤ 1 :=
  ⟨le_max_left .., max_le zero_le_one (min_le_left ..)⟩

/-- A trait moves by the delta, the rate or the room there is, whichever is least. -/
theorem abs_grownValue_sub {value : ℚ} (h : 0 ≤ value ∧ value ≤ 1) (delta : ℚ) :
    |grownValue value delta - value| =
      min (min |delta| growthRate) (GrowingModel.roomFor value delta) := by
  obtain ⟨hlow, hhigh⟩ := h
  have hrate := growthRate_pos
  rw [grownValue, GrowingModel.roomFor]
  split
  · rename_i hpos
    have hstep : 0 < min growthRate delta := lt_min hrate hpos
    rw [max_eq_right (by linarith : -growthRate ≤ min growthRate delta),
      max_eq_right (le_min zero_le_one (by linarith)), ← min_sub_sub_right, add_sub_cancel_left,
      abs_of_pos hpos, min_comm delta, min_comm _ (1 - value),
      abs_of_nonneg (le_min (by linarith) hstep.le)]
  · rename_i hpos
    have hneg : delta ≤ 0 := not_lt.1 hpos
    have hstep : max (-growthRate) (min growthRate delta) = -min |delta| growthRate := by
      rw [min_eq_right (by linarith : delta ≤ growthRate), abs_of_nonpos hneg, ← max_neg_neg, neg_neg,
        max_comm]
    have hmin : 0 ≤ min |delta| growthRate := le_min (abs_nonneg delta) hrate.le
    rw [hstep, min_eq_right (by linarith : value + -min |delta| growthRate ≤ 1),
      ← max_sub_sub_right, add_sub_cancel_left, zero_sub, max_neg_neg, abs_neg,
      abs_of_nonneg (le_min hlow hmin), min_comm value]

theorem roundedMove_eq_zero_iff {x : ℚ} : roundedMove x = 0 ↔ |x| ≤ 1 / 2000000 := by
  have hscale : |x * 10 ^ 6| ≤ 1 / 2 ↔ |x| ≤ 1 / 2000000 := by
    rw [abs_mul, abs_of_pos (show (0 : ℚ) < 10 ^ 6 by norm_num)]
    constructor <;> intro h <;> linarith
  rw [roundedMove, div_eq_zero_iff, or_iff_left (by norm_num), Int.cast_eq_zero,
    roundHalfEven_eq_zero_iff, hscale]

/-- A change of a trait is recorded, if there is none or it is large enough. -/
theorem moved_imp_recorded_iff {value : ℚ} (h : 0 ≤ value ∧ value ≤ 1) (delta : ℚ) :
    (grownValue value delta ≠ value → roundedMove (grownValue value delta - value) ≠ 0) ↔
      delta = 0 ∨ GrowingModel.roomFor value delta = 0 ∨
        1 / 2000000 < |delta| ∧ 1 / 2000000 < GrowingModel.roomFor value delta := by
  have hroom : 0 ≤ GrowingModel.roomFor value delta := by
    rw [GrowingModel.roomFor]
    split <;> linarith
  have hrate : (1 : ℚ) / 2000000 < growthRate := by norm_num [growthRate]
  have hmove := abs_grownValue_sub h delta
  have hsame : grownValue value delta = value ↔
      min (min |delta| growthRate) (GrowingModel.roomFor value delta) = 0 := by
    rw [← hmove, abs_eq_zero, sub_eq_zero]
  rw [Ne, Ne, hsame, roundedMove_eq_zero_iff, hmove, not_le, lt_min_iff, lt_min_iff]
  constructor
  · intro himp
    by_cases hzero : min (min |delta| growthRate) (GrowingModel.roomFor value delta) = 0
    · rcases min_choice (min |delta| growthRate) (GrowingModel.roomFor value delta) with hm | hm
      · rcases min_choice |delta| growthRate with hm' | hm'
        · exact .inl (abs_eq_zero.1 (by rw [← hm', ← hm, hzero]))
        · exact absurd (hm'.symm.trans (hm.symm.trans hzero)) growthRate_pos.ne'
      · exact .inr (.inl (hm.symm.trans hzero))
    · obtain ⟨⟨hdelta, -⟩, hlarge⟩ := himp hzero
      exact .inr (.inr ⟨hdelta, hlarge⟩)
  · rintro (rfl | hfull | ⟨hdelta, hlarge⟩) hne
    · exact absurd (by rw [abs_zero, min_eq_left growthRate_pos.le, min_eq_left hroom]) hne
    · exact absurd (by rw [hfull, min_eq_right (le_min (abs_nonneg delta) growthRate_pos.le)]) hne
    · exact ⟨⟨hdelta, hrate⟩, hlarge⟩

/-! ## The moves of a call -/

namespace GrowingModel

variable (m : GrowingModel π) (c : GrowthCall)

/-- The entry of a trait says what becomes of it. -/
theorem get?_pending {ν : Type} (f : PendingMove → ν) (deltas : Dict Str ℚ) (k : Str) :
    Dict.get? ((m.pending deltas).map fun p => (p.trait, f p)) k =
      (Dict.get? deltas k).bind fun δ => (Dict.get? m.traits k).map fun s => f (.of k s δ) := by
  induction deltas with
  | nil => rfl
  | cons item deltas ih =>
      obtain ⟨k', δ⟩ := item
      cases hs : Dict.get? m.traits k' with
      | none =>
          have hskip : m.pending ((k', δ) :: deltas) = m.pending deltas := by
            simp [pending, hs]
          rw [hskip, ih, Dict.get?]
          split
          · rename_i hk
            rw [← hk, hs]
            simp
          · rfl
      | some s =>
          have hkeep : m.pending ((k', δ) :: deltas) = .of k' s δ :: m.pending deltas := by
            simp [pending, hs]
          rw [hkeep, List.map_cons, Dict.get?, Dict.get?]
          show (if k' = k then _ else _) = _
          split
          · rename_i hk
            rw [← hk, hs]
            rfl
          · exact ih

theorem nodup_pending {deltas : Dict Str ℚ} (h : (deltas.map Prod.fst).Nodup) :
    ((m.pending deltas).map PendingMove.trait).Nodup := by
  refine h.sublist ?_
  induction deltas with
  | nil => exact .slnil
  | cons item deltas ih =>
      rw [List.map_cons, List.nodup_cons] at h
      cases hs : Dict.get? m.traits item.1 with
      | none => simpa [pending, hs] using (ih h.2).cons item.1
      | some s => simpa [pending, hs, PendingMove.of] using (ih h.2).cons_cons item.1

theorem mem_pending {deltas : Dict Str ℚ} {p : PendingMove} :
    p ∈ m.pending deltas ↔
      ∃ k δ s, (k, δ) ∈ deltas ∧ Dict.get? m.traits k = some s ∧ .of k s δ = p := by
  simp only [pending, List.mem_filterMap, Option.map_eq_some_iff, Prod.exists]
  constructor
  · rintro ⟨k, δ, hmem, s, hs, rfl⟩
    exact ⟨k, δ, s, hmem, hs, rfl⟩
  · rintro ⟨k, δ, s, hmem, hs, rfl⟩
    exact ⟨k, δ, hmem, s, hs, rfl⟩

/-- The recorded moves are those that do not round to zero. -/
theorem applied_eq {pending : List PendingMove} (h : (pending.map PendingMove.trait).Nodup) :
    applied pending = (pending.filter fun p => p.move ≠ 0).map fun p => (p.trait, p.move) := by
  have hnodup : (((pending.filter fun p => p.move ≠ 0).map fun p => (p.trait, p.move)).map
      Prod.fst).Nodup := by
    rw [List.map_map]
    exact h.sublist (List.filter_sublist.map _)
  calc applied pending
      = ((pending.filter fun p => p.move ≠ 0).map fun p => (p.trait, p.move)).foldl
          (fun d i => Dict.set d i.1 i.2) [] := by
        rw [List.foldl_map, List.foldl_filter]
        simp [applied]
    _ = _ := Dict.foldl_set_append (d := []) hnodup

/-- A trait is recorded if it is known and its move does not round to zero. -/
theorem mem_applied_iff {k : Str} :
    k ∈ (applied (m.pending c.deltas.1)).map Prod.fst ↔
      ∃ δ s, (k, δ) ∈ c.deltas.1 ∧ Dict.get? m.traits k = some s ∧
        roundedMove (grownValue s.value δ - s.value) ≠ 0 := by
  rw [applied_eq (m.nodup_pending c.deltas.2), List.map_map]
  simp only [List.mem_map, List.mem_filter, mem_pending, decide_eq_true_eq, Function.comp_apply]
  constructor
  · rintro ⟨p, ⟨⟨k, δ, s, hmem, hs, rfl⟩, hmove⟩, rfl⟩
    exact ⟨δ, s, hmem, hs, hmove⟩
  · rintro ⟨δ, s, hmem, hs, hmove⟩
    exact ⟨.of k s δ, ⟨⟨k, δ, s, hmem, hs, rfl⟩, hmove⟩, rfl⟩

/-! ## The traits after a call -/

/-- What the second loop binds. -/
def observations (pending : List PendingMove) : Dict Str GrowingTrait :=
  pending.map fun p => (p.trait, p.observed)

/-- What the last loop binds. -/
def stamps (generation : Int) (applied : Dict Str ℚ) (pending : List PendingMove) :
    Dict Str GrowingTrait :=
  (pending.filter fun p => p.trait ∈ applied.map Prod.fst).map fun p =>
    (p.trait, { p.observed with lastGen := generation })

theorem observe_eq (traits : Dict Str GrowingTrait) (pending : List PendingMove) :
    observe traits pending =
      (observations pending).foldl (fun d i => Dict.set d i.1 i.2) traits := by
  rw [observations, List.foldl_map]
  rfl

theorem stamp_eq (generation : Int) (applied : Dict Str ℚ) (traits : Dict Str GrowingTrait)
    (pending : List PendingMove) :
    stamp generation applied traits pending =
      (stamps generation applied pending).foldl (fun d i => Dict.set d i.1 i.2) traits := by
  rw [stamps, List.foldl_map, List.foldl_filter]
  simp only [stamp, decide_eq_true_eq]

theorem nodup_observations {pending : List PendingMove}
    (h : (pending.map PendingMove.trait).Nodup) : ((observations pending).map Prod.fst).Nodup := by
  rw [observations, List.map_map]
  exact h

theorem nodup_stamps (generation : Int) (applied : Dict Str ℚ) {pending : List PendingMove}
    (h : (pending.map PendingMove.trait).Nodup) :
    ((stamps generation applied pending).map Prod.fst).Nodup := by
  rw [stamps, List.map_map]
  exact h.sublist (List.filter_sublist.map _)

theorem get?_observe_of_mem {pending : List PendingMove}
    (h : (pending.map PendingMove.trait).Nodup) (traits : Dict Str GrowingTrait) {p : PendingMove}
    (hp : p ∈ pending) : Dict.get? (observe traits pending) p.trait = some p.observed := by
  have hitem : Dict.get? (observations pending) p.trait = some p.observed :=
    (Dict.get?_eq_some_iff (nodup_observations h)).2 (List.mem_map_of_mem hp)
  rw [observe_eq, Dict.get?_foldl_set (nodup_observations h), hitem, Option.some_or]

/-- The last loop changes no value. -/
theorem get?_stamp_value (generation : Int) (applied : Dict Str ℚ) {pending : List PendingMove}
    (h : (pending.map PendingMove.trait).Nodup) (traits : Dict Str GrowingTrait) (k : Str) :
    (Dict.get? (stamp generation applied (observe traits pending) pending) k).map
        GrowingTrait.value =
      (Dict.get? (observe traits pending) k).map GrowingTrait.value := by
  rw [stamp_eq, Dict.get?_foldl_set (nodup_stamps generation applied h)]
  cases hk : Dict.get? (stamps generation applied pending) k with
  | none => rw [Option.none_or]
  | some s =>
      obtain ⟨p, hp, heq⟩ := List.mem_map.1 (Dict.mem_of_get? hk)
      cases heq
      rw [Option.some_or, get?_observe_of_mem h traits (List.mem_of_mem_filter hp)]
      rfl

/-- What a call makes of the value of a trait. -/
theorem get?_grow_value (k : Str) :
    (Dict.get? (m.grow c).traits k).map GrowingTrait.value =
      (Dict.get? m.traits k).map fun s =>
        (Dict.get? c.deltas.1 k).elim s.value (grownValue s.value) := by
  have hnodup := m.nodup_pending c.deltas.2
  have hobserved : (Dict.get? (observe m.traits (m.pending c.deltas)) k).map GrowingTrait.value =
      (Dict.get? m.traits k).map fun s =>
        (Dict.get? c.deltas.1 k).elim s.value (grownValue s.value) := by
    rw [observe_eq, Dict.get?_foldl_set (nodup_observations hnodup), observations, get?_pending]
    cases Dict.get? c.deltas.1 k <;> cases Dict.get? m.traits k <;> rfl
  rw [grow, applyDelta]
  split
  · exact hobserved
  · exact (get?_stamp_value _ _ hnodup _ _).trans hobserved

/-- A call adds no trait and drops none. -/
theorem keys_grow : (m.grow c).traits.map Prod.fst = m.traits.map Prod.fst := by
  have hknown : ∀ p ∈ m.pending c.deltas, p.trait ∈ m.traits.map Prod.fst := by
    intro p hp
    obtain ⟨k, δ, s, -, hs, rfl⟩ := m.mem_pending.1 hp
    exact List.mem_map_of_mem (Dict.mem_of_get? hs)
  have hobserve : (observe m.traits (m.pending c.deltas)).map Prod.fst = m.traits.map Prod.fst := by
    rw [observe_eq]
    refine Dict.keys_foldl_set fun i hi => ?_
    obtain ⟨p, hp, rfl⟩ := List.mem_map.1 hi
    exact hknown p hp
  rw [grow, applyDelta]
  split
  · exact hobserve
  · rw [← hobserve]
    show (stamp _ _ _ _).map Prod.fst = _
    rw [stamp_eq]
    refine Dict.keys_foldl_set fun i hi => ?_
    obtain ⟨p, hp, rfl⟩ := List.mem_map.1 hi
    exact hobserve ▸ hknown p (List.mem_of_mem_filter hp)

/-! ## One call -/

theorem policy_grow : (m.grow c).policy = m.policy := by
  rw [grow, applyDelta]
  split <;> rfl

/-- A call whose moves all round to zero is not recorded, and any other one is. -/
theorem history_grow :
    (m.grow c).generation = m.generation ∧ (m.grow c).history = m.history ∧
        applied (m.pending c.deltas) = [] ∨
      (m.grow c).generation = m.generation + 1 ∧ applied (m.pending c.deltas) ≠ [] ∧
        (m.grow c).history = m.history ++
          [⟨m.generation + 1, c.note, applied (m.pending c.deltas), c.now⟩] := by
  rw [grow, applyDelta]
  split
  · rename_i h
    exact .inl ⟨rfl, rfl, h⟩
  · rename_i h
    exact .inr ⟨rfl, h, rfl⟩

/-- The value of a trait after a call, from its value before. -/
theorem value_grow {k : Str} {s s' : GrowingTrait} (hs : Dict.get? m.traits k = some s)
    (hs' : Dict.get? (m.grow c).traits k = some s') :
    s'.value = (Dict.get? c.deltas.1 k).elim s.value (grownValue s.value) := by
  have hvalue := m.get?_grow_value c k
  rw [hs, hs'] at hvalue
  exact Option.some.inj hvalue

variable {m}

theorem Bounded.grow (h : m.Bounded) : (m.grow c).Bounded := by
  intro k s' hs'
  obtain ⟨s, hs⟩ : ∃ s, Dict.get? m.traits k = some s := by
    refine Dict.get?_of_mem_keys ?_
    rw [← m.keys_grow c]
    exact List.mem_map_of_mem (Dict.mem_of_get? hs')
  rw [m.value_grow c hs hs']
  cases Dict.get? c.deltas.1 k with
  | none => exact h k s hs
  | some δ => exact grownValue_mem s.value δ

theorem Counted.grow (h : m.Counted) : (m.grow c).Counted := by
  rcases m.history_grow c with ⟨hgen, hhist, -⟩ | ⟨hgen, -, hhist⟩
  · rw [Counted, hgen, hhist]
    exact h
  · -- The generation of the new entry is positive, so it is not of a birth.
    have hnew : m.generation + 1 ≠ 0 := by
      rw [h]
      omega
    rw [Counted, hgen, hhist, List.filter_append, List.filter_cons_of_pos (by simpa using hnew),
      List.length_append, h]
    rfl

theorem Bounded.gradual (h : m.Bounded) : Gradual m (m.grow c) := by
  refine ⟨m.keys_grow c, fun k s s' hs hs' => ?_⟩
  rw [m.value_grow c hs hs']
  cases Dict.get? c.deltas.1 k with
  | none => simpa using growthRate_pos.le
  | some δ =>
      show |grownValue s.value δ - s.value| ≤ growthRate
      rw [abs_grownValue_sub (h k s hs)]
      exact (min_le_left ..).trans (min_le_right ..)

/-- A call leaves a trace of what it changes if every change is large enough to be recorded. -/
theorem traced_grow_iff :
    Traced m (m.grow c) ↔ ∀ k s δ, Dict.get? m.traits k = some s → (k, δ) ∈ c.deltas.1 →
      grownValue s.value δ ≠ s.value → roundedMove (grownValue s.value δ - s.value) ≠ 0 := by
  constructor
  · intro h k s δ hs hδ hchange
    obtain ⟨s', hs'⟩ : ∃ s', Dict.get? (m.grow c).traits k = some s' := by
      refine Dict.get?_of_mem_keys ?_
      rw [m.keys_grow c]
      exact List.mem_map_of_mem (Dict.mem_of_get? hs)
    have hvalue : s'.value = grownValue s.value δ := by
      rw [m.value_grow c hs hs', (Dict.get?_eq_some_iff c.deltas.2).2 hδ]
      rfl
    obtain ⟨e, he, hk⟩ := h k s s' hs hs' (hvalue ▸ hchange)
    rcases m.history_grow c with ⟨-, hhist, -⟩ | ⟨-, -, hhist⟩
    · rw [hhist] at he
      simp at he
    · rw [hhist, List.append_cancel_left_eq] at he
      cases he
      obtain ⟨δ', s'', hδ', hs'', hmove⟩ := (m.mem_applied_iff c).1 hk
      have hsame : δ' = δ := by
        rw [← Dict.get?_eq_some_iff c.deltas.2] at hδ hδ'
        exact Option.some.inj (hδ'.symm.trans hδ)
      cases hs.symm.trans hs''
      exact hsame ▸ hmove
  · intro h k s s' hs hs' hchange
    rw [m.value_grow c hs hs'] at hchange
    cases hδ : Dict.get? c.deltas.1 k with
    | none =>
        rw [hδ] at hchange
        exact absurd rfl hchange
    | some δ =>
        rw [hδ] at hchange
        have hmem := (Dict.get?_eq_some_iff c.deltas.2).1 hδ
        have hk : k ∈ (applied (m.pending c.deltas)).map Prod.fst :=
          (m.mem_applied_iff c).2 ⟨δ, s, hmem, hs, h k s δ hs hmem hchange⟩
        rcases m.history_grow c with ⟨-, -, hnone⟩ | ⟨-, -, hhist⟩
        · rw [hnone] at hk
          cases hk
        · exact ⟨_, hhist, hk⟩

/-- A call leaves a trace of what it changes if and only if it asks for no move that is there and
rounds to zero. -/
theorem Bounded.traced_iff (h : m.Bounded) : Traced m (m.grow c) ↔ m.Perceptible c := by
  rw [traced_grow_iff]
  constructor
  · intro htraced k s δ hs hδ
    exact (moved_imp_recorded_iff (h k s hs) δ).1 (htraced k s δ hs hδ)
  · intro hseen k s δ hs hδ
    exact (moved_imp_recorded_iff (h k s hs) δ).2 (hseen k s δ hs hδ)

end GrowingModel

/-! ## Runs -/

open GrowingModel

/-- In every run of calls the traits stay in their range, the generation is right and the policy is
the same, no trait moves by more than the rate in a call, and every change leaves a trace, if and
only if no call asks for a move that is there and rounds to zero. -/
theorem growth_upheld_iff (m : GrowingModel π) (hbounded : m.Bounded) (hcounted : m.Counted)
    (calls : List GrowthCall) :
    Always grow (fun m' => m'.Bounded ∧ m'.Counted ∧ m'.policy = m.policy) m calls ∧
        Meets grow (fun m' c => Gradual m' (m'.grow c) ∧ Traced m' (m'.grow c)) m calls ↔
      Meets grow Perceptible m calls := by
  have hkept : Always grow (fun m' => m'.Bounded ∧ m'.Counted ∧ m'.policy = m.policy) m calls := by
    have hany : Meets grow (fun _ _ => True) m calls := Meets.trivial calls
    refine Always.of_inv ?_ ⟨hbounded, hcounted, rfl⟩ hany
    rintro m' c ⟨hb, hc, hp⟩ -
    exact ⟨hb.grow c, hc.grow c, (m'.policy_grow c).trans hp⟩
  rw [and_iff_right hkept]
  refine meets_congr (I := Bounded) (fun m' c hb _ => hb.grow c) (fun m' c hb => ?_) hbounded
  rw [hb.traced_iff, and_iff_right (hb.gradual c)]

theorem genesis_bounded (policy : π) (now : ℚ) : (genesis policy now).Bounded := by
  intro k s hs
  obtain ⟨trait, -, heq⟩ := List.mem_map.1 (Dict.mem_of_get? hs)
  cases heq
  exact ⟨le_max_left .., max_le zero_le_one (min_le_left ..)⟩

theorem genesis_counted (policy : π) (now : ℚ) : (genesis policy now).Counted := rfl

/-- A tenth of a millionth more warmth. -/
def faintCall : GrowthCall where
  deltas := ⟨[(lit "warmth", 1 / 10000000)], by decide⟩
  note := []
  now := 1

theorem warmer_upheld :
    Meets grow (fun m c => Gradual m (m.grow c) ∧ Traced m (m.grow c)) (genesis () 0)
      [⟨⟨[(lit "warmth", 1 / 20)], by decide⟩, [], 1⟩] := by
  refine ((growth_upheld_iff _ (genesis_bounded () 0) (genesis_counted () 0) _).2 ?_).2
  refine ⟨fun k s δ hs hδ => ?_, trivial⟩
  cases List.mem_singleton.1 hδ
  cases hs.symm.trans (show Dict.get? (genesis () 0).traits (lit "warmth") =
    some ⟨1 / 2, 0, 0, 0⟩ by decide +kernel)
  norm_num [roomFor]

/-- The warmth of a new model changes, and nothing says so. -/
theorem faint_call_untraced :
    ¬ Meets grow (fun m c => Gradual m (m.grow c) ∧ Traced m (m.grow c)) (genesis () 0)
      [faintCall] := by
  rintro ⟨⟨-, htraced⟩, -⟩
  have hbefore : Dict.get? (genesis () 0).traits (lit "warmth") = some ⟨1 / 2, 0, 0, 0⟩ := by
    decide +kernel
  have hafter : Dict.get? ((genesis () 0).grow faintCall).traits (lit "warmth") =
      some ⟨1 / 2 + 1 / 10000000, 1 / 10, 1, 0⟩ := by
    decide +kernel
  obtain ⟨e, he, -⟩ := htraced _ _ _ hbefore hafter (by norm_num)
  have hsame : ((genesis () 0).grow faintCall).history = (genesis () 0).history := by
    decide +kernel
  rw [hsame] at he
  simp at he

/-! ## Growth from memory -/

/-- What `synthesize_deltas` reads of the statistics. -/
structure GrowthStats where
  turns : Int
  questions : Int
  commands : Int
  toolFailures : Int
  toolRuns : Int
  newFacts : Int
  feedback : Dict Str Int

/-- `deltas` and `reasons`. -/
structure Proposal where
  deltas : Deltas
  reasons : List Str

/-- `bump`. -/
def Proposal.bump (trait : Str) (amount : ℚ) (reason : Str) (p : Proposal) : Proposal where
  deltas := ⟨Dict.set p.deltas.1 trait ((Dict.get? p.deltas.1 trait).getD 0 + amount),
    Dict.nodup_set p.deltas.2⟩
  reasons := p.reasons ++ [reason]

/-- `bump`, if a condition holds. -/
def Proposal.bumpIf (condition : Bool) (trait : String) (amount : ℚ) (reason : Str) (p : Proposal) :
    Proposal :=
  if condition then p.bump (lit trait) amount reason else p

/-- The loop over the feedback. -/
def Proposal.heed (p : Proposal) (feedback : Dict Str Int) : Proposal :=
  feedback.foldl
    (fun p item =>
      if 0 < item.2 then
        p.bump item.1 (min (1 / 10) (6 / 100 * item.2)) (lit "praised " ++ item.1)
      else if item.2 < 0 then
        p.bump item.1 (max (-(1 / 10)) (6 / 100 * item.2)) (lit "criticized " ++ item.1)
      else p)
    p

/-- `{t: round(v, 4) for t, v in deltas.items() if v}`. -/
def Deltas.rounded (deltas : Deltas) : Deltas where
  val := (deltas.1.filter fun item => item.2 ≠ 0).map fun item =>
    (item.1, roundHalfEven (item.2 * 10 ^ 4) / 10 ^ 4)
  property := by
    rw [List.map_map]
    exact deltas.2.sublist (List.filter_sublist.map _)

/-- `{n}`. -/
def figures (n : Int) : Str := (Literal.ofInt n).text

/-- `{q:.0%}`. -/
def percent (q : ℚ) : Str := figures (roundHalfEven (q * 100)) ++ lit "%"

/-- `synthesize_deltas`. -/
def synthesizeDeltas (stats : GrowthStats) : Deltas × Str :=
  let turns := max 0 stats.turns
  if turns = 0 then (⟨[], List.nodup_nil⟩, [])
  else
    let questions := max 0 stats.questions
    let commands := max 0 stats.commands
    let toolRuns := max 0 stats.toolRuns
    let toolFailures := max 0 stats.toolFailures
    let newFacts := max 0 stats.newFacts
    let qRatio : ℚ := questions / turns
    let commandRatio : ℚ := commands / turns
    let failRatio : ℚ := if toolRuns ≠ 0 then toolFailures / toolRuns else 0
    let p : Proposal := ⟨⟨[], List.nodup_nil⟩, []⟩
    let p := p.bumpIf (3 / 10 ≤ qRatio) "curiosity" (8 / 100) (lit "questions " ++ percent qRatio)
    let p :=
      if 3 ≤ newFacts then p.bump (lit "warmth") (6 / 100) (figures newFacts ++ lit " facts shared")
      else p.bumpIf (1 ≤ newFacts) "warmth" (4 / 100) (figures newFacts ++ lit " fact(s) shared")
    let p := p.bumpIf (20 ≤ turns) "warmth" (5 / 100)
      (lit "long session (" ++ figures turns ++ lit " turns)")
    let p := p.bumpIf (1 / 2 ≤ commandRatio) "proactivity" (5 / 100)
      (lit "commands " ++ percent commandRatio)
    let p := p.bumpIf (3 / 10 < failRatio) "proactivity" (-(6 / 100))
      (lit "tool failures " ++ percent failRatio)
    let p := p.heed stats.feedback
    (p.deltas.rounded, (lit "; ").intercalate p.reasons)

/-- What `grow_from_memory` reports. -/
structure GrowthReport where
  generation : Int
  applied : Dict Str ℚ
  reasons : Str

/-- `grow_from_memory`. -/
def GrowingModel.growFromMemory (m : GrowingModel π) (stats : GrowthStats) (note : Str) (now : ℚ) :
    GrowingModel π × Option GrowthReport :=
  let (deltas, reasons) := synthesizeDeltas stats
  if deltas.1 = [] then (m, none)
  else
    let (m', applied) := m.applyDelta ⟨deltas, note ++ lit ": " ++ reasons, now⟩
    if applied = [] then (m', none) else (m', some ⟨m'.generation, applied, reasons⟩)

/-- The statistics between two calls of `grow_from_memory`, and the note and the time of the next. -/
abbrev GrowthWindow := GrowthStats × Str × ℚ

/-- The model after a call of `grow_from_memory`. -/
def GrowingModel.remember (m : GrowingModel π) (w : GrowthWindow) : GrowingModel π :=
  (m.growFromMemory w.1 w.2.1 w.2.2).1

/-! ### Hundredths -/

/-- A number of hundredths. -/
def Hundredths (q : ℚ) : Prop := ∃ n : Int, q = n / 100

theorem Hundredths.add {p q : ℚ} (hp : Hundredths p) (hq : Hundredths q) : Hundredths (p + q) := by
  obtain ⟨a, rfl⟩ := hp
  obtain ⟨b, rfl⟩ := hq
  exact ⟨a + b, by push_cast; ring⟩

theorem Hundredths.neg {q : ℚ} (h : Hundredths q) : Hundredths (-q) := by
  obtain ⟨a, rfl⟩ := h
  exact ⟨-a, by push_cast; ring⟩

theorem Hundredths.max {p q : ℚ} (hp : Hundredths p) (hq : Hundredths q) : Hundredths (max p q) := by
  rcases max_choice p q with h | h <;> rw [h] <;> assumption

theorem Hundredths.min {p q : ℚ} (hp : Hundredths p) (hq : Hundredths q) : Hundredths (min p q) := by
  rcases min_choice p q with h | h <;> rw [h] <;> assumption

theorem Hundredths.zero : Hundredths 0 := ⟨0, by norm_num⟩

theorem Hundredths.one : Hundredths 1 := ⟨100, by norm_num⟩

theorem Hundredths.rate : Hundredths growthRate := ⟨10, by norm_num [growthRate]⟩

/-- A hundredth is not too small to be seen. -/
theorem Hundredths.eq_zero_or_lt {q : ℚ} (h : Hundredths q) : q = 0 ∨ 1 / 2000000 < |q| := by
  obtain ⟨n, rfl⟩ := h
  rcases eq_or_ne n 0 with rfl | hn
  · exact .inl (by norm_num)
  · right
    have hone : (1 : ℚ) ≤ |(n : ℚ)| := by exact_mod_cast Int.one_le_abs hn
    rw [abs_div, abs_of_pos (show (0 : ℚ) < 100 by norm_num), lt_div_iff₀ (by norm_num)]
    linarith

theorem Hundredths.grownValue {v δ : ℚ} (hv : Hundredths v) (hδ : Hundredths δ) :
    Hundredths (grownValue v δ) :=
  .max .zero (.min .one (hv.add (.max Hundredths.rate.neg (.min .rate hδ))))

/-- Four digits are enough for a hundredth. -/
theorem Hundredths.rounded {q : ℚ} (h : Hundredths q) :
    (roundHalfEven (q * 10 ^ 4) : ℚ) / 10 ^ 4 = q := by
  obtain ⟨n, rfl⟩ := h
  have hscale : (n : ℚ) / 100 * 10 ^ 4 = ((n * 100 : Int) : ℚ) := by
    push_cast
    ring
  rw [hscale, roundHalfEven_intCast]
  push_cast
  ring

/-! ### What is synthesized -/

/-- Every delta of a proposal is a number of hundredths. -/
def Proposal.InHundredths (p : Proposal) : Prop := ∀ item ∈ p.deltas.1, Hundredths item.2

theorem Proposal.InHundredths.bump {p : Proposal} (h : p.InHundredths) (trait : Str) {amount : ℚ}
    (ha : Hundredths amount) (reason : Str) : (p.bump trait amount reason).InHundredths := by
  intro item hitem
  rcases Dict.mem_set hitem with hold | rfl
  · exact h item hold
  · refine .add ?_ ha
    cases hk : Dict.get? p.deltas.1 trait with
    | none => exact .zero
    | some δ => exact h _ (Dict.mem_of_get? hk)

theorem Proposal.InHundredths.bumpIf {p : Proposal} (h : p.InHundredths) (condition : Bool)
    (trait : String) {amount : ℚ} (ha : Hundredths amount) (reason : Str) :
    (p.bumpIf condition trait amount reason).InHundredths := by
  rw [Proposal.bumpIf]
  split
  · exact h.bump _ ha reason
  · exact h

theorem Proposal.InHundredths.heed {p : Proposal} (h : p.InHundredths) (feedback : Dict Str Int) :
    (p.heed feedback).InHundredths := by
  induction feedback generalizing p with
  | nil => exact h
  | cons item feedback ih =>
      have hnet : Hundredths (6 / 100 * (item.2 : ℚ)) := ⟨6 * item.2, by push_cast; ring⟩
      have htenth : Hundredths (1 / 10) := .rate
      refine ih ?_
      dsimp only
      split
      · exact h.bump _ (htenth.min hnet) _
      · split
        · exact h.bump _ (htenth.neg.max hnet) _
        · exact h

theorem Deltas.rounded_eq {deltas : Deltas} (h : ∀ item ∈ deltas.1, Hundredths item.2) :
    ∀ item ∈ deltas.rounded.1, Hundredths item.2 := by
  intro item hitem
  obtain ⟨old, hold, rfl⟩ := List.mem_map.1 hitem
  have hundredths := h old (List.mem_of_mem_filter hold)
  show Hundredths (roundHalfEven (old.2 * 10 ^ 4) / 10 ^ 4)
  rw [hundredths.rounded]
  exact hundredths

theorem synthesizeDeltas_hundredths (stats : GrowthStats) :
    ∀ item ∈ (synthesizeDeltas stats).1.1, Hundredths item.2 := by
  rw [synthesizeDeltas]
  split
  · intro item hitem
    cases hitem
  · refine Deltas.rounded_eq (Proposal.InHundredths.heed ?_ _)
    have hnew : Proposal.InHundredths ⟨⟨[], List.nodup_nil⟩, []⟩ := by
      intro item hitem
      cases hitem
    refine .bumpIf (.bumpIf (.bumpIf ?_ _ _ ⟨5, by norm_num⟩ _) _ _ ⟨5, by norm_num⟩ _) _ _
      ⟨-6, by norm_num⟩ _
    have hcurious := hnew.bumpIf
      (3 / 10 ≤ ((max 0 stats.questions : Int) : ℚ) / (max 0 stats.turns : Int)) "curiosity"
      (show Hundredths (8 / 100) from ⟨8, by norm_num⟩)
      (lit "questions " ++
        percent (((max 0 stats.questions : Int) : ℚ) / (max 0 stats.turns : Int)))
    split
    · exact hcurious.bump _ ⟨6, by norm_num⟩ _
    · exact hcurious.bumpIf _ _ ⟨4, by norm_num⟩ _

/-! ### Runs of it -/

namespace GrowingModel

/-- Every value is a number of hundredths. -/
def InHundredths (m : GrowingModel π) : Prop :=
  ∀ k s, Dict.get? m.traits k = some s → Hundredths s.value

theorem genesis_inHundredths (policy : π) (now : ℚ) : (genesis policy now).InHundredths := by
  intro k s hs
  obtain ⟨trait, htrait, heq⟩ := List.mem_map.1 (Dict.mem_of_get? hs)
  cases heq
  have hbaseline : Hundredths trait.2 := by
    simp only [baselines, List.mem_cons, List.not_mem_nil, or_false] at htrait
    rcases htrait with rfl | rfl | rfl | rfl | rfl | rfl
    · exact ⟨50, by norm_num⟩
    · exact ⟨40, by norm_num⟩
    · exact ⟨50, by norm_num⟩
    · exact ⟨50, by norm_num⟩
    · exact ⟨30, by norm_num⟩
    · exact ⟨30, by norm_num⟩
  exact .max .zero (.min .one hbaseline)

variable {m : GrowingModel π} {c : GrowthCall}

theorem InHundredths.grow (h : m.InHundredths) (hc : ∀ item ∈ c.deltas.1, Hundredths item.2) :
    (m.grow c).InHundredths := by
  intro k s' hs'
  obtain ⟨s, hs⟩ : ∃ s, Dict.get? m.traits k = some s := by
    refine Dict.get?_of_mem_keys ?_
    rw [← m.keys_grow c]
    exact List.mem_map_of_mem (Dict.mem_of_get? hs')
  rw [m.value_grow c hs hs']
  cases hδ : Dict.get? c.deltas.1 k with
  | none => exact h k s hs
  | some δ => exact (h k s hs).grownValue (hc _ (Dict.mem_of_get? hδ))

/-- Hundredths are seen. -/
theorem InHundredths.perceptible (h : m.InHundredths)
    (hc : ∀ item ∈ c.deltas.1, Hundredths item.2) (hb : m.Bounded) : m.Perceptible c := by
  intro k s δ hs hδ
  have hroom : Hundredths (roomFor s.value δ) := by
    rw [roomFor]
    split
    · rw [sub_eq_add_neg]
      exact Hundredths.one.add (h k s hs).neg
    · exact h k s hs
  have hnonneg : 0 ≤ roomFor s.value δ := by
    obtain ⟨hlow, hhigh⟩ := hb k s hs
    rw [roomFor]
    split <;> linarith
  rcases (hc _ hδ).eq_zero_or_lt with hzero | hdelta
  · exact .inl hzero
  · rcases hroom.eq_zero_or_lt with hfull | hlarge
    · exact .inr (.inl hfull)
    · exact .inr (.inr ⟨hdelta, by rwa [abs_of_nonneg hnonneg] at hlarge⟩)

/-- Growth from memory does nothing, or calls `apply_delta` with hundredths. -/
theorem remember_cases (m : GrowingModel π) (w : GrowthWindow) :
    m.remember w = m ∨
      ∃ c : GrowthCall, m.remember w = m.grow c ∧ ∀ item ∈ c.deltas.1, Hundredths item.2 := by
  rw [remember, growFromMemory]
  dsimp only
  split
  · exact .inl rfl
  · refine .inr ⟨⟨(synthesizeDeltas w.1).1, w.2.1 ++ lit ": " ++ (synthesizeDeltas w.1).2, w.2.2⟩,
      ?_, synthesizeDeltas_hundredths w.1⟩
    rw [GrowingModel.grow]
    split <;> rfl

end GrowingModel

/-- A model that grows from memory only leaves a trace of every change, whatever it remembers. -/
theorem memory_growth_traced (policy : π) (now : ℚ) (windows : List GrowthWindow) :
    Meets remember (fun m w => Gradual m (m.remember w) ∧ Traced m (m.remember w))
      (genesis policy now) windows := by
  have hstep : ∀ (m : GrowingModel π) (w : GrowthWindow), m.Bounded ∧ m.InHundredths →
      (m.remember w).Bounded ∧ (m.remember w).InHundredths := by
    rintro m w ⟨hb, hh⟩
    rcases m.remember_cases w with heq | ⟨c, heq, hc⟩
    · rw [heq]
      exact ⟨hb, hh⟩
    · rw [heq]
      exact ⟨hb.grow c, hh.grow hc⟩
  refine Meets.imp (I := fun m => m.Bounded ∧ m.InHundredths) (fun m w hi _ => hstep m w hi)
    (fun m w hi _ => ?_) ⟨genesis_bounded policy now, genesis_inHundredths policy now⟩
    (Meets.trivial windows)
  obtain ⟨hb, hh⟩ := hi
  rcases m.remember_cases w with heq | ⟨c, heq, hc⟩
  · rw [heq]
    refine ⟨⟨rfl, fun k s s' hs hs' => ?_⟩, fun k s s' hs hs' hne => ?_⟩
    · cases hs.symm.trans hs'
      simpa using growthRate_pos.le
    · cases hs.symm.trans hs'
      exact absurd rfl hne
  · rw [heq]
    exact ⟨hb.gradual c, (hb.traced_iff c).2 (hh.perceptible hc hb)⟩

end ShugoCore
