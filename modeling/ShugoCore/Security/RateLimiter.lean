import ShugoCore.Clock
import ShugoCore.Lib.Dict
import ShugoCore.Lib.PyText
import ShugoCore.Lib.Run
import ShugoCore.Lib.TokenBucket

/-!
# Rate limiting

`RateLimiter` of `security.py`: a token bucket for each key, made when the key is first asked for,
and callers that wait for a token until their deadline.

Any number of callers wait at once. A step of the system is what one of them does between two
releases of the lock, so a list of steps is an interleaving of their calls. In all of them the keys
are apart, and a key grants no more in a span of time than its bucket holds and what flows into it
in that span (`rate_limited`).
-/

namespace ShugoCore

open Py Machine

/-- `RateLimiter`. -/
structure RateLimiter where
  /-- Tokens per second. -/
  rate : ℚ
  capacity : ℤ
  buckets : Dict Str (TokenBucket Seconds)
  rate_pos : 0 < rate
  capacity_pos : 1 ≤ capacity

/-- `__init__`. -/
def RateLimiter.new (callsPerMinute : ℚ) (burst : ℤ) : RateLimiter where
  rate := max (1 / 100) callsPerMinute / 60
  capacity := max 1 burst
  buckets := []
  rate_pos := div_pos (lt_max_of_lt_left (by norm_num)) (by norm_num)
  capacity_pos := le_max_left 1 burst

/-- What `acquire` does with the lock held: the limiter with a token less, or `wait_needed`.
`created` is the time of a bucket that is not there yet. -/
def RateLimiter.attempt (l : RateLimiter) (key : Str) (created now : Seconds) :
    Except Seconds RateLimiter :=
  let capacity : Seconds := l.capacity
  let bucket := (l.buckets.get? key).getD ⟨capacity, created⟩
  match bucket.take capacity l.rate now with
  | some bucket => .ok { l with buckets := l.buckets.set key bucket }
  | none => .error ((1 - bucket.level capacity l.rate now) / l.rate)

/-- A token is taken from the bucket of the key, which is full if it is not there. -/
theorem RateLimiter.attempt_ok {l l' : RateLimiter} {key : Str} {created now : Seconds}
    (h : l.attempt key created now = .ok l') :
    l'.rate = l.rate ∧ l'.capacity = l.capacity ∧ ∃ bucket,
      ((l.buckets.get? key).getD ⟨l.capacity, created⟩).take
          (l.capacity : Seconds) l.rate now = some bucket ∧
        l'.buckets = l.buckets.set key bucket := by
  delta RateLimiter.attempt at h
  dsimp only at h
  split at h
  · rename_i bucket htake
    cases h
    exact ⟨rfl, rfl, bucket, htake, rfl⟩
  · cases h

/-- Limiters that agree on a key treat a call for it alike. -/
theorem RateLimiter.attempt_congr {l l' : RateLimiter} {key : Str} (hrate : l.rate = l'.rate)
    (hcapacity : l.capacity = l'.capacity) (hbucket : l.buckets.get? key = l'.buckets.get? key)
    (created now : Seconds) :
    (∃ waitNeeded, l.attempt key created now = .error waitNeeded ∧ l'.attempt key created now =
      .error waitNeeded) ∨
      ∃ bucket, l.attempt key created now = .ok { l with buckets := l.buckets.set key bucket } ∧
        l'.attempt key created now = .ok { l' with buckets := l'.buckets.set key bucket } := by
  delta RateLimiter.attempt
  dsimp only
  simp only [hrate, hcapacity, hbucket]
  cases ((l'.buckets.get? key).getD ⟨(l'.capacity : Seconds), created⟩).take
    (l'.capacity : Seconds) l'.rate now with
  | none => exact .inl ⟨_, rfl, rfl⟩
  | some bucket => exact .inr ⟨bucket, rfl, rfl⟩

/-! ## Callers -/

/-- A call of `acquire`. -/
structure AcquireCall where
  caller : Nat
  key : Str
deriving DecidableEq

/-- Where a call is in its loop. -/
inductive AcquirePhase where
  | sleeping (till : Seconds)
  | refused (waitNeeded : Seconds)

/-- A call that has not returned. -/
structure Acquiring where
  deadline : Seconds
  phase : AcquirePhase

/-- A call that has returned. -/
structure Acquired where
  call : AcquireCall
  time : Seconds
  granted : Bool
deriving DecidableEq

/-- A limiter and its callers. -/
structure Limiting where
  limiter : RateLimiter
  waiting : Dict AcquireCall Acquiring
  returned : List Acquired

/-- What a caller does next, with its readings of the monotonic clock. -/
inductive AcquireStep where
  | enter (call : AcquireCall) (timeout now : Seconds)
  | attempt (call : AcquireCall) (created now : Seconds)
  | giveUp (call : AcquireCall) (now : Seconds)

namespace AcquireStep

def call : AcquireStep → AcquireCall
  | enter call _ _ | attempt call _ _ | giveUp call _ => call

def readings : AcquireStep → List Seconds
  | enter _ _ now | giveUp _ now => [now]
  | attempt _ created now => [created, now]

/-- The reading that decides, and the last of the step. -/
def now : AcquireStep → Seconds
  | enter _ _ now | attempt _ _ now | giveUp _ now => now

theorem now_mem (e : AcquireStep) : e.now ∈ e.readings := by
  cases e <;> simp [now, readings]

theorem le_now {e : AcquireStep} (h : e.readings.Pairwise (· ≤ ·)) {time : Seconds}
    (ht : time ∈ e.readings) :
    time ≤ e.now := by
  cases e with
  | enter | giveUp => exact (List.mem_singleton.1 ht).le
  | attempt call created later =>
      have hle : created ≤ later := by simpa [readings] using h
      rcases List.mem_pair.1 ht with rfl | rfl
      · exact hle
      · exact le_refl _

end AcquireStep

/-- The clock does not go back. -/
def Chronological (steps : List AcquireStep) : Prop :=
  (steps.flatMap AcquireStep.readings).Pairwise (· ≤ ·)

instance Chronological.decidable (steps : List AcquireStep) : Decidable (Chronological steps) :=
  inferInstanceAs (Decidable ((steps.flatMap AcquireStep.readings).Pairwise (· ≤ ·)))

namespace Limiting

def new (callsPerMinute : ℚ) (burst : ℤ) : Limiting := ⟨.new callsPerMinute burst, [], []⟩

/-- A call starts, unless its caller is in it already. -/
def enter (s : Limiting) (call : AcquireCall) (timeout now : Seconds) : Limiting :=
  match s.waiting.get? call with
  | none => { s with waiting := s.waiting.set call ⟨now + max 0 timeout, .sleeping now⟩ }
  | some _ => s

/-- A call returns. -/
def answer (s : Limiting) (call : AcquireCall) (now : Seconds) (granted : Bool) : Limiting :=
  { s with
    waiting := s.waiting.remove call
    returned := s.returned ++ [⟨call, now, granted⟩] }

/-- A call that does not sleep asks for a token. -/
def attempt (s : Limiting) (call : AcquireCall) (created now : Seconds) : Limiting :=
  match s.waiting.get? call with
  | some ⟨deadline, .sleeping till⟩ =>
      if till ≤ now then
        match s.limiter.attempt call.key created now with
        | .ok limiter => { s with limiter }.answer call now true
        | .error waitNeeded =>
          { s with waiting := s.waiting.set call ⟨deadline, .refused waitNeeded⟩ }
      else s
  | _ => s

/-- A call that got none returns at its deadline, and sleeps before that. -/
def giveUp (s : Limiting) (call : AcquireCall) (now : Seconds) : Limiting :=
  match s.waiting.get? call with
  | some ⟨deadline, .refused waitNeeded⟩ =>
      let remaining := deadline - now
      if remaining ≤ 0 then s.answer call now false
      else
        { s with
          waiting :=
            s.waiting.set call ⟨deadline, .sleeping (now + min (min waitNeeded remaining) (1 / 2))⟩ }
  | _ => s

def step (s : Limiting) : AcquireStep → Limiting
  | .enter call timeout now => s.enter call timeout now
  | .attempt call created now => s.attempt call created now
  | .giveUp call now => s.giveUp call now

/-- The calls for a key that returned. -/
def answers (s : Limiting) (key : Str) : List Acquired := s.returned.filter fun a => a.call.key = key

/-- The tokens of a key that were granted from a time to a time. -/
def grants (s : Limiting) (key : Str) (first final : Seconds) : Nat :=
  ((s.answers key).filter fun a => a.granted ∧ first ≤ a.time ∧ a.time ≤ final).length

/-! ## One key and the others -/

/-- Two states are alike for the callers of a key. -/
structure Alike (key : Str) (s s' : Limiting) : Prop where
  rate : s.limiter.rate = s'.limiter.rate
  capacity : s.limiter.capacity = s'.limiter.capacity
  bucket : s.limiter.buckets.get? key = s'.limiter.buckets.get? key
  waiting : ∀ call, call.key = key → s.waiting.get? call = s'.waiting.get? call
  answers : s.answers key = s'.answers key

variable {key : Str} {s s' : Limiting}

theorem Alike.refl (key : Str) (s : Limiting) : Alike key s s := ⟨rfl, rfl, rfl, fun _ _ => rfl, rfl⟩

theorem Alike.symm (h : Alike key s s') : Alike key s' s :=
  ⟨h.rate.symm, h.capacity.symm, h.bucket.symm, fun call hc => (h.waiting call hc).symm,
    h.answers.symm⟩

theorem Alike.trans {s'' : Limiting} (h : Alike key s s') (h' : Alike key s' s'') :
    Alike key s s'' :=
  ⟨h.rate.trans h'.rate, h.capacity.trans h'.capacity, h.bucket.trans h'.bucket,
    fun call hc => (h.waiting call hc).trans (h'.waiting call hc), h.answers.trans h'.answers⟩

/-- A step of a call for another key changes nothing for the callers of a key. -/
theorem step_alike_of_ne {e : AcquireStep} (s : Limiting) (h : e.call.key ≠ key) :
    Alike key (step s e) s := by
  have hcall : ∀ call, call.key = key → e.call ≠ call := fun call hc he => h (he ▸ hc)
  have hanswer : ∀ (s : Limiting) (now : Seconds) (granted : Bool),
      Alike key (s.answer e.call now granted) s := by
    intro s now granted
    refine ⟨rfl, rfl, rfl, fun call hc => Dict.get?_remove_of_ne _ (hcall call hc), ?_⟩
    simp [answers, answer, h]
  have hset : ∀ (s : Limiting) (a : Acquiring),
      Alike key { s with waiting := s.waiting.set e.call a } s :=
    fun s a => ⟨rfl, rfl, rfl, fun call hc => Dict.get?_set_of_ne _ (hcall call hc) a, rfl⟩
  cases e with
  | enter call timeout now =>
      simp only [step, enter]
      split
      · exact hset s _
      · exact .refl key s
  | attempt call created now =>
      simp only [step, attempt]
      split
      · split
        · split
          · rename_i limiter hok
            obtain ⟨hrate, hcapacity, bucket, -, hbuckets⟩ := RateLimiter.attempt_ok hok
            refine (hanswer _ now true).trans ⟨hrate, hcapacity, ?_, fun _ _ => rfl, rfl⟩
            rw [hbuckets]
            exact Dict.get?_set_of_ne _ h bucket
          · exact hset s _
        · exact .refl key s
      · exact .refl key s
  | giveUp call now =>
      simp only [step, giveUp]
      split
      · split
        · exact hanswer s now false
        · exact hset s _
      · exact .refl key s

theorem Alike.answer (h : Alike key s s') (call : AcquireCall) (now : Seconds) (granted : Bool) :
    Alike key (s.answer call now granted) (s'.answer call now granted) := by
  refine ⟨h.rate, h.capacity, h.bucket, fun other hother => ?_, ?_⟩
  · rcases eq_or_ne call other with rfl | hne
    · simp only [Limiting.answer, Dict.get?_remove_self]
    · simp only [Limiting.answer, Dict.get?_remove_of_ne _ hne, h.waiting other hother]
  · have hanswers := h.answers
    simp only [Limiting.answers, Limiting.answer, List.filter_append] at hanswers ⊢
    rw [hanswers]

theorem Alike.set (h : Alike key s s') (call : AcquireCall) (a : Acquiring) :
    Alike key { s with waiting := s.waiting.set call a }
      { s' with waiting := s'.waiting.set call a } := by
  refine ⟨h.rate, h.capacity, h.bucket, fun other hother => ?_, h.answers⟩
  rcases eq_or_ne call other with rfl | hne
  · simp only [Dict.get?_set_self]
  · simp only [Dict.get?_set_of_ne _ hne, h.waiting other hother]

theorem Alike.bucket_set (h : Alike key s s') (bucket : TokenBucket Seconds) :
    Alike key { s with limiter := { s.limiter with buckets := s.limiter.buckets.set key bucket } }
      { s' with limiter := { s'.limiter with buckets := s'.limiter.buckets.set key bucket } } :=
  ⟨h.rate, h.capacity, by simp only [Dict.get?_set_self], h.waiting, h.answers⟩

/-- A step of a call for a key goes the same way in states that are alike for its callers. -/
theorem step_alike {e : AcquireStep} (h : Alike key s s') (he : e.call.key = key) :
    Alike key (step s e) (step s' e) := by
  cases e with
  | enter call timeout now =>
      obtain rfl : call.key = key := he
      simp only [step, enter, h.waiting call rfl]
      cases s'.waiting.get? call with
      | none => exact h.set call _
      | some a => exact h
  | attempt call created now =>
      obtain rfl : call.key = key := he
      simp only [step, attempt, h.waiting call rfl]
      rcases s'.waiting.get? call with _ | ⟨deadline, till | waitNeeded⟩
      · exact h
      · by_cases hawake : till ≤ now
        · simp only [if_pos hawake]
          rcases RateLimiter.attempt_congr h.rate h.capacity h.bucket created now with
            ⟨waitNeeded, hl, hl'⟩ | ⟨bucket, hl, hl'⟩
          · rw [hl, hl']
            exact h.set call _
          · rw [hl, hl']
            exact (h.bucket_set bucket).answer call now true
        · simp only [if_neg hawake]
          exact h
      · exact h
  | giveUp call now =>
      obtain rfl : call.key = key := he
      simp only [step, giveUp, h.waiting call rfl]
      rcases s'.waiting.get? call with _ | ⟨deadline, till | waitNeeded⟩
      · exact h
      · exact h
      · by_cases hover : deadline - now ≤ 0
        · simp only [if_pos hover]
          exact h.answer call now false
        · simp only [if_neg hover]
          exact h.set call _

/-! ## A window of time -/

/-- Up to a time, no more tokens of a key were granted in a window than there can be. -/
structure Paced (key : Str) (first final : Seconds) (l : RateLimiter) (time : Seconds)
    (s : Limiting) : Prop where
  rate : s.limiter.rate = l.rate
  capacity : s.limiter.capacity = l.capacity
  last : ∀ bucket ∈ s.limiter.buckets.get? key, bucket.last ≤ time
  within : TokenBucket.Within (l.capacity : Seconds) l.rate first final (s.limiter.buckets.get? key)
    (s.grants key first final)

variable {first final time time' : Seconds} {l : RateLimiter}

/-- Only the bucket of the key and the answers to its callers count. -/
theorem Paced.congr (h : Paced key first final l time s) (hrate : s'.limiter.rate = s.limiter.rate)
    (hcapacity : s'.limiter.capacity = s.limiter.capacity)
    (hbucket : s'.limiter.buckets.get? key = s.limiter.buckets.get? key)
    (hgrants : s'.grants key first final = s.grants key first final) (hle : time ≤ time') :
    Paced key first final l time' s' := by
  refine ⟨hrate.trans h.rate, hcapacity.trans h.capacity, ?_, ?_⟩
  · intro bucket hb
    rw [hbucket] at hb
    exact (h.last bucket hb).trans hle
  · rw [hbucket, hgrants]
    exact h.within

/-- An answer is counted if it grants a token in the window. -/
theorem grants_answer (s : Limiting) (call : AcquireCall) (now : Seconds) (granted : Bool) :
    (s.answer call now granted).grants call.key first final =
      s.grants call.key first final +
        if granted then TokenBucket.counted first final now else 0 := by
  cases granted with
  | false => simp [grants, answers, answer]
  | true =>
      by_cases hin : first ≤ now ∧ now ≤ final
      · simp [grants, answers, answer, TokenBucket.counted, hin]
      · have hout : ¬ (true = true ∧ first ≤ now ∧ now ≤ final) := fun h => hin h.2
        simp [grants, answers, answer, TokenBucket.counted, hin]

/-- No step grants more than there can be. -/
theorem Paced.step {e : AcquireStep} (h : Paced key first final l time s) (hle : first ≤ final)
    (hnow : ∀ now ∈ e.readings, time ≤ now ∧ now ≤ time') (htime : time ≤ time') :
    Paced key first final l time' (step s e) := by
  by_cases hkey : e.call.key = key
  · cases e with
    | enter call timeout now =>
        simp only [Limiting.step, enter]
        split
        · exact h.congr rfl rfl rfl rfl htime
        · exact h.congr rfl rfl rfl rfl htime
    | giveUp call now =>
        obtain rfl : call.key = key := hkey
        simp only [Limiting.step, giveUp]
        split
        · split
          · exact h.congr rfl rfl rfl (grants_answer s call now false) htime
          · exact h.congr rfl rfl rfl rfl htime
        · exact h.congr rfl rfl rfl rfl htime
    | attempt call created now =>
        obtain rfl : call.key = key := hkey
        obtain ⟨hafter, hbefore⟩ := hnow now (by simp [AcquireStep.readings])
        simp only [Limiting.step, attempt]
        split
        · split
          · split
            · rename_i limiter hok
              obtain ⟨hrate, hcapacity, bucket, htake, hbuckets⟩ := RateLimiter.attempt_ok hok
              rw [h.rate, h.capacity] at htake
              have hpos : (0 : Seconds) ≤ l.capacity := by
                exact_mod_cast le_trans zero_le_one l.capacity_pos
              have hwithin := h.within.take hpos l.rate_pos.le hle
                (fun b hb => (h.last b hb).trans hafter) htake
              obtain ⟨rfl, -⟩ := TokenBucket.take_some htake
              refine ⟨hrate.trans h.rate, hcapacity.trans h.capacity, ?_, ?_⟩
              · simp [answer, hbuckets, hbefore]
              · have hgrants : ({ s with limiter } : Limiting).grants call.key first final =
                    s.grants call.key first final := rfl
                rw [grants_answer, if_pos rfl, hgrants]
                simpa [answer, hbuckets] using hwithin
            · exact h.congr rfl rfl rfl rfl htime
          · exact h.congr rfl rfl rfl rfl htime
        · exact h.congr rfl rfl rfl rfl htime
  · have halike := step_alike_of_ne s hkey
    exact h.congr halike.rate halike.capacity halike.bucket
      (by rw [grants, grants, halike.answers]) htime

/-- No run grants more than there can be. -/
theorem run_paced {steps : List AcquireStep} (h : Paced key first final l time s)
    (hle : first ≤ final) (hclock : Chronological steps)
    (hfrom : ∀ now ∈ steps.flatMap AcquireStep.readings, time ≤ now) :
    ∃ time', Paced key first final l time' (run step s steps) := by
  induction steps generalizing s time with
  | nil => exact ⟨time, h⟩
  | cons e steps ih =>
      rw [Chronological, List.flatMap_cons, List.pairwise_append] at hclock
      rw [List.flatMap_cons] at hfrom
      have htime : ∀ now ∈ e.readings, time ≤ now :=
        fun now hnow => hfrom now (List.mem_append_left _ hnow)
      have hnow : ∀ now ∈ e.readings, time ≤ now ∧ now ≤ e.now :=
        fun now hnow => ⟨htime now hnow, AcquireStep.le_now hclock.1 hnow⟩
      have hstep := h.step hle hnow (htime _ e.now_mem)
      exact ih hstep hclock.2.1 (fun now hnow => hclock.2.2 _ e.now_mem now hnow)

/-- In every interleaving of calls on a clock that does not go back, a key grants no more tokens in
a window than its bucket holds and what flows into it meanwhile, and its callers are answered as if
there were no others. -/
theorem rate_limited (callsPerMinute : ℚ) (burst : ℤ) {steps : List AcquireStep}
    (hclock : Chronological steps) (key : Str) {first final : Seconds} (hle : first ≤ final) :
    ((run step (new callsPerMinute burst) steps).grants key first final : ℚ) ≤
        (RateLimiter.new callsPerMinute burst).capacity +
          (RateLimiter.new callsPerMinute burst).rate * (final - first) ∧
      (run step (new callsPerMinute burst) steps).answers key =
        (run step (new callsPerMinute burst)
          (steps.filter fun e => e.call.key = key)).answers key := by
  constructor
  · have hnew : ∀ time, Paced key first final (.new callsPerMinute burst) time
        (new callsPerMinute burst) :=
      fun time => ⟨rfl, rfl, (fun bucket hb => by cases hb), .full⟩
    obtain ⟨earliest, hearliest⟩ : ∃ time, ∀ now ∈ steps.flatMap AcquireStep.readings,
        time ≤ now := by
      cases hreadings : steps.flatMap AcquireStep.readings with
      | nil => exact ⟨0, fun now hnow => by cases hnow⟩
      | cons time readings =>
          rw [Chronological, hreadings, List.pairwise_cons] at hclock
          exact ⟨time, List.forall_mem_cons.2 ⟨le_rfl, hclock.1⟩⟩
    obtain ⟨time, h⟩ := run_paced (hnew earliest) hle hclock hearliest
    have hpos : (0 : Seconds) ≤ (RateLimiter.new callsPerMinute burst).capacity := by
      exact_mod_cast le_trans zero_le_one (RateLimiter.new callsPerMinute burst).capacity_pos
    exact h.within.le hpos (RateLimiter.new callsPerMinute burst).rate_pos.le hle
  · have hother : ∀ s s' e, (!decide (e.call.key = key)) = true → Alike key s s' →
        Alike key (step s e) s' :=
      fun s s' e he h => (step_alike_of_ne s (by simpa using he)).trans h
    have hown : ∀ s s' e, (!decide (e.call.key = key)) = false → Alike key s s' →
        Alike key (step s e) (step s' e) :=
      fun s s' e he h => step_alike h (by simpa using he)
    have halike := rel_run_filter hother hown (.refl key (new callsPerMinute burst)) steps
    simpa only [Bool.not_not] using halike.answers

/-- Two callers of one key, the second of which waits for a second. -/
def pair : List AcquireStep :=
  [.enter ⟨0, lit "a"⟩ 5 0, .enter ⟨1, lit "a"⟩ 5 0, .attempt ⟨0, lit "a"⟩ 0 0,
    .attempt ⟨1, lit "a"⟩ 0 0, .giveUp ⟨1, lit "a"⟩ 0, .attempt ⟨1, lit "a"⟩ (1 / 2) (1 / 2),
    .giveUp ⟨1, lit "a"⟩ (1 / 2), .attempt ⟨1, lit "a"⟩ 1 1]

/-- One token a second and a bucket for one: both get one within a second, and no more could. -/
theorem rate_limited_pair : (run step (new 60 1) pair).grants (lit "a") 0 1 = 2 ∧
    ((run step (new 60 1) pair).grants (lit "a") 0 1 : ℚ) ≤
      (RateLimiter.new 60 1).capacity + (RateLimiter.new 60 1).rate * (1 - 0) := by
  have hclock : Chronological pair := by decide +kernel
  exact ⟨by decide +kernel, (rate_limited 60 1 hclock (lit "a") zero_le_one).1⟩

end Limiting

end ShugoCore
