import Mathlib.Tactic.NormNum
import ShugoCore.Lib.Run
import ShugoCore.Policy.Consent

/-!
# The attention layer

`AttentionLayer` of `attention_layer.py`.  Providers stamp signals, each with the time it
came, and `evaluate` makes one of four states of the signals that are fresh.  The verdict
goes to the consent check of the actions that need somebody who attends.

`evaluate` is said to be idempotent.  It is, but for a face with neither a gaze at the
camera nor directed speech, nor a gaze away with speech (`Undecided`): there it goes back
and forth between `attending` and `diverted`.

Of the four states one is never reached.  No faces and no face stamp are the same to
`evaluate`, so what is documented as `absent` comes out as `unknown`, or as the state
before.
-/

namespace ShugoCore

open Py Machine

/-- `AttentionState`. -/
inductive AttentionState where
  | unknown
  | absent
  | attending
  | diverted
deriving DecidableEq, Repr

/-- `AttentionState.value`. -/
def AttentionState.value : AttentionState → Str
  | unknown => lit "unknown"
  | absent => lit "absent"
  | attending => lit "attending"
  | diverted => lit "diverted"

/-! ## Wake words -/

/-- `str.split()`. -/
def splitWords : Str → List Str
  | [] => []
  | c :: s =>
      if isSpace c then splitWords s
      else
        match s with
        | [] => [[c]]
        | d :: s' =>
            if isSpace d then [c] :: splitWords s'
            else
              match splitWords (d :: s') with
              | [] => [[c]]
              | word :: words => (c :: word) :: words

/-- `_WAKE_PREFIXES`. -/
def wakePrefixes : List Str := [lit "shugo", lit "hey shugo", lit "ok shugo", lit "okay shugo"]

/-- `is_wake_word_call`. -/
def isWakeWordCall (text : Str) : Bool :=
  let t := (lit " ").intercalate (splitWords (lowerLetters (strip text)))
  wakePrefixes.any fun p =>
    t = p || (p ++ lit " ").isPrefixOf t || (p ++ lit ",").isPrefixOf t

/-! ## The layer -/

/-- The windows of the layer, in milliseconds. -/
structure AttentionWindows where
  face : ℚ := 8000
  speech : ℚ := 15000
  gaze : ℚ := 5000
  directedSpeech : ℚ := 10000
  staleTimeout : ℚ := 30000

/-- `AttentionLayer`. -/
structure AttentionLayer where
  windows : AttentionWindows
  faceDetected : Bool
  faceDetectedTs : Seconds
  gazeTowardCamera : Option Bool
  gazeTowardCameraTs : Seconds
  speechAny : Bool
  speechAnyTs : Seconds
  speechDirectedAtAgent : Option Bool
  speechDirectedTs : Seconds
  ttsSpeaking : Bool
  voiceActive : Bool
  voiceTs : Seconds
  lastTranscript : Str
  lastTranscriptIsCall : Bool
  state : AttentionState
  stateChangedTs : Seconds
  confidence : ℚ
  /-- Transcript, confidence and time of what was said to an attending agent. -/
  attendingSpeechBuffer : List (Str × ℚ × Seconds)

namespace AttentionLayer

/-- `AttentionLayer.__init__`. -/
def new (windows : AttentionWindows) (now : Seconds) : AttentionLayer where
  windows := windows
  faceDetected := false
  faceDetectedTs := 0
  gazeTowardCamera := none
  gazeTowardCameraTs := 0
  speechAny := false
  speechAnyTs := 0
  speechDirectedAtAgent := none
  speechDirectedTs := 0
  ttsSpeaking := false
  voiceActive := false
  voiceTs := 0
  lastTranscript := []
  lastTranscriptIsCall := false
  state := .unknown
  stateChangedTs := now
  confidence := 0
  attendingSpeechBuffer := []

/-- `stamp_face`. -/
def stampFace (l : AttentionLayer) (now : Seconds) (faceCount : Int) (gaze : Option Bool) :
    AttentionLayer :=
  let l := { l with faceDetected := decide (0 < faceCount), faceDetectedTs := now }
  match gaze with
  | none => l
  | some toward => { l with gazeTowardCamera := some toward, gazeTowardCameraTs := now }

/-- `stamp_speech`. -/
def stampSpeech (l : AttentionLayer) (now : Seconds) (transcript : Str) (directed : Option Bool) :
    AttentionLayer :=
  let l := { l with
    speechAny := !transcript.isEmpty
    speechAnyTs := now
    lastTranscript := transcript
    lastTranscriptIsCall := isWakeWordCall transcript }
  match directed with
  | none => l
  | some atAgent => { l with speechDirectedAtAgent := some atAgent, speechDirectedTs := now }

/-- `stamp_voice`. -/
def stampVoice (l : AttentionLayer) (now : Seconds) (active : Bool) : AttentionLayer :=
  { l with voiceActive := active, voiceTs := now }

/-- `stamp_tts`. -/
def stampTts (l : AttentionLayer) (speaking : Bool) : AttentionLayer :=
  { l with ttsSpeaking := speaking }

/-- `record_directed_speech`. -/
def recordDirectedSpeech (l : AttentionLayer) (now : Seconds) (transcript : Str) (confidence : ℚ) :
    AttentionLayer :=
  if l.state = .attending then
    { l with attendingSpeechBuffer := l.attendingSpeechBuffer ++ [(transcript, confidence, now)] }
  else l

/-! ### Fresh signals -/

/-- `_age`, in milliseconds. -/
def age (now ts : Seconds) : ℚ := (now - ts) * 1000

/-- `face_fresh`. -/
def faceFresh (l : AttentionLayer) (now : Seconds) : Bool :=
  l.faceDetected && age now l.faceDetectedTs < l.windows.face

/-- `gaze_fresh`. -/
def gazeFresh (l : AttentionLayer) (now : Seconds) : Bool :=
  l.gazeTowardCamera.isSome && age now l.gazeTowardCameraTs < l.windows.gaze

/-- `speech_fresh`. -/
def speechFresh (l : AttentionLayer) (now : Seconds) : Bool :=
  l.speechAny && age now l.speechAnyTs < l.windows.speech

/-- `voice_fresh`. -/
def voiceFresh (l : AttentionLayer) (now : Seconds) : Bool :=
  l.voiceActive && age now l.voiceTs < l.windows.speech

/-- `directed_fresh`. -/
def directedFresh (l : AttentionLayer) (now : Seconds) : Bool :=
  l.speechDirectedAtAgent.isSome && age now l.speechDirectedTs < l.windows.directedSpeech

/-- `any_signal_fresh`. -/
def anySignalFresh (l : AttentionLayer) (now : Seconds) : Bool :=
  l.faceFresh now || l.speechFresh now || l.gazeFresh now || l.directedFresh now ||
    l.voiceFresh now

/-- `gaze_now`. -/
def gazeNow (l : AttentionLayer) (now : Seconds) : Option Bool :=
  if l.gazeFresh now then l.gazeTowardCamera else none

/-- `directed_now`. -/
def directedNow (l : AttentionLayer) (now : Seconds) : Option Bool :=
  if l.directedFresh now then l.speechDirectedAtAgent else none

/-- `attending_signal`. -/
def attendingSignal (l : AttentionLayer) (now : Seconds) : Bool :=
  l.gazeNow now = some true || l.directedNow now = some true

/-- `diverted_signal`. -/
def divertedSignal (l : AttentionLayer) (now : Seconds) : Bool :=
  l.gazeNow now = some false && l.speechFresh now

/-! ### The verdict -/

/-- `_transition_to`. -/
def transitionTo (l : AttentionLayer) (later : Seconds) (state : AttentionState) : AttentionLayer :=
  { l with
    state := state
    stateChangedTs := later
    attendingSpeechBuffer := if state = .attending then l.attendingSpeechBuffer else [] }

/-- The new state and its confidence, for a layer in `state`. -/
def verdict (l : AttentionLayer) (now : Seconds) (state : AttentionState) : AttentionState × ℚ :=
  if !l.anySignalFresh now then (.unknown, 0)
  else if l.faceFresh now then
    if l.attendingSignal now then
      let signals : ℚ := 1 + (if l.gazeNow now = some true then 1 else 0) +
        (if l.directedNow now = some true then 1 else 0)
      (.attending, min 1 (signals / 3))
    else if l.divertedSignal now then (.diverted, 2 / 5)
    else if state = .attending then (.diverted, 3 / 10)
    else (.attending, 3 / 10)
  else if l.speechFresh now then
    if l.lastTranscriptIsCall then (.attending, 1 / 2)
    else (if state = .attending then .diverted else state, 1 / 5)
  else (state, 0)

/-- The timeout of a state without a fresh signal. -/
def expire (l : AttentionLayer) (now later : Seconds) : AttentionLayer :=
  if !l.anySignalFresh now && l.windows.staleTimeout < age now l.stateChangedTs then
    l.transitionTo later .unknown
  else l

/-- `evaluate`.  The clock is read at the start, and again at a transition. -/
def evaluate (l : AttentionLayer) (now later : Seconds) : (AttentionState × ℚ) × AttentionLayer :=
  let l := l.expire now later
  let v := l.verdict now l.state
  let l := if v.1 ≠ l.state then l.transitionTo later v.1 else l
  ((l.state, v.2), { l with confidence := v.2 })

/-- The calls on a layer, with what they read off the clock. -/
inductive Op where
  | stampFace (now : Seconds) (faceCount : Int) (gaze : Option Bool)
  | stampSpeech (now : Seconds) (transcript : Str) (directed : Option Bool)
  | stampVoice (now : Seconds) (active : Bool)
  | stampTts (speaking : Bool)
  | recordDirectedSpeech (now : Seconds) (transcript : Str) (confidence : ℚ)
  | evaluate (now later : Seconds)

/-- One call. -/
def step (l : AttentionLayer) : Op → AttentionLayer
  | .stampFace now faceCount gaze => l.stampFace now faceCount gaze
  | .stampSpeech now transcript directed => l.stampSpeech now transcript directed
  | .stampVoice now active => l.stampVoice now active
  | .stampTts speaking => l.stampTts speaking
  | .recordDirectedSpeech now transcript confidence => l.recordDirectedSpeech now transcript confidence
  | .evaluate now later => (l.evaluate now later).2

/-! ## What one evaluation does -/

/-- An evaluation returns its verdict and changes none of the signals. -/
theorem evaluate_spec (l : AttentionLayer) (now later : Seconds) :
    ∃ ts buffer, l.evaluate now later =
      (l.verdict now l.state,
        { l with
          state := (l.verdict now l.state).1
          stateChangedTs := ts
          confidence := (l.verdict now l.state).2
          attendingSpeechBuffer := buffer }) := by
  have hexpire : ∃ state ts buffer,
      l.expire now later = { l with state := state, stateChangedTs := ts,
                                    attendingSpeechBuffer := buffer } ∧
        l.verdict now state = l.verdict now l.state := by
    simp only [expire]
    split
    · rename_i hstale
      rw [Bool.and_eq_true] at hstale
      refine ⟨_, _, _, rfl, ?_⟩
      rw [verdict, verdict, if_pos hstale.1, if_pos hstale.1]
    · exact ⟨_, _, _, rfl, rfl⟩
  obtain ⟨state, ts, buffer, heq, hsame⟩ := hexpire
  rw [evaluate, heq]
  -- The verdict reads the signals and the state, and nothing else of a layer.
  have hverdict : ∀ ts buffer,
      verdict { l with state := state, stateChangedTs := ts, attendingSpeechBuffer := buffer } now
        state = l.verdict now l.state := fun _ _ => hsame
  simp only [hverdict]
  split
  · exact ⟨_, _, rfl⟩
  · rename_i hstay
    rw [ne_eq, not_not] at hstay
    subst hstay
    exact ⟨ts, buffer, rfl⟩

/-- A second evaluation at the same time gives the verdict on the first one's state. -/
theorem evaluate_twice (l : AttentionLayer) (now : Seconds) :
    ((l.evaluate now now).2.evaluate now now).1 =
      l.verdict now (l.evaluate now now).1.1 := by
  obtain ⟨ts, buffer, hfirst⟩ := l.evaluate_spec now now
  rw [hfirst]
  obtain ⟨ts', buffer', hsecond⟩ := evaluate_spec { l with
    state := (l.verdict now l.state).1
    stateChangedTs := ts
    confidence := (l.verdict now l.state).2
    attendingSpeechBuffer := buffer } now now
  rw [hsecond]
  rfl

/-! ## Polling twice -/

/-- A face, and nothing that tells whether it attends. -/
def Undecided (l : AttentionLayer) (now : Seconds) : Prop :=
  l.faceFresh now = true ∧ l.attendingSignal now = false ∧ l.divertedSignal now = false

/-- A verdict on its own state stands, unless there is a face and nothing to go by. -/
theorem verdict_stable_iff (l : AttentionLayer) (now : Seconds) (state : AttentionState) :
    l.verdict now (l.verdict now state).1 = l.verdict now state ↔ ¬ l.Undecided now := by
  simp only [verdict, Undecided]
  cases hany : l.anySignalFresh now with
  | false =>
      have hface : l.faceFresh now = false := by
        cases hface : l.faceFresh now with
        | false => rfl
        | true => simp [anySignalFresh, hface] at hany
      simp [hface]
  | true =>
      cases hface : l.faceFresh now with
      | false =>
          cases l.speechFresh now with
          | false => simp
          | true => cases l.lastTranscriptIsCall <;> cases state <;> simp
      | true =>
          cases l.attendingSignal now with
          | true => simp
          | false =>
              cases l.divertedSignal now with
              | true => simp
              | false => cases state <;> simp

/-- After every history, two evaluations at one reading of the clock agree if and only if
there is no face that cannot be decided on. -/
theorem evaluate_idempotent_iff (windows : AttentionWindows) (start : Seconds) (history : List Op)
    (now : Seconds) :
    let l := run step (new windows start) history
    ((l.evaluate now now).2.evaluate now now).1 = (l.evaluate now now).1 ↔ ¬ l.Undecided now := by
  intro l
  obtain ⟨ts, buffer, hfirst⟩ := l.evaluate_spec now now
  rw [evaluate_twice, hfirst]
  exact l.verdict_stable_iff now l.state

/-- A face that appears makes the state go back and forth. -/
theorem polled_twice_differs :
    let l := run step (new {} 0) [.stampFace 1 1 none]
    (l.evaluate 1 1).1 = (.attending, 3 / 10) ∧
      ((l.evaluate 1 1).2.evaluate 1 1).1 = (.diverted, 3 / 10) := by
  decide +kernel

/-! ## Nobody there -/

/-- A call stamps a signal, or leaves the signals as they are and keeps the state or sets it
to a verdict. -/
theorem step_cases (l : AttentionLayer) (op : Op) :
    (∃ now faceCount gaze, op = .stampFace now faceCount gaze) ∨
      (∃ now transcript directed, op = .stampSpeech now transcript directed) ∨
      (∃ now active, op = .stampVoice now active) ∨
      ∃ tts state ts confidence buffer,
        l.step op = { l with
          ttsSpeaking := tts
          state := state
          stateChangedTs := ts
          confidence := confidence
          attendingSpeechBuffer := buffer } ∧
        (state = l.state ∨ ∃ now, state = (l.verdict now l.state).1) := by
  cases op with
  | stampFace now faceCount gaze => exact .inl ⟨_, _, _, rfl⟩
  | stampSpeech now transcript directed => exact .inr (.inl ⟨_, _, _, rfl⟩)
  | stampVoice now active => exact .inr (.inr (.inl ⟨_, _, rfl⟩))
  | stampTts speaking => exact .inr (.inr (.inr ⟨_, _, _, _, _, rfl, .inl rfl⟩))
  | recordDirectedSpeech now transcript confidence =>
      rw [step, recordDirectedSpeech]
      split
      · exact .inr (.inr (.inr ⟨_, _, _, _, _, rfl, .inl rfl⟩))
      · exact .inr (.inr (.inr ⟨_, _, _, _, _, rfl, .inl rfl⟩))
  | evaluate now later =>
      obtain ⟨ts, buffer, heq⟩ := l.evaluate_spec now later
      rw [step, heq]
      exact .inr (.inr (.inr ⟨_, _, _, _, _, rfl, .inr ⟨now, rfl⟩⟩))

/-- The face signal is that of the latest face stamp. -/
theorem faceDetected_run (l : AttentionLayer) {ops : List Op}
    (h : ∀ op ∈ ops, ∀ now faceCount gaze, op ≠ .stampFace now faceCount gaze) :
    (run step l ops).faceDetected = l.faceDetected := by
  induction ops generalizing l with
  | nil => rfl
  | cons op ops ih =>
      rw [run_cons, ih _ fun op hop => h op (List.mem_cons_of_mem _ hop)]
      rcases l.step_cases op with ⟨now, faceCount, gaze, rfl⟩ | ⟨now, transcript, directed, rfl⟩ |
        ⟨now, active, rfl⟩ | ⟨tts, state, ts, confidence, buffer, heq, -⟩
      · exact absurd rfl (h _ List.mem_cons_self now faceCount gaze)
      · cases directed <;> rfl
      · rfl
      · rw [heq]

/-- A signal of words or of a voice was stamped at its time. -/
def Stamped (history : List Op) (l : AttentionLayer) : Prop :=
  (l.speechAny = true →
      ∃ transcript directed, Op.stampSpeech l.speechAnyTs transcript directed ∈ history) ∧
    (l.voiceActive = true → ∃ active, Op.stampVoice l.voiceTs active ∈ history)

theorem stamped_step {history : List Op} {l : AttentionLayer} (h : Stamped history l) (op : Op) :
    Stamped (history ++ [op]) (l.step op) := by
  have hkeep : ∀ l' : AttentionLayer, l'.speechAny = l.speechAny → l'.speechAnyTs = l.speechAnyTs →
      l'.voiceActive = l.voiceActive → l'.voiceTs = l.voiceTs → Stamped (history ++ [op]) l' := by
    intro l' hs hst hv hvt
    rw [Stamped, hs, hst, hv, hvt]
    refine ⟨fun hany => ?_, fun hactive => ?_⟩
    · obtain ⟨transcript, directed, hmem⟩ := h.1 hany
      exact ⟨transcript, directed, List.mem_append_left _ hmem⟩
    · obtain ⟨active, hmem⟩ := h.2 hactive
      exact ⟨active, List.mem_append_left _ hmem⟩
  rcases l.step_cases op with ⟨now, faceCount, gaze, rfl⟩ | ⟨now, transcript, directed, rfl⟩ |
    ⟨now, active, rfl⟩ | ⟨tts, state, ts, confidence, buffer, heq, -⟩
  · cases gaze <;> exact hkeep _ rfl rfl rfl rfl
  · refine ⟨fun _ => ⟨transcript, directed, ?_⟩, ?_⟩
    · cases directed <;> simp [step, stampSpeech]
    · cases directed <;> exact (hkeep l rfl rfl rfl rfl).2
  · exact ⟨(hkeep l rfl rfl rfl rfl).1, fun _ => ⟨active, by simp [step, stampVoice]⟩⟩
  · rw [heq]
    exact hkeep _ rfl rfl rfl rfl

/-- No step leads to `absent`. -/
theorem verdict_ne_absent (l : AttentionLayer) (now : Seconds) {state : AttentionState}
    (h : state ≠ .absent) : (l.verdict now state).1 ≠ .absent := by
  simp only [verdict]
  split
  · nofun
  · split
    · split
      · nofun
      · split
        · nofun
        · split <;> nofun
    · split
      · split
        · nofun
        · dsimp only
          split
          · nofun
          · exact h
      · exact h

theorem ne_absent_step {l : AttentionLayer} (h : l.state ≠ .absent) (op : Op) :
    (l.step op).state ≠ .absent := by
  rcases l.step_cases op with ⟨now, faceCount, gaze, rfl⟩ | ⟨now, transcript, directed, rfl⟩ |
    ⟨now, active, rfl⟩ | ⟨tts, state, ts, confidence, buffer, heq, rfl | ⟨now, rfl⟩⟩
  · cases gaze <;> exact h
  · cases directed <;> exact h
  · exact h
  · rw [heq]
    exact h
  · rw [heq]
    exact l.verdict_ne_absent now h

theorem windows_step (l : AttentionLayer) (op : Op) : (l.step op).windows = l.windows := by
  rcases l.step_cases op with ⟨now, faceCount, gaze, rfl⟩ | ⟨now, transcript, directed, rfl⟩ |
    ⟨now, active, rfl⟩ | ⟨tts, state, ts, confidence, buffer, heq, -⟩
  · cases gaze <;> rfl
  · cases directed <;> rfl
  · rfl
  · rw [heq]

section Run

variable (windows : AttentionWindows) (start : Seconds) (history : List Op)

theorem stamped_run : Stamped history (run step (new windows start) history) := by
  induction history using List.reverseRecOn with
  | nil => exact ⟨nofun, nofun⟩
  | append_singleton history op ih =>
      rw [run_append]
      exact stamped_step ih op

theorem windows_run : (run step (new windows start) history).windows = windows :=
  inv_run (I := fun l : AttentionLayer => l.windows = windows)
    (fun l op h => (l.windows_step op).trans h) rfl history

theorem state_run_ne_absent : (run step (new windows start) history).state ≠ .absent :=
  inv_run (I := fun l : AttentionLayer => l.state ≠ .absent) (fun _ op h => ne_absent_step h op)
    (by simp [new]) history

end Run

/-- The latest face stamp is fresh and reported no face, and no stamp of words or of a voice
is fresh. -/
structure NobodySeen (windows : AttentionWindows) (history : List Op) (now : Seconds) : Prop where
  face : ∃ before stamped gaze after, history = before ++ .stampFace stamped 0 gaze :: after ∧
    (∀ op ∈ after, ∀ now faceCount gaze, op ≠ .stampFace now faceCount gaze) ∧
    age now stamped < windows.face
  speech : ∀ stamped transcript directed, .stampSpeech stamped transcript directed ∈ history →
    ¬ age now stamped < windows.speech
  voice : ∀ stamped active, .stampVoice stamped active ∈ history →
    ¬ age now stamped < windows.speech

/-- Where nobody is seen, the verdict is `unknown`, or the state before while a gaze or the
direction of some words is fresh.  It is never `absent`, and it refuses what has a grant in
the state `diverted` only. -/
theorem never_absent (windows : AttentionWindows) (start : Seconds) (history : List Op)
    (now later : Seconds) (h : NobodySeen windows history now) :
    let l := run step (new windows start) history
    let state := (l.evaluate now later).1.1
    state ≠ .absent ∧
      state = (if l.gazeFresh now || l.directedFresh now then l.state else .unknown) ∧
      ∀ (r : ConsentRegistry) (t : Seconds) (actionType : Str),
        (r.hasGrantForAttendedAction t actionType (some state.value)).1 =
          (r.hasGrant t actionType && decide (state ≠ .diverted)) := by
  intro l state
  have hwindows : l.windows = windows := windows_run windows start history
  have hface : l.faceFresh now = false := by
    obtain ⟨before, stamped, gaze, after, rfl, hlast, -⟩ := h.face
    have hnone : l.faceDetected = false := by
      show (run step (new windows start) (before ++ .stampFace stamped 0 gaze :: after)).faceDetected
        = false
      rw [run_append, run_cons, faceDetected_run _ hlast]
      cases gaze <;> rfl
    rw [faceFresh, hnone, Bool.false_and]
  obtain ⟨hwords, henergy⟩ : Stamped history l := stamped_run windows start history
  have hspeech : l.speechFresh now = false := by
    rw [Bool.eq_false_iff]
    intro hfresh
    rw [speechFresh, Bool.and_eq_true, decide_eq_true_eq, hwindows] at hfresh
    obtain ⟨transcript, directed, hmem⟩ := hwords hfresh.1
    exact h.speech _ transcript directed hmem hfresh.2
  have hvoice : l.voiceFresh now = false := by
    rw [Bool.eq_false_iff]
    intro hfresh
    rw [voiceFresh, Bool.and_eq_true, decide_eq_true_eq, hwindows] at hfresh
    obtain ⟨active, hmem⟩ := henergy hfresh.1
    exact h.voice _ active hmem hfresh.2
  have hstate : state = (l.verdict now l.state).1 := by
    obtain ⟨ts, buffer, heq⟩ := l.evaluate_spec now later
    show (l.evaluate now later).1.1 = _
    rw [heq]
  have hne : state ≠ .absent := by
    rw [hstate]
    exact l.verdict_ne_absent now (state_run_ne_absent windows start history)
  refine ⟨hne, ?_, fun r t actionType => ?_⟩
  · rw [hstate, verdict, anySignalFresh, hface, hspeech, hvoice]
    cases hsignal : l.gazeFresh now || l.directedFresh now with
    | false =>
        rw [Bool.or_eq_false_iff] at hsignal
        simp [hsignal.1, hsignal.2]
    | true =>
        rw [Bool.or_eq_true] at hsignal
        rcases hsignal with hsignal | hsignal
        · simp [hsignal]
        · simp [hsignal]
  · rw [ConsentRegistry.hasGrantForAttendedAction]
    cases hcase : state with
    | absent => exact absurd hcase hne
    | unknown => cases r.hasGrant t actionType <;> simp [AttentionState.value]
    | attending => cases r.hasGrant t actionType <;> simp [AttentionState.value]
    | diverted => cases r.hasGrant t actionType <;> simp [AttentionState.value]

/-- A camera that sees nobody. -/
def emptyRoom : List Op := [.stampFace 1 0 none]

theorem nobodySeen_emptyRoom : NobodySeen {} emptyRoom 2 where
  face := ⟨[], 1, none, [], rfl, nofun, by norm_num [age]⟩
  speech stamped transcript directed hmem := by cases List.mem_singleton.1 hmem
  voice stamped active hmem := by cases List.mem_singleton.1 hmem

theorem emptyRoom_not_absent :
    NobodySeen {} emptyRoom 2 ∧
      ((run step (new {} 0) emptyRoom).evaluate 2 2).1.1 ≠ .absent :=
  ⟨nobodySeen_emptyRoom, (never_absent {} 0 emptyRoom 2 2 nobodySeen_emptyRoom).1⟩

/-- The agent may speak to an empty room. -/
theorem emptyRoom_allows_speech :
    let state := ((run step (new {} 0) emptyRoom).evaluate 2 2).1.1
    let r := ConsentRegistry.grant {} 0 (lit "speak") (lit "operator") (lit "*") [] none
    NobodySeen {} emptyRoom 2 ∧ state = .unknown ∧
      (r.hasGrantForAttendedAction 2 (lit "speak") (some state.value)).1 = true := by
  refine ⟨nobodySeen_emptyRoom, ?_, ?_⟩
  · decide +kernel
  · decide +kernel

end AttentionLayer

end ShugoCore
