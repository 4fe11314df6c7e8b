import ShugoCore.Interaction.Bus
import ShugoCore.Lib.Binary64
import ShugoCore.Lib.Run
import ShugoCore.Mesh.Speech

/-!
# Questions to the operator

The agent keeps the question that it asked last, until an utterance answers it or a tick finds it
expired: `_execute_ask_user`, `_take_open_question` and `_expire_open_question`.  Both outcomes go to
the journal.

There is room for one question.  A question that is asked while another is open takes its
place, and the journal never hears of the other, although the comments say that a question is
never silently forgotten.  Exactly the runs without such a question, and without a failure of the
memory, account for every question (`accounted_iff`).

The model numbers the questions as they are asked.  The code has no such number.
-/

namespace ShugoCore

open Py Machine

variable {φ : Type} [Builtins φ]

/-! ## The open question and the journal -/

/-- `_open_question`. -/
structure OpenQuestion where
  number : Nat
  text : Str
  ts : Seconds
deriving DecidableEq, Repr

/-- `_question_ttl_s`. -/
def questionTtl : Seconds := InteractionBus.answerTtl

/-- `question_answered` and `question_expired`. -/
inductive QuestionEvent where
  | answered | expired
deriving DecidableEq, Repr

/-- What the journal is told of a question. -/
structure QuestionEntry where
  kind : QuestionEvent
  questionChars : Nat
  answerChars : Nat
  roundTripS : ℚ
deriving DecidableEq, Repr

/-- An entry, with the number of its question and the age before it is rounded. -/
structure JournalledQuestion where
  number : Nat
  age : Seconds
  entry : QuestionEntry
deriving DecidableEq, Repr

/-- What becomes of a call of `memory.record_event`. -/
inductive MemoryReply where
  | noMemory | raised | recorded
deriving DecidableEq, Repr

/-- The questions of an agent, with the texts of all that it asked. -/
structure Questions where
  openQuestion : Option OpenQuestion := none
  journal : List JournalledQuestion := []
  asked : List Str := []
deriving DecidableEq, Repr

/-- An execution of `ask_user`: what the executor meets, and in particular what raises before and
after the question is opened. -/
structure Asking (φ : Type) where
  env : SpeechEnv φ
  /-- `interaction.record_agent_response` and `memory.record_event`. -/
  recorded : Except Exn Unit
  /-- `conversation.on_speak_end`. -/
  waiting : Except Exn Unit
  noted : env.noted = (recorded >>= fun _ => waiting)

/-- The listener of this node has the question. -/
def askedHere (env : SpeechEnv φ) (params : Obj φ) : Bool :=
  (executeAskUser env params).spoken ≠ [] &&
    match env.listener with
    | .delivered _ => true
    | .raised _ _ => false

namespace Questions

/-- The last part of `_execute_ask_user`. -/
def ask (s : Questions) (now : Seconds) (a : Asking φ) (params : Obj φ) : Questions :=
  if askedHere a.env params then
    { s with
      asked := s.asked ++ [askText params]
      openQuestion := match a.recorded with
        | .ok () => some ⟨s.asked.length, askText params, now⟩
        | .error _ => s.openQuestion }
  else s

/-- `_note_question_event`. -/
def note (s : Questions) (kind : QuestionEvent) (question : OpenQuestion) (answer : Str) (age : Seconds) :
    MemoryReply → Questions
  | .noMemory | .raised => s
  | .recorded =>
      { s with
        journal := s.journal ++ [⟨question.number, age,
          ⟨kind, question.text.length, answer.length, roundHalfEven (age * 100) / 100⟩⟩] }

/-- `_take_open_question`. -/
def takeOpenQuestion (s : Questions) (now : Seconds) (transcript : Str) (memory : MemoryReply) :
    Questions × Option Str :=
  let taken := { s with openQuestion := none }
  match s.openQuestion with
  | none => (taken, none)
  | some question =>
      if strip transcript = [] then (taken, none)
      else if questionTtl < now - question.ts then
        (taken.note .expired question transcript (now - question.ts) memory, none)
      else (taken.note .answered question transcript (now - question.ts) memory, some question.text)

/-- `_expire_open_question`. -/
def expireOpenQuestion (s : Questions) (now : Seconds) (memory : MemoryReply) : Questions :=
  match s.openQuestion with
  | none => s
  | some question =>
      if now - question.ts ≤ questionTtl then s
      else ({ s with openQuestion := none } : Questions).note .expired question []
        (now - question.ts) memory

/-- The first part of `_handle_conversational_input`, and of a turn that is answered for another
node. -/
def userTurn (s : Questions) (now : Seconds) (transcript : Str) (forwarded : Bool) (memory : MemoryReply) :
    Questions :=
  if strip transcript = [] ∨ forwarded = true then s
  else (s.takeOpenQuestion now (strip transcript) memory).1

/-- What happens to the questions. -/
inductive Event (φ : Type) where
  | ask (now : Seconds) (a : Asking φ) (params : Obj φ)
  | userTurn (now : Seconds) (transcript : Str) (forwarded : Bool) (memory : MemoryReply)
  | tick (now : Seconds) (memory : MemoryReply)

/-- One event. -/
def step (s : Questions) : Event φ → Questions
  | .ask now a params => s.ask now a params
  | .userTurn now transcript forwarded memory => s.userTurn now transcript forwarded memory
  | .tick now memory => s.expireOpenQuestion now memory

/-- Every question that was asked is in the journal once, or open.  What is in the journal was
answered in time, or else expired. -/
structure Accounted (s : Questions) : Prop where
  once : (s.journal.map JournalledQuestion.number ++
    s.openQuestion.toList.map OpenQuestion.number).Perm (List.range s.asked.length)
  kinds : ∀ j ∈ s.journal, j.entry.kind = .answered ↔ j.age ≤ questionTtl

instance (s : Questions) : Decidable (Accounted s) :=
  decidable_of_iff (_ ∧ _) ⟨fun h => ⟨h.1, h.2⟩, fun h => ⟨h.once, h.kinds⟩⟩

/-- No question is lost: none is asked while another is open, or is not opened because the agent
could not take note of it, and the memory takes every outcome. -/
def NothingLost (s : Questions) : Event φ → Prop
  | .ask _ a params => askedHere a.env params = true → s.openQuestion = none ∧ a.recorded = .ok ()
  | .userTurn _ transcript forwarded memory =>
      strip transcript ≠ [] → forwarded = false → s.openQuestion ≠ none → memory = .recorded
  | .tick now memory => (∃ question ∈ s.openQuestion, questionTtl < now - question.ts) → memory = .recorded

/-! ## One event -/

theorem accounted_start : Accounted {} := ⟨by simp, by simp⟩

/-- The journal and the open question are as many as the questions. -/
theorem Accounted.length {s : Questions} (h : Accounted s) :
    s.journal.length + s.openQuestion.toList.length = s.asked.length := by
  simpa using h.once.length_eq

/-- An outcome of the open question is accounted for if and only if the memory takes it. -/
theorem accounted_note {s : Questions} (h : Accounted s) {question : OpenQuestion}
    (hopen : s.openQuestion = some question) {kind : QuestionEvent} {answer : Str} {age : Seconds}
    (hkind : kind = .answered ↔ age ≤ questionTtl) (memory : MemoryReply) :
    Accounted (({ s with openQuestion := none } : Questions).note kind question answer age memory) ↔
      memory = .recorded := by
  have hlength := h.length
  rw [hopen] at hlength
  cases memory with
  | recorded =>
      simp only [note, iff_true]
      refine ⟨?_, ?_⟩
      · have honce := h.once
        rw [hopen] at honce
        simpa using honce
      · intro j hj
        rcases List.mem_append.1 hj with hj | hj
        · exact h.kinds _ hj
        · rw [List.mem_singleton.1 hj]
          exact hkind
  | noMemory =>
      simp only [note, reduceCtorEq, iff_false]
      intro hnote
      have hlost := hnote.length
      simp at hlost hlength
      omega
  | raised =>
      simp only [note, reduceCtorEq, iff_false]
      intro hnote
      have hlost := hnote.length
      simp at hlost hlength
      omega

/-- A question that is asked here is accounted for if and only if none is open, and it is opened. -/
theorem accounted_ask {s : Questions} (h : Accounted s) (now : Seconds) (a : Asking φ) (params : Obj φ) :
    Accounted (s.ask now a params) ↔ NothingLost s (.ask now a params) := by
  have hlength := h.length
  simp only [ask, NothingLost]
  cases hasked : askedHere a.env params with
  | false => simpa using h
  | true =>
      simp only [if_true, forall_const]
      cases hrecorded : a.recorded with
      | error exn =>
          simp only [reduceCtorEq, and_false, iff_false]
          intro hask
          have hlost := hask.length
          simp at hlost
          omega
      | ok u =>
          simp only [and_true]
          cases hopen : s.openQuestion with
          | some question =>
              simp only [reduceCtorEq, iff_false]
              intro hask
              have hlost := hask.length
              rw [hopen] at hlength
              simp at hlost hlength
              omega
          | none =>
              simp only [iff_true]
              refine ⟨?_, h.kinds⟩
              have honce := h.once
              rw [hopen] at honce
              rw [Option.toList_none, List.map_nil, List.append_nil] at honce
              simpa [List.range_succ] using honce.append_right [s.asked.length]

/-- An event keeps the account if and only if no question is lost. -/
theorem accounted_step {s : Questions} (h : Accounted s) (e : Event φ) :
    Accounted (s.step e) ↔ NothingLost s e := by
  cases e with
  | ask now a params => exact accounted_ask h now a params
  | userTurn now transcript forwarded memory =>
      simp only [step, userTurn, NothingLost]
      by_cases hblank : strip transcript = []
      · simpa [hblank] using h
      cases forwarded with
      | true => simpa using h
      | false =>
          simp only [hblank, Bool.false_eq_true, or_self, if_false, takeOpenQuestion, ne_eq,
            not_false_eq_true, forall_const]
          cases hopen : s.openQuestion with
          | none =>
              have htaken : ({ s with openQuestion := none } : Questions) = s := by
                rw [← hopen]
              simpa [htaken] using h
          | some question =>
              simp only [strip_strip, hblank, if_false, reduceCtorEq, not_false_eq_true, forall_const]
              by_cases hexpired : questionTtl < now - question.ts
              · rw [if_pos hexpired]
                exact accounted_note h hopen (iff_of_false (by simp) (not_le.2 hexpired)) memory
              · rw [if_neg hexpired]
                exact accounted_note h hopen (iff_of_true rfl (not_lt.1 hexpired)) memory
  | tick now memory =>
      simp only [step, expireOpenQuestion, NothingLost]
      cases hopen : s.openQuestion with
      | none => simpa using h
      | some question =>
          by_cases hfresh : now - question.ts ≤ questionTtl
          · simpa [hfresh, not_lt.2 hfresh] using h
          · have hexpired := not_le.1 hfresh
            simp only [hfresh, if_false, Option.mem_def, Option.some.injEq, exists_eq_left', hexpired,
              forall_const]
            exact accounted_note h hopen (iff_of_false (by simp) hfresh) memory

end Questions

/-- For every sequence of questions, turns and ticks, every question is accounted for at every point
if and only if no event loses one. -/
theorem accounted_iff (events : List (Questions.Event φ)) :
    Always Questions.step Questions.Accounted {} events ↔
      Meets Questions.step Questions.NothingLost {} events :=
  always_iff_meets (I := fun _ => True) (fun _ _ _ => trivial)
    (fun _ e _ h => Questions.accounted_step h e) trivial Questions.accounted_start

/-- The phone asks its own user, since it cannot reach the tablet. -/
def phoneAsks : Asking WholeFloat := ⟨phoneEnv .refused, .ok (), .ok (), rfl⟩

/-- A question with some words. -/
def questionParams (question : String) : Obj WholeFloat := obj [("question", textVal question)]

/-- Of two questions that are asked ten seconds apart, the first is neither answered, nor expired, nor
open. -/
theorem first_question_lost :
    ¬ Always Questions.step Questions.Accounted {}
        [.ask 0 phoneAsks (questionParams "which one?"), .ask 10 phoneAsks (questionParams "are you there?"),
          .tick 200 .recorded] ∧
      ((run Questions.step {}
        [.ask 0 phoneAsks (questionParams "which one?"), .ask 10 phoneAsks (questionParams "are you there?"),
          .tick 200 .recorded]).journal.map JournalledQuestion.number) = [1] := by
  decide +kernel

end ShugoCore
