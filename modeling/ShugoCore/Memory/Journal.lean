import ShugoCore.Lib.JsonTorn
import ShugoCore.Lib.PyBuiltins
import ShugoCore.Lib.TornLines
import ShugoCore.Security

/-!
# The journal as a file

`EpisodicMemory` of `memory_system.py` again, this time with the journal as the
text that `_append_journal` writes and `_replay_journal` reads.  An event is a
dictionary.  What a replay holds of it is the dictionary that is read back, its
`image`.

A replay skips a line that is no JSON, and the next `record` writes at the end of
the file.  After a crash in the middle of a line these two do not go together: the
first new event is written onto the line that was cut, and is skipped with it.
-/

namespace ShugoCore

open Py

variable {φ : Type} [Builtins φ]

/-- What a call to `record` is given and what it reads from the clock: the time
stamp, and how many events are too old for the age window. -/
structure RecordCall (φ : Type) where
  timestamp : Str
  eventType : Str
  payload : Obj φ
  metadata : Obj φ
  tooOld : Nat

/-- `EpisodicMemory`, with the text of its journal file. -/
structure JournalMemory (φ : Type) where
  /-- `max(1, max_events)`, the `maxlen` of the deque. -/
  maxlen : Nat
  /-- `_events`, oldest first. -/
  events : List (Obj φ)
  /-- `_seq`. -/
  seq : Int
  /-- The journal file, or `none` before it exists. -/
  file : Option Str

namespace JournalMemory

omit [Builtins φ] in
/-- `self._events.append(event)`: a full deque drops from the left. -/
def push (m : JournalMemory φ) (event : Obj φ) : JournalMemory φ :=
  { m with events := (m.events ++ [event]).drop (m.events.length + 1 - m.maxlen) }

/-! ## Recording -/

omit [Builtins φ] in
/-- The `event` of `record`, in insertion order. -/
def event (seq : Int) (call : RecordCall φ) : Obj φ :=
  [(.str (lit "seq"), .int seq),
    (.str (lit "timestamp"), .str call.timestamp),
    (.str (lit "type"), .str (sanitizeText call.eventType 64)),
    (.str (lit "payload"), .dict call.payload),
    (.str (lit "metadata"), .dict call.metadata)]

/-- `record`.  The sequence number is taken before `json.dumps` can raise. -/
def record (m : JournalMemory φ) (call : RecordCall φ) : Except Exn (Obj φ) × JournalMemory φ :=
  let m := { m with seq := m.seq + 1 }
  let event := event m.seq call
  match dumps spaced (.dict event) with
  | none => (.error .typeError, m)
  | some line =>
      let m := { m with file := some (m.file.getD [] ++ (line ++ [newline])) }.push event
      (.ok event, { m with events := m.events.drop call.tooOld })

/-- Calls one after the other: the events that they return, and the memory after them. -/
def recordAll : JournalMemory φ → List (RecordCall φ) → List (Obj φ) × JournalMemory φ
  | m, [] => ([], m)
  | m, call :: calls =>
      match m.record call with
      | (.ok event, m) => ((m.recordAll calls).1.cons event, (m.recordAll calls).2)
      | (.error _, m) => m.recordAll calls

/-! ## Replaying -/

/-- One line of `_replay_journal`.  A `ValueError` or a `TypeError` skips it. -/
def replayLine (m : JournalMemory φ) (line : Str) : Except Exn (JournalMemory φ) :=
  let line := strip line
  if line = [] then .ok m
  else match (loads line : Option (PyVal φ)) with
    | none => .ok m
    | some (.dict event) =>
        match (getKey (lit "seq") event).elim (.ok 0) intOf with
        | .ok seq => if m.seq < seq then .ok ({ m with seq }.push event) else .ok m
        | .error .valueError | .error .typeError => .ok m
        | .error exn => .error exn
    | some _ => .error .attributeError

/-- `EpisodicMemory.__init__` over a journal file. -/
def init (maxEvents : Int) (file : Option Str) : Except Exn (JournalMemory φ) :=
  (fileLines (file.getD [])).foldlM replayLine
    { maxlen := (max 1 maxEvents).toNat, events := [], seq := 0, file }

/-- Processes one after the other over one journal: the file they leave, and every
event that was recorded. -/
def runProcesses (maxEvents : Int) :
    Option Str → List (List (RecordCall φ)) → Except Exn (Option Str × List (Obj φ))
  | file, [] => .ok (file, [])
  | file, calls :: processes => do
      let m ← init maxEvents file
      let (file, events) ← runProcesses maxEvents (m.recordAll calls).2.file processes
      return (file, (m.recordAll calls).1 ++ events)

end JournalMemory

/-! ## What is wanted -/

/-- The event as a replay holds it. -/
def image (event : Obj φ) : Option (Obj φ) :=
  match (dumps spaced (.dict event)).bind loads with
  | some (.dict event) => some event
  | _ => none

/-- The events whose line is whole in the first characters of their journal. -/
def wholeEvents (events : List (Obj φ)) (n : Nat) : List (Obj φ) :=
  events.take (wholeLines (events.filterMap fun e => dumps spaced (.dict e)) n)

/-- A process opens what a crash left and records; another one replays the
whole events from before the crash, and then every event from after it. -/
def ReplaysAll (maxEvents : Int) (left : Str) (whole : List (Obj φ)) (calls : List (RecordCall φ)) :
    Prop :=
  ∃ first second : JournalMemory φ, JournalMemory.init maxEvents (some left) = .ok first ∧
    JournalMemory.init maxEvents (first.recordAll calls).2.file = .ok second ∧
    second.events = (whole ++ (first.recordAll calls).1).filterMap image

/-- The call writes an event: the keys of its payload and of its metadata sort. -/
def Writes (call : RecordCall φ) : Prop :=
  (encode (.dict call.payload)).isSome ∧ (encode (.dict call.metadata)).isSome

instance (call : RecordCall φ) : Decidable (Writes call) := inferInstanceAs (Decidable (_ ∧ _))

/-! ## Events as they are written -/

/-- An event of the journal.  The payload and the metadata are the documents that
were written for them. -/
structure Journaled (φ : Type) where
  seq : Nat
  timestamp : Str
  type : Str
  payload : Json φ
  metadata : Json φ

namespace Journaled

omit [Builtins φ] in
/-- All members, in the order they are written. -/
def members (w : Journaled φ) : List (Str × Json φ) :=
  [(lit "metadata", w.metadata), (lit "payload", w.payload), (lit "seq", .int w.seq),
    (lit "timestamp", .str w.timestamp), (lit "type", .str w.type)]

/-- The line of the file, without its line feed. -/
def line (w : Journaled φ) : Str := render spaced (.obj w.members)

omit [Builtins φ] in
/-- The dictionary that the line is read as. -/
def items (w : Journaled φ) : Obj φ :=
  [(.str (lit "metadata"), load (joinDoc w.metadata)), (.str (lit "payload"), load (joinDoc w.payload)),
    (.str (lit "seq"), .int w.seq), (.str (lit "timestamp"), .str (join w.timestamp)),
    (.str (lit "type"), .str (join w.type))]

theorem loads_line (w : Journaled φ) : loads w.line = some (.dict w.items) := by
  rw [loads, line, parse_render standard_spaced]
  rfl

theorem printable_line (w : Journaled φ) : Printable w.line := printable_spaced _

theorem strip_line (w : Journaled φ) : strip w.line = w.line ∧ w.line ≠ [] := by
  obtain ⟨t, ht⟩ := render_obj_ends spaced w.members
  rw [line, ht]
  exact ⟨strip_of_ends (by decide) (by decide) t, List.cons_ne_nil _ _⟩

end Journaled

/-- The event was written so. -/
def WrittenAs (e : Obj φ) (w : Journaled φ) : Prop := encode (.dict e) = some (.obj w.members)

theorem WrittenAs.dumps {e : Obj φ} {w : Journaled φ} (h : WrittenAs e w) :
    dumps spaced (.dict e) = some w.line := by
  rw [Py.dumps, h]
  rfl

theorem WrittenAs.image {e : Obj φ} {w : Journaled φ} (h : WrittenAs e w) :
    image e = some w.items := by
  rw [ShugoCore.image, h.dumps, Option.bind_some, w.loads_line]

theorem filterMap_image {es : List (Obj φ)} {ws : List (Journaled φ)}
    (h : List.Forall₂ WrittenAs es ws) : es.filterMap image = ws.map Journaled.items := by
  induction h with
  | nil => rfl
  | cons hw _ ih => rw [List.filterMap_cons_some hw.image, ih, List.map_cons]

theorem filterMap_dumps {es : List (Obj φ)} {ws : List (Journaled φ)}
    (h : List.Forall₂ WrittenAs es ws) :
    es.filterMap (fun e => dumps spaced (.dict e)) = ws.map Journaled.line := by
  induction h with
  | nil => rfl
  | cons hw _ ih => simp only [List.filterMap_cons, hw.dumps, ih, List.map_cons]

/-! ## What a process writes -/

/-- The events that calls write from a sequence number on. -/
def journaled : Nat → List (RecordCall φ) → List (Journaled φ)
  | _, [] => []
  | n, call :: calls =>
      match encode (.dict call.payload), encode (.dict call.metadata) with
      | some payload, some metadata =>
          { seq := n + 1, timestamp := call.timestamp, type := sanitizeText call.eventType 64,
            payload, metadata } :: journaled (n + 1) calls
      | _, _ => journaled (n + 1) calls

theorem encode_event {n : Nat} {call : RecordCall φ} {p q : Json φ}
    (hp : encode (.dict call.payload) = some p) (hq : encode (.dict call.metadata) = some q) :
    WrittenAs (JournalMemory.event (n + 1 : Nat) call)
      ⟨n + 1, call.timestamp, sanitizeText call.eventType 64, p, q⟩ := by
  have hitems : encodeItems (JournalMemory.event (n + 1 : Nat) call) = some _ :=
    encodeItems_cons rfl (encodeItems_cons rfl (encodeItems_cons rfl (encodeItems_cons hp
      (encodeItems_cons hq rfl))))
  exact encode_dict_str [(lit "seq", .int (n + 1 : Nat)), (lit "timestamp", .str call.timestamp),
    (lit "type", .str (sanitizeText call.eventType 64)), (lit "payload", p), (lit "metadata", q)] hitems

theorem dumps_event_none {seq : Int} {call : RecordCall φ} (h : ¬ Writes call) :
    dumps spaced (.dict (JournalMemory.event seq call)) = none := by
  have hitems : encodeItems (JournalMemory.event seq call) = none := by
    cases hp : encode (.dict call.payload) with
    | none => simp [JournalMemory.event, encodeItems, hp]
    | some p =>
        cases hq : encode (.dict call.metadata) with
        | none => simp [JournalMemory.event, encodeItems, hp, hq]
        | some q => exact absurd ⟨by rw [hp]; rfl, by rw [hq]; rfl⟩ h
  rw [Py.dumps, encode, hitems]
  rfl

/-- What one call does. -/
theorem record_cases (m : JournalMemory φ) (call : RecordCall φ) {n : Nat} (hseq : m.seq = n) :
    (Writes call ∧ ∃ w : Journaled φ, w.seq = n + 1 ∧ journaled n [call] = [w] ∧
      ∃ e, (m.record call).1 = .ok e ∧ WrittenAs e w ∧ (m.record call).2.seq = (n + 1 : Nat) ∧
        (m.record call).2.file = some (m.file.getD [] ++ (w.line ++ [newline]))) ∨
    (¬ Writes call ∧ journaled n [call] = [] ∧
      m.record call = (.error .typeError, { m with seq := (n + 1 : Nat) })) := by
  have hnext : m.seq + 1 = (n + 1 : Nat) := by
    rw [hseq]
    rfl
  by_cases h : Writes call
  · obtain ⟨p, hp⟩ := Option.isSome_iff_exists.1 h.1
    obtain ⟨q, hq⟩ := Option.isSome_iff_exists.1 h.2
    have hwritten := encode_event (n := n) hp hq
    refine .inl ⟨h, _, rfl, by simp only [journaled, hp, hq], _, ?_, hwritten, ?_, ?_⟩
    all_goals simp only [JournalMemory.record, hnext, hwritten.dumps]
    · rfl
    · rfl
  · refine .inr ⟨h, ?_, ?_⟩
    · rw [journaled]
      split
      · rename_i hp hq
        exact absurd ⟨by rw [hp]; rfl, by rw [hq]; rfl⟩ h
      · rfl
    · simp only [JournalMemory.record, hnext, dumps_event_none h]

theorem journaled_cons (n : Nat) (call : RecordCall φ) (calls : List (RecordCall φ)) :
    journaled n (call :: calls) = journaled n [call] ++ journaled (n + 1) calls := by
  rw [journaled, journaled]
  split <;> rfl

/-- What calls return and leave. -/
theorem recordAll_spec (calls : List (RecordCall φ)) {m : JournalMemory φ} {n : Nat}
    (hseq : m.seq = n) :
    List.Forall₂ WrittenAs (m.recordAll calls).1 (journaled n calls) ∧
      (m.recordAll calls).2.file.getD [] =
        m.file.getD [] ++ linesText ((journaled n calls).map Journaled.line) ∧
      (journaled n calls = [] → (m.recordAll calls).2.file = m.file) := by
  induction calls generalizing m n with
  | nil => exact ⟨.nil, by simp [JournalMemory.recordAll, journaled, linesText], fun _ => rfl⟩
  | cons call calls ih =>
      rw [journaled_cons]
      rcases record_cases m call hseq with
        ⟨-, w, -, hj, e, hok, hwritten, hnext, hfile⟩ | ⟨-, hj, hraise⟩
      · obtain ⟨hall, htext, -⟩ := ih hnext
        have hrec : m.record call = (.ok e, (m.record call).2) := by rw [← hok]
        have hstep : m.recordAll (call :: calls) =
            (((m.record call).2.recordAll calls).1.cons e, ((m.record call).2.recordAll calls).2) := by
          rw [JournalMemory.recordAll, hrec]
        rw [hstep, hj]
        refine ⟨.cons hwritten hall, ?_, fun hnil => by simp at hnil⟩
        dsimp only
        rw [htext, hfile]
        simp [linesText]
      · have hstep : m.recordAll (call :: calls) =
            { m with seq := (n + 1 : Nat) }.recordAll calls := by
          rw [JournalMemory.recordAll, hraise]
        rw [hstep, hj]
        exact ih rfl

theorem length_journaled (n : Nat) (calls : List (RecordCall φ)) :
    (journaled n calls).length = (calls.filter fun call => Writes call).length := by
  induction calls generalizing n with
  | nil => rfl
  | cons call calls ih =>
      rw [journaled_cons, List.length_append, ih]
      rcases record_cases ⟨0, [], n, none⟩ call (n := n) rfl with ⟨h, w, -, hj, -⟩ | ⟨h, hj, -⟩
      · rw [hj, List.filter_cons_of_pos (by simpa using h)]
        exact Nat.add_comm _ _
      · rw [hj, List.filter_cons_of_neg (by simpa using h), List.length_nil, Nat.zero_add]

/-- Nothing is written exactly when no call writes. -/
theorem journaled_eq_nil_iff (n : Nat) (calls : List (RecordCall φ)) :
    journaled n calls = [] ↔ ∀ call ∈ calls, ¬ Writes call := by
  rw [← List.length_eq_zero_iff, length_journaled, List.length_eq_zero_iff, List.filter_eq_nil_iff]
  simp

/-! ## What a replay reads -/

/-- Sequence numbers that rise from a number on. -/
def Rises : Nat → List (Journaled φ) → Prop
  | _, [] => True
  | n, w :: ws => n < w.seq ∧ Rises w.seq ws

/-- The last sequence number. -/
def lastSeq (n : Nat) (ws : List (Journaled φ)) : Nat := ws.foldl (fun _ w => w.seq) n

omit [Builtins φ] in
theorem rises_append {n : Nat} {ws vs : List (Journaled φ)} (h : Rises n ws)
    (h' : Rises (lastSeq n ws) vs) : Rises n (ws ++ vs) := by
  induction ws generalizing n with
  | nil => exact h'
  | cons w ws ih => exact ⟨h.1, ih h.2 h'⟩

omit [Builtins φ] in
theorem rises_left {n : Nat} {ws vs : List (Journaled φ)} (h : Rises n (ws ++ vs)) : Rises n ws := by
  induction ws generalizing n with
  | nil => trivial
  | cons w ws ih => exact ⟨h.1, ih h.2⟩

omit [Builtins φ] in
theorem Rises.mono {m n : Nat} (hmn : m ≤ n) {ws : List (Journaled φ)} (h : Rises n ws) :
    Rises m ws := by
  cases ws with
  | nil => trivial
  | cons w ws => exact ⟨Nat.lt_of_le_of_lt hmn h.1, h.2⟩

theorem rises_journaled (n : Nat) (calls : List (RecordCall φ)) : Rises n (journaled n calls) := by
  induction calls generalizing n with
  | nil => trivial
  | cons call calls ih =>
      rw [journaled_cons]
      rcases record_cases ⟨0, [], n, none⟩ call (n := n) rfl with ⟨-, w, hw, hj, -⟩ | ⟨-, hj, -⟩
      · rw [hj]
        exact ⟨by omega, hw ▸ ih (n + 1)⟩
      · rw [hj]
        exact (ih (n + 1)).mono (Nat.le_succ n)

/-- A replay of whole lines. -/
theorem foldlM_replayLine {ws : List (Journaled φ)} {m : JournalMemory φ} {n : Nat} (hseq : m.seq = n)
    (h : Rises n ws) :
    ∃ events, (ws.map Journaled.line).foldlM JournalMemory.replayLine m =
        .ok { m with seq := lastSeq n ws, events } ∧
      events.length ≤ m.events.length + ws.length ∧
      (m.events.length + ws.length ≤ m.maxlen → events = m.events ++ ws.map Journaled.items) := by
  induction ws generalizing m n with
  | nil =>
      refine ⟨m.events, ?_, Nat.le_refl _, fun _ => (List.append_nil _).symm⟩
      simp [lastSeq, ← hseq, pure, Except.pure]
  | cons w ws ih =>
      obtain ⟨hstrip, hne⟩ := w.strip_line
      have hget : getKey (lit "seq") w.items = some (.int w.seq) := rfl
      have hlt : m.seq < w.seq := by
        rw [hseq]
        exact_mod_cast h.1
      have hline : m.replayLine w.line = .ok ({ m with seq := w.seq }.push w.items) := by
        simp only [JournalMemory.replayLine, hstrip, if_neg hne, w.loads_line, hget,
          Option.elim_some, intOf, if_pos hlt]
      obtain ⟨events, hfold, hlen, hcap⟩ :=
        ih (m := { m with seq := w.seq }.push w.items) (n := w.seq) rfl h.2
      refine ⟨events, ?_, ?_, ?_⟩
      · rw [List.map_cons, List.foldlM_cons, hline]
        exact hfold
      · have hpush : ({ m with seq := (w.seq : Int) }.push w.items).events.length ≤
            m.events.length + 1 := by
          simp only [JournalMemory.push, List.length_drop, List.length_append, List.length_singleton]
          omega
        rw [List.length_cons]
        omega
      · intro hle
        rw [List.length_cons] at hle
        have hpush : ({ m with seq := (w.seq : Int) }.push w.items).events = m.events ++ [w.items] := by
          have hzero : m.events.length + 1 - m.maxlen = 0 := by omega
          simp only [JournalMemory.push, hzero, List.drop_zero]
        rw [hcap, hpush, List.append_assoc]
        · rfl
        · rw [hpush, List.length_append, List.length_singleton]
          show _ ≤ m.maxlen
          omega

omit [Builtins φ] in
theorem lastSeq_append (n : Nat) (ws vs : List (Journaled φ)) :
    lastSeq n (ws ++ vs) = lastSeq (lastSeq n ws) vs := List.foldl_append

/-- The text of a journal with these events. -/
def journalText (ws : List (Journaled φ)) : Str := linesText (ws.map Journaled.line)

theorem journalText_append (ws vs : List (Journaled φ)) :
    journalText (ws ++ vs) = journalText ws ++ journalText vs := by
  rw [journalText, List.map_append, linesText_append]
  rfl

theorem printable_journal (ws : List (Journaled φ)) : ∀ l ∈ ws.map Journaled.line, Printable l := by
  intro l hl
  obtain ⟨w, -, rfl⟩ := List.mem_map.1 hl
  exact w.printable_line

/-- Opening a journal of whole lines. -/
theorem init_journalText (maxEvents : Int) {ws : List (Journaled φ)} (h : Rises 0 ws)
    {file : Option Str} (hfile : file.getD [] = journalText ws) :
    ∃ events, (JournalMemory.init maxEvents file : Except Exn (JournalMemory φ)) =
        .ok ⟨(max 1 maxEvents).toNat, events, lastSeq 0 ws, file⟩ ∧
      events.length ≤ ws.length ∧
      (ws.length ≤ (max 1 maxEvents).toNat → events = ws.map Journaled.items) := by
  obtain ⟨events, hfold, hlen, hcap⟩ := foldlM_replayLine
    (m := ⟨(max 1 maxEvents).toNat, [], 0, file⟩) (n := 0) rfl h
  refine ⟨events, ?_, by simpa using hlen, by simpa using hcap⟩
  rw [JournalMemory.init, hfile, journalText, fileLines_linesText (printable_journal ws), hfold]

/-- Processes one after the other write rising events and raise nothing. -/
theorem runProcesses_spec (maxEvents : Int) (processes : List (List (RecordCall φ)))
    {ws : List (Journaled φ)} (h : Rises 0 ws) {file : Option Str}
    (hfile : file.getD [] = journalText ws) :
    ∃ file' es vs, JournalMemory.runProcesses maxEvents file processes = .ok (file', es) ∧
      List.Forall₂ WrittenAs es vs ∧ Rises 0 (ws ++ vs) ∧
      file'.getD [] = journalText (ws ++ vs) := by
  induction processes generalizing ws file with
  | nil => exact ⟨file, [], [], rfl, .nil, by simpa using h, by simpa using hfile⟩
  | cons calls processes ih =>
      obtain ⟨events, hinit, -, -⟩ := init_journalText maxEvents h hfile
      obtain ⟨hwritten, htext, -⟩ := recordAll_spec calls
        (m := ⟨(max 1 maxEvents).toNat, events, lastSeq 0 ws, file⟩) (n := lastSeq 0 ws) rfl
      have hrises := rises_append h (rises_journaled (lastSeq 0 ws) calls)
      rw [hfile, ← journalText, ← journalText_append] at htext
      obtain ⟨file', es, vs, hrun, hes, hvs, hfile'⟩ := ih hrises htext
      refine ⟨file', _, _, ?_, List.rel_append hwritten hes, ?_, ?_⟩
      · rw [JournalMemory.runProcesses, hinit]
        simp only [bind, Except.bind, hrun, pure, Except.pure]
      · rwa [← List.append_assoc]
      · rwa [← List.append_assoc]

/-! ## After a cut -/

/-- What a process writes after a cut between two lines is replayed. -/
theorem replaysAll_between (maxEvents : Int) {ds : List (Journaled φ)} (h : Rises 0 ds)
    {whole : List (Obj φ)} (hwhole : List.Forall₂ WrittenAs whole ds) (calls : List (RecordCall φ))
    (hcap : whole.length + (calls.filter fun call => Writes call).length ≤ (max 1 maxEvents).toNat) :
    ReplaysAll maxEvents (journalText ds) whole calls := by
  obtain ⟨events, hfirst, -, -⟩ := init_journalText maxEvents h
    (show (some (journalText ds)).getD [] = journalText ds from rfl)
  obtain ⟨hwritten, htext, -⟩ := recordAll_spec calls
    (m := ⟨(max 1 maxEvents).toNat, events, lastSeq 0 ds, some (journalText ds)⟩)
    (n := lastSeq 0 ds) rfl
  rw [Option.getD_some, ← journalText, ← journalText_append] at htext
  obtain ⟨events', hsecond, -, hall⟩ := init_journalText maxEvents
    (rises_append h (rises_journaled (lastSeq 0 ds) calls)) htext
  refine ⟨_, _, hfirst, hsecond, ?_⟩
  rw [filterMap_image (List.rel_append hwhole hwritten)]
  apply hall
  rw [List.length_append, length_journaled, ← hwhole.length_eq]
  exact hcap

omit [Builtins φ] in
theorem Journaled.members_head (w : Journaled φ) :
    ∃ k x ms, w.members = ((109 : CodePoint) :: k, x) :: ms := ⟨_, _, _, rfl⟩

omit [Builtins φ] in
theorem rises_right {n : Nat} {ws vs : List (Journaled φ)} (h : Rises n (ws ++ vs)) :
    Rises (lastSeq n ws) vs := by
  induction ws generalizing n with
  | nil => exact h
  | cons w ws ih => exact ih h.2

/-- A line that is no document is skipped. -/
theorem replayLine_of_none {line : Str} (h : (loads (strip line) : Option (PyVal φ)) = none)
    (m : JournalMemory φ) : m.replayLine line = .ok m := by
  rw [JournalMemory.replayLine, h]
  split <;> rfl

/-- The events that are whole after a cut inside a line. -/
def wholeDocs (ds : List (Journaled φ)) (w : Journaled φ) (part : Str) : List (Journaled φ) :=
  if part = w.line then ds ++ [w] else ds

section

variable {ds : List (Journaled φ)} {w : Journaled φ} {part : Str} (h : Rises 0 (ds ++ [w]))
  (hp : part <+: w.line) (hne : part ≠ [])
include h hp hne

/-- Opening skips the line that was cut, or takes it for whole when only its line
feed is missing. -/
theorem replay_inside (maxEvents : Int) :
    ∃ events, (JournalMemory.init maxEvents (some (journalText ds ++ part)) :
        Except Exn (JournalMemory φ)) = .ok ⟨(max 1 maxEvents).toNat, events,
          lastSeq 0 (wholeDocs ds w part), some (journalText ds ++ part)⟩ ∧
      ((wholeDocs ds w part).length ≤ (max 1 maxEvents).toNat →
        events = (wholeDocs ds w part).map Journaled.items) := by
  have hprint : Printable part := fun c hc => w.printable_line c (hp.subset hc)
  have hlines : fileLines (journalText ds ++ part) = ds.map Journaled.line ++ [part] := by
    rw [journalText, fileLines_linesText_append (printable_journal ds), fileLines_last hprint hne]
  have hfile : JournalMemory.init maxEvents (some (journalText ds ++ part)) =
      (ds.map Journaled.line ++ [part]).foldlM JournalMemory.replayLine
        (⟨(max 1 maxEvents).toNat, [], 0, some (journalText ds ++ part)⟩ : JournalMemory φ) := by
    rw [JournalMemory.init, Option.getD_some, hlines]
  by_cases hwhole : part = w.line
  · obtain ⟨events, hfold, -, hcap⟩ := foldlM_replayLine
      (m := ⟨(max 1 maxEvents).toNat, [], 0, some (journalText ds ++ part)⟩) (n := 0) rfl h
    rw [List.map_append, List.map_singleton, ← hwhole, ← hfile] at hfold
    rw [wholeDocs, if_pos hwhole]
    exact ⟨events, hfold, by simpa using hcap⟩
  · obtain ⟨events, hfold, -, hcap⟩ := foldlM_replayLine
      (m := ⟨(max 1 maxEvents).toNat, [], 0, some (journalText ds ++ part)⟩) (n := 0) rfl
      (rises_left h)
    have hskip := replayLine_of_none (loads_torn standard_spaced (m := w.members) ⟨hp, hwhole⟩ hne)
    rw [wholeDocs, if_neg hwhole]
    refine ⟨events, ?_, by simpa using hcap⟩
    rw [hfile, List.foldlM_append, hfold]
    simp only [bind, Except.bind, List.foldlM_cons, List.foldlM_nil, hskip, pure, Except.pure]

omit h hp hne in
/-- A replay of lines of which one is no document. -/
theorem replay_glued (maxEvents : Int) (hds : Rises 0 ds) {vs : List (Journaled φ)}
    (hvs : Rises (lastSeq 0 ds) vs) {glued : Str}
    (hglued : (loads (strip glued) : Option (PyVal φ)) = none) {file : Option Str}
    (hlines : fileLines (file.getD []) = ds.map Journaled.line ++ glued :: vs.map Journaled.line) :
    ∃ m : JournalMemory φ, JournalMemory.init maxEvents file = .ok m ∧
      m.events.length ≤ ds.length + vs.length := by
  obtain ⟨events₁, hfold₁, hlen₁, -⟩ := foldlM_replayLine
    (m := ⟨(max 1 maxEvents).toNat, [], 0, file⟩) (n := 0) rfl hds
  obtain ⟨events₂, hfold₂, hlen₂, -⟩ := foldlM_replayLine
    (m := ⟨(max 1 maxEvents).toNat, events₁, lastSeq 0 ds, file⟩) (n := lastSeq 0 ds) rfl hvs
  refine ⟨⟨(max 1 maxEvents).toNat, events₂, lastSeq (lastSeq 0 ds) vs, file⟩, ?_, ?_⟩
  · rw [JournalMemory.init, hlines, List.foldlM_append, hfold₁]
    simp only [bind, Except.bind, List.foldlM_cons, replayLine_of_none hglued]
    exact hfold₂
  · simp only [List.length_nil, Nat.zero_add] at hlen₁ hlen₂
    dsimp only
    omega

/-- After a cut inside a line the first event that is written is not replayed. -/
theorem not_replaysAll_inside (maxEvents : Int) {whole : List (Obj φ)}
    (hwhole : List.Forall₂ WrittenAs whole (wholeDocs ds w part)) {calls : List (RecordCall φ)}
    (hcalls : ∃ call ∈ calls, Writes call) :
    ¬ ReplaysAll maxEvents (journalText ds ++ part) whole calls := by
  obtain ⟨events, hinit, -⟩ := replay_inside h hp hne maxEvents
  rintro ⟨first, second, hfirst, hsecond, heq⟩
  rw [hinit, Except.ok.injEq] at hfirst
  obtain ⟨hwritten, htext, -⟩ := recordAll_spec calls (m := first)
    (n := lastSeq 0 (wholeDocs ds w part)) (by rw [← hfirst])
  have hnew : journaled (lastSeq 0 (wholeDocs ds w part)) calls ≠ [] := by
    rw [ne_eq, journaled_eq_nil_iff]
    push Not
    exact hcalls
  have hrises := rises_journaled (lastSeq 0 (wholeDocs ds w part)) calls
  rw [filterMap_image (List.rel_append hwhole hwritten)] at heq
  obtain ⟨v, vs, hv⟩ := List.exists_cons_of_ne_nil hnew
  rw [hv] at htext hrises heq
  -- the lines of the journal in the end
  have hprint : Printable part := fun c hc => w.printable_line c (hp.subset hc)
  have hlines : fileLines ((first.recordAll calls).2.file.getD []) =
      ds.map Journaled.line ++ (part ++ v.line) :: vs.map Journaled.line := by
    rw [htext, ← hfirst, Option.getD_some, List.append_assoc, journalText,
      fileLines_linesText_append (printable_journal ds), List.map_cons, linesText_cons,
      ← List.append_assoc, fileLines_line (hprint.append v.printable_line),
      fileLines_linesText (printable_journal vs)]
  have hglued : (loads (strip (part ++ v.line)) : Option (PyVal φ)) = none := by
    obtain ⟨k, x, ms, hms⟩ := v.members_head
    rw [Journaled.line, hms]
    exact loads_glued standard_spaced (by decide) hp hne
  have hle : lastSeq 0 ds ≤ lastSeq 0 (wholeDocs ds w part) := by
    rw [wholeDocs]
    split
    · rw [lastSeq_append]
      exact Nat.le_of_lt (rises_right h).1
    · exact Nat.le_refl _
  have hvs := hrises.2.mono (Nat.le_of_lt (Nat.lt_of_le_of_lt hle hrises.1))
  obtain ⟨second', hreplay, hlen⟩ := replay_glued maxEvents (rises_left h) hvs hglued hlines
  rw [hreplay, Except.ok.injEq] at hsecond
  -- one event is missing
  have hcount := congrArg List.length heq
  rw [← hsecond, List.length_map, List.length_append, List.length_cons] at hcount
  have hmore : ds.length ≤ (wholeDocs ds w part).length := by
    rw [wholeDocs]
    split <;> simp
  omega

end

/-- After a cut inside a line the whole events are replayed as long as nothing is
written. -/
theorem replaysAll_inside {ds : List (Journaled φ)} {w : Journaled φ} {part : Str}
    (h : Rises 0 (ds ++ [w])) (hp : part <+: w.line) (hne : part ≠ []) (maxEvents : Int)
    {whole : List (Obj φ)} (hwhole : List.Forall₂ WrittenAs whole (wholeDocs ds w part))
    (hcap : whole.length ≤ (max 1 maxEvents).toNat) {calls : List (RecordCall φ)}
    (hcalls : ∀ call ∈ calls, ¬ Writes call) :
    ReplaysAll maxEvents (journalText ds ++ part) whole calls := by
  obtain ⟨events, hinit, hevents⟩ := replay_inside h hp hne maxEvents
  have hnil := (journaled_eq_nil_iff (lastSeq 0 (wholeDocs ds w part)) calls).2 hcalls
  obtain ⟨hwritten, -, hfile⟩ := recordAll_spec calls
    (m := ⟨(max 1 maxEvents).toNat, events, lastSeq 0 (wholeDocs ds w part),
      some (journalText ds ++ part)⟩) (n := lastSeq 0 (wholeDocs ds w part)) rfl
  have hagain := (congrArg (JournalMemory.init maxEvents) (hfile hnil)).trans hinit
  refine ⟨_, _, hinit, hagain, ?_⟩
  rw [filterMap_image (List.rel_append hwhole hwritten), hnil]
  dsimp only
  rw [List.append_nil]
  exact hevents (hwhole.length_eq ▸ hcap)

/-- A journal that processes wrote is cut at any byte, a process opens it and
records.  The next one replays the whole events from before the crash and then
every event from after it, exactly when the cut falls between two lines or nothing
is written after it. -/
theorem journal_recovery_iff (maxEvents : Int) {processes : List (List (RecordCall φ))}
    {content : Str} {es : List (Obj φ)}
    (hrun : JournalMemory.runProcesses maxEvents none processes = .ok (some content, es)) (n : Nat)
    (calls : List (RecordCall φ))
    (hcap : (wholeEvents es n).length + (calls.filter fun call => Writes call).length ≤
      (max 1 maxEvents).toNat) :
    ReplaysAll maxEvents (crash content n) (wholeEvents es n) calls ↔
      AtLineEnd (crash content n) ∨ ∀ call ∈ calls, ¬ Writes call := by
  obtain ⟨file, es', ws, hspec, hes, hrises, hfile⟩ :=
    runProcesses_spec maxEvents processes (show Rises 0 ([] : List (Journaled φ)) from trivial)
      (show (none : Option Str).getD [] = journalText ([] : List (Journaled φ)) from rfl)
  rw [hrun, Except.ok.injEq, Prod.mk.injEq] at hspec
  obtain ⟨rfl, rfl⟩ := hspec
  rw [Option.getD_some, List.nil_append, journalText] at hfile
  rw [List.nil_append] at hrises
  have hnonempty : ∀ l ∈ ws.map Journaled.line, l ≠ [] := by
    intro l hl
    obtain ⟨w, -, rfl⟩ := List.mem_map.1 hl
    exact w.strip_line.2
  have hwhole : wholeEvents es n = es.take (wholeLines (ws.map Journaled.line) n) := by
    rw [wholeEvents, filterMap_dumps hes]
  rcases cut_crash (ws.map Journaled.line) n with ⟨ls, rest, hlines, hleft, hcount⟩ |
    ⟨ls, rest, l, part, hlines, hleft, hpart, hne, hcount⟩
  · -- between two lines
    obtain ⟨ds, rest, rfl, rfl, -⟩ := List.map_eq_append_iff.1 hlines
    rw [hcount hnonempty, List.length_map] at hwhole
    have hwritten := List.forall₂_take ds.length hes
    rw [List.take_left, ← hwhole] at hwritten
    have hend := atLineEnd_linesText (ds.map Journaled.line)
    rw [hfile, hleft]
    refine ⟨fun _ => .inl hend, fun _ => ?_⟩
    exact replaysAll_between maxEvents (rises_left hrises) hwritten calls hcap
  · -- inside a line
    obtain ⟨ds, rest, rfl, rfl, hrest⟩ := List.map_eq_append_iff.1 hlines
    obtain ⟨w, rest, rfl, rfl, -⟩ := List.map_eq_cons_iff.1 hrest
    have hprint : Printable part := fun c hc => w.printable_line c (hpart.subset hc)
    have hend := not_atLineEnd_inside (ds.map Journaled.line) hprint hne
    have happ : ds ++ w :: rest = (ds ++ [w]) ++ rest := by simp
    rw [happ] at hrises hes
    have hdocs : (wholeDocs ds w part) = ((ds ++ [w]) ++ rest).take
        (wholeLines ((ds ++ w :: rest).map Journaled.line) n) := by
      rw [hcount hnonempty, wholeDocs, List.length_map]
      split
      · rw [List.take_append_of_le_length (by simp), List.take_of_length_le (by simp)]
      · rw [List.append_assoc, List.take_left]
    have hwritten := List.forall₂_take (wholeLines ((ds ++ w :: rest).map Journaled.line) n) hes
    rw [← hdocs, ← hwhole] at hwritten
    rw [hfile, hleft, ← journalText]
    rw [← journalText] at hend
    refine ⟨fun hall => .inr fun call hcall hwrites => ?_, fun hcond => ?_⟩
    · exact not_replaysAll_inside (rises_left hrises) hpart hne maxEvents hwritten
        ⟨call, hcall, hwrites⟩ hall
    · have hno := hcond.resolve_left hend
      exact replaysAll_inside (rises_left hrises) hpart hne maxEvents hwritten (by omega) hno

/-! ## Two crashes -/

/-- A call that records an observation. -/
def observeCall : RecordCall WholeFloat where
  timestamp := lit "2026-01-01T00:00:00+00:00"
  eventType := lit "observation"
  payload := [(.str (lit "object"), .str (lit "door"))]
  metadata := []
  tooOld := 0

/-- What a process records that opens what was left, and the events that the next
one replays. -/
def recordAndReplay (left : Str) (calls : List (RecordCall WholeFloat)) :
    Except Exn (List (Obj WholeFloat) × List (Obj WholeFloat)) := do
  let first ← JournalMemory.init 1000 (some left)
  let second ← JournalMemory.init 1000 (first.recordAll calls).2.file
  return ((first.recordAll calls).1, second.events)

theorem recordAndReplay_of_replaysAll {left : Str} {whole : List (Obj WholeFloat)}
    {calls : List (RecordCall WholeFloat)} (h : ReplaysAll 1000 left whole calls) :
    ∃ new events, recordAndReplay left calls = .ok (new, events) ∧
      events = (whole ++ new).filterMap image := by
  obtain ⟨first, second, hfirst, hsecond, heq⟩ := h
  refine ⟨_, _, ?_, heq⟩
  rw [recordAndReplay, hfirst]
  change (JournalMemory.init 1000 (first.recordAll calls).2.file >>= fun second =>
    pure ((first.recordAll calls).1, second.events)) = _
  rw [hsecond]
  rfl

/-- A journal of one event. -/
def observed : Option Str × List (Obj WholeFloat) :=
  (JournalMemory.runProcesses 1000 none [[observeCall]]).toOption.getD (none, [])

theorem runProcesses_observed :
    JournalMemory.runProcesses 1000 none [[observeCall]] =
      .ok (some (observed.1.getD []), observed.2) ∧ observed.2.length = 1 := by
  have hsome : ((JournalMemory.runProcesses 1000 none [[observeCall]]).toOption.map fun p =>
      (p.1.isSome, p.2.length)) = some (true, 1) := by decide +kernel
  obtain ⟨⟨file, es⟩, hp, he⟩ := Option.map_eq_some_iff.1 hsome
  obtain ⟨hfile, hlen⟩ := Prod.mk.inj he
  obtain ⟨content, rfl⟩ := Option.isSome_iff_exists.1 hfile
  have hrun : JournalMemory.runProcesses 1000 none [[observeCall]] = .ok (some content, es) := by
    cases h : JournalMemory.runProcesses 1000 none [[observeCall]] with
    | error exn => simp [h, Except.toOption] at hp
    | ok p =>
        rw [h] at hp
        exact congrArg Except.ok (Option.some.inj hp)
  have hobserved : observed = (some content, es) := by rw [observed, hrun]; rfl
  rw [hobserved]
  exact ⟨hrun, hlen⟩

/-- The journal of one event is cut in its line and two events are recorded: the
first of them is written onto the line, and only the second is replayed. -/
theorem torn_line_swallows_event :
    JournalMemory.runProcesses 1000 none [[observeCall]] =
        .ok (some (observed.1.getD []), observed.2) ∧
      wholeEvents observed.2 20 = [] ∧
      ((recordAndReplay (crash (observed.1.getD []) 20) [observeCall, observeCall]).toOption.map
        fun p => (p.1.map fun e => strOf (fetch (lit "seq") e),
          p.2.map fun e => strOf (fetch (lit "seq") e))) =
        some ([lit "1", lit "2"], [lit "2"]) ∧
      ¬ ReplaysAll 1000 (crash (observed.1.getD []) 20) (wholeEvents observed.2 20)
        [observeCall, observeCall] := by
  obtain ⟨hrun, -⟩ := runProcesses_observed
  have hwhole : wholeEvents observed.2 20 = [] := by
    have hzero : (wholeEvents observed.2 20).length = 0 := by decide +kernel
    exact List.length_eq_zero_iff.1 hzero
  have hcount : ((recordAndReplay (crash (observed.1.getD []) 20)
      [observeCall, observeCall]).toOption.map fun p =>
        ((p.1.filterMap image).length, p.2.length)) = some (2, 1) := by decide +kernel
  refine ⟨hrun, hwhole, by decide +kernel, ?_⟩
  intro hall
  obtain ⟨new, events, hnew, heq⟩ := recordAndReplay_of_replaysAll hall
  rw [hwhole, List.nil_append] at heq
  rw [hnew] at hcount
  obtain ⟨htwo, hone⟩ := Prod.mk.inj (Option.some.inj hcount)
  change (new.filterMap image).length = 2 at htwo
  change events.length = 1 at hone
  rw [heq] at hone
  omega

/-- The journal of one event is whole when another process records. -/
theorem replaysAll_after_line :
    crash (observed.1.getD []) 1000 = observed.1.getD [] ∧
      ReplaysAll 1000 (crash (observed.1.getD []) 1000) (wholeEvents observed.2 1000)
        [observeCall] := by
  obtain ⟨hrun, -⟩ := runProcesses_observed
  refine ⟨by decide +kernel, ?_⟩
  have hcap : (wholeEvents observed.2 1000).length +
      (([observeCall].filter fun call => Writes call).length) ≤ (max 1 (1000 : Int)).toNat := by
    decide +kernel
  exact (journal_recovery_iff 1000 hrun 1000 [observeCall] hcap).2 (.inl (by decide +kernel))

end ShugoCore
