import Mathlib.Data.List.Infix

/-!
# Lines out of a stream of pieces

A reader gets a stream in pieces of any size and takes the complete lines out of its buffer.
What it does with a line is up to `handle`: it skips the line, emits a message, or stops.  A
buffer without a newline in it that outgrows the cap ends the stream too.

How the stream is cut matters for one thing only, whether a line that is too long is met as
a whole or ends the stream.  `Reading` is the relation between the lines of a stream and what
may be emitted of them, and `serve_reading` says that every cut is a reading.  Lines within
the cap have one reading (`Reading.eq_read`).  Byte by byte, a line that is too long always
ends the stream (`serve_bytes`).  So the streams of which every cut emits what is wanted are
known exactly (`serve_eq_filterMap_iff`).
-/

namespace LineStream

variable {β μ : Type} [DecidableEq β]

/-- What comes of a line. -/
inductive LineEnd (μ : Type) where
  | skipped
  | emitted (message : μ)
  | stopped

/-- A reader of lines. -/
structure Reader (β μ : Type) where
  newline : β
  cap : Nat
  handle : List β → LineEnd μ

/-- What is taken out of a buffer, and what is left in it. -/
structure Drained (β μ : Type) where
  messages : List μ
  rest : List β
  stopped : Bool

/-- Take the complete lines out of a buffer, of which `line` is gone through already. -/
def drain (r : Reader β μ) : List β → List β → Drained β μ
  | line, [] => ⟨[], line, false⟩
  | line, c :: buf =>
      if c = r.newline then
        match r.handle line with
        | .skipped => drain r [] buf
        | .emitted message =>
            let out := drain r [] buf
            { out with messages := message :: out.messages }
        | .stopped => ⟨[], buf, true⟩
      else drain r (line ++ [c]) buf

/-- What is emitted of a stream.  `none` is a piece that has not come in time, and the empty
piece is the end. -/
def serve (r : Reader β μ) : List β → List (Option (List β)) → List μ
  | _, [] => []
  | buf, none :: pieces => serve r buf pieces
  | buf, some piece :: pieces =>
      if piece.isEmpty then []
      else if r.cap < (buf ++ piece).length ∧ r.newline ∉ buf ++ piece then []
      else
        let out := drain r [] (buf ++ piece)
        if out.stopped then out.messages else out.messages ++ serve r out.rest pieces

/-- The stream of some lines. -/
def stream (r : Reader β μ) (lines : List (List β)) : List β :=
  lines.flatMap fun line => line ++ [r.newline]

/-- Pieces of the stream, none of them empty, some late. -/
structure Cut (r : Reader β μ) (lines : List (List β)) (pieces : List (Option (List β))) : Prop where
  nonempty : ∀ piece, some piece ∈ pieces → piece ≠ []
  whole : (pieces.filterMap id).flatten = stream r lines

/-- The line is one. -/
def Whole (r : Reader β μ) (lines : List (List β)) : Prop := ∀ line ∈ lines, r.newline ∉ line

/-- What may be emitted of some lines. -/
inductive Reading (r : Reader β μ) : List (List β) → List μ → Prop where
  | done : Reading r [] []
  | tooLong {line : List β} {lines : List (List β)} :
      r.cap < line.length → Reading r (line :: lines) []
  | skip {line : List β} {lines : List (List β)} {messages : List μ} :
      r.handle line = .skipped → Reading r lines messages → Reading r (line :: lines) messages
  | emit {line : List β} {lines : List (List β)} {message : μ} {messages : List μ} :
      r.handle line = .emitted message → Reading r lines messages →
        Reading r (line :: lines) (message :: messages)
  | stop {line : List β} {lines : List (List β)} :
      r.handle line = .stopped → Reading r (line :: lines) []

variable {r : Reader β μ}

omit [DecidableEq β] in
theorem stream_cons (line : List β) (lines : List (List β)) :
    stream r (line :: lines) = line ++ r.newline :: stream r lines := by
  rw [stream, List.flatMap_cons, List.append_assoc]
  rfl

omit [DecidableEq β] in
/-- A list has one first newline. -/
theorem split_newline {n : β} {a b s t : List β} (ha : n ∉ a) (hb : n ∉ b)
    (h : a ++ n :: s = b ++ n :: t) : a = b ∧ s = t := by
  induction a generalizing b with
  | nil =>
      cases b with
      | nil => exact ⟨rfl, (List.cons.inj h).2⟩
      | cons c b =>
          have hc : n = c := (List.cons.inj h).1
          exact absurd (hc ▸ List.mem_cons_self) hb
  | cons c a ih =>
      cases b with
      | nil =>
          have hc : c = n := (List.cons.inj h).1
          exact absurd (hc ▸ List.mem_cons_self) ha
      | cons d b =>
          obtain ⟨rfl, htail⟩ := List.cons.inj h
          obtain ⟨rfl, rfl⟩ := ih (fun hm => ha (List.mem_cons_of_mem _ hm))
            (fun hm => hb (List.mem_cons_of_mem _ hm)) htail
          exact ⟨rfl, rfl⟩

omit [DecidableEq β] in
/-- What has no newline in it is the beginning of the first line. -/
theorem length_le_of_stream {buf rest line : List β} {lines : List (List β)}
    (hbuf : r.newline ∉ buf) (h : buf ++ rest = stream r (line :: lines)) :
    buf.length ≤ line.length := by
  rw [stream_cons] at h
  by_contra hlong
  have hle : line.length + 1 ≤ buf.length := by omega
  have htake := congrArg (List.take (line.length + 1)) h
  rw [List.take_append_of_le_length hle] at htake
  refine hbuf (List.mem_of_mem_take (i := line.length + 1) ?_)
  rw [htake, List.append_cons, List.take_left' (by simp)]
  simp

/-! ## Every cut is a reading -/

/-- Draining a buffer leaves the stream of the lines that are still to come. -/
theorem drain_reading {line buf rest : List β} {lines : List (List β)} (hwhole : Whole r lines)
    (hline : r.newline ∉ line) (h : line ++ buf ++ rest = stream r lines) :
    ((drain r line buf).stopped = true → Reading r lines (drain r line buf).messages) ∧
      ((drain r line buf).stopped = false → ∃ todo, Whole r todo ∧
        r.newline ∉ (drain r line buf).rest ∧ (drain r line buf).rest ++ rest = stream r todo ∧
        ∀ messages, Reading r todo messages →
          Reading r lines ((drain r line buf).messages ++ messages)) := by
  induction buf generalizing line lines with
  | nil =>
      rw [List.append_nil] at h
      exact ⟨nofun, fun _ => ⟨lines, hwhole, hline, h, fun _ hr => hr⟩⟩
  | cons c buf ih =>
      by_cases hc : c = r.newline
      · subst hc
        rw [List.append_assoc, List.cons_append] at h
        cases lines with
        | nil =>
            have hnil : line ++ r.newline :: (buf ++ rest) = [] := h
            simp at hnil
        | cons first lines =>
            rw [stream_cons] at h
            obtain ⟨rfl, htail⟩ := split_newline hline (hwhole first List.mem_cons_self) h
            have hrest : Whole r lines := fun l hl => hwhole l (List.mem_cons_of_mem _ hl)
            have hbegin : [] ++ buf ++ rest = stream r lines := htail
            have hnext := ih hrest List.not_mem_nil hbegin
            rw [drain, if_pos rfl]
            cases hhandle : r.handle line with
            | skipped =>
                refine ⟨fun hs => .skip hhandle (hnext.1 hs), fun hs => ?_⟩
                obtain ⟨todo, htodo, hnone, hstream, hread⟩ := hnext.2 hs
                exact ⟨todo, htodo, hnone, hstream, fun ms hms => .skip hhandle (hread ms hms)⟩
            | emitted message =>
                refine ⟨fun hs => .emit hhandle (hnext.1 hs), fun hs => ?_⟩
                obtain ⟨todo, htodo, hnone, hstream, hread⟩ := hnext.2 hs
                exact ⟨todo, htodo, hnone, hstream, fun ms hms => .emit hhandle (hread ms hms)⟩
            | stopped => exact ⟨fun _ => .stop hhandle, nofun⟩
      · rw [drain, if_neg hc]
        refine ih hwhole ?_ ?_
        · rw [List.mem_append, List.mem_singleton, not_or]
          exact ⟨hline, Ne.symm hc⟩
        · rw [← h, List.append_assoc line]
          rfl

/-- The stream of `lines`, of which `buf` has come already. -/
theorem serve_reading_from {buf : List β} {pieces : List (Option (List β))} {lines : List (List β)}
    (hwhole : Whole r lines) (hbuf : r.newline ∉ buf)
    (hpieces : ∀ piece, some piece ∈ pieces → piece ≠ [])
    (h : buf ++ (pieces.filterMap id).flatten = stream r lines) :
    Reading r lines (serve r buf pieces) := by
  induction pieces generalizing buf lines with
  | nil =>
      rw [List.filterMap_nil, List.flatten_nil, List.append_nil] at h
      cases lines with
      | nil => exact .done
      | cons line lines =>
          rw [stream_cons] at h
          refine absurd ?_ hbuf
          rw [h]
          simp
  | cons piece pieces ih =>
      have hrest : ∀ p, some p ∈ pieces → p ≠ [] := fun p hp =>
        hpieces p (List.mem_cons_of_mem _ hp)
      cases piece with
      | none => exact ih hwhole hbuf hrest h
      | some piece =>
          have hne : piece ≠ [] := hpieces piece List.mem_cons_self
          have hsplit : buf ++ piece ++ (pieces.filterMap id).flatten = stream r lines := by
            rw [List.append_assoc]
            exact h
          rw [serve, if_neg (by simpa using hne)]
          split
          · rename_i hlong
            cases lines with
            | nil =>
                have hnil : buf ++ piece ++ (pieces.filterMap id).flatten = [] := hsplit
                simp only [List.append_eq_nil_iff] at hnil
                exact absurd hnil.1.2 hne
            | cons line lines =>
                exact .tooLong (Nat.lt_of_lt_of_le hlong.1 (length_le_of_stream hlong.2 hsplit))
          · have hbegin : [] ++ (buf ++ piece) ++ (pieces.filterMap id).flatten =
                stream r lines := hsplit
            obtain ⟨hstop, hgo⟩ := drain_reading hwhole List.not_mem_nil hbegin
            dsimp only
            split
            · rename_i hs
              exact hstop hs
            · rename_i hs
              obtain ⟨todo, htodo, hnone, hstream, hread⟩ := hgo (by simpa using hs)
              exact hread _ (ih htodo hnone hrest hstream)

theorem serve_reading {lines : List (List β)} {pieces : List (Option (List β))}
    (hwhole : Whole r lines) (h : Cut r lines pieces) : Reading r lines (serve r [] pieces) :=
  serve_reading_from hwhole List.not_mem_nil h.nonempty h.whole

omit [DecidableEq β] in
/-- What is emitted comes from a line. -/
theorem Reading.exists_line {lines : List (List β)} {messages : List μ}
    (h : Reading r lines messages) {message : μ} (hmem : message ∈ messages) :
    ∃ line ∈ lines, r.handle line = .emitted message := by
  induction h with
  | done | tooLong _ | stop _ => cases hmem
  | skip _ _ ih =>
      obtain ⟨line, hline, hhandle⟩ := ih hmem
      exact ⟨line, List.mem_cons_of_mem _ hline, hhandle⟩
  | emit hhandle _ ih =>
      rcases List.mem_cons.1 hmem with rfl | hmem
      · exact ⟨_, List.mem_cons_self, hhandle⟩
      · obtain ⟨line, hline, hhandle'⟩ := ih hmem
        exact ⟨line, List.mem_cons_of_mem _ hline, hhandle'⟩

/-! ## Lines within the cap -/

/-- What is emitted of the lines, one line at a time. -/
def read (r : Reader β μ) : List (List β) → List μ
  | [] => []
  | line :: lines =>
      match r.handle line with
      | .skipped => read r lines
      | .emitted message => message :: read r lines
      | .stopped => []

omit [DecidableEq β] in
/-- Lines that are not too long have one reading. -/
theorem Reading.eq_read {lines : List (List β)} {messages : List μ} (h : Reading r lines messages)
    (hcap : ∀ line ∈ lines, line.length ≤ r.cap) : messages = read r lines := by
  induction h with
  | done => rfl
  | tooLong hlong => exact absurd hlong (not_lt.2 (hcap _ List.mem_cons_self))
  | skip hhandle _ ih =>
      rw [read, hhandle]
      exact ih fun l hl => hcap l (List.mem_cons_of_mem _ hl)
  | emit hhandle _ ih =>
      rw [read, hhandle, ih fun l hl => hcap l (List.mem_cons_of_mem _ hl)]
  | stop hhandle => rw [read, hhandle]

/-! ## Byte by byte -/

/-- What is emitted of the lines if a line that is too long ends the stream. -/
def readStrict (r : Reader β μ) : List (List β) → List μ
  | [] => []
  | line :: lines =>
      if r.cap < line.length then []
      else
        match r.handle line with
        | .skipped => readStrict r lines
        | .emitted message => message :: readStrict r lines
        | .stopped => []

/-- The pieces of one byte. -/
def bytes (s : List β) : List (Option (List β)) := s.map fun c => some [c]

omit [DecidableEq β] in
theorem filterMap_bytes (s : List β) : ((bytes s).filterMap id).flatten = s := by
  induction s with
  | nil => rfl
  | cons c s ih =>
      rw [bytes, List.map_cons, List.filterMap_cons_some (f := id) rfl,
        List.flatten_cons]
      exact congrArg (List.cons c) ih

omit [DecidableEq β] in
theorem cut_bytes (lines : List (List β)) : Cut r lines (bytes (stream r lines)) where
  nonempty piece hpiece := by
    obtain ⟨c, -, hc⟩ := List.mem_map.1 hpiece
    cases hc
    exact List.cons_ne_nil _ _
  whole := filterMap_bytes _

/-- A buffer without a newline stays. -/
theorem drain_of_not_mem {line buf : List β} (h : r.newline ∉ buf) :
    drain r line buf = ⟨[], line ++ buf, false⟩ := by
  induction buf generalizing line with
  | nil => rw [drain, List.append_nil]
  | cons c buf ih =>
      rw [List.mem_cons, not_or] at h
      rw [drain, if_neg (Ne.symm h.1), ih h.2, List.append_assoc]
      rfl

/-- A buffer with its first newline at its end. -/
theorem drain_newline {line buf : List β} (h : r.newline ∉ buf) :
    drain r line (buf ++ [r.newline]) =
      match r.handle (line ++ buf) with
      | .skipped => ⟨[], [], false⟩
      | .emitted message => ⟨[message], [], false⟩
      | .stopped => ⟨[], [], true⟩ := by
  induction buf generalizing line with
  | nil =>
      rw [List.nil_append, drain, if_pos rfl, List.append_nil]
      cases r.handle line <;> rfl
  | cons c buf ih =>
      rw [List.mem_cons, not_or] at h
      rw [List.cons_append, drain, if_neg (Ne.symm h.1), ih h.2, List.append_assoc]
      rfl

/-- One line, byte by byte, of which `buf` has come already. -/
theorem serve_bytes_line {buf line rest : List β} (hbuf : buf.length ≤ r.cap)
    (hline : r.newline ∉ buf ++ line) :
    serve r buf (bytes (line ++ r.newline :: rest)) =
      if r.cap < (buf ++ line).length then []
      else
        match r.handle (buf ++ line) with
        | .skipped => serve r [] (bytes rest)
        | .emitted message => message :: serve r [] (bytes rest)
        | .stopped => [] := by
  induction line generalizing buf with
  | nil =>
      rw [List.append_nil] at hline
      have hpiece : r.newline ∈ buf ++ [r.newline] := by simp
      rw [List.nil_append, List.append_nil, if_neg (not_lt.2 hbuf), bytes, List.map_cons, serve,
        if_neg (by simp), if_neg (fun h => h.2 hpiece), drain_newline hline]
      rw [List.nil_append]
      cases r.handle buf <;> rfl
  | cons c line ih =>
      have hmove : buf ++ c :: line = buf ++ [c] ++ line := List.append_cons ..
      rw [hmove] at hline ⊢
      have hpiece : r.newline ∉ buf ++ [c] := fun h => hline (List.mem_append_left _ h)
      rw [List.cons_append, bytes, List.map_cons, serve, if_neg (by simp)]
      by_cases hcap : r.cap < (buf ++ [c]).length
      · rw [if_pos ⟨hcap, hpiece⟩, if_pos]
        rw [List.length_append]
        omega
      · rw [if_neg (fun h => hcap h.1), drain_of_not_mem hpiece]
        exact ih (not_lt.1 hcap) hline

/-- Byte by byte, a line that is too long ends the stream. -/
theorem serve_bytes {lines : List (List β)} (hwhole : Whole r lines) :
    serve r [] (bytes (stream r lines)) = readStrict r lines := by
  induction lines with
  | nil => rfl
  | cons line lines ih =>
      rw [stream_cons, serve_bytes_line (Nat.zero_le _) (hwhole line List.mem_cons_self),
        List.nil_append, readStrict, ih fun l hl => hwhole l (List.mem_cons_of_mem _ hl)]

/-! ## The messages that are wanted -/

/-- As long as something is wanted of the lines to come, a line is not too long and does not
stop the reader. -/
def Clear (r : Reader β μ) (want : List β → Option μ) (lines : List (List β)) : Prop :=
  ∀ line rest, line :: rest <:+ lines → (∃ later ∈ line :: rest, want later ≠ none) →
    line.length ≤ r.cap ∧ r.handle line ≠ .stopped

section Wanted

variable {want : List β → Option μ}

omit [DecidableEq β] in
theorem clear_cons {line : List β} {lines : List (List β)} :
    Clear r want (line :: lines) ↔
      ((∃ later ∈ line :: lines, want later ≠ none) →
        line.length ≤ r.cap ∧ r.handle line ≠ .stopped) ∧ Clear r want lines := by
  constructor
  · intro h
    exact ⟨h line lines List.suffix_rfl, fun l rest hsuffix =>
      h l rest (hsuffix.trans (List.suffix_cons line lines))⟩
  · rintro ⟨hfirst, hrest⟩ l rest hsuffix
    rcases List.suffix_cons_iff.1 hsuffix with heq | hsuffix
    · cases heq
      exact hfirst
    · exact hrest l rest hsuffix

omit [DecidableEq β] in
/-- Where nothing is wanted there is nothing in the way. -/
theorem clear_of_unwanted {lines : List (List β)} (h : lines.filterMap want = []) :
    Clear r want lines := by
  rintro line rest hsuffix ⟨later, hlater, hwant⟩
  exact absurd (List.filterMap_eq_nil_iff.1 h later (hsuffix.subset hlater)) hwant

omit [DecidableEq β] in
/-- Nothing is wanted of the lines, or the first of them is clear. -/
theorem filterMap_eq_nil_or {line : List β} {lines : List (List β)}
    (h : Clear r want (line :: lines)) :
    (line :: lines).filterMap want = [] ∨ (line.length ≤ r.cap ∧ r.handle line ≠ .stopped) := by
  by_cases hwant : ∃ later ∈ line :: lines, want later ≠ none
  · exact .inr ((clear_cons.1 h).1 hwant)
  · refine .inl (List.filterMap_eq_nil_iff.2 fun later hlater => ?_)
    by_contra hne
    exact hwant ⟨later, hlater, hne⟩

variable (hemit : ∀ line message, r.handle line = .emitted message → want line = some message)
  (hskip : ∀ line, line.length ≤ r.cap → r.handle line = .skipped → want line = none)

include hemit hskip

omit [DecidableEq β] in
theorem Reading.eq_filterMap {lines : List (List β)} {messages : List μ}
    (h : Reading r lines messages) (hclear : Clear r want lines) :
    messages = lines.filterMap want := by
  induction h with
  | done => rfl
  | tooLong hlong =>
      rcases filterMap_eq_nil_or hclear with hnil | hfits
      · exact hnil.symm
      · exact absurd hlong (not_lt.2 hfits.1)
  | @skip line lines messages hhandle _ ih =>
      have hrest := ih (clear_cons.1 hclear).2
      rcases filterMap_eq_nil_or hclear with hnil | hfits
      · rw [hnil, hrest]
        exact List.filterMap_eq_nil_iff.2 fun l hl =>
          List.filterMap_eq_nil_iff.1 hnil l (List.mem_cons_of_mem _ hl)
      · rw [List.filterMap_cons_none (hskip line hfits.1 hhandle), hrest]
  | emit hhandle _ ih =>
      rw [List.filterMap_cons_some (hemit _ _ hhandle), ih (clear_cons.1 hclear).2]
  | stop hhandle =>
      rcases filterMap_eq_nil_or hclear with hnil | hfits
      · exact hnil.symm
      · exact absurd hhandle hfits.2

omit [DecidableEq β] in
theorem clear_of_readStrict {lines : List (List β)}
    (h : readStrict r lines = lines.filterMap want) : Clear r want lines := by
  induction lines with
  | nil => exact clear_of_unwanted rfl
  | cons line lines ih =>
      rw [readStrict] at h
      split at h
      · exact clear_of_unwanted h.symm
      · rename_i hfits
        cases hhandle : r.handle line with
        | skipped =>
            rw [hhandle, List.filterMap_cons_none (hskip line (not_lt.1 hfits) hhandle)] at h
            exact clear_cons.2 ⟨fun _ => ⟨not_lt.1 hfits, by rw [hhandle]; exact nofun⟩, ih h⟩
        | emitted message =>
            rw [hhandle, List.filterMap_cons_some (hemit line message hhandle)] at h
            exact clear_cons.2 ⟨fun _ => ⟨not_lt.1 hfits, by rw [hhandle]; exact nofun⟩,
              ih (List.cons.inj h).2⟩
        | stopped =>
            rw [hhandle] at h
            exact clear_of_unwanted h.symm

/-- Every cut emits what is wanted exactly if nothing is in the way. -/
theorem serve_eq_filterMap_iff {lines : List (List β)} (hwhole : Whole r lines) :
    (∀ pieces, Cut r lines pieces → serve r [] pieces = lines.filterMap want) ↔
      Clear r want lines := by
  constructor
  · intro h
    refine clear_of_readStrict hemit hskip ?_
    rw [← serve_bytes hwhole]
    exact h _ (cut_bytes lines)
  · exact fun hclear pieces hcut => (serve_reading hwhole hcut).eq_filterMap hemit hskip hclear

end Wanted

end LineStream
