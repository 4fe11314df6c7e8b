import ShugoCore.Audit.Tamper
import ShugoCore.Lib.JsonTorn
import ShugoCore.Lib.TornLines

/-!
# A crash in the middle of a write

A chain file is cut at some byte and the chain is opened again.  Opening skips a
line that was cut, but the next entry is written at the end of the file, which is
the end of that line.  So the new entry shares the line with what is left of the
old one, and the line is no document.

`Recovers` is what is wanted of the file afterwards.  It is had exactly when the
cut falls between two lines and every entry, old and new, is read back as it was
hashed.
-/

namespace ShugoCore

open Py

variable {φ : Type} [Builtins φ]

/-! ## What is wanted -/

omit [Builtins φ] in
/-- The sequence number that an entry carries. -/
def storedSeq (entry : Obj φ) : Int :=
  match fetch (lit "seq") entry with
  | .int i => i
  | _ => 0

omit [Builtins φ] in
/-- The sequence number after some entries. -/
def seqAfter (es : List (Obj φ)) : Int := (es.getLast?.map storedSeq).getD 0

/-- Entries that go on from a hash and a sequence number. -/
def Continues : Str → Int → List (Obj φ) → Prop
  | _, _, [] => True
  | prev, n, e :: es =>
      fetch (lit "prev_hash") e = .str prev ∧ fetch (lit "seq") e = .int (n + 1) ∧
        Continues (storedHash e) (n + 1) es

/-- The line with this number holds no entry. -/
def TornLine (φ : Type) [Builtins φ] (text : Str) (number : Nat) : Prop :=
  ∃ i l, number = i + 1 ∧ (fileLines text)[i]? = some l ∧ lineEntry φ l = none

/-- A session on the text that a crash left.  Every entry it appends has a line of
its own, these entries go on from the last one that is whole, and the verifier
complains about nothing but the line that was cut. -/
def Recovers (hashes : Hashlib) (left : Str) (s : AuditSession φ) : Prop :=
  ∃ file k new, runSessions hashes (some left) [s] = .ok (some file, k) ∧
    new.length = k ∧ entriesIn φ file = entriesIn φ left ++ new ∧
    Continues (hashAfter genesisHash (entriesIn φ left)) (seqAfter (entriesIn φ left)) new ∧
    ∃ ok errors checked, verifyAuditFile φ hashes (some file) none = .ok (ok, errors, checked) ∧
      ∀ err ∈ errors, ∃ n problem, err = .atLine n problem ∧ TornLine φ left n

/-! ## Reading it -/

theorem lineEntry_line {e : Entry φ} (h : e.WF) : lineEntry φ e.line = some e.items := by
  rw [lineEntry, e.strip_line.1, e.loads_line h]

theorem fileText_eq (es : List (Entry φ)) : fileText es = linesText (es.map Entry.line) := by
  rw [linesText, List.flatMap_map]
  rfl

theorem printable_lines (es : List (Entry φ)) : ∀ l ∈ es.map Entry.line, Printable l := by
  intro l hl
  obtain ⟨e, -, rfl⟩ := List.mem_map.1 hl
  exact printable_spaced _

/-- Whole lines are read first. -/
theorem fileLines_fileText_append (ds : List (Entry φ)) (s : Str) :
    fileLines (fileText ds ++ s) = ds.map Entry.line ++ fileLines s := by
  rw [fileText_eq]
  exact fileLines_linesText_append (printable_lines ds) s

theorem Linked.wf {hashes : Hashlib} {prev : Str} {n : Nat} {es : List (Entry φ)}
    (h : Linked hashes prev n es) : ∀ e ∈ es, e.WF := by
  induction es generalizing prev n with
  | nil => exact fun e he => absurd he List.not_mem_nil
  | cons d es ih => exact List.forall_mem_cons.2 ⟨h.1, ih h.2.2.2.2⟩

theorem Linked.left {hashes : Hashlib} {prev : Str} {n : Nat} {ds es : List (Entry φ)}
    (h : Linked hashes prev n (ds ++ es)) : Linked hashes prev n ds := by
  induction ds generalizing prev n with
  | nil => trivial
  | cons d ds ih =>
      obtain ⟨hwf, hprev, hseq, hhash, hrest⟩ := h
      exact ⟨hwf, hprev, hseq, hhash, ih hrest⟩

theorem entriesIn_append {ds : List (Entry φ)} (h : ∀ e ∈ ds, e.WF) (s : Str) :
    entriesIn φ (fileText ds ++ s) = ds.map Entry.items ++ entriesIn φ s := by
  rw [entriesIn, fileLines_fileText_append, List.filterMap_append, entriesIn]
  congr 1
  induction ds with
  | nil => rfl
  | cons e ds ih =>
      rw [List.map_cons, List.filterMap_cons_some (lineEntry_line (h e List.mem_cons_self)),
        ih fun d hd => h d (List.mem_cons_of_mem _ hd)]
      rfl

theorem entriesIn_fileText {ds : List (Entry φ)} (h : ∀ e ∈ ds, e.WF) :
    entriesIn φ (fileText ds) = ds.map Entry.items := by
  have hall := entriesIn_append h []
  rw [List.append_nil] at hall
  rw [hall]
  exact List.append_nil _

omit [Builtins φ] in
theorem fetch_items (e : Entry φ) :
    fetch (lit "prev_hash") e.items = .str e.prevHash ∧ fetch (lit "seq") e.items = .int e.seq ∧
      fetch (lit "hash") e.items = .str e.hash := by
  simp only [Entry.items]
  cases e.hmac <;> exact ⟨rfl, rfl, rfl⟩

theorem storedHash_items (e : Entry φ) : storedHash e.items = e.hash := by
  simp only [Entry.items]
  cases e.hmac <;> rfl

/-- Linked entries go on from where they are linked to. -/
theorem Linked.continues {hashes : Hashlib} {prev : Str} {n : Nat} {es : List (Entry φ)}
    (h : Linked hashes prev n es) : Continues prev n (es.map Entry.items) := by
  induction es generalizing prev n with
  | nil => trivial
  | cons e es ih =>
      obtain ⟨-, hprev, hseq, -, hrest⟩ := h
      obtain ⟨hp, hs, -⟩ := fetch_items e
      refine ⟨by rw [hp, hprev], by rw [hs, hseq]; rfl, ?_⟩
      rw [storedHash_items]
      exact ih hrest

theorem hashAfter_items (prev : Str) (es : List (Entry φ)) :
    hashAfter prev (es.map Entry.items) = tailHash prev es := by
  rcases List.eq_nil_or_concat es with rfl | ⟨ds, d, rfl⟩
  · rfl
  · rw [List.concat_eq_append, List.map_append, tailHash_append]
    exact (storedHash_concat _ _).trans (storedHash_items d)

theorem Linked.seq_last {hashes : Hashlib} {prev : Str} {n : Nat}
    {es : List (Entry φ)} {e : Entry φ} (h : Linked hashes prev n (es ++ [e])) :
    e.seq = n + es.length + 1 := by
  induction es generalizing prev n with
  | nil => exact h.2.2.1
  | cons d es ih =>
      rw [ih h.2.2.2.2, List.length_cons]
      omega

theorem Linked.seqAfter_items {hashes : Hashlib} {es : List (Entry φ)} {prev : Str}
    (h : Linked hashes prev 0 es) : seqAfter (es.map Entry.items) = es.length := by
  rcases List.eq_nil_or_concat es with rfl | ⟨ds, d, rfl⟩
  · rfl
  · rw [List.concat_eq_append] at h ⊢
    have hseq := h.seq_last
    have hstored : storedSeq d.items = d.seq := by rw [storedSeq, (fetch_items d).2.1]
    simp [seqAfter, hstored, hseq]

/-! ## A cut between two lines -/

section

variable {hashes : Hashlib} {ds : List (Entry φ)} (hds : Linked hashes genesisHash 0 ds)
  (s : AuditSession φ)
include hds

/-- The entries that a session appends after these. -/
def newEntries (hashes : Hashlib) (ds : List (Entry φ)) (s : AuditSession φ) : List (Entry φ) :=
  entries hashes (tailHash genesisHash ds) ds.length (keyedCalls [s])

theorem linked_newEntries :
    Linked hashes (tailHash genesisHash ds) ds.length (newEntries hashes ds s) :=
  linked_entries hashes (tailHash_hex hex_genesisHash hds) _ _

theorem linked_all : Linked hashes genesisHash 0 (ds ++ newEntries hashes ds s) := by
  refine hds.append ?_
  rw [Nat.zero_add]
  exact linked_newEntries hds s

omit hds in
/-- The verifier on a text of linked entries. -/
theorem verify_fileText {es : List (Entry φ)} (h : Linked hashes genesisHash 0 es) :
    ∃ errors, verifyAuditFile φ hashes (some (fileText es)) none =
        .ok (errors.isEmpty, errors, es.length) ∧
      (errors = [] ↔ ∀ e ∈ es, e.hash = hashes.sha256 e.reread.hashText) := by
  obtain ⟨errors, hfold, hnil⟩ := foldlM_line hashes (v := .start) h rfl 1
  refine ⟨errors, ?_, hnil⟩
  simp only [verifyAuditFile, fileLines_fileText, hfold, bind, Except.bind, pure, Except.pure]
  simp [Verification.start]

omit hds in
theorem not_tornLine (h : ∀ e ∈ ds, e.WF) (n : Nat) : ¬ TornLine φ (fileText ds) n := by
  rintro ⟨i, l, -, hl, hnone⟩
  rw [fileLines_fileText, List.getElem?_map, Option.map_eq_some_iff] at hl
  obtain ⟨e, he, rfl⟩ := hl
  rw [lineEntry_line (h e (List.mem_of_getElem? he))] at hnone
  cases hnone

/-- After a cut between two lines everything is as wanted but for the hashes. -/
theorem recovers_between_iff (hnew : newEntries hashes ds s ≠ []) :
    Recovers hashes (fileText ds) s ↔
      ∀ e ∈ ds ++ newEntries hashes ds s, e.hash = hashes.sha256 e.reread.hashText := by
  have hall := linked_all hds s
  have hrun := runSessions_eq hashes [s] ds hds
    (show (some (fileText ds)).getD [] = fileText ds from rfl)
  have hfile : fileAfter (some (fileText ds)) (newEntries hashes ds s) =
      some (fileText (ds ++ newEntries hashes ds s)) := by
    rw [fileAfter, if_neg (by simpa using hnew), Option.getD_some, fileText, fileText, fileText,
      List.flatMap_append]
  have hrun : runSessions hashes (some (fileText ds)) [s] =
      .ok (some (fileText (ds ++ newEntries hashes ds s)), (newEntries hashes ds s).length) := by
    rw [hrun, ← hfile]
    rfl
  obtain ⟨errors, hverify, hnil⟩ := verify_fileText hall
  rw [← hnil]
  constructor
  · rintro ⟨file, k, new, hfile, -, -, -, ok, errs, checked, hv, herrs⟩
    rw [hrun, Except.ok.injEq, Prod.mk.injEq, Option.some.injEq] at hfile
    rw [← hfile.1, hverify, Except.ok.injEq, Prod.mk.injEq, Prod.mk.injEq] at hv
    obtain ⟨-, rfl, -⟩ := hv
    rw [List.eq_nil_iff_forall_not_mem]
    intro err herr
    obtain ⟨n, p, -, htorn⟩ := herrs err herr
    exact not_tornLine hds.wf n htorn
  · rintro rfl
    refine ⟨_, _, (newEntries hashes ds s).map Entry.items, hrun, List.length_map _, ?_, ?_, _, _, _,
      hverify, fun _ herr => by cases herr⟩
    · rw [entriesIn_fileText hall.wf, entriesIn_fileText hds.wf, List.map_append]
    · rw [entriesIn_fileText hds.wf, hashAfter_items, hds.seqAfter_items]
      exact (linked_newEntries hds s).continues

end

/-! ## A cut inside a line -/

omit [Builtins φ] in
theorem Entry.members_head (e : Entry φ) :
    ∃ k x ms, e.members = ((104 : CodePoint) :: k, x) :: ms := by
  simp only [Entry.members]
  cases e.hmac <;> exact ⟨_, _, _, rfl⟩

/-- What was written at the end of a line that was cut is not read. -/
theorem lineEntry_glued (d e : Entry φ) {part : Str} (hp : part <+: d.line) (hne : part ≠ []) :
    lineEntry φ (part ++ e.line) = none := by
  obtain ⟨k, x, ms, hms⟩ := e.members_head
  have hloads : (loads (strip (part ++ render spaced (.obj ((104 :: k, x) :: ms)))) :
      Option (PyVal φ)) = none := loads_glued standard_spaced (by decide) hp hne
  rw [lineEntry, Entry.line, hms, hloads]

theorem printable_part {e : Entry φ} {part : Str} (h : part <+: e.line) : Printable part :=
  fun c hc => printable_spaced (.obj e.members) c (h.subset hc)

/-- Opening skips the line that was cut, or takes it for whole when only its line
feed is missing. -/
theorem init_inside {hashes : Hashlib} {ds : List (Entry φ)} {e : Entry φ} {part : Str}
    (h : Linked hashes genesisHash 0 (ds ++ [e])) (hp : part <+: e.line) (hne : part ≠ [])
    (key : Option Str) :
    ∃ es : List (Entry φ), Linked hashes genesisHash 0 es ∧
      AuditChain.init φ key (some (fileText ds ++ part)) =
        .ok { hmacKey := key.filter fun k => !k.isEmpty, seq := es.length,
              tail := tailHash genesisHash es } := by
  have hlines : fileLines (fileText ds ++ part) = ds.map Entry.line ++ [part] := by
    rw [fileLines_fileText_append, fileLines_last (printable_part hp) hne]
  generalize hkey : (key.filter fun k => !k.isEmpty) = key'
  have hfold := foldlM_adoptLine (c := ⟨key', 0, genesisHash⟩) (n := 0) h.left rfl
  by_cases hwhole : part = e.line
  · refine ⟨ds ++ [e], h, ?_⟩
    have hwholeFold := foldlM_adoptLine (c := ⟨key', 0, genesisHash⟩) (n := 0) h rfl
    rw [List.map_append] at hwholeFold
    rw [AuditChain.init, Option.getD_some, hlines, hwhole, hkey]
    exact hwholeFold.trans (by simp)
  · refine ⟨ds, h.left, ?_⟩
    have hskip : ∀ c, AuditChain.adoptLine φ c part = .ok c := by
      intro c
      have hnone : (loads (strip part) : Option (PyVal φ)) = none :=
        loads_torn standard_spaced (m := e.members) ⟨hp, hwhole⟩ hne
      rw [AuditChain.adoptLine, hnone]
      split <;> rfl
    rw [AuditChain.init, Option.getD_some, hlines, List.foldlM_append, hkey, hfold]
    simp only [bind, Except.bind, List.foldlM_cons, List.foldlM_nil, hskip, pure, Except.pure]
    simp

/-- After a cut inside a line the first new entry has no line of its own. -/
theorem not_recovers_inside {hashes : Hashlib} {ds : List (Entry φ)} {e : Entry φ} {part : Str}
    (h : Linked hashes genesisHash 0 (ds ++ [e])) (hp : part <+: e.line) (hne : part ≠ [])
    {s : AuditSession φ} (hnew : ∀ es, newEntries hashes es s ≠ []) :
    ¬ Recovers hashes (fileText ds ++ part) s := by
  obtain ⟨es, hes, hinit⟩ := init_inside h hp hne s.hmacKey
  have hwf := h.left.wf
  obtain ⟨d, new, hd⟩ := List.exists_cons_of_ne_nil (hnew es)
  have hcalls := runCalls_eq hashes s.calls
    (c := ⟨s.hmacKey.filter fun k => !k.isEmpty, es.length, tailHash genesisHash es⟩) (n := es.length)
    rfl (tailHash_hex hex_genesisHash hes) (some (fileText ds ++ part))
  have hentries : entries hashes (tailHash genesisHash es) es.length
      (s.calls.map ((s.hmacKey.filter fun k => !k.isEmpty), ·)) = d :: new := by
    rw [← hd, newEntries, keyedCalls_cons]
    simp [keyedCalls]
  have hrun : runSessions hashes (some (fileText ds ++ part)) [s] =
      .ok (some (fileText ds ++ part ++ fileText (d :: new)), (d :: new).length) := by
    rw [runSessions, hinit]
    simp only [bind, Except.bind, pure, Except.pure, hcalls, hentries, runSessions]
    rfl
  have hread : entriesIn φ (fileText ds ++ part ++ fileText (d :: new)) =
      ds.map Entry.items ++ entriesIn φ (fileText new) := by
    have hglued : fileLines (part ++ fileText (d :: new)) =
        (part ++ d.line) :: fileLines (fileText new) := by
      have htext : part ++ fileText (d :: new) = (part ++ d.line) ++ newline :: fileText new := by
        simp [fileText]
      rw [htext]
      exact fileLines_line ((printable_part hp).append (printable_spaced _)) _
    rw [List.append_assoc, entriesIn_append hwf]
    congr 1
    rw [entriesIn, hglued, List.filterMap_cons_none (lineEntry_glued e d hp hne), entriesIn]
  rintro ⟨file, k, more, hfile, hk, heq, -⟩
  rw [hrun, Except.ok.injEq, Prod.mk.injEq, Option.some.injEq] at hfile
  obtain ⟨rfl, rfl⟩ := hfile
  -- one line fewer than entries
  have hnewwf : ∀ e ∈ new, e.WF := by
    have hlinked := (linked_newEntries hes s).wf
    rw [hd] at hlinked
    exact fun e he => hlinked e (List.mem_cons_of_mem _ he)
  have hlen := congrArg List.length heq
  rw [hread, entriesIn_fileText hnewwf, entriesIn_append hwf, List.length_append, List.length_append,
    List.length_append, hk, List.length_map, List.length_map, List.length_cons] at hlen
  omega

/-! ## The payloads of the entries -/

instance (s : AuditSession φ) (call : AppendCall φ) : Decidable (Returns s call) :=
  inferInstanceAs (Decidable (_ ∧ _))

/-- The payloads of the calls that return, in the order of the entries. -/
def returnedPayloads (sessions : List (AuditSession φ)) : List (Obj φ) :=
  sessions.flatMap fun s => (s.calls.filter fun call => Returns s call).map AppendCall.payload

/-- An entry was written for a payload. -/
def WrittenFor (e : Entry φ) (p : Obj φ) : Prop := encode (.dict p) = some e.payload

theorem writtenFor_calls (hashes : Hashlib) (prev : Str) (n : Nat) (s : AuditSession φ)
    (calls : List (AppendCall φ)) :
    List.Forall₂ WrittenFor
      (entries hashes prev n (calls.map ((s.hmacKey.filter fun k => !k.isEmpty), ·)))
      ((calls.filter fun call => Returns s call).map AppendCall.payload) := by
  induction calls generalizing prev n with
  | nil => exact .nil
  | cons call calls ih =>
      rw [List.map_cons, entries, written_filter]
      by_cases hkey : ∀ k ∈ s.hmacKey, Plain k
      · cases hp : encode (.dict call.payload) with
        | none =>
            have hret : ¬ Returns s call := by
              rintro ⟨hsome, -⟩
              rw [hp] at hsome
              cases hsome
            rw [written, if_pos hkey, hp, List.filter_cons_of_neg (by simpa using hret)]
            exact ih prev n
        | some p =>
            have hret : Returns s call := ⟨by rw [hp]; rfl, hkey⟩
            rw [written, if_pos hkey, hp, List.filter_cons_of_pos (by simpa using hret)]
            exact .cons hp (ih _ _)
      · have hret : ¬ Returns s call := fun h => hkey h.2
        rw [written, if_neg hkey, List.filter_cons_of_neg (by simpa using hret)]
        exact ih prev n

theorem writtenFor_sessions (hashes : Hashlib) (prev : Str) (n : Nat)
    (sessions : List (AuditSession φ)) :
    List.Forall₂ WrittenFor (entries hashes prev n (keyedCalls sessions))
      (returnedPayloads sessions) := by
  induction sessions generalizing prev n with
  | nil => exact .nil
  | cons s sessions ih =>
      rw [keyedCalls_cons, entries_append, returnedPayloads, List.flatMap_cons]
      exact List.rel_append (writtenFor_calls hashes prev n s s.calls) (ih _ _)

/-- The documents are sorted exactly when the payloads are stable. -/
theorem sorted_iff_stable {es : List (Entry φ)} {ps : List (Obj φ)}
    (h : List.Forall₂ WrittenFor es ps) :
    (∀ e ∈ es, Sorted (joinDoc e.payload)) ↔ ∀ p ∈ ps, keyStable (.dict p) = true := by
  induction h with
  | nil => simp
  | cons hp _ ih => rw [List.forall_mem_cons, List.forall_mem_cons, ih, keyStable_iff _ hp]

/-! ## Crash and recovery -/

/-- A cut of a chain file at a byte is one at a character. -/
theorem utf8_crash_fileText (es : List (Entry φ)) (n : Nat) :
    utf8 (crash (fileText es) n) = (utf8 (fileText es)).take n := by
  rw [fileText_eq]
  exact utf8_crash (printable_lines es) n

/-- The entries of some sessions that are whole after a crash. -/
def survivors (hashes : Hashlib) (sessions : List (AuditSession φ)) (left : Str) : List (Entry φ) :=
  (entries hashes genesisHash 0 (keyedCalls sessions)).take (left.count newline)

/-- The digest does not confuse the text that an entry was hashed over with the
text that the verifier hashes, for what is in the file in the end. -/
def RecoveredCollisionFree (hashes : Hashlib) (sessions : List (AuditSession φ)) (left : Str)
    (s : AuditSession φ) : Prop :=
  ∀ e ∈ survivors hashes sessions left ++ newEntries hashes (survivors hashes sessions left) s,
    hashes.sha256 e.hashText = hashes.sha256 e.reread.hashText → e.hashText = e.reread.hashText

/-- Every entry of the recovered file has stable keys. -/
theorem recovered_sorted_iff (hashes : Hashlib) (sessions : List (AuditSession φ)) (left : Str)
    (s : AuditSession φ) :
    (∀ e ∈ survivors hashes sessions left ++ newEntries hashes (survivors hashes sessions left) s,
        Sorted (joinDoc e.payload)) ↔
      (∀ p ∈ (returnedPayloads sessions).take (left.count newline), keyStable (.dict p) = true) ∧
        ∀ call ∈ s.calls, Returns s call → keyStable (.dict call.payload) = true := by
  have hold := List.forall₂_take (left.count newline)
    (writtenFor_sessions hashes genesisHash 0 sessions)
  have hnew := writtenFor_sessions hashes (tailHash genesisHash (survivors hashes sessions left))
    (survivors hashes sessions left).length [s]
  rw [List.forall_mem_append, survivors, sorted_iff_stable hold]
  refine and_congr_right fun _ => ?_
  rw [newEntries, ← survivors, sorted_iff_stable hnew]
  simp only [returnedPayloads, List.flatMap_singleton, List.mem_map, List.mem_filter,
    decide_eq_true_eq, forall_exists_index, and_imp]
  exact ⟨fun h call hc hret => h _ call hc hret rfl, fun h p call hc hret he => he ▸ h call hc hret⟩

/-- A chain file is cut at any byte, the chain is opened again, and entries are
appended.  The file recovers exactly when the cut falls between two lines and the
keys of every payload in the file keep their order as text. -/
theorem crash_recovery_iff (hashes : Hashlib) {sessions : List (AuditSession φ)} {content : Str}
    {m : Nat} (hrun : runSessions hashes none sessions = .ok (some content, m)) (n : Nat)
    {s : AuditSession φ} (hcall : ∃ call ∈ s.calls, Returns s call)
    (hcf : RecoveredCollisionFree hashes sessions (crash content n) s) :
    Recovers hashes (crash content n) s ↔
      AtLineEnd (crash content n) ∧
        (∀ p ∈ (returnedPayloads sessions).take ((crash content n).count newline),
          keyStable (.dict p) = true) ∧
        ∀ call ∈ s.calls, Returns s call → keyStable (.dict call.payload) = true := by
  have hlinked := linked_entries hashes hex_genesisHash 0 (keyedCalls sessions)
  have hnew : ∀ es, newEntries hashes es s ≠ [] := by
    intro es hnil
    obtain ⟨call, hmem, hret⟩ := hcall
    have hpay := writtenFor_sessions hashes (tailHash genesisHash es) es.length [s]
    rw [newEntries] at hnil
    rw [hnil] at hpay
    have hnone : returnedPayloads [s] = [] := List.forall₂_nil_left_iff.1 hpay
    have hin : call.payload ∈ returnedPayloads [s] := by
      simp only [returnedPayloads, List.flatMap_singleton]
      exact List.mem_map_of_mem (List.mem_filter.2 ⟨hmem, by simpa using hret⟩)
    rw [hnone] at hin
    cases hin
  have hcontent : content = fileText (entries hashes genesisHash 0 (keyedCalls sessions)) := by
    rw [runSessions_eq hashes sessions [] trivial rfl, Except.ok.injEq, Prod.mk.injEq] at hrun
    have hget := congrArg (Option.getD · []) hrun.1
    rw [fileAfter_getD] at hget
    exact hget.symm
  rw [← recovered_sorted_iff hashes sessions (crash content n) s]
  have hcut := cut_crash ((entries hashes genesisHash 0 (keyedCalls sessions)).map Entry.line) n
  rcases hcut with ⟨ls, rest, hlines, hleft, -⟩ | ⟨ls, rest, l, part, hlines, hleft, hpart, hne, -⟩
  · -- between two lines
    rw [← fileText_eq, ← hcontent] at hleft
    obtain ⟨ds, rest, hes, rfl, -⟩ := List.map_eq_append_iff.1 hlines
    have hds : Linked hashes genesisHash 0 ds := (hes ▸ hlinked).left
    have hsurvive : survivors hashes sessions (crash content n) = ds := by
      rw [survivors, hleft, count_newline (printable_lines ds), hes, List.length_map,
        List.take_left]
    rw [RecoveredCollisionFree, hsurvive] at hcf
    have hend := atLineEnd_linesText (ds.map Entry.line)
    rw [hsurvive, hleft, ← fileText_eq, recovers_between_iff hds s (hnew ds)]
    rw [← fileText_eq] at hend
    refine ⟨fun h => ⟨hend, fun e he => ?_⟩, fun h e he => ?_⟩
    · rw [← e.hashText_reread_iff]
      exact hcf e he ((Linked.hash_eq (linked_all hds s) he).symm.trans (h e he))
    · rw [← (e.hashText_reread_iff).2 (h.2 e he)]
      exact Linked.hash_eq (linked_all hds s) he
  · -- inside a line
    rw [← fileText_eq, ← hcontent] at hleft
    obtain ⟨ds, rest, hes, rfl, hrest⟩ := List.map_eq_append_iff.1 hlines
    obtain ⟨e, rest, rfl, rfl, -⟩ := List.map_eq_cons_iff.1 hrest
    have hlinked : Linked hashes genesisHash 0 (ds ++ [e]) := by
      have happ : ds ++ e :: rest = (ds ++ [e]) ++ rest := by simp
      rw [hes, happ] at hlinked
      exact hlinked.left
    have hend := not_atLineEnd_inside (ds.map Entry.line) (printable_part hpart) hne
    rw [hleft]
    refine ⟨fun h => ?_, fun h => absurd h.1 hend⟩
    rw [← fileText_eq] at h
    exact absurd h (not_recovers_inside hlinked hpart hne hnew)

/-! ## Two crashes -/

/-- A session with no key that appends some entries. -/
def lookSession (count : Nat) : AuditSession WholeFloat := ⟨none, List.replicate count (decisionCall [])⟩

/-- The file of `lookSession 1`. -/
def lookContent : Str := fileText (entries hashlib genesisHash 0 (keyedCalls [lookSession 1]))

/-- Sessions that begin without a file. -/
theorem runSessions_none (hashes : Hashlib) (sessions : List (AuditSession φ))
    (hsome : entries hashes genesisHash 0 (keyedCalls sessions) ≠ []) :
    runSessions hashes none sessions =
      .ok (some (fileText (entries hashes genesisHash 0 (keyedCalls sessions))),
        (entries hashes genesisHash 0 (keyedCalls sessions)).length) := by
  have hrun := runSessions_eq hashes sessions [] trivial
    (show (none : Option Str).getD [] = fileText ([] : List (Entry φ)) from rfl)
  rw [tailHash, List.foldl_nil, List.length_nil, fileAfter, if_neg (by rwa [List.isEmpty_iff])] at hrun
  exact hrun

/-- The file of one entry is cut in its line and two entries are appended: the
first of them shares the line and is not read, the second is linked to it. -/
theorem torn_line_swallows_entry :
    runSessions hashlib none [lookSession 1] = .ok (some lookContent, 1) ∧
      (do
        let (file, k) ← runSessions hashlib (some (crash lookContent 20)) [lookSession 2]
        let verdict ← verifyAuditFile WholeFloat hashlib file none
        return (k, verdict)).toOption =
        some (2, false,
          [.atLine 1 .malformed, .atLine 2 .brokenLinkage, .atLine 2 (.sequenceGap 1)], 1) ∧
      ¬ Recovers hashlib (crash lookContent 20) (lookSession 2) := by
  have hwritten : (entries hashlib genesisHash 0 (keyedCalls [lookSession 1])).length = 1 := by
    rw [(writtenFor_sessions hashlib genesisHash 0 [lookSession 1]).length_eq]
    decide +kernel
  have hfirst : runSessions hashlib none [lookSession 1] = .ok (some lookContent, 1) := by
    rw [runSessions_none, hwritten, lookContent]
    intro hnil
    rw [hnil] at hwritten
    cases hwritten
  have hsecond : (do
      let (file, k) ← runSessions hashlib (some (crash lookContent 20)) [lookSession 2]
      let verdict ← verifyAuditFile WholeFloat hashlib file none
      return (k, verdict, (entriesIn WholeFloat (file.getD [])).length)).toOption =
        some (2, (false,
          [.atLine 1 .malformed, .atLine 2 .brokenLinkage, .atLine 2 (.sequenceGap 1)], 1), 1) := by
    decide +kernel
  generalize crash lookContent 20 = left at hsecond ⊢
  cases hrun : runSessions hashlib (some left) [lookSession 2] with
  | error e =>
      rw [hrun] at hsecond
      cases hsecond
  | ok written =>
      obtain ⟨file, k⟩ := written
      rw [hrun] at hsecond
      dsimp only [bind, Except.bind] at hsecond ⊢
      cases hverdict : verifyAuditFile WholeFloat hashlib file none with
      | error e =>
          rw [hverdict] at hsecond
          cases hsecond
      | ok verdict =>
          rw [hverdict] at hsecond
          obtain ⟨hk, hsecond⟩ := Prod.mk.inj (Option.some.inj hsecond)
          obtain ⟨hverdict', hone⟩ := Prod.mk.inj hsecond
          refine ⟨hfirst, by rw [← hverdict', ← hk]; rfl, ?_⟩
          rintro ⟨file', k', new, hrun', hlen, heq, -⟩
          rw [hrun] at hrun'
          obtain ⟨hfile, hk'⟩ := Prod.mk.inj (Except.ok.inj hrun')
          have hmore := congrArg List.length heq
          rw [List.length_append, hlen] at hmore
          rw [hfile, Option.getD_some] at hone
          omega

/-- The file of two sessions is cut after its first line and an entry is appended. -/
theorem recovers_after_first_line :
    ∃ content m, runSessions hashlib none textKeys = .ok (some content, m) ∧
      ∃ n, (crash content n).count newline = 1 ∧
        Recovers hashlib (crash content n) (lookSession 1) := by
  generalize hes : entries hashlib genesisHash 0 (keyedCalls textKeys) = es
  have hlength : es.length = 2 := by
    rw [← hes, (writtenFor_sessions hashlib genesisHash 0 textKeys).length_eq]
    decide +kernel
  have hrun : runSessions hashlib none textKeys = .ok (some (fileText es), es.length) := by
    rw [← hes]
    refine runSessions_none hashlib textKeys ?_
    intro hnil
    rw [hes] at hnil
    rw [hnil] at hlength
    cases hlength
  have hleft : crash (fileText es) (fileText (es.take 1)).length = fileText (es.take 1) := by
    have hsplit : fileText es = fileText (es.take 1) ++ fileText (es.drop 1) := by
      conv_lhs => rw [← List.take_append_drop 1 es]
      exact List.flatMap_append
    rw [crash, hsplit, List.take_left]
  have hold : ∀ p ∈ (returnedPayloads textKeys).take
      ((crash (fileText es) (fileText (es.take 1)).length).count newline),
      keyStable (.dict p) = true := by
    have hall : ((returnedPayloads textKeys).all fun p => keyStable (.dict p)) = true := by
      decide +kernel
    exact fun p hp => List.all_eq_true.1 hall p (List.take_subset _ _ hp)
  have hnew : ∀ call ∈ (lookSession 1).calls, Returns (lookSession 1) call →
      keyStable (.dict call.payload) = true := by
    intro call hcall _
    rw [List.eq_of_mem_replicate hcall]
    rfl
  have hcf : RecoveredCollisionFree hashlib textKeys
      (crash (fileText es) (fileText (es.take 1)).length) (lookSession 1) := by
    intro e he _
    rw [e.hashText_reread_iff]
    exact (recovered_sorted_iff hashlib textKeys _ (lookSession 1)).2 ⟨hold, hnew⟩ e he
  refine ⟨_, _, hrun, (fileText (es.take 1)).length, ?_, ?_⟩
  · rw [hleft, fileText_eq, count_newline (printable_lines _), List.length_map, List.length_take,
      hlength]
    rfl
  · apply (crash_recovery_iff hashlib hrun _ _ hcf).2
    · exact ⟨by rw [hleft, fileText_eq]; exact atLineEnd_linesText _, hold, hnew⟩
    · exact ⟨_, List.mem_cons_self, by decide +kernel⟩

end ShugoCore
