import ShugoCore.Audit.Within

/-!
# Files that are judged

`verify_audit_file` and the opening of a chain, over any text.  A line that is no JSON is reported
under the guard of the parser.  What is done with a parsed line stands outside of it: its `get` is
called, its `seq` is converted, its `prev_hash` is encoded, and whatever these raise comes out of the
verifier.  So does the `RecursionError` of a line that nests too deep, which the guard misses.

A file is judged if and only if no line is too deep, each line that is read is an object whose fields
convert, and no line with a number of another kind is otherwise in order (`file_judged_iff`).  A chain
opens on every file that the verifier gets through.
-/

namespace ShugoCore

open Py Verification

section

variable {φ : Type} [Builtins φ]

/-! ## Entries that are checked -/

/-- An entry whose fields the verifier can convert. -/
structure Convertible (key : Option Str) (e : Obj φ) : Prop where
  link : Plain (strOf (fetch (lit "prev_hash") e))
  seq : ∃ n, intOf ((getKey (lit "seq") e).getD (.int (-1))) = .ok n
  key : ∀ k ∈ key, k ≠ [] → truthy (fetch (lit "hmac") e) = true → Plain k

/-- An entry that carries the HMAC of a key, if there is one. -/
def Authentic (hashes : Hashlib) (key : Option Str) (e : Obj φ) : Prop :=
  ∀ k ∈ key, k ≠ [] → ∃ hmac, hmac ≠ [] ∧ fetch (lit "hmac") e = .str hmac ∧
    entryHmac hashes k (e.filter fun i => keyNotIn [lit "hmac"] i.1) = .ok hmac

theorem hashText_returns_iff (prev : Str) (ms : List (Str × Json φ)) :
    (∃ text, hashText prev (loadDict ms) = .ok text) ↔ Plain prev := by
  constructor
  · rintro ⟨text, htext⟩
    rw [hashText, canonicalJson, dumps, encode_loadDict] at htext
    simp only [Option.map_some, encodable] at htext
    split at htext
    · rename_i hplain
      exact fun c hc => hplain c (List.mem_append_left _ hc)
    · cases htext
  · intro hprev
    exact ⟨_, hashText_of_encode hprev (encode_loadDict ms)⟩

theorem entryHmac_returns_iff (hashes : Hashlib) (key : Str) (ms : List (Str × Json φ)) :
    (∃ hmac, entryHmac hashes key (loadDict ms) = .ok hmac) ↔ Plain key := by
  have hjson : canonicalJson (.dict (loadDict ms)) = some (render compact
      (.obj (sortMembers (ms.map fun m => (m.1, canon m.2))))) := by
    rw [canonicalJson, dumps, encode_loadDict]
    rfl
  rw [entryHmac, hjson, encodable]
  split
  · rename_i hplain
    exact iff_of_true ⟨_, rfl⟩ hplain
  · rename_i hplain
    refine iff_of_false ?_ hplain
    rintro ⟨hmac, h⟩
    cases h

theorem hmacProblems_returns_iff (hashes : Hashlib) (key : Option Str) (ms : List (Str × Json φ)) :
    (∃ problems, hmacProblems hashes key (loadDict ms) = .ok problems) ↔
      ∀ k ∈ key, k ≠ [] → truthy (fetch (lit "hmac") (loadDict ms)) = true → Plain k := by
  rcases key_cases key with hnone | ⟨k, rfl, hk⟩
  · rw [hmacProblems_no_key hnone]
    exact iff_of_true ⟨_, rfl⟩ fun k hmem hk => absurd (hnone k hmem) hk
  · rw [hmacProblems_key hk, filter_loadDict (keyNotIn [lit "hmac"])]
    split
    · rename_i hsigned
      have hreturns := entryHmac_returns_iff hashes k
        (ms.filter fun m => keyNotIn [lit "hmac"] (.str m.1 : Key φ))
      constructor
      · rintro ⟨problems, hproblems⟩ k' hk' - -
        cases hk'
        cases hhmac : entryHmac hashes k (loadDict (ms.filter fun m =>
            keyNotIn [lit "hmac"] (.str m.1 : Key φ))) with
        | error exn =>
            rw [hhmac] at hproblems
            cases hproblems
        | ok hmac => exact hreturns.1 ⟨hmac, hhmac⟩
      · intro hplain
        obtain ⟨hmac, hhmac⟩ := hreturns.2 (hplain k rfl hk hsigned)
        rw [hhmac]
        exact ⟨_, rfl⟩
    · rename_i hunsigned
      exact iff_of_true ⟨_, rfl⟩ fun k' _ _ hsigned => absurd hsigned hunsigned

theorem hmacProblems_eq_nil_iff {hashes : Hashlib} {key : Option Str} {e : Obj φ}
    {problems : List AuditProblem} (h : hmacProblems hashes key e = .ok problems) :
    problems = [] ↔ Authentic hashes key e := by
  rcases key_cases key with hnone | ⟨k, rfl, hk⟩
  · rw [hmacProblems_no_key hnone] at h
    cases h
    exact iff_of_true rfl fun k hmem hk => absurd (hnone k hmem) hk
  · rw [hmacProblems_key hk] at h
    split at h
    · rename_i hsigned
      cases hhmac : entryHmac hashes k (e.filter fun i => keyNotIn [lit "hmac"] i.1) with
      | error exn =>
          rw [hhmac] at h
          cases h
      | ok hmac =>
          rw [hhmac] at h
          cases h
          dsimp only
          constructor
          · intro hnil k' hk' _
            cases hk'
            have hstored : isText hmac (fetch (lit "hmac") e) = true := by
              by_contra hne
              rw [if_neg hne] at hnil
              cases hnil
            have htext := isText_iff.1 hstored
            refine ⟨hmac, ?_, htext, hhmac⟩
            rintro rfl
            rw [htext] at hsigned
            cases hsigned
          · intro hauthentic
            obtain ⟨stored, -, htext, hstored⟩ := hauthentic k rfl hk
            cases hhmac.symm.trans hstored
            rw [if_pos (isText_iff.2 htext)]
    · rename_i hunsigned
      cases h
      refine iff_of_false (List.cons_ne_nil _ _) fun hauthentic => hunsigned ?_
      obtain ⟨stored, hne, htext, -⟩ := hauthentic k rfl hk
      rw [htext]
      cases stored with
      | nil => exact absurd rfl hne
      | cons c stored => rfl

omit [Builtins φ] in
/-- The fields of an entry are those of its hashed body. -/
theorem fetch_hashedBody {k : Str} (hk : k ∉ [lit "hash", lit "hmac"]) (e : Obj φ) :
    getKey k (hashedBody e) = getKey k e :=
  getKey_filter (p := keyNotIn [lit "hash", lit "hmac"]) (by simpa [keyNotIn] using hk) e

/-- An entry is checked to the end if and only if its fields convert. -/
theorem entryProblems_returns_iff (hashes : Hashlib) (key : Option Str) (v : Verification)
    {ms : List (Str × Json φ)} {e : Obj φ} (he : e = loadDict ms) :
    (∃ problems, v.entryProblems hashes key e = .ok problems) ↔ Convertible key e := by
  have hbody : hashedBody e = loadDict (ms.filter fun m =>
      keyNotIn [lit "hash", lit "hmac"] (.str m.1 : Key φ)) := by
    rw [hashedBody, he, filter_loadDict (keyNotIn [lit "hash", lit "hmac"])]
  have htext : (∃ text, verifiedText e = .ok text) ↔ Plain (strOf (fetch (lit "prev_hash") e)) := by
    rw [verifiedText, hbody, hashText_returns_iff, ← hbody, fetch,
      fetch_hashedBody (k := lit "prev_hash") (by decide)]
    rfl
  have hhmac := hmacProblems_returns_iff hashes key ms
  rw [← he] at hhmac
  rw [entryProblems_eq, fetch_hashedBody (k := lit "seq") (by decide)]
  constructor
  · rintro ⟨problems, hproblems⟩
    obtain ⟨text, ht, hproblems⟩ := ok_of_bind hproblems
    obtain ⟨seq, hseq, hproblems⟩ := ok_of_bind hproblems
    obtain ⟨hmacs, hh, -⟩ := ok_of_bind hproblems
    exact ⟨htext.1 ⟨text, ht⟩, ⟨seq, hseq⟩, hhmac.1 ⟨hmacs, hh⟩⟩
  · intro hconvertible
    obtain ⟨text, ht⟩ := htext.2 hconvertible.link
    obtain ⟨seq, hseq⟩ := hconvertible.seq
    obtain ⟨hmacs, hh⟩ := hhmac.2 hconvertible.key
    rw [ht, hseq, hh]
    exact ⟨_, rfl⟩

/-- Nothing is wrong with an entry if and only if it is checked and authentic. -/
theorem entryProblems_eq_nil_iff {hashes : Hashlib} {key : Option Str} {v : Verification} {e : Obj φ}
    {problems : List AuditProblem} {hash : Str}
    (h : v.entryProblems hashes key e = .ok (problems, hash)) :
    hash = storedHash e ∧
      (problems = [] ↔ Checked hashes v.expectedPrev v.expectedSeq e ∧ Authentic hashes key e) := by
  obtain ⟨hhash, hmacs, hh, hproblems⟩ := entryProblems_spec h
  exact ⟨hhash, hproblems.trans (and_congr_right' (hmacProblems_eq_nil_iff hh))⟩

/-! ## Lines -/

variable (L : Limits φ)

/-- The entry of a line, if it is one. -/
def entryOn (line : Str) : Option (Obj φ) :=
  match L.loads (strip line) with
  | .ok (.dict entry) => some entry
  | _ => none

/-- A line that the verifier gets through. -/
structure Readable (key : Option Str) (line : Str) : Prop where
  shallow : strip line ≠ [] → L.loadsTooDeep (strip line) = false
  entry : ∀ v, L.loads (strip line) = .ok v → ∃ e, v = .dict e ∧ Fits L key e ∧ Convertible key e

variable {L}

/-- The entry that is read within the limits is the one that is read without them. -/
theorem lineEntry_of_entryOn {line : Str} {e : Obj φ} (h : entryOn L line = some e) :
    lineEntry φ line = some e := by
  rw [entryOn] at h
  split at h
  · rename_i entry hload
    cases h
    rw [lineEntry, (Limits.loads_eq_ok_iff.1 hload).2]
  · cases h

theorem loads_of_entryOn {line : Str} {e : Obj φ} (h : entryOn L line = some e) :
    L.loads (strip line) = .ok (.dict e) := by
  rw [entryOn] at h
  split at h
  · rename_i entry hload
    cases h
    exact hload
  · cases h

theorem entryOn_of_loads {line : Str} {e : Obj φ} (h : L.loads (strip line) = .ok (.dict e)) :
    entryOn L line = some e := by
  rw [entryOn, h]

theorem entryOn_of_error {line : Str} {exn : Exn} (h : L.loads (strip line) = .error exn) :
    entryOn L line = none := by
  rw [entryOn, h]

/-- A blank line is no JSON. -/
theorem not_loads_blank {line : Str} (h : strip line = []) {v : PyVal φ} :
    L.loads (strip line) ≠ .ok v := by
  intro hload
  have hnone := loads_blank (φ := φ) h
  rw [(Limits.loads_eq_ok_iff.1 hload).2] at hnone
  cases hnone

/-- What the check of a line can do: it finds no entry, and complains unless the line is blank, or it
checks the entry. -/
theorem lineWithin_cases {hashes : Hashlib} {key : Option Str} {v w : Verification} {line : Str}
    {n : Nat} (h : Verification.lineWithin L hashes key v (line, n) = .ok w) :
    (strip line = [] ∧ w = v) ∨
    (strip line ≠ [] ∧ L.loads (strip line) = .error .valueError ∧
      w = { v with errors := v.errors ++ [.atLine n .malformed] }) ∨
    ∃ e found, L.loads (strip line) = .ok (.dict e) ∧ Fits L key e ∧
      v.entryProblems hashes key e = .ok found ∧
      w = { errors := v.errors ++ found.1.map (.atLine n)
            expectedPrev := found.2
            expectedSeq := v.expectedSeq + 1
            checked := v.checked + 1 } := by
  rw [Verification.lineWithin] at h
  dsimp only at h
  split at h
  · rename_i hblank
    cases h
    exact .inl ⟨hblank, rfl⟩
  · rename_i hfull
    right
    split at h
    · rename_i hload
      cases h
      exact .inl ⟨hfull, hload, rfl⟩
    · cases h
    · rename_i e hload
      obtain ⟨found, hfound, h⟩ := ok_of_bind h
      cases h
      obtain ⟨hfits, hfound⟩ := entryProblemsWithin_eq_ok_iff.1 hfound
      exact .inr ⟨e, found, hload, hfits, hfound, rfl⟩
    · cases h

/-- A line of a file that may have been read: its entry is one that is read. -/
def Loaded (φ : Type) [Builtins φ] (line : Str) : Prop :=
  ∀ e : Obj φ, lineEntry φ line = some e → ∃ ms, e = loadDict ms

theorem line_returns_iff {hashes : Hashlib} {key : Option Str} {line : Str} (hline : Loaded φ line)
    (v : Verification) (n : Nat) :
    (∃ w, Verification.lineWithin L hashes key v (line, n) = .ok w) ↔ Readable L key line := by
  constructor
  · rintro ⟨w, hw⟩
    rcases lineWithin_cases hw with ⟨hblank, -⟩ | ⟨-, hload, -⟩ | ⟨e, found, hload, hfits, hfound, -⟩
    · exact ⟨fun hfull => absurd hblank hfull, fun v hload => absurd hload (not_loads_blank hblank)⟩
    · refine ⟨fun _ => ?_, fun v hload' => ?_⟩
      · cases hdeep : L.loadsTooDeep (strip line) with
        | false => rfl
        | true =>
            rw [Limits.loads, hdeep] at hload
            cases hload
      · cases hload.symm.trans hload'
    · refine ⟨fun _ => (Limits.loads_eq_ok_iff.1 hload).1.shallow, fun v hload' => ?_⟩
      cases hload.symm.trans hload'
      obtain ⟨ms, hms⟩ := hline e (lineEntry_of_entryOn (entryOn_of_loads hload))
      exact ⟨e, rfl, hfits, (entryProblems_returns_iff hashes key _ hms).1 ⟨found, hfound⟩⟩
  · intro hreadable
    rw [Verification.lineWithin]
    dsimp only
    split
    · exact ⟨v, rfl⟩
    · rename_i hfull
      cases hload : L.loads (strip line) with
      | error exn =>
          rcases Limits.loads_error hload with rfl | ⟨-, hdeep⟩
          · exact ⟨_, rfl⟩
          · cases (hreadable.shallow hfull).symm.trans hdeep
      | ok value =>
          obtain ⟨e, rfl, hfits, hconvertible⟩ := hreadable.entry value hload
          obtain ⟨ms, hms⟩ := hline e (lineEntry_of_entryOn (entryOn_of_loads hload))
          obtain ⟨found, hfound⟩ := (entryProblems_returns_iff hashes key v hms).2 hconvertible
          dsimp only
          rw [entryProblemsWithin_eq_ok_iff.2 ⟨hfits, hfound⟩]
          exact ⟨_, rfl⟩

/-- The verifier gets through the lines that are each readable. -/
theorem lines_return_iff {hashes : Hashlib} {key : Option Str} {lines : List Str}
    (hlines : ∀ line ∈ lines, Loaded φ line) (v : Verification) (n : Nat) :
    (∃ w, (lines.zipIdx n).foldlM (Verification.lineWithin L hashes key) v = .ok w) ↔
      ∀ line ∈ lines, Readable L key line := by
  induction lines generalizing v n with
  | nil => exact iff_of_true ⟨v, rfl⟩ (List.forall_mem_nil _)
  | cons line lines ih =>
      obtain ⟨hline, hlines⟩ := List.forall_mem_cons.1 hlines
      have hfirst : (∃ w, Verification.lineWithin L hashes key v (line, n) = .ok w) ↔
          Readable L key line := line_returns_iff hline v n
      rw [List.zipIdx_cons, List.foldlM_cons, List.forall_mem_cons, ← hfirst]
      constructor
      · rintro ⟨w, hw⟩
        obtain ⟨u, hu, hw⟩ := ok_of_bind hw
        exact ⟨⟨u, hu⟩, (ih hlines u (n + 1)).1 ⟨w, hw⟩⟩
      · rintro ⟨⟨u, hu⟩, hrest⟩
        rw [hu]
        exact (ih hlines u (n + 1)).2 hrest

/-! ## What is reported -/

/-- What the check of a line leaves: the entry on it, if there is one, is counted, and its hash is
the next one to be named. -/
theorem line_leaves {hashes : Hashlib} {key : Option Str} {v w : Verification} {line : Str} {n : Nat}
    (h : Verification.lineWithin L hashes key v (line, n) = .ok w) :
    w.expectedPrev = ((entryOn L line).map storedHash).getD v.expectedPrev ∧
      w.expectedSeq = v.expectedSeq + (entryOn L line).toList.length ∧
      ∃ problems : List AuditProblem, w.errors = v.errors ++ problems.map (.atLine n) ∧
        (∀ e, entryOn L line = some e →
          (problems = [] ↔ Checked hashes v.expectedPrev v.expectedSeq e ∧ Authentic hashes key e)) ∧
        (strip line ≠ [] → entryOn L line = none → problems ≠ []) := by
  rcases lineWithin_cases h with ⟨hblank, rfl⟩ | ⟨hfull, hload, rfl⟩ | ⟨e, found, hload, -, hfound, rfl⟩
  · have hnone : entryOn L line = none := by
      cases hentry : entryOn L line with
      | none => rfl
      | some e => exact absurd (loads_of_entryOn hentry) (not_loads_blank hblank)
    rw [hnone]
    refine ⟨rfl, rfl, [], (List.append_nil _).symm, ?_, fun hfull => absurd hblank hfull⟩
    intro e he
    cases he
  · rw [entryOn_of_error hload]
    refine ⟨rfl, rfl, [.malformed], rfl, ?_, fun _ _ => List.cons_ne_nil _ _⟩
    intro e he
    cases he
  · obtain ⟨hhash, hproblems⟩ := entryProblems_eq_nil_iff hfound
    rw [entryOn_of_loads hload]
    refine ⟨hhash, rfl, found.1, rfl, ?_, fun _ hnone => nomatch hnone⟩
    intro e' he'
    cases he'
    exact hproblems

/-- After some lines, the verifier expects the hash and the number after their entries, and has
complained about lines with their numbers only. -/
theorem lines_leave {hashes : Hashlib} {key : Option Str} {lines : List Str} {v w : Verification}
    {n : Nat} (h : (lines.zipIdx n).foldlM (Verification.lineWithin L hashes key) v = .ok w) :
    w.expectedPrev = hashAfter v.expectedPrev (lines.filterMap (entryOn L)) ∧
      w.expectedSeq = v.expectedSeq + (lines.filterMap (entryOn L)).length ∧
      ∃ errors, w.errors = v.errors ++ errors ∧
        ∀ err ∈ errors, ∃ m problem, err = .atLine m problem ∧ n ≤ m ∧ m < n + lines.length := by
  induction lines generalizing v n with
  | nil =>
      cases h
      exact ⟨rfl, rfl, [], (List.append_nil _).symm, List.forall_mem_nil _⟩
  | cons line lines ih =>
      rw [List.zipIdx_cons, List.foldlM_cons] at h
      obtain ⟨u, hu, h⟩ := ok_of_bind h
      obtain ⟨hprev, hseq, problems, hproblems, -, -⟩ := line_leaves hu
      obtain ⟨hprev', hseq', errors, herrors, hnumbers⟩ := ih h
      refine ⟨?_, ?_, problems.map (.atLine n) ++ errors, ?_, ?_⟩
      · rw [hprev', hprev]
        cases hentry : entryOn L line with
        | none => rw [List.filterMap_cons_none hentry]; rfl
        | some e =>
            rw [List.filterMap_cons_some hentry]
            cases hrest : lines.filterMap (entryOn L) with
            | nil => rfl
            | cons d ds => simp [hashAfter, List.getLast?_cons]
      · rw [hseq', hseq]
        cases hentry : entryOn L line with
        | none => rw [List.filterMap_cons_none hentry]; rfl
        | some e =>
            rw [List.filterMap_cons_some hentry, List.length_cons]
            show v.expectedSeq + 1 + _ = _
            omega
      · rw [herrors, hproblems, List.append_assoc]
      · intro err herr
        rw [List.length_cons]
        rcases List.mem_append.1 herr with herr | herr
        · obtain ⟨problem, -, rfl⟩ := List.mem_map.1 herr
          exact ⟨n, problem, rfl, le_rfl, by omega⟩
        · obtain ⟨m, problem, rfl, hle, hlt⟩ := hnumbers err herr
          exact ⟨m, problem, rfl, by omega, by omega⟩

/-- An entry that nothing is wrong with, after some entries of a file. -/
def InOrder (hashes : Hashlib) (key : Option Str) (before : List (Obj φ)) (e : Obj φ) : Prop :=
  Checked hashes (hashAfter genesisHash before) (before.length + 1) e ∧ Authentic hashes key e

/-- What is reported of a line: its problems, of which there are none if and only if its entry is in
order. -/
theorem line_reported {hashes : Hashlib} {key : Option Str} {before after : List Str} {line : Str}
    {w : Verification}
    (h : ((before ++ line :: after).zipIdx 1).foldlM (Verification.lineWithin L hashes key) .start =
      .ok w) :
    ∃ problems : List AuditProblem,
      ((∃ problem, AuditError.atLine (before.length + 1) problem ∈ w.errors) ↔ problems ≠ []) ∧
      (∀ e, entryOn L line = some e →
        (problems = [] ↔ InOrder hashes key (before.filterMap (entryOn L)) e)) ∧
      (strip line ≠ [] → entryOn L line = none → problems ≠ []) := by
  rw [List.zipIdx_append, List.foldlM_append] at h
  obtain ⟨u, hbefore, h⟩ := ok_of_bind h
  rw [List.zipIdx_cons, List.foldlM_cons] at h
  obtain ⟨u', hline, hafter⟩ := ok_of_bind h
  obtain ⟨hprev, hseq, errors, herrors, hnumbers⟩ := lines_leave hbefore
  obtain ⟨-, -, problems, hproblems, hnil, hmalformed⟩ := line_leaves hline
  obtain ⟨-, -, errors', herrors', hnumbers'⟩ := lines_leave hafter
  have hseq' : u.expectedSeq = (before.filterMap (entryOn L)).length + 1 := by
    rw [hseq, Nat.add_comm]
    rfl
  rw [hprev, hseq'] at hnil
  refine ⟨problems, ?_, hnil, hmalformed⟩
  rw [herrors', hproblems, herrors, Nat.add_comm before.length]
  constructor
  · rintro ⟨problem, hmem⟩ rfl
    simp only [Verification.start, List.nil_append, List.map_nil, List.append_nil,
      List.mem_append] at hmem
    rcases hmem with hmem | hmem
    · obtain ⟨m, problem', heq, -, hlt⟩ := hnumbers _ hmem
      cases heq
      omega
    · obtain ⟨m, problem', heq, hle, -⟩ := hnumbers' _ hmem
      cases heq
      omega
  · intro hne
    obtain ⟨problem, hproblem⟩ := List.exists_mem_of_ne_nil _ hne
    refine ⟨problem, List.mem_append_left _ (List.mem_append_right _ ?_)⟩
    exact List.mem_map.2 ⟨problem, hproblem, rfl⟩

/-- A line is reported if and only if its entry is not in order. -/
theorem reported_iff {hashes : Hashlib} {key : Option Str} {before after : List Str} {line : Str}
    {e : Obj φ} {w : Verification} (he : entryOn L line = some e)
    (h : ((before ++ line :: after).zipIdx 1).foldlM (Verification.lineWithin L hashes key) .start =
      .ok w) :
    (∃ problem, AuditError.atLine (before.length + 1) problem ∈ w.errors) ↔
      ¬ InOrder hashes key (before.filterMap (entryOn L)) e := by
  obtain ⟨problems, hreported, hnil, -⟩ := line_reported h
  rw [hreported, Ne, hnil e he]

/-- A line that the parser gives up on is reported. -/
theorem reported_of_unread {hashes : Hashlib} {key : Option Str} {before after : List Str} {line : Str}
    {w : Verification} (hfull : strip line ≠ []) (hnone : entryOn L line = none)
    (h : ((before ++ line :: after).zipIdx 1).foldlM (Verification.lineWithin L hashes key) .start =
      .ok w) :
    ∃ problem, AuditError.atLine (before.length + 1) problem ∈ w.errors := by
  obtain ⟨problems, hreported, -, hmalformed⟩ := line_reported h
  exact hreported.2 (hmalformed hfull hnone)

/-! ## Opening -/

/-- A chain opens on the lines that the verifier gets through. -/
theorem adoptLine_returns {key : Option Str} {line : Str} (h : Readable L key line) (c : AuditChain) :
    ∃ c', AuditChain.adoptLineWithin L c line = .ok c' := by
  rw [AuditChain.adoptLineWithin]
  split
  · exact ⟨c, rfl⟩
  · rename_i hfull
    cases hload : L.loads (strip line) with
    | error exn =>
        rcases Limits.loads_error hload with rfl | ⟨-, hdeep⟩
        · exact ⟨c, rfl⟩
        · cases (h.shallow hfull).symm.trans hdeep
    | ok value =>
        obtain ⟨e, rfl, hfits, hconvertible⟩ := h.entry value hload
        obtain ⟨seq, hseq⟩ : ∃ seq, (getKey (lit "seq") e).elim (.ok (c.seq + 1)) intOf = .ok seq := by
          obtain ⟨seq, hseq⟩ := hconvertible.seq
          cases hfield : getKey (lit "seq") e with
          | none => exact ⟨_, rfl⟩
          | some value =>
              rw [hfield, Option.getD_some] at hseq
              exact ⟨seq, hseq⟩
        obtain ⟨tail, htail⟩ : ∃ tail, (getKey (lit "hash") e).elim (.ok c.tail) L.str = .ok tail := by
          have hhash := hfits.hash
          cases hfield : getKey (lit "hash") e with
          | none => exact ⟨_, rfl⟩
          | some value =>
              rw [hfield, Option.getD_some] at hhash
              exact ⟨_, Limits.str_of_shows hhash⟩
        dsimp only
        rw [hseq]
        dsimp only
        rw [htail]
        exact ⟨_, rfl⟩

theorem adoptLines_return {key : Option Str} {lines : List Str}
    (h : ∀ line ∈ lines, Readable L key line) (c : AuditChain) :
    ∃ c', lines.foldlM (AuditChain.adoptLineWithin L) c = .ok c' := by
  induction lines generalizing c with
  | nil => exact ⟨c, rfl⟩
  | cons line lines ih =>
      obtain ⟨hline, hlines⟩ := List.forall_mem_cons.1 h
      obtain ⟨c', hc'⟩ := adoptLine_returns hline c
      rw [List.foldlM_cons, hc']
      exact ih hlines c'

/-! ## Files -/

/-- A value of a line that is no object, or whose number is no integer. -/
def Misshapen (v : PyVal φ) : Prop := ∀ e, v = .dict e → ∀ i, fetch (lit "seq") e ≠ .int i

/-- A file is judged: the verifier returns and reports what is misshapen, and a chain opens. -/
structure Judged (L : Limits φ) (hashes : Hashlib) (key : Option Str) (f : AuditFile) : Prop where
  verifies : ∃ ok errors checked,
    verifyAuditFileWithin L hashes (some f.text) key = .ok (ok, errors, checked) ∧
    ∀ before line after, fileLines f.text = before ++ line :: after →
      ∀ v : PyVal φ, loads (strip line) = some v → Misshapen v →
        ∃ problem, AuditError.atLine (before.length + 1) problem ∈ errors
  opens : ∀ openKey, ∃ c, AuditChain.initWithin L openKey (some f.text) = .ok c

/-- No line is too deep, every line that is read is an object whose fields convert, and none with a
misshapen number is otherwise in order. -/
structure Judgeable (L : Limits φ) (hashes : Hashlib) (key : Option Str) (f : AuditFile) :
    Prop where
  readable : ∀ line ∈ fileLines f.text, Readable L key line
  numbered : ∀ before line after, fileLines f.text = before ++ line :: after →
    ∀ e, entryOn L line = some e → Misshapen (.dict e) →
      ¬ InOrder hashes key (before.filterMap (entryOn L)) e

theorem verifyAuditFile_returns {hashes : Hashlib} {key : Option Str} {f : AuditFile}
    {report : Bool × List AuditError × Nat} :
    verifyAuditFileWithin L hashes (some f.text) key = .ok report ↔
      ∃ w, ((fileLines f.text).zipIdx 1).foldlM (Verification.lineWithin L hashes key) .start = .ok w ∧
        report = (w.errors.isEmpty, w.errors, w.checked) := by
  rw [verifyAuditFileWithin]
  cases hw : ((fileLines f.text).zipIdx 1).foldlM (Verification.lineWithin L hashes key) .start with
  | error exn =>
      constructor
      · intro h
        cases h
      · rintro ⟨w, h, -⟩
        cases h
  | ok w =>
      constructor
      · intro h
        cases h
        exact ⟨w, rfl, rfl⟩
      · rintro ⟨w', hw', rfl⟩
        cases hw'
        rfl

/-- For every interpreter, text, key and digest: a file is judged if and only if no line is too deep,
each line that is read is an object whose fields convert, and no line whose number is no integer is
otherwise in order. -/
theorem file_judged_iff (L : Limits φ) (hashes : Hashlib) (key : Option Str) (f : AuditFile) :
    Judged L hashes key f ↔ Judgeable L hashes key f := by
  have hloaded : ∀ line ∈ fileLines f.text, Loaded φ line := by
    intro line hline e he
    obtain ⟨ms, hms⟩ := AuditFile.isRead (f := f) (List.mem_filterMap.2 ⟨line, hline, he⟩)
    exact ⟨ms, hms.eq⟩
  have hreturns : (∃ w, ((fileLines f.text).zipIdx 1).foldlM (Verification.lineWithin L hashes key)
      .start = .ok w) ↔ ∀ line ∈ fileLines f.text, Readable L key line :=
    lines_return_iff hloaded .start 1
  constructor
  · rintro ⟨⟨ok, errors, checked, hverify, hreports⟩, -⟩
    obtain ⟨w, hw, heq⟩ := verifyAuditFile_returns.1 hverify
    cases heq
    refine ⟨hreturns.1 ⟨w, hw⟩, ?_⟩
    intro before line after hsplit e he hmisshapen
    rw [hsplit] at hw
    have hload := (Limits.loads_eq_ok_iff.1 (loads_of_entryOn he)).2
    exact (reported_iff he hw).1 (hreports before line after hsplit (.dict e) hload hmisshapen)
  · rintro ⟨hreadable, hnumbered⟩
    obtain ⟨w, hw⟩ := hreturns.2 hreadable
    refine ⟨⟨_, _, _, verifyAuditFile_returns.2 ⟨w, hw, rfl⟩, ?_⟩, fun openKey => ?_⟩
    · intro before line after hsplit v hload hmisshapen
      have hline := hreadable line (by rw [hsplit]; simp)
      rw [hsplit] at hw
      cases hwithin : L.loads (strip line) with
      | error exn =>
          -- an integer of too many digits is reported as no JSON is
          refine reported_of_unread ?_ (entryOn_of_error hwithin) hw
          intro hblank
          cases (loads_blank (φ := φ) hblank).symm.trans hload
      | ok value =>
          obtain ⟨e, rfl, -⟩ := hline.entry value hwithin
          have he := entryOn_of_loads hwithin
          cases (Limits.loads_eq_ok_iff.1 hwithin).2.symm.trans hload
          exact (reported_iff he hw).2 (hnumbered before line after hsplit e he hmisshapen)
    · exact adoptLines_return hreadable _

end

/-- A file of one list. -/
def listFile : AuditFile := ⟨lit "[]", plain_lit "[]"⟩

/-- A chain opens on a list, and the verifier raises. -/
theorem list_not_judged :
    (∃ c, AuditChain.initWithin (Limits.unlimited WholeFloat) none (some listFile.text) = .ok c) ∧
      verifyAuditFileWithin (Limits.unlimited WholeFloat) hashlib (some listFile.text) none =
        .error .attributeError ∧
      ¬ Judged (Limits.unlimited WholeFloat) hashlib none listFile := by
  have hraises : verifyAuditFileWithin (Limits.unlimited WholeFloat) hashlib (some listFile.text) none =
      .error .attributeError := by decide +kernel
  refine ⟨⟨_, by rfl⟩, hraises, fun hjudged => ?_⟩
  obtain ⟨ok, errors, checked, hverify, -⟩ := hjudged.verifies
  cases hraises.symm.trans hverify

end ShugoCore
