import ShugoCore.Audit.Chain

/-!
# Appending and verifying

A run of sessions over one path writes a list of entries, and verification of
the file reads exactly these back.  What it reads is not quite what was hashed:
the keys of the payload have become strings, and the hash is taken again with the
strings in order.  So an entry passes exactly when its payload's keys keep their
order as strings.

`Entry` is an entry as the file holds it.  `entries` lists what a run writes, and
the theorems up to `runSessions_eq` say that the run writes that.  The rest is
about the verifier reading it.
-/

namespace ShugoCore

open Py

variable {φ : Type}

/-! ## Entries -/

/-- An entry of the file.  The payload is the document that was written for it. -/
structure Entry (φ : Type) where
  seq : Nat
  timestamp : Str
  type : Str
  payload : Json φ
  prevHash : Str
  hash : Str
  hmac : Option Str

namespace Entry

/-- The members that the hash is taken over, in the order they are written. -/
def bodyMembers (e : Entry φ) : List (Str × Json φ) :=
  [(lit "payload", e.payload), (lit "prev_hash", .str e.prevHash), (lit "seq", .int e.seq),
    (lit "timestamp", .str e.timestamp), (lit "type", .str e.type)]

/-- All members, in the order they are written. -/
def members (e : Entry φ) : List (Str × Json φ) :=
  match e.hmac with
  | none => (lit "hash", .str e.hash) :: e.bodyMembers
  | some hmac => (lit "hash", .str e.hash) :: (lit "hmac", .str hmac) :: e.bodyMembers

/-- The line of the file. -/
def line [FloatFormat φ] (e : Entry φ) : Str := render spaced (.obj e.members)

/-- The entry as it is read back: strings are joined and the payload is in
canonical order. -/
def reread (e : Entry φ) : Entry φ :=
  { e with
    timestamp := join e.timestamp
    type := join e.type
    payload := canon (joinDoc e.payload) }

/-- The text that the hash of an entry is taken over. -/
def hashText [FloatFormat φ] (e : Entry φ) : Str :=
  e.prevHash ++ render compact (.obj e.bodyMembers)

/-- The hashes of an entry are hexadecimal. -/
structure WF (e : Entry φ) : Prop where
  prevHash : Hex e.prevHash
  hash : Hex e.hash
  hmac : ∀ h ∈ e.hmac, Hex h

end Entry

/-- The hash that the next entry will name. -/
def tailHash (prev : Str) (es : List (Entry φ)) : Str := es.foldl (fun _ e => e.hash) prev

theorem tailHash_append (prev : Str) (es ds : List (Entry φ)) :
    tailHash prev (es ++ ds) = tailHash (tailHash prev es) ds := List.foldl_append

/-! ## What is read back -/

section

variable [Builtins φ]

/-- The items that a body is read as. -/
def Entry.bodyItems (e : Entry φ) : List (Key φ × PyVal φ) :=
  [(.str (lit "payload"), load (joinDoc e.payload)), (.str (lit "prev_hash"), .str e.prevHash),
    (.str (lit "seq"), .int e.seq), (.str (lit "timestamp"), .str (join e.timestamp)),
    (.str (lit "type"), .str (join e.type))]

/-- The items that a line is read as. -/
def Entry.items (e : Entry φ) : List (Key φ × PyVal φ) :=
  match e.hmac with
  | none => (.str (lit "hash"), .str e.hash) :: e.bodyItems
  | some hmac => (.str (lit "hash"), .str e.hash) :: (.str (lit "hmac"), .str hmac) :: e.bodyItems

theorem join_hex {s : Str} (h : Hex s) : join s = s := join_of_joined (joined_of_plain h.plain)

/-- A line of the file is read as the entry's items. -/
theorem Entry.loads_line {e : Entry φ} (h : e.WF) : loads e.line = some (.dict e.items) := by
  have hp := join_hex h.prevHash
  have hh := join_hex h.hash
  rw [loads, Entry.line, parse_render standard_spaced, Option.map_some]
  cases hm : e.hmac with
  | none =>
      have hj : joinDoc (.obj e.members) =
          .obj [(lit "hash", .str e.hash), (lit "payload", joinDoc e.payload),
            (lit "prev_hash", .str e.prevHash), (lit "seq", .int e.seq),
            (lit "timestamp", .str (join e.timestamp)), (lit "type", .str (join e.type))] := by
        simp only [Entry.members, hm, Entry.bodyMembers, joinDoc, joinMembers, hp, hh]
        rfl
      rw [hj, Entry.items, hm]
      rfl
  | some hmac =>
      have hx := join_hex (h.hmac hmac hm)
      have hj : joinDoc (.obj e.members) =
          .obj [(lit "hash", .str e.hash), (lit "hmac", .str hmac),
            (lit "payload", joinDoc e.payload), (lit "prev_hash", .str e.prevHash),
            (lit "seq", .int e.seq), (lit "timestamp", .str (join e.timestamp)),
            (lit "type", .str (join e.type))] := by
        simp only [Entry.members, hm, Entry.bodyMembers, joinDoc, joinMembers, hp, hh, hx]
        rfl
      rw [hj, Entry.items, hm]
      rfl

theorem Entry.strip_line (e : Entry φ) : strip e.line = e.line ∧ e.line ≠ [] := by
  obtain ⟨t, ht⟩ := render_obj_ends spaced e.members
  rw [Entry.line, ht]
  exact ⟨strip_of_ends (by decide) (by decide) t, List.cons_ne_nil _ _⟩

theorem encode_bodyItems (e : Entry φ) :
    encode (.dict e.bodyItems) = some (.obj e.reread.bodyMembers) :=
  encode_dict_str
    [(lit "payload", canon (joinDoc e.payload)), (lit "prev_hash", .str e.prevHash),
      (lit "seq", .int e.seq), (lit "timestamp", .str (join e.timestamp)),
      (lit "type", .str (join e.type))]
    (encodeItems_cons (encode_load _) (encodeItems_cons rfl (encodeItems_cons rfl
      (encodeItems_cons rfl (encodeItems_cons rfl rfl)))))

theorem hashText_of_encode {prev : Str} (hp : Plain prev) {body : List (Key φ × PyVal φ)}
    {j : Json φ} (h : encode (.dict body) = some j) :
    hashText prev body = .ok (prev ++ render compact j) := by
  rw [hashText, canonicalJson, dumps, h]
  exact if_pos (hp.append (printable_compact j).plain)

/-! ## The check of one entry -/

namespace Verification

/-- The only thing that can be wrong with an entry that a run wrote is its hash. -/
def mismatch (hashes : Hashlib) (e : Entry φ) : List AuditProblem :=
  if e.hash = hashes.sha256 e.reread.hashText then [] else [.hashMismatch]

theorem entryProblems_items (hashes : Hashlib) {v : Verification} {e : Entry φ} (h : e.WF)
    (hprev : e.prevHash = v.expectedPrev) (hseq : e.seq = v.expectedSeq) :
    v.entryProblems hashes none e.items = .ok (mismatch hashes e, e.hash) := by
  have hbody : e.items.filter (fun i => keyNotIn [lit "hash", lit "hmac"] i.1) = e.bodyItems := by
    simp only [Entry.items]
    cases e.hmac <;> rfl
  have hhash : getKey (lit "hash") e.items = some (.str e.hash) := by
    simp only [Entry.items]
    cases e.hmac <;> rfl
  have hp : getKey (lit "prev_hash") e.bodyItems = some (.str e.prevHash) := rfl
  have hs : getKey (lit "seq") e.bodyItems = some (.int e.seq) := rfl
  have htext : ShugoCore.hashText e.prevHash e.bodyItems = .ok e.reread.hashText :=
    hashText_of_encode h.prevHash.plain (encode_bodyItems e)
  have hlink : isText v.expectedPrev (.str e.prevHash : PyVal φ) = true := by
    simp [isText, hprev]
  simp only [entryProblems, hbody, hhash, hp, hs, Option.getD_some, strOf, htext, intOf,
    hmacProblems, Option.filter_none, bind, Except.bind, pure, Except.pure, hlink, hseq, if_true,
    List.nil_append, List.append_nil]
  rfl

/-- The loop on a line that a run wrote. -/
theorem line_entry (hashes : Hashlib) {v : Verification} {e : Entry φ} (h : e.WF)
    (hprev : e.prevHash = v.expectedPrev) (hseq : e.seq = v.expectedSeq) (n : Nat) :
    line φ hashes none v (e.line, n) = .ok {
      errors := v.errors ++ (mismatch hashes e).map (.atLine n)
      expectedPrev := e.hash
      expectedSeq := v.expectedSeq + 1
      checked := v.checked + 1 } := by
  obtain ⟨hstrip, hne⟩ := e.strip_line
  simp only [line, hstrip, if_neg hne, e.loads_line h, entryProblems_items hashes h hprev hseq]
  rfl

end Verification

/-! ## A chain of entries -/

/-- Entries that follow a hash and a sequence number, each linked to the last. -/
def Linked (hashes : Hashlib) : Str → Nat → List (Entry φ) → Prop
  | _, _, [] => True
  | prev, n, e :: es =>
      e.WF ∧ e.prevHash = prev ∧ e.seq = n + 1 ∧ e.hash = hashes.sha256 e.hashText ∧
        Linked hashes e.hash (n + 1) es

/-- The text of a file with these entries. -/
def fileText (es : List (Entry φ)) : Str := es.flatMap fun e => e.line ++ [newline]

theorem fileLines_fileText (es : List (Entry φ)) : fileLines (fileText es) = es.map Entry.line := by
  have hprint : ∀ l ∈ es.map Entry.line, Printable l := by
    simp only [List.mem_map]
    rintro l ⟨e, -, rfl⟩
    exact printable_spaced _
  rw [← fileLines_flatMap (es.map Entry.line) hprint, List.flatMap_map]
  rfl

/-- A file after these entries were appended to it. -/
def fileAfter (file : Option Str) (es : List (Entry φ)) : Option Str :=
  if es.isEmpty then file else some (file.getD [] ++ fileText es)

theorem fileAfter_singleton (file : Option Str) (e : Entry φ) :
    fileAfter file [e] = some (file.getD [] ++ (e.line ++ [newline])) := by
  simp [fileAfter, fileText]

/-- Appending in two goes. -/
theorem fileAfter_getD (file : Option Str) (es : List (Entry φ)) :
    (fileAfter file es).getD [] = file.getD [] ++ fileText es := by
  cases es with
  | nil => simp [fileAfter, fileText]
  | cons e es => rfl

theorem fileAfter_append (file : Option Str) (es ds : List (Entry φ)) :
    fileAfter (fileAfter file es) ds = fileAfter file (es ++ ds) := by
  cases ds with
  | nil => simp [fileAfter]
  | cons d ds =>
      rw [fileAfter, fileAfter_getD]
      simp [fileAfter, fileText]

/-- Entry by entry, the loop finds the mismatched hashes and nothing else. -/
theorem foldlM_line (hashes : Hashlib) {es : List (Entry φ)} {v : Verification} {n : Nat}
    (h : Linked hashes v.expectedPrev n es) (hv : v.expectedSeq = n + 1) (k : Nat) :
    ∃ errors, ((es.map Entry.line).zipIdx k).foldlM (Verification.line φ hashes none) v = .ok {
        errors := v.errors ++ errors
        expectedPrev := tailHash v.expectedPrev es
        expectedSeq := v.expectedSeq + es.length
        checked := v.checked + es.length } ∧
      (errors = [] ↔ ∀ e ∈ es, e.hash = hashes.sha256 e.reread.hashText) := by
  induction es generalizing v n k with
  | nil => exact ⟨[], by simp [tailHash, pure, Except.pure], by simp⟩
  | cons e es ih =>
      obtain ⟨hwf, hprev, hseq, -, hrest⟩ := h
      have hline := Verification.line_entry hashes hwf hprev (hseq.trans hv.symm) k
      obtain ⟨errors, hfold, hnil⟩ := ih (v := {
          errors := v.errors ++ (Verification.mismatch hashes e).map (.atLine k)
          expectedPrev := e.hash
          expectedSeq := v.expectedSeq + 1
          checked := v.checked + 1 }) hrest (by rw [hv]) (k + 1)
      refine ⟨(Verification.mismatch hashes e).map (.atLine k) ++ errors, ?_, ?_⟩
      · rw [List.map_cons, List.zipIdx_cons, List.foldlM_cons, hline]
        simp only [bind, Except.bind, hfold, List.append_assoc, List.length_cons]
        congr 2 <;> omega
      · rw [List.append_eq_nil_iff, List.map_eq_nil_iff, hnil, List.forall_mem_cons]
        refine and_congr_left fun _ => ?_
        simp only [Verification.mismatch]
        split <;> simp_all

/-! ## What a run writes -/

/-- The document of the payload, when `append` gets as far as writing it. -/
def written (key : Option Str) (call : AppendCall φ) : Option (Json φ) :=
  if ∀ k ∈ key, Plain k then encode (.dict call.payload) else none

/-- The entry that `append` writes after a hash and a sequence number. -/
def entryOf (hashes : Hashlib) (prev : Str) (n : Nat) (key : Option Str) (call : AppendCall φ)
    (payload : Json φ) : Entry φ :=
  let e : Entry φ :=
    { seq := n + 1, timestamp := call.timestamp, type := sanitizeText call.eventType 64, payload,
      prevHash := prev, hash := [], hmac := none }
  let e := { e with hash := hashes.sha256 e.hashText }
  { e with hmac := key.map fun k => hashes.hmacSha256 k (render compact (.obj e.members)) }

/-- The entries that calls under their keys write. -/
def entries (hashes : Hashlib) : Str → Nat → List (Option Str × AppendCall φ) → List (Entry φ)
  | _, _, [] => []
  | prev, n, (key, call) :: calls =>
      match written key call with
      | none => entries hashes prev n calls
      | some p =>
          entryOf hashes prev n key call p ::
            entries hashes (entryOf hashes prev n key call p).hash (n + 1) calls

theorem wf_entryOf (hashes : Hashlib) {prev : Str} (h : Hex prev) (n : Nat) (key : Option Str)
    (call : AppendCall φ) (p : Json φ) : (entryOf hashes prev n key call p).WF where
  prevHash := h
  hash := hashes.sha256_hex _
  hmac := by
    intro m hm
    obtain ⟨k, -, rfl⟩ := Option.map_eq_some_iff.1 hm
    exact hashes.hmacSha256_hex _ _

theorem linked_entries (hashes : Hashlib) {prev : Str} (h : Hex prev) (n : Nat)
    (calls : List (Option Str × AppendCall φ)) :
    Linked hashes prev n (entries hashes prev n calls) := by
  induction calls generalizing prev n with
  | nil => trivial
  | cons kc calls ih =>
      obtain ⟨key, call⟩ := kc
      rw [entries]
      cases written key call with
      | none => exact ih h n
      | some p =>
          have hwf := wf_entryOf hashes h n key call p
          exact ⟨hwf, rfl, rfl, rfl, ih hwf.hash (n + 1)⟩

theorem tailHash_hex {hashes : Hashlib} {prev : Str} (h : Hex prev) {n : Nat} {es : List (Entry φ)}
    (hl : Linked hashes prev n es) : Hex (tailHash prev es) := by
  induction es generalizing prev n with
  | nil => exact h
  | cons e es ih => exact ih hl.1.hash hl.2.2.2.2

theorem Linked.hash_eq {hashes : Hashlib} {prev : Str} {n : Nat} {es : List (Entry φ)}
    (h : Linked hashes prev n es) {e : Entry φ} (he : e ∈ es) :
    e.hash = hashes.sha256 e.hashText := by
  induction es generalizing prev n with
  | nil => cases he
  | cons d es ih =>
      rcases List.mem_cons.1 he with rfl | he
      · exact h.2.2.2.1
      · exact ih h.2.2.2.2 he

theorem Linked.append {hashes : Hashlib} {prev : Str} {n : Nat} {es ds : List (Entry φ)}
    (he : Linked hashes prev n es) (hd : Linked hashes (tailHash prev es) (n + es.length) ds) :
    Linked hashes prev n (es ++ ds) := by
  induction es generalizing prev n with
  | nil => exact hd
  | cons e es ih =>
      obtain ⟨hwf, hprev, hseq, hhash, hrest⟩ := he
      refine ⟨hwf, hprev, hseq, hhash, ih hrest ?_⟩
      rw [List.length_cons] at hd
      rwa [show n + 1 + es.length = n + (es.length + 1) by omega]

theorem entries_append (hashes : Hashlib) (prev : Str) (n : Nat)
    (calls more : List (Option Str × AppendCall φ)) :
    entries hashes prev n (calls ++ more) =
      entries hashes prev n calls ++
        entries hashes (tailHash prev (entries hashes prev n calls))
          (n + (entries hashes prev n calls).length) more := by
  induction calls generalizing prev n with
  | nil => rfl
  | cons kc calls ih =>
      obtain ⟨key, call⟩ := kc
      rw [List.cons_append, entries, entries]
      cases written key call with
      | none => exact ih prev n
      | some p =>
          simp only [ih, List.cons_append, List.length_cons]
          rw [show n + 1 + (entries hashes (entryOf hashes prev n key call p).hash (n + 1)
            calls).length = n + ((entries hashes (entryOf hashes prev n key call p).hash (n + 1)
            calls).length + 1) by omega]
          rfl

/-! ## The run writes them -/

theorem encodeItems_texts (more : List (Str × Str)) :
    encodeItems (more.map fun m => ((Key.str m.1 : Key φ), PyVal.str m.2)) =
      some (more.map fun m => (Key.str m.1, Json.str m.2)) := by
  induction more with
  | nil => rfl
  | cons m more ih => exact encodeItems_cons rfl ih

/-- The body of an entry with more texts under it, as it is written. -/
theorem encode_body_texts {c : AuditChain} {n : Nat} (hseq : c.seq = n) {call : AppendCall φ}
    {p : Json φ} (h : encode (.dict call.payload) = some p) (more : List (Str × Str)) :
    encode (.dict (c.body call ++ more.map fun m => (Key.str m.1, PyVal.str m.2))) =
      some (.obj (sortMembers ([(lit "seq", .int (n + 1 : Nat)),
        (lit "timestamp", .str call.timestamp),
        (lit "type", .str (sanitizeText call.eventType 64)), (lit "payload", p),
        (lit "prev_hash", .str c.tail)] ++ more.map fun m => (m.1, .str m.2)))) := by
  apply encode_dict_str
  rw [List.map_append, List.map_map, AuditChain.body, hseq]
  exact encodeItems_cons rfl (encodeItems_cons rfl (encodeItems_cons rfl (encodeItems_cons h
    (encodeItems_cons rfl (encodeItems_texts more)))))

/-- A payload with keys that do not sort fails before anything is written. -/
theorem encode_body_none (c : AuditChain) (call : AppendCall φ)
    (h : encode (.dict call.payload) = none) : encode (.dict (c.body call)) = none := by
  rw [encode]
  simp only [AuditChain.body, encodeItems, h, Option.bind_eq_bind, Option.bind_none]
  rfl

/-- `_make_entry` on a payload that can be written. -/
theorem makeEntry_of_written (hashes : Hashlib) {c : AuditChain} {n : Nat} (hseq : c.seq = n)
    (htail : Hex c.tail) {call : AppendCall φ} {p : Json φ} (h : written c.hmacKey call = some p) :
    ∃ items, c.makeEntry hashes call =
        .ok (items, (entryOf hashes c.tail n c.hmacKey call p).hash) ∧
      encode (.dict items) = some (.obj (entryOf hashes c.tail n c.hmacKey call p).members) := by
  rw [written] at h
  split at h
  · rename_i hkey
    -- The sort puts `hash` and `hmac` first and the body's five keys after them.
    have hbody := encode_body_texts hseq h []
    rw [List.map_nil, List.append_nil] at hbody
    have htext : hashText c.tail (c.body call) =
        .ok (entryOf hashes c.tail n c.hmacKey call p).hashText :=
      hashText_of_encode htail.plain hbody
    have hhash : encode (.dict (c.body call ++
        [(.str (lit "hash"), .str (entryOf hashes c.tail n c.hmacKey call p).hash)])) =
        some (.obj ((lit "hash", .str (entryOf hashes c.tail n c.hmacKey call p).hash) ::
          (entryOf hashes c.tail n c.hmacKey call p).bodyMembers)) :=
      encode_body_texts hseq h [(lit "hash", (entryOf hashes c.tail n c.hmacKey call p).hash)]
    cases hk : c.hmacKey with
    | none =>
        refine ⟨_, ?_, hk ▸ hhash⟩
        simp only [AuditChain.makeEntry, htext, hk, bind, Except.bind, pure, Except.pure]
        rfl
    | some key =>
        have hplain : encodable key = .ok key := if_pos (hkey key hk)
        have hmac := encode_body_texts hseq h
          [(lit "hash", (entryOf hashes c.tail n c.hmacKey call p).hash),
            (lit "hmac", hashes.hmacSha256 key (render compact (.obj
              ((lit "hash", .str (entryOf hashes c.tail n c.hmacKey call p).hash) ::
                (entryOf hashes c.tail n c.hmacKey call p).bodyMembers))))]
        refine ⟨_, ?_, hk ▸ hmac⟩
        rw [hk] at htext hhash
        have hcanon : canonicalJson (.dict (c.body call ++ [(.str (lit "hash"),
            .str (hashes.sha256 (entryOf hashes c.tail n (some key) call p).hashText))])) = _ :=
          congrArg (Option.map (render compact)) hhash
        simp only [AuditChain.makeEntry, htext, hk, entryHmac, hplain, hcanon, Option.map_some,
          bind, Except.bind, pure, Except.pure]
        rfl
  · cases h

/-- A call whose payload can be written appends its entry. -/
theorem append_of_written (hashes : Hashlib) {c : AuditChain} {n : Nat} (hseq : c.seq = n)
    (htail : Hex c.tail) (file : Option Str) {call : AppendCall φ} {p : Json φ}
    (h : written c.hmacKey call = some p) :
    c.append hashes file call =
      .ok ({ c with
          seq := c.seq + 1
          tail := (entryOf hashes c.tail n c.hmacKey call p).hash },
        some (file.getD [] ++ ((entryOf hashes c.tail n c.hmacKey call p).line ++ [newline]))) := by
  obtain ⟨items, hentry, henc⟩ := makeEntry_of_written hashes hseq htail h
  simp only [AuditChain.append, hentry, dumps, henc, Option.map_some, bind, Except.bind, pure,
    Except.pure]
  rfl

theorem makeEntry_of_not_written (hashes : Hashlib) (c : AuditChain) {call : AppendCall φ}
    (h : written c.hmacKey call = none) : ∃ exn, c.makeEntry hashes call = .error exn := by
  rw [written] at h
  split at h
  · have htext : hashText c.tail (c.body call) = .error .typeError := by
      rw [hashText, canonicalJson, dumps, encode_body_none c call h]
      rfl
    exact ⟨.typeError, by rw [AuditChain.makeEntry, htext]; rfl⟩
  · rename_i hkey
    simp only [not_forall] at hkey
    obtain ⟨key, hk, hplain⟩ := hkey
    have hraise : encodable key = .error .valueError := if_neg hplain
    cases htext : hashText c.tail (c.body call) with
    | error exn => exact ⟨exn, by rw [AuditChain.makeEntry, htext]; rfl⟩
    | ok text =>
        refine ⟨.valueError, ?_⟩
        have hhmac : ∀ body : List (Key φ × PyVal φ), entryHmac hashes key body = .error .valueError := by
          intro body
          rw [entryHmac, hraise]
          rfl
        rw [AuditChain.makeEntry, htext, Option.mem_def.1 hk]
        simp only [hhmac, bind, Except.bind]

/-- A call whose payload cannot be written raises. -/
theorem append_of_not_written (hashes : Hashlib) (c : AuditChain) (file : Option Str)
    {call : AppendCall φ} (h : written c.hmacKey call = none) :
    ∃ exn, c.append hashes file call = .error exn := by
  obtain ⟨exn, he⟩ := makeEntry_of_not_written hashes c h
  exact ⟨exn, by rw [AuditChain.append, he]; rfl⟩

/-- The calls of a session write their entries. -/
theorem runCalls_eq (hashes : Hashlib) (calls : List (AppendCall φ)) {c : AuditChain} {n : Nat}
    (hseq : c.seq = n) (htail : Hex c.tail) (file : Option Str) :
    runCalls hashes c file calls =
      ({ c with
          seq := c.seq + (entries hashes c.tail n (calls.map (c.hmacKey, ·))).length
          tail := tailHash c.tail (entries hashes c.tail n (calls.map (c.hmacKey, ·))) },
        fileAfter file (entries hashes c.tail n (calls.map (c.hmacKey, ·))),
        (entries hashes c.tail n (calls.map (c.hmacKey, ·))).length) := by
  induction calls generalizing c n file with
  | nil =>
      rw [runCalls, List.map_nil, entries, List.length_nil, Nat.cast_zero, add_zero]
      rfl
  | cons call calls ih =>
      rw [runCalls, List.map_cons, entries]
      cases hw : written c.hmacKey call with
      | none =>
          obtain ⟨exn, he⟩ := append_of_not_written hashes c file hw
          rw [he]
          exact ih hseq htail file
      | some p =>
          have hnext := ih (c := { c with
              seq := c.seq + 1
              tail := (entryOf hashes c.tail n c.hmacKey call p).hash })
            (n := n + 1) (by rw [hseq]; rfl) (hashes.sha256_hex _)
            (some (file.getD [] ++ ((entryOf hashes c.tail n c.hmacKey call p).line ++ [newline])))
          rw [append_of_written hashes hseq htail file hw]
          dsimp only
          rw [hnext]
          refine Prod.ext (congrArg (AuditChain.mk c.hmacKey · _) ?_) (Prod.ext ?_ rfl)
          · rw [List.length_cons]
            push_cast
            omega
          · dsimp only
            rw [← fileAfter_singleton, fileAfter_append]
            rfl

theorem foldlM_adoptLine {hashes : Hashlib} {es : List (Entry φ)} {c : AuditChain} {n : Nat}
    (h : Linked hashes c.tail n es) (hseq : c.seq = n) :
    (es.map Entry.line).foldlM (AuditChain.adoptLine φ) c =
      .ok { c with seq := c.seq + es.length, tail := tailHash c.tail es } := by
  induction es generalizing c n with
  | nil => simp [tailHash, pure, Except.pure]
  | cons e es ih =>
      obtain ⟨hwf, -, he, -, hrest⟩ := h
      obtain ⟨hstrip, hne⟩ := e.strip_line
      have hs : getKey (lit "seq") e.items = some (.int e.seq) := by
        simp only [Entry.items]
        cases e.hmac <;> rfl
      have hh : getKey (lit "hash") e.items = some (.str e.hash) := by
        simp only [Entry.items]
        cases e.hmac <;> rfl
      have hline : AuditChain.adoptLine φ c e.line = .ok { c with seq := e.seq, tail := e.hash } := by
        simp only [AuditChain.adoptLine, hstrip, if_neg hne, e.loads_line hwf, hs, hh,
          Option.elim_some, intOf, strOf]
      rw [List.map_cons, List.foldlM_cons, hline]
      simp only [bind, Except.bind]
      rw [ih (c := { c with seq := e.seq, tail := e.hash }) hrest (by simp [he])]
      simp only [he, hseq, List.length_cons, tailHash, List.foldl_cons]
      congr 2
      push_cast
      omega

theorem hex_genesisHash : Hex genesisHash := by decide

/-- Opening a file that a run wrote restores the chain. -/
theorem init_fileText {hashes : Hashlib} {es : List (Entry φ)}
    (h : Linked hashes genesisHash 0 es) (key : Option Str) {file : Option Str}
    (hf : file.getD [] = fileText es) :
    AuditChain.init φ key file =
      .ok { hmacKey := key.filter fun k => !k.isEmpty, seq := es.length,
            tail := tailHash genesisHash es } := by
  rw [AuditChain.init, hf, fileLines_fileText, foldlM_adoptLine (n := 0) h rfl]
  simp

/-- The calls of some sessions, each with the key it is made under. -/
def keyedCalls (sessions : List (AuditSession φ)) : List (Option Str × AppendCall φ) :=
  sessions.flatMap fun s => s.calls.map ((s.hmacKey.filter fun k => !k.isEmpty), ·)

omit [Builtins φ] in
theorem keyedCalls_cons (s : AuditSession φ) (sessions : List (AuditSession φ)) :
    keyedCalls (s :: sessions) =
      s.calls.map ((s.hmacKey.filter fun k => !k.isEmpty), ·) ++ keyedCalls sessions := rfl

/-- Sessions write the entries of their calls. -/
theorem runSessions_eq (hashes : Hashlib) (sessions : List (AuditSession φ)) (es : List (Entry φ))
    (h : Linked hashes genesisHash 0 es) {file : Option Str} (hf : file.getD [] = fileText es) :
    runSessions hashes file sessions =
      .ok (fileAfter file (entries hashes (tailHash genesisHash es) es.length (keyedCalls sessions)),
        (entries hashes (tailHash genesisHash es) es.length (keyedCalls sessions)).length) := by
  induction sessions generalizing es file with
  | nil => simp [runSessions, keyedCalls, entries, fileAfter]
  | cons s sessions ih =>
      have hhex := tailHash_hex hex_genesisHash h
      generalize hes : entries hashes (tailHash genesisHash es) es.length
        (s.calls.map ((s.hmacKey.filter fun k => !k.isEmpty), ·)) = new
      have hcalls := runCalls_eq hashes s.calls
        (c := { hmacKey := s.hmacKey.filter fun k => !k.isEmpty, seq := es.length,
                tail := tailHash genesisHash es }) rfl hhex file
      have hlinked : Linked hashes genesisHash 0 (es ++ new) := by
        refine h.append ?_
        rw [Nat.zero_add, ← hes]
        exact linked_entries hashes hhex _ _
      have hfile : (fileAfter file new).getD [] = fileText (es ++ new) := by
        rw [fileAfter_getD, hf, fileText, fileText, fileText, List.flatMap_append]
      have hrest := ih (es ++ new) hlinked hfile
      rw [tailHash_append, List.length_append] at hrest
      rw [runSessions, init_fileText h s.hmacKey hf]
      simp only [bind, Except.bind, pure, Except.pure, hcalls, hes, hrest]
      rw [keyedCalls_cons, entries_append, hes, fileAfter_append, List.length_append]

/-! ## What the verifier says of a run -/

/-- The digest does not confuse the text that an entry was hashed over with the
text that the verifier hashes. -/
def CollisionFree (hashes : Hashlib) (sessions : List (AuditSession φ)) : Prop :=
  ∀ e ∈ entries hashes genesisHash 0 (keyedCalls sessions),
    hashes.sha256 e.hashText = hashes.sha256 e.reread.hashText → e.hashText = e.reread.hashText

/-- The call writes an entry: its payload's keys sort, and the key of the session
can be encoded. -/
def Returns (session : AuditSession φ) (call : AppendCall φ) : Prop :=
  (encode (.dict call.payload)).isSome ∧ ∀ k ∈ session.hmacKey, Plain k

/-- An entry is hashed over the same text when it is read back exactly when the
keys of its payload are in order. -/
theorem Entry.hashText_reread_iff (e : Entry φ) :
    e.hashText = e.reread.hashText ↔ Sorted (joinDoc e.payload) := by
  rw [← render_canon_eq_iff standard_compact, render_eq_iff standard_compact, Entry.hashText,
    Entry.hashText]
  show e.prevHash ++ _ = e.prevHash ++ _ ↔ _
  rw [List.append_right_inj, render_eq_iff standard_compact]
  simp only [Entry.bodyMembers, Entry.reread, joinDoc, joinMembers, join_join, Json.obj.injEq,
    List.cons.injEq, Prod.mk.injEq, and_true, true_and]
  exact eq_comm

/-- An empty key is no key, and can be encoded. -/
theorem written_filter (key : Option Str) (call : AppendCall φ) :
    written (key.filter fun k => !k.isEmpty) call = written key call := by
  have hplain : (∀ k ∈ key.filter (fun k => !k.isEmpty), Plain k) ↔ ∀ k ∈ key, Plain k := by
    cases key with
    | none => simp
    | some k =>
        cases k with
        | nil => simp [Plain]
        | cons c k => simp
  simp only [written, hplain]

theorem forall_entries_iff (hashes : Hashlib) (prev : Str) (n : Nat)
    (calls : List (Option Str × AppendCall φ)) (P : Json φ → Prop) :
    (∀ e ∈ entries hashes prev n calls, P e.payload) ↔
      ∀ kc ∈ calls, ∀ p ∈ written kc.1 kc.2, P p := by
  induction calls generalizing prev n with
  | nil => simp [entries]
  | cons kc calls ih =>
      obtain ⟨key, call⟩ := kc
      rw [entries, List.forall_mem_cons]
      cases hw : written key call with
      | none => simp [ih]
      | some p =>
          rw [List.forall_mem_cons, ih]
          simp [entryOf]

/-- The payloads of the entries are those of the calls that return. -/
theorem forall_payloads_iff (hashes : Hashlib) (sessions : List (AuditSession φ))
    (P : Json φ → Prop) :
    (∀ e ∈ entries hashes genesisHash 0 (keyedCalls sessions), P e.payload) ↔
      ∀ s ∈ sessions, ∀ call ∈ s.calls, Returns s call →
        ∀ p ∈ encode (.dict call.payload), P p := by
  rw [forall_entries_iff]
  simp only [keyedCalls, List.mem_flatMap, List.mem_map, forall_exists_index, and_imp]
  constructor
  · intro h s hs call hcall hret p hp
    refine h _ s hs call hcall rfl p ?_
    rw [written_filter, written, if_pos hret.2]
    exact hp
  · rintro h _ s hs call hcall rfl p hp
    rw [written_filter, written] at hp
    split at hp
    · rename_i hkey
      exact h s hs call hcall ⟨Option.isSome_of_mem hp, hkey⟩ p hp
    · cases hp

/-- The verifier on a file that a run wrote. -/
theorem verify_fileAfter_iff {hashes : Hashlib} {es : List (Entry φ)}
    (h : Linked hashes genesisHash 0 es) :
    verifyAuditFile φ hashes (fileAfter none es) none = .ok (true, [], es.length) ↔
      es ≠ [] ∧ ∀ e ∈ es, e.hash = hashes.sha256 e.reread.hashText := by
  cases es with
  | nil =>
      refine ⟨fun hv => ?_, fun hne => absurd rfl hne.1⟩
      simp [verifyAuditFile, fileAfter] at hv
  | cons e es =>
      obtain ⟨errors, hfold, hnil⟩ := foldlM_line hashes (v := .start) h rfl 1
      have hv : verifyAuditFile φ hashes (fileAfter none (e :: es)) none =
          .ok (errors.isEmpty, errors, (e :: es).length) := by
        show (do
          let v ← ((fileLines (fileText (e :: es))).zipIdx 1).foldlM
            (Verification.line φ hashes none) .start
          return (v.errors.isEmpty, v.errors, v.checked)) = _
        rw [fileLines_fileText, hfold]
        simp [Verification.start, bind, Except.bind, pure, Except.pure]
      rw [hv, ← hnil]
      simp

theorem runAndVerify_iff {hashes : Hashlib} {sessions : List (AuditSession φ)}
    {es : List (Entry φ)} (h : Linked hashes genesisHash 0 es)
    (hrun : runSessions hashes none sessions = .ok (fileAfter none es, es.length)) :
    (∃ n, runAndVerify hashes sessions = .ok (n, true, [], n)) ↔
      es ≠ [] ∧ ∀ e ∈ es, e.hash = hashes.sha256 e.reread.hashText := by
  rw [← verify_fileAfter_iff h]
  simp only [runAndVerify, hrun, bind, Except.bind, pure, Except.pure]
  cases verifyAuditFile φ hashes (fileAfter none es) none with
  | error exn => simp
  | ok verdict =>
      simp only [Except.ok.injEq, Prod.mk.injEq]
      exact ⟨fun ⟨n, hn, hv⟩ => hn ▸ hv, fun hv => ⟨_, rfl, hv⟩⟩

/-- A run of sessions on a path that has no file yet: the verifier reports the
file good, without errors and with one entry for each call that returned, exactly
when some call returned and the payload of every such call has keys that keep
their order as text. -/
theorem audit_round_trip_iff (hashes : Hashlib) (sessions : List (AuditSession φ))
    (hcf : CollisionFree hashes sessions) :
    (∃ n, runAndVerify hashes sessions = .ok (n, true, [], n)) ↔
      (∃ s ∈ sessions, ∃ call ∈ s.calls, Returns s call) ∧
        ∀ s ∈ sessions, ∀ call ∈ s.calls, Returns s call →
          keyStable (.dict call.payload) = true := by
  have hlinked := linked_entries hashes hex_genesisHash 0 (keyedCalls sessions)
  have hall := forall_payloads_iff hashes sessions
  rw [runAndVerify_iff hlinked (runSessions_eq hashes sessions [] trivial rfl)]
  refine and_congr ?_ ?_
  · -- No entry is written exactly when no call returns.
    rw [← not_iff_not, not_ne_iff, List.eq_nil_iff_forall_not_mem]
    have hnone := hall fun _ => False
    refine hnone.trans ⟨?_, ?_⟩
    · rintro h ⟨s, hs, call, hcall, hret⟩
      obtain ⟨p, hp⟩ := Option.isSome_iff_exists.1 hret.1
      exact h s hs call hcall hret p hp
    · intro h s hs call hcall hret
      exact absurd ⟨s, hs, call, hcall, hret⟩ h
  · -- An entry matches exactly when its payload is sorted once joined.
    have hmatch : (∀ e ∈ entries hashes genesisHash 0 (keyedCalls sessions),
        e.hash = hashes.sha256 e.reread.hashText) ↔
        ∀ e ∈ entries hashes genesisHash 0 (keyedCalls sessions), Sorted (joinDoc e.payload) := by
      refine forall₂_congr fun e he => ?_
      rw [← e.hashText_reread_iff, hlinked.hash_eq he]
      exact ⟨hcf e he, fun h => by rw [h]⟩
    rw [hmatch, hall fun p => Sorted (joinDoc p)]
    refine forall₅_congr fun s _ call _ hret => ?_
    obtain ⟨p, hp⟩ := Option.isSome_iff_exists.1 hret.1
    rw [keyStable_iff _ hp, hp]
    simp

end

/-! ## Two runs -/

/-- A call with a payload, at a fixed time. -/
def decisionCall (payload : List (Key WholeFloat × PyVal WholeFloat)) : AppendCall WholeFloat where
  timestamp := lit "2026-01-01T00:00:00+00:00"
  eventType := lit "decision"
  payload := payload

/-- Two sessions, one of them with a key, and string keys throughout. -/
def textKeys : List (AuditSession WholeFloat) :=
  [⟨some (lit "key"), [decisionCall [(.str (lit "task"), .str (lit "look")),
      (.str (lit "result"), .dict [(.str (lit "b"), .none), (.str (lit "a"), .list [.bool true])])]]⟩,
    ⟨none, [decisionCall []]⟩]

/-- One session, and a payload that counts under integer keys. -/
def integerKeys : List (AuditSession WholeFloat) :=
  [⟨none, [decisionCall [(.str (lit "counts"), .dict [(.int 2, .int 1), (.int 10, .int 1)])]]⟩]

theorem textKeys_stable :
    ∀ s ∈ textKeys, ∀ call ∈ s.calls, Returns s call → keyStable (.dict call.payload) = true := by
  have h : (textKeys.all fun s => s.calls.all fun call => keyStable (.dict call.payload)) = true := by
    decide +kernel
  simp only [List.all_eq_true] at h
  exact fun s hs call hcall _ => h s hs call hcall

/-- String keys keep their order, and the file of the two sessions verifies. -/
theorem textKeys_verify :
    CollisionFree hashlib textKeys ∧
      ∃ n, runAndVerify hashlib textKeys = .ok (n, true, [], n) := by
  have hcf : CollisionFree hashlib textKeys := by
    intro e he _
    rw [e.hashText_reread_iff]
    have hsorted := (forall_payloads_iff hashlib textKeys fun p => Sorted (joinDoc p)).2 ?_
    · exact hsorted e he
    · intro s hs call hcall hret p hp
      exact (keyStable_iff _ hp).1 (textKeys_stable s hs call hcall hret)
  refine ⟨hcf, (audit_round_trip_iff hashlib textKeys hcf).2 ⟨?_, textKeys_stable⟩⟩
  refine ⟨_, List.mem_cons_of_mem _ List.mem_cons_self, _, List.mem_cons_self, rfl, ?_⟩
  intro k hk
  cases hk

/-- Integer keys are written as `2` and `10`, read back, and hashed with `10`
first: the entry does not verify. -/
theorem integerKeys_mismatch :
    (runAndVerify hashlib integerKeys).toOption = some (1, false, [.atLine 1 .hashMismatch], 1) ∧
      ¬ ∃ n, runAndVerify hashlib integerKeys = .ok (n, true, [], n) := by
  have h : (runAndVerify hashlib integerKeys).toOption =
      some (1, false, [.atLine 1 .hashMismatch], 1) := by decide +kernel
  refine ⟨h, ?_⟩
  rintro ⟨n, hn⟩
  rw [hn] at h
  simp [Except.toOption] at h

end ShugoCore
