import ShugoCore.Audit.RoundTrip
import ShugoCore.Lib.JsonReading

/-!
# Tamper evidence

Two files that verify and end in the same hash hold the same entries.  The last
entries are hashed over the same text.  That text is the hash before it and the
canonical body, and the body begins with a brace, so both are the same; the body
names the sequence number, so as many entries come before; and the entry before
carries the hash it names.

The verifier reads the `hash` field through `str`.  A digest that is all decimal
digits may so be stored as a number, and the field is the same only as text.
-/

namespace ShugoCore

open Py

/-- A file that `open(path, "r", encoding="utf-8")` reads.  What is decoded has no
surrogates. -/
structure AuditFile where
  text : Str
  plain : Plain text

variable {φ : Type} [Builtins φ]

/-! ## Parsed entries -/

/-- The entry on a line, where there is one. -/
def lineEntry (φ : Type) [Builtins φ] (line : Str) : Option (Obj φ) :=
  match (loads (strip line) : Option (PyVal φ)) with
  | some (.dict entry) => some entry
  | _ => none

/-- The parsed entries of a text, in order. -/
def entriesIn (φ : Type) [Builtins φ] (text : Str) : List (Obj φ) :=
  (fileLines text).filterMap (lineEntry φ)

/-- The parsed entries of a file. -/
def AuditFile.entries (φ : Type) [Builtins φ] (f : AuditFile) : List (Obj φ) := entriesIn φ f.text

/-- `entry_hash` of the verifier. -/
def storedHash (entry : Obj φ) : Str := strOf ((getKey (lit "hash") entry).getD (.str []))

omit [Builtins φ] in
/-- `body` of the verifier: every field but `hash` and `hmac`. -/
def hashedBody (entry : Obj φ) : Obj φ := entry.filter fun i => keyNotIn [lit "hash", lit "hmac"] i.1

/-- The text that the verifier takes the hash over. -/
def verifiedText (entry : Obj φ) : Except Exn Str :=
  hashText (strOf (fetch (lit "prev_hash") (hashedBody entry))) (hashedBody entry)

/-- Two entries agree: on every field but `hash` and `hmac`, and on the text of `hash`. -/
structure SameEntry (e e' : Obj φ) : Prop where
  fields : Same (.dict (hashedBody e)) (.dict (hashedBody e'))
  hash : storedHash e = storedHash e'

namespace AuditFile

/-- The file passes `verify_audit_file` without a key. -/
def Passes (φ : Type) [Builtins φ] (hashes : Hashlib) (f : AuditFile) : Prop :=
  ∃ n, verifyAuditFile φ hashes (some f.text) none = .ok (true, [], n)

/-- The hash that the last entry carries. -/
def lastHash (φ : Type) [Builtins φ] (f : AuditFile) : Option Str :=
  (f.entries φ).getLast?.map storedHash

/-- No two of the texts that are hashed for the two files have the same digest
unless they are the same.  An injective digest has this for any two files. -/
def NoCollision (φ : Type) [Builtins φ] (hashes : Hashlib) (f f' : AuditFile) : Prop :=
  ∀ e ∈ f.entries φ, ∀ e' ∈ f'.entries φ, ∀ t t', verifiedText e = .ok t → verifiedText e' = .ok t' →
    hashes.sha256 t = hashes.sha256 t' → t = t'

end AuditFile

/-! ## What the verifier has checked -/

/-- An entry that nothing was found wrong with. -/
structure Checked (hashes : Hashlib) (prev : Str) (n : Nat) (e : Obj φ) : Prop where
  link : fetch (lit "prev_hash") (hashedBody e) = .str prev
  seq : intOf ((getKey (lit "seq") (hashedBody e)).getD (.int (-1))) = .ok n
  hash : ∃ t, verifiedText e = .ok t ∧ storedHash e = hashes.sha256 t

/-- Entries that nothing was found wrong with, after a hash and from a number on. -/
def Chained (hashes : Hashlib) : Str → Nat → List (Obj φ) → Prop
  | _, _, [] => True
  | prev, n, e :: es => Checked hashes prev n e ∧ Chained hashes (storedHash e) (n + 1) es

omit [Builtins φ] in
theorem isText_iff {s : Str} {v : PyVal φ} : isText s v = true ↔ v = .str s := by
  cases v with
  | str t => simp [isText]
  | none | bool b | int i | float x | list xs | dict d => simp [isText]

/-- The check of an entry, step by step. -/
theorem entryProblems_eq (hashes : Hashlib) (key : Option Str) (v : Verification) (e : Obj φ) :
    v.entryProblems hashes key e = (do
      let text ← verifiedText e
      let seq ← intOf ((getKey (lit "seq") (hashedBody e)).getD (.int (-1)))
      let hmacs ← Verification.hmacProblems hashes key e
      return ((if isText v.expectedPrev (fetch (lit "prev_hash") (hashedBody e)) then []
          else [.brokenLinkage]) ++
        (if seq = v.expectedSeq then [] else [.sequenceGap v.expectedSeq]) ++
        (if storedHash e = hashes.sha256 text then [] else [.hashMismatch]) ++ hmacs,
        storedHash e)) := rfl

/-- What is found wrong with an entry: nothing, if it is checked and nothing is wrong with its HMAC. -/
theorem entryProblems_spec {hashes : Hashlib} {key : Option Str} {v : Verification} {e : Obj φ}
    {problems : List AuditProblem} {hash : Str}
    (h : v.entryProblems hashes key e = .ok (problems, hash)) :
    hash = storedHash e ∧ ∃ hmacs, Verification.hmacProblems hashes key e = .ok hmacs ∧
      (problems = [] ↔ Checked hashes v.expectedPrev v.expectedSeq e ∧ hmacs = []) := by
  rw [entryProblems_eq] at h
  obtain ⟨text, ht, h⟩ := ok_of_bind h
  obtain ⟨seq, hseq, h⟩ := ok_of_bind h
  obtain ⟨hmacs, hh, h⟩ := ok_of_bind h
  cases h
  refine ⟨rfl, hmacs, hh, ?_⟩
  simp only [List.append_eq_nil_iff, ite_eq_left_iff, List.cons_ne_nil, imp_false, not_not, isText_iff]
  constructor
  · rintro ⟨⟨⟨hlink, rfl⟩, hhash⟩, hnone⟩
    exact ⟨⟨hlink, hseq, text, ht, hhash⟩, hnone⟩
  · rintro ⟨hchecked, hnone⟩
    have hnumber := hchecked.seq
    rw [hseq] at hnumber
    obtain ⟨text', ht', hhash⟩ := hchecked.hash
    cases ht.symm.trans ht'
    exact ⟨⟨⟨hchecked.link, Except.ok.inj hnumber⟩, hhash⟩, hnone⟩

theorem checked_of_entryProblems {hashes : Hashlib} {v : Verification} {e : Obj φ} {h : Str}
    (hp : v.entryProblems hashes none e = .ok ([], h)) :
    h = storedHash e ∧ Checked hashes v.expectedPrev v.expectedSeq e := by
  obtain ⟨hhash, hmacs, -, hproblems⟩ := entryProblems_spec hp
  exact ⟨hhash, (hproblems.1 rfl).1⟩

theorem loads_blank {line : Str} (h : strip line = []) :
    (loads (strip line) : Option (PyVal φ)) = none := by
  rw [h]
  rfl

/-- What the check of a line comes to. -/
theorem line_cases (hashes : Hashlib) (key : Option Str) (v : Verification) (line : Str) (n : Nat) :
    Verification.line φ hashes key v (line, n) =
      match (loads (strip line) : Option (PyVal φ)) with
      | none => .ok (if strip line = [] then v
          else { v with errors := v.errors ++ [.atLine n .malformed] })
      | some (.dict e) => (v.entryProblems hashes key e).map fun found =>
          { errors := v.errors ++ found.1.map (.atLine n)
            expectedPrev := found.2
            expectedSeq := v.expectedSeq + 1
            checked := v.checked + 1 }
      | some _ => .error .attributeError := by
  rw [Verification.line]
  dsimp only
  split
  · rename_i hblank
    rw [loads_blank hblank]
  · rename_i hfull
    cases hload : (loads (strip line) : Option (PyVal φ)) with
    | none => rfl
    | some value =>
        cases value with
        | dict e =>
            cases hfound : v.entryProblems hashes key e <;> simp only [hfound] <;> rfl
        | none | bool b | int i | float x | str s | list xs => rfl

/-- What the loop has checked when no line was complained about. -/
theorem chained_of_foldlM {hashes : Hashlib} {lines : List (Str × Nat)} {v w : Verification}
    (h : lines.foldlM (Verification.line φ hashes none) v = .ok w) (hw : w.errors = []) :
    v.errors = [] ∧ Chained hashes v.expectedPrev v.expectedSeq
      ((lines.map Prod.fst).filterMap (lineEntry φ)) := by
  induction lines generalizing v with
  | nil =>
      cases h
      exact ⟨hw, trivial⟩
  | cons l lines ih =>
      rw [List.foldlM_cons] at h
      obtain ⟨u, hl, h⟩ := ok_of_bind h
      obtain ⟨hu, hrest⟩ := ih h
      rw [line_cases] at hl
      cases hload : (loads (strip l.1) : Option (PyVal φ)) with
      | none =>
          have hnone : lineEntry φ l.1 = none := by rw [lineEntry, hload]
          rw [hload] at hl
          cases hl
          rw [List.map_cons, List.filterMap_cons_none hnone]
          split at hu
          · -- a blank line
            rename_i hblank
            rw [if_pos hblank] at hrest
            exact ⟨hu, hrest⟩
          · -- a malformed line leaves an error
            exact absurd (List.append_eq_nil_iff.1 hu).2 (List.cons_ne_nil _ _)
      | some value =>
          rw [hload] at hl
          cases value with
          | dict entry =>
              have hsome : lineEntry φ l.1 = some entry := by rw [lineEntry, hload]
              cases hp : v.entryProblems hashes none entry with
              | error exn =>
                  simp only [hp] at hl
                  cases hl
              | ok found =>
                  obtain ⟨problems, hash⟩ := found
                  simp only [hp] at hl
                  cases hl
                  obtain ⟨hv, hnil⟩ := List.append_eq_nil_iff.1 hu
                  cases List.map_eq_nil_iff.1 hnil
                  obtain ⟨rfl, hchecked⟩ := checked_of_entryProblems hp
                  rw [List.map_cons, List.filterMap_cons_some hsome]
                  exact ⟨hv, hchecked, hrest⟩
          | none | bool b | int i | float x | str s | list xs => cases hl

theorem AuditFile.Passes.chained {hashes : Hashlib} {f : AuditFile} (h : f.Passes φ hashes) :
    Chained hashes genesisHash 1 (f.entries φ) := by
  obtain ⟨n, h⟩ := h
  cases hv : ((fileLines f.text).zipIdx 1).foldlM (Verification.line φ hashes none) .start with
  | error exn => simp [verifyAuditFile, hv, bind, Except.bind] at h
  | ok v =>
      simp only [verifyAuditFile, hv, bind, Except.bind, pure, Except.pure, Except.ok.injEq,
        Prod.mk.injEq] at h
      have hchained := (chained_of_foldlM hv h.2.1).2
      rwa [List.zipIdx_map_fst] at hchained

/-! ## What is read -/

/-- An entry as it is read: text keys, each once, with joined documents for values. -/
structure IsRead (ms : List (Str × Json φ)) (e : Obj φ) : Prop where
  eq : e = loadDict ms
  nodup : (ms.map Prod.fst).Nodup
  joined : joinMembers ms = ms

omit [Builtins φ] in
theorem IsRead.filter {ms : List (Str × Json φ)} {e : Obj φ} (h : IsRead ms e) :
    IsRead (ms.filter fun m => m.1 ∉ [lit "hash", lit "hmac"]) (hashedBody e) where
  eq := by
    rw [h.eq, hashedBody, loadDict, loadDict, List.filter_map]
    rfl
  nodup := h.nodup.sublist (List.filter_sublist.map _)
  joined := joinMembers_eq_self_iff.2 fun m hm =>
    joinMembers_eq_self_iff.1 h.joined m (List.mem_of_mem_filter hm)

/-- Every entry of a file is read from it. -/
theorem AuditFile.isRead {f : AuditFile} {e : Obj φ} (h : e ∈ f.entries φ) : ∃ ms, IsRead ms e := by
  obtain ⟨l, hl, he⟩ := List.mem_filterMap.1 h
  have hplain : Plain (strip l) := plain_strip (plain_fileLines f.plain hl)
  unfold lineEntry at he
  split at he
  · rename_i entry hload
    obtain rfl : entry = e := Option.some.inj he
    obtain ⟨j, hj, hd⟩ := Option.map_eq_some_iff.1 hload
    have hjoined := joinDoc_parse hplain hj
    cases j with
    | obj ms =>
        rw [load_obj, PyVal.dict.injEq] at hd
        refine ⟨Dict.ofPairs ms, hd.symm, Dict.nodup_ofPairs ms, ?_⟩
        rw [joinDoc, Json.obj.injEq, joinMembers_eq_self_iff] at hjoined
        exact joinMembers_eq_self_iff.2 fun m hm => hjoined m (Dict.mem_ofPairs hm)
    | null | bool _ | int _ | float _ | str _ | arr _ => cases hd
  · cases he

/-- Joined members that are written alike are the same up to their order. -/
theorem perm_of_render {ms ms' : List (Str × Json φ)} (h : joinMembers ms = ms)
    (h' : joinMembers ms' = ms')
    (heq : render compact (.obj (sortMembers (ms.map fun m => (m.1, canon m.2)))) =
      render compact (.obj (sortMembers (ms'.map fun m => (m.1, canon m.2))))) :
    (ms.map fun m => (m.1, canon m.2)).Perm (ms'.map fun m => (m.1, canon m.2)) := by
  have hjoin : ∀ {ms : List (Str × Json φ)}, joinMembers ms = ms →
      joinDoc (.obj (sortMembers (ms.map fun m => (m.1, canon m.2)))) =
        .obj (sortMembers (ms.map fun m => (m.1, canon m.2))) := by
    intro ms h
    rw [joinDoc, Json.obj.injEq, joinMembers_eq_self_iff]
    intro m hm
    obtain ⟨n, hn, rfl⟩ := List.mem_map.1 ((List.mem_insertionSort _).1 hm)
    obtain ⟨hkey, hdoc⟩ := joinMembers_eq_self_iff.1 h n hn
    exact ⟨hkey, joinDoc_canon n.2 hdoc⟩
  rw [render_eq_iff standard_compact, hjoin h, hjoin h', Json.obj.injEq] at heq
  exact perm_of_sortMembers heq

/-! ## Two entries with one text -/

/-- A hash has no brace in it. -/
theorem brace_not_mem {s : Str} (h : Hex s) : (123 : CodePoint) ∉ s := by
  intro hmem
  exact absurd (h _ hmem) (by decide)

theorem intOf_same {x y : PyVal φ} (h : Same x y) : intOf x = intOf y := by
  cases h <;> rfl

omit [Builtins φ] in
theorem getKey_loadDict (k : Str) (ms : List (Str × Json φ)) :
    getKey k (loadDict ms) = (Dict.get? ms k).map load := by
  induction ms with
  | nil => rfl
  | cons m ms ih =>
      rw [loadDict, List.map_cons, getKey, Dict.get?]
      split
      · rfl
      · exact ih

omit [Builtins φ] in
/-- A field of dictionaries with the same members. -/
theorem same_getD_of_perm {ms ms' : List (Str × Json φ)} (hnodup : (ms.map Prod.fst).Nodup)
    (h : (ms.map fun m => (m.1, canon m.2)).Perm (ms'.map fun m => (m.1, canon m.2))) (k : Str)
    (i : Int) : Same ((getKey k (loadDict ms)).getD (.int i)) ((getKey k (loadDict ms')).getD (.int i)) := by
  have hkeys : ((ms.map fun m => (m.1, canon m.2)).map Prod.fst).Nodup := by
    rw [List.map_map]
    exact hnodup
  have hget := Dict.get?_perm h hkeys k
  rw [Dict.get?_map, Dict.get?_map] at hget
  rw [getKey_loadDict, getKey_loadDict]
  cases hx : Dict.get? ms k with
  | none =>
      cases hx' : Dict.get? ms' k with
      | none => exact .int i
      | some x' => simp [hx, hx'] at hget
  | some x =>
      cases hx' : Dict.get? ms' k with
      | none => simp [hx, hx'] at hget
      | some x' =>
          rw [hx, hx'] at hget
          exact same_of_canon (Option.some.inj hget)

/-- The text that a checked entry was hashed over. -/
theorem Checked.verifiedText_eq {hashes : Hashlib} {prev : Str} {n : Nat} {e : Obj φ}
    {ms : List (Str × Json φ)} (h : Checked hashes prev n e) (hp : Hex prev)
    (hms : IsRead ms (hashedBody e)) :
    verifiedText e =
      .ok (prev ++ render compact (.obj (sortMembers (ms.map fun m => (m.1, canon m.2))))) := by
  rw [verifiedText, h.link]
  apply hashText_of_encode hp.plain
  rw [hms.eq]
  exact encode_loadDict ms

theorem append_cons_inj {α : Type} {a : α} {p p' s s' : List α} (hp : a ∉ p) (hp' : a ∉ p')
    (h : p ++ a :: s = p' ++ a :: s') : p = p' ∧ s = s' := by
  induction p generalizing p' with
  | nil =>
      cases p' with
      | nil => exact ⟨rfl, List.tail_eq_of_cons_eq h⟩
      | cons b p' =>
          obtain ⟨rfl, -⟩ := List.cons.inj h
          exact absurd List.mem_cons_self hp'
  | cons b p ih =>
      cases p' with
      | nil =>
          obtain ⟨rfl, -⟩ := List.cons.inj h
          exact absurd List.mem_cons_self hp
      | cons b' p' =>
          obtain ⟨rfl, htail⟩ := List.cons.inj h
          obtain ⟨rfl, hs⟩ := ih (List.not_mem_of_not_mem_cons hp) (List.not_mem_of_not_mem_cons hp') htail
          exact ⟨rfl, hs⟩

/-- A hash before a dictionary can be told from it. -/
theorem split_hashed_text {p p' : Str} (hp : Hex p) (hp' : Hex p') {ms ms' : List (Str × Json φ)}
    (h : p ++ render compact (.obj ms) = p' ++ render compact (.obj ms')) :
    p = p' ∧ render compact (.obj ms) = render compact (.obj ms') := by
  obtain ⟨t, ht⟩ := render_obj_ends compact ms
  obtain ⟨t', ht'⟩ := render_obj_ends compact ms'
  rw [ht, ht'] at h ⊢
  obtain ⟨heq, hs⟩ := append_cons_inj (brace_not_mem hp) (brace_not_mem hp') h
  exact ⟨heq, by rw [hs]⟩

/-- Checked entries that were hashed over one text agree, and so do their places. -/
theorem Checked.agree {hashes : Hashlib} {prev prev' : Str} {n n' : Nat} {e e' : Obj φ}
    (h : Checked hashes prev n e) (h' : Checked hashes prev' n' e') (hp : Hex prev)
    (hp' : Hex prev') {ms ms' : List (Str × Json φ)} (hms : IsRead ms e) (hms' : IsRead ms' e')
    (htext : verifiedText e = verifiedText e') (hhash : storedHash e = storedHash e') :
    prev = prev' ∧ n = n' ∧ SameEntry e e' := by
  have hb := hms.filter
  have hb' := hms'.filter
  rw [h.verifiedText_eq hp hb, h'.verifiedText_eq hp' hb', Except.ok.injEq] at htext
  obtain ⟨hprev, hrender⟩ := split_hashed_text hp hp' htext
  have hperm := perm_of_render hb.joined hb'.joined hrender
  have hseq : (Except.ok (n : Int) : Except Exn Int) = .ok n' := by
    rw [← h.seq, ← h'.seq, hb.eq, hb'.eq]
    exact intOf_same (same_getD_of_perm hb.nodup hperm (lit "seq") (-1))
  have hfields : Same (.dict (hashedBody e)) (.dict (hashedBody e')) := by
    rw [hb.eq, hb'.eq]
    exact same_of_perm hperm fun m _ j' hj' => same_of_canon hj'
  exact ⟨hprev, Int.ofNat.inj (Except.ok.inj hseq), hfields, hhash⟩

/-! ## Two chains with one end -/

/-- The hash after some entries. -/
def hashAfter (prev : Str) (es : List (Obj φ)) : Str := (es.getLast?.map storedHash).getD prev

theorem chained_concat {hashes : Hashlib} {prev : Str} {n : Nat} {es : List (Obj φ)} {e : Obj φ}
    (h : Chained hashes prev n (es ++ [e])) :
    Chained hashes prev n es ∧ Checked hashes (hashAfter prev es) (n + es.length) e := by
  induction es generalizing prev n with
  | nil => exact ⟨trivial, h.1⟩
  | cons d es ih =>
      obtain ⟨hd, hrest⟩ := h
      obtain ⟨hes, he⟩ := ih hrest
      refine ⟨⟨hd, hes⟩, ?_⟩
      have hafter : hashAfter prev (d :: es) = hashAfter (storedHash d) es := by
        cases es with
        | nil => rfl
        | cons c es => simp [hashAfter, List.getLast?_cons]
      rw [hafter, List.length_cons, Nat.add_comm es.length, ← Nat.add_assoc]
      exact he

theorem hex_hashAfter {hashes : Hashlib} {prev : Str} {n : Nat} {es : List (Obj φ)} (hp : Hex prev)
    (h : Chained hashes prev n es) : Hex (hashAfter prev es) := by
  rcases List.eq_nil_or_concat es with rfl | ⟨ds, d, rfl⟩
  · exact hp
  · rw [List.concat_eq_append] at h ⊢
    obtain ⟨t, -, ht⟩ := (chained_concat h).2.hash
    simp only [hashAfter, List.getLast?_append, List.getLast?_singleton, Option.some_or,
      Option.map_some, Option.getD_some, ht]
    exact hashes.sha256_hex t

section

variable {hashes : Hashlib} {f f' : AuditFile}

/-- The last entries of two chains that end in one hash agree, with what they name:
the hash before them and how many entries come before. -/
theorem last_agree (hc : f.NoCollision φ hashes f') {es es' : List (Obj φ)} {e e' : Obj φ}
    (hes : ∀ d ∈ es ++ [e], d ∈ f.entries φ) (hes' : ∀ d ∈ es' ++ [e'], d ∈ f'.entries φ)
    (h : Chained hashes genesisHash 1 (es ++ [e])) (h' : Chained hashes genesisHash 1 (es' ++ [e']))
    (hhash : storedHash e = storedHash e') :
    hashAfter genesisHash es = hashAfter genesisHash es' ∧ es.length = es'.length ∧
      SameEntry e e' := by
  obtain ⟨hchain, hchecked⟩ := chained_concat h
  obtain ⟨hchain', hchecked'⟩ := chained_concat h'
  have hmem := hes e (by simp)
  have hmem' := hes' e' (by simp)
  obtain ⟨ms, hms⟩ := AuditFile.isRead hmem
  obtain ⟨ms', hms'⟩ := AuditFile.isRead hmem'
  obtain ⟨t, ht, hst⟩ := hchecked.hash
  obtain ⟨t', ht', hst'⟩ := hchecked'.hash
  have htext : t = t' := hc e hmem e' hmem' t t' ht ht' (by rw [← hst, ← hst', hhash])
  obtain ⟨hprev, hn, hsame⟩ := hchecked.agree hchecked' (hex_hashAfter hex_genesisHash hchain)
    (hex_hashAfter hex_genesisHash hchain') hms hms' (by rw [ht, ht', htext]) hhash
  exact ⟨hprev, Nat.add_left_cancel hn, hsame⟩

theorem storedHash_concat {prev : Str} (es : List (Obj φ)) (e : Obj φ) :
    hashAfter prev (es ++ [e]) = storedHash e := by
  simp [hashAfter]

/-- Backwards along two chains of one length. -/
theorem agree_of_length (hc : f.NoCollision φ hashes f') (es : List (Obj φ)) :
    ∀ es' : List (Obj φ), (∀ d ∈ es, d ∈ f.entries φ) → (∀ d ∈ es', d ∈ f'.entries φ) →
      Chained hashes genesisHash 1 es → Chained hashes genesisHash 1 es' →
      es.length = es'.length → hashAfter genesisHash es = hashAfter genesisHash es' →
      List.Forall₂ SameEntry es es' := by
  induction es using List.reverseRecOn with
  | nil =>
      intro es' _ _ _ _ hlen _
      rw [List.eq_nil_of_length_eq_zero hlen.symm]
      exact .nil
  | append_singleton es e ih =>
      intro es' hes hes' h h' hlen hafter
      rcases List.eq_nil_or_concat es' with rfl | ⟨ds', e', rfl⟩
      · simp at hlen
      · rw [List.concat_eq_append] at hes' h' hafter ⊢
        rw [storedHash_concat, storedHash_concat] at hafter
        obtain ⟨hprev, hlen, hsame⟩ := last_agree hc hes hes' h h' hafter
        have hrest := ih ds' (fun d hd => hes d (List.mem_append_left _ hd))
          (fun d hd => hes' d (List.mem_append_left _ hd)) (chained_concat h).1
          (chained_concat h').1 hlen hprev
        exact List.rel_append hrest (.cons hsame .nil)

/-- Two files that verify and end in the same hash hold the same entries. -/
theorem audit_tamper_evident (h : f.Passes φ hashes) (h' : f'.Passes φ hashes)
    (hc : f.NoCollision φ hashes f') (hlast : f.lastHash φ = f'.lastHash φ) :
    List.Forall₂ SameEntry (f.entries φ) (f'.entries φ) := by
  have hchain := h.chained
  have hchain' := h'.chained
  have hafter : hashAfter genesisHash (f.entries φ) = hashAfter genesisHash (f'.entries φ) :=
    congrArg (fun o => o.getD genesisHash) hlast
  refine agree_of_length hc _ _ (fun _ h => h) (fun _ h => h) hchain hchain' ?_ hafter
  -- the number of entries is named by the last of them
  rcases List.eq_nil_or_concat (f.entries φ) with hnil | ⟨es, e, hes⟩ <;>
    rcases List.eq_nil_or_concat (f'.entries φ) with hnil' | ⟨es', e', hes'⟩
  · rw [hnil, hnil']
  · simp [AuditFile.lastHash, hnil, hes'] at hlast
  · simp [AuditFile.lastHash, hnil', hes] at hlast
  · rw [List.concat_eq_append] at hes hes'
    rw [hes, hes', storedHash_concat, storedHash_concat] at hafter
    obtain ⟨-, hlen, -⟩ := last_agree hc (fun d hd => hes ▸ hd) (fun d hd => hes' ▸ hd)
      (hes ▸ hchain) (hes' ▸ hchain') hafter
    rw [hes, hes', List.length_append, List.length_append, hlen]
    rfl

end

/-! ## Files of documents -/

/-- The file with these documents, one on each line. -/
def AuditFile.ofDocs (docs : List (Json WholeFloat)) : AuditFile where
  text := (docs.map (render spaced)).flatMap fun l => l ++ [newline]
  plain := by
    intro c hc
    obtain ⟨l, hl, hc⟩ := List.mem_flatMap.1 hc
    obtain ⟨d, -, rfl⟩ := List.mem_map.1 hl
    rcases List.mem_append.1 hc with hc | hc
    · exact (printable_spaced d).plain c hc
    · rw [List.mem_singleton.1 hc]
      decide

/-- The fields that are hashed of the first entry of a chain, and the others. -/
def firstEntry (others : List (Str × Json WholeFloat)) : Json WholeFloat :=
  .obj ((lit "seq", .int 1) :: (lit "prev_hash", .str genesisHash) :: others)

/-- The text that a first entry with no other field is hashed over. -/
def firstText : Str :=
  genesisHash ++ render compact
    (.obj [(lit "prev_hash", .str genesisHash), (lit "seq", .int 1)] : Json WholeFloat)

/-- Its hash. -/
def firstHash : Str := hashlib.sha256 firstText

/-- The text that a second entry after it is hashed over. -/
def secondText : Str :=
  firstHash ++ render compact
    (.obj [(lit "prev_hash", .str firstHash), (lit "seq", .int 2)] : Json WholeFloat)

/-- Its hash. -/
def secondHash : Str := hashlib.sha256 secondText

/-- A file with two entries that are not signed. -/
def unsignedFile : AuditFile :=
  .ofDocs [firstEntry [(lit "hash", .str firstHash)],
    .obj [(lit "seq", .int 2), (lit "prev_hash", .str firstHash), (lit "hash", .str secondHash)]]

/-- The same entries with something for an `hmac` and their fields in another order. -/
def signedFile : AuditFile :=
  .ofDocs [.obj [(lit "hmac", .str (lit "c0ffee")), (lit "hash", .str firstHash),
      (lit "prev_hash", .str genesisHash), (lit "seq", .int 1)],
    .obj [(lit "hash", .str secondHash), (lit "hmac", .str (lit "decaf")), (lit "seq", .int 2),
      (lit "prev_hash", .str firstHash)]]

theorem AuditFile.passes_of_toOption {hashes : Hashlib} {f : AuditFile} {n : Nat}
    (h : (verifyAuditFile WholeFloat hashes (some f.text) none).toOption = some (true, [], n)) :
    f.Passes WholeFloat hashes := by
  cases hv : verifyAuditFile WholeFloat hashes (some f.text) none with
  | error exn => simp [hv, Except.toOption] at h
  | ok r =>
      rw [hv] at h
      exact ⟨n, by rw [hv, Option.some.inj h]⟩

/-- Both files verify and carry the same hash. -/
theorem signed_entry_agrees :
    unsignedFile.Passes WholeFloat hashlib ∧ signedFile.Passes WholeFloat hashlib ∧
      List.Forall₂ SameEntry (unsignedFile.entries WholeFloat) (signedFile.entries WholeFloat) := by
  have h : unsignedFile.Passes WholeFloat hashlib :=
    AuditFile.passes_of_toOption (n := 2) (by decide +kernel)
  have h' : signedFile.Passes WholeFloat hashlib :=
    AuditFile.passes_of_toOption (n := 2) (by decide +kernel)
  refine ⟨h, h', audit_tamper_evident h h' ?_ (by decide +kernel)⟩
  have htexts : ∀ f : AuditFile, (f.entries WholeFloat).all (fun e =>
      (verifiedText e).toOption = some firstText ∨ (verifiedText e).toOption = some secondText) = true →
      ∀ e ∈ f.entries WholeFloat, ∀ t, verifiedText e = .ok t → t = firstText ∨ t = secondText := by
    intro f hf e he t ht
    have := List.all_eq_true.1 hf e he
    simpa [ht, Except.toOption] using this
  have hdistinct : firstHash ≠ secondHash := by decide +kernel
  intro e he e' he' t t' ht ht' hsame
  rcases htexts unsignedFile (by decide +kernel) e he t ht with rfl | rfl <;>
    rcases htexts signedFile (by decide +kernel) e' he' t' ht' with rfl | rfl
  · rfl
  · exact absurd hsame hdistinct
  · exact absurd hsame.symm hdistinct
  · rfl

/-! ## A hash that is a number -/

/-- Two decimal digits for a printable character. -/
def printableDigits (c : CodePoint) : Str :=
  [Literal.digit ((c.val - 32) / 10 % 10), Literal.digit ((c.val - 32) % 10)]

/-- Seven decimal digits for any character. -/
def anyDigits (c : CodePoint) : Str :=
  [c.val / 1000000 % 10, c.val / 100000 % 10, c.val / 10000 % 10, c.val / 1000 % 10,
    c.val / 100 % 10, c.val / 10 % 10, c.val % 10].map Literal.digit

/-- A digest of decimal digits from which the text can be had back. -/
def decimalDigest (s : Str) : Str :=
  if Printable s then 49 :: s.flatMap printableDigits else 50 :: s.flatMap anyDigits

theorem flatMap_inj {f : CodePoint → Str} {n : Nat} (hn : ∀ c, (f c).length = n + 1) {P : CodePoint → Prop}
    (hf : ∀ c d, P c → P d → f c = f d → c = d) {s t : Str} (hs : ∀ c ∈ s, P c) (ht : ∀ c ∈ t, P c)
    (h : s.flatMap f = t.flatMap f) : s = t := by
  induction s generalizing t with
  | nil =>
      cases t with
      | nil => rfl
      | cons d t =>
          have hlen := congrArg List.length h
          rw [List.flatMap_cons, List.length_append, hn, List.flatMap_nil, List.length_nil] at hlen
          omega
  | cons c s ih =>
      cases t with
      | nil =>
          have hlen := congrArg List.length h
          rw [List.flatMap_cons, List.length_append, hn, List.flatMap_nil, List.length_nil] at hlen
          omega
      | cons d t =>
          rw [List.flatMap_cons, List.flatMap_cons] at h
          obtain ⟨hcd, hst⟩ := List.append_inj h ((hn c).trans (hn d).symm)
          rw [hf c d (hs c List.mem_cons_self) (ht d List.mem_cons_self) hcd,
            ih (fun c hc => hs c (List.mem_cons_of_mem _ hc))
              (fun c hc => ht c (List.mem_cons_of_mem _ hc)) hst]

theorem digit_inj {a b : Nat} (ha : a < 10) (hb : b < 10) (h : Literal.digit a = Literal.digit b) :
    a = b := by
  have hval := congrArg Fin.val h
  rw [Literal.digit_val ha, Literal.digit_val hb] at hval
  omega

theorem printableDigits_inj {c d : CodePoint} (hc : 0x20 ≤ c.val ∧ c.val ≤ 0x7E)
    (hd : 0x20 ≤ d.val ∧ d.val ≤ 0x7E) (h : printableDigits c = printableDigits d) : c = d := by
  simp only [printableDigits, List.cons.injEq, and_true] at h
  have htens := digit_inj (by omega) (by omega) h.1
  have hones := digit_inj (by omega) (by omega) h.2
  apply Fin.ext
  omega

theorem anyDigits_inj {c d : CodePoint} (h : anyDigits c = anyDigits d) : c = d := by
  simp only [anyDigits, List.map_cons, List.map_nil, List.cons.injEq, and_true] at h
  obtain ⟨h₆, h₅, h₄, h₃, h₂, h₁, h₀⟩ := h
  have h₆ := digit_inj (by omega) (by omega) h₆
  have h₅ := digit_inj (by omega) (by omega) h₅
  have h₄ := digit_inj (by omega) (by omega) h₄
  have h₃ := digit_inj (by omega) (by omega) h₃
  have h₂ := digit_inj (by omega) (by omega) h₂
  have h₁ := digit_inj (by omega) (by omega) h₁
  have h₀ := digit_inj (by omega) (by omega) h₀
  have hc := c.isLt
  have hd := d.isLt
  apply Fin.ext
  omega

theorem decimalDigest_injective : Function.Injective decimalDigest := by
  intro s t h
  unfold decimalDigest at h
  split_ifs at h with hs ht ht
  · exact flatMap_inj (fun _ => rfl) (fun c d => printableDigits_inj) hs ht (List.cons.inj h).2
  · cases h
  · cases h
  · exact flatMap_inj (n := 6) (P := fun _ => True) (fun _ => rfl) (fun c d _ _ => anyDigits_inj)
      (fun _ _ => trivial) (fun _ _ => trivial) (List.cons.inj h).2

theorem hex_digits {l : List Nat} (h : ∀ n ∈ l, n < 10) : Hex (l.map Literal.digit) := by
  intro c hc
  obtain ⟨n, hn, rfl⟩ := List.mem_map.1 hc
  rw [Literal.digit_val (h n hn)]
  have := h n hn
  omega

theorem hex_printableDigits (c : CodePoint) : Hex (printableDigits c) :=
  hex_digits (l := [(c.val - 32) / 10 % 10, (c.val - 32) % 10]) (by simp; omega)

theorem hex_anyDigits (c : CodePoint) : Hex (anyDigits c) := hex_digits (by simp; omega)

theorem hex_decimalDigest (s : Str) : Hex (decimalDigest s) := by
  simp only [decimalDigest]
  split
  · intro c hc
    rcases List.mem_cons.1 hc with rfl | hc
    · decide
    · obtain ⟨d, -, hd⟩ := List.mem_flatMap.1 hc
      exact hex_printableDigits d c hd
  · intro c hc
    rcases List.mem_cons.1 hc with rfl | hc
    · decide
    · obtain ⟨d, -, hd⟩ := List.mem_flatMap.1 hc
      exact hex_anyDigits d c hd

/-- Digests that are decimal numbers. -/
def decimalHashes : Hashlib where
  sha256 := decimalDigest
  hmacSha256 _ _ := []
  sha256_hex := hex_decimalDigest
  hmacSha256_hex _ _ := nofun

/-- The second entry of a chain. -/
def secondEntry : Json WholeFloat :=
  let body : List (Str × Json WholeFloat) :=
    [(lit "prev_hash", .str (decimalDigest firstText)), (lit "seq", .int 2)]
  .obj (body ++ [(lit "hash", .str (decimalDigest
    (decimalDigest firstText ++ render compact (.obj body))))])

/-- A chain of two entries, with a given document for the hash of the first. -/
def numberedFile (hash : Json WholeFloat) : AuditFile :=
  .ofDocs [firstEntry [(lit "hash", hash)], secondEntry]

/-- The first hash as a text. -/
def textHash : Json WholeFloat := .str (decimalDigest firstText)

/-- The first hash as a number. -/
def numberHash : Json WholeFloat :=
  .int (Nat.ofDigits 10 ((decimalDigest firstText).map fun c => c.val - 48).reverse)

/-- A file of documents is read as their values. -/
theorem AuditFile.entries_ofDocs (ms : List (List (Str × Json WholeFloat))) :
    (AuditFile.ofDocs (ms.map .obj)).entries WholeFloat =
      ms.map fun m => loadDict (Dict.ofPairs (joinMembers m)) := by
  have hprint : ∀ l ∈ (ms.map Json.obj).map (render spaced), Printable l := by
    intro l hl
    obtain ⟨d, -, rfl⟩ := List.mem_map.1 hl
    exact printable_spaced d
  have hline : ∀ m, lineEntry WholeFloat (render spaced (.obj m)) =
      some (loadDict (Dict.ofPairs (joinMembers m))) := by
    intro m
    obtain ⟨t, ht⟩ := render_obj_ends spaced m
    have hstrip : strip (render spaced (.obj m)) = render spaced (.obj m) := by
      rw [ht]
      exact strip_of_ends (by decide) (by decide) t
    rw [lineEntry, hstrip, loads, parse_render standard_spaced, Option.map_some, joinDoc, load_obj]
  rw [AuditFile.entries, entriesIn, AuditFile.ofDocs, fileLines_flatMap _ hprint, List.map_map,
    List.filterMap_map]
  have hcomp : (lineEntry WholeFloat ∘ (render spaced ∘ Json.obj)) =
      fun m => some (loadDict (Dict.ofPairs (joinMembers m))) := funext hline
  rw [hcomp, List.filterMap_eq_map']

/-- With a digest that is all decimal digits the first entry can carry it as a
text or as a number.  Both files verify and end in the same entry. -/
theorem number_passes_for_hash :
    Function.Injective decimalHashes.sha256 ∧
      (numberedFile textHash).Passes WholeFloat decimalHashes ∧
      (numberedFile numberHash).Passes WholeFloat decimalHashes ∧
      ((numberedFile textHash).entries WholeFloat).getLast? =
        ((numberedFile numberHash).entries WholeFloat).getLast? ∧
      ¬ List.Forall₂ (fun e e' => Same (fetch (lit "hash") e) (fetch (lit "hash") e'))
        ((numberedFile textHash).entries WholeFloat)
        ((numberedFile numberHash).entries WholeFloat) := by
  have hentries : ∀ hash : Json WholeFloat, (numberedFile hash).entries WholeFloat = _ := fun hash =>
    AuditFile.entries_ofDocs
      [[(lit "seq", .int 1), (lit "prev_hash", .str genesisHash), (lit "hash", hash)], _]
  have hhash : ∀ hash : Json WholeFloat, fetch (lit "hash") (loadDict (Dict.ofPairs (joinMembers
      [(lit "seq", .int 1), (lit "prev_hash", .str genesisHash), (lit "hash", hash)]))) =
        load (joinDoc hash) := fun _ => rfl
  have hdiffer : ∀ (s : Str) (i : Int), ¬ Same (load (.str s) : PyVal WholeFloat) (load (.int i)) := by
    rintro s i ⟨⟩
  refine ⟨decimalDigest_injective, ?_, ?_, ?_, ?_⟩
  · exact AuditFile.passes_of_toOption (n := 2) (by decide +kernel)
  · exact AuditFile.passes_of_toOption (n := 2) (by decide +kernel)
  · rw [hentries, hentries]
    rfl
  · rw [hentries, hentries]
    rintro (_ | ⟨hfirst, -⟩)
    rw [hhash, hhash] at hfirst
    exact hdiffer _ _ hfirst

end ShugoCore
