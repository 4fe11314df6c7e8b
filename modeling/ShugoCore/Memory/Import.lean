import ShugoCore.Lib.PyBuiltins
import ShugoCore.Memory.Semantic

/-!
# Merging the facts of a peer

`import_shared_facts` of `memory_system.py`, over whatever JSON a peer sends.  Entries
that are no dictionary, or have no content, are skipped.  An entry can also raise: a text
that the database cannot encode, metadata that is no mapping, a salience that is too large
for a float, or a fault of the database.  What was stored before it stays.

The two backends differ in one way here.  `PgSemanticMemory` has no `content_exists`, so
`getattr` finds nothing and every entry is new.
-/

namespace ShugoCore

open Py

/-- The class of `tier2`. -/
inductive Backend where
  | sqlite
  | postgres
deriving DecidableEq

/-- Why an import raises. -/
inductive ImportFault where
  | raised (e : Exn)
  /-- An error of the database. -/
  | database
deriving DecidableEq

variable {φ : Type} [Builtins φ]

/-- What an import finds: the backend, the clock, and what the database does with the
`i`-th entry. -/
structure Importer (φ : Type) where
  backend : Backend
  now : Seconds
  /-- `float` of a text. -/
  floatOfText : Str → Option (PyFloat φ)
  /-- The lookup of an entry's content fails. -/
  lookupFails : Nat → Bool
  /-- The insertion of an entry fails. -/
  insertFails : Nat → Bool

/-! ## The fields of a fact -/

/-- The content of a fact, sanitised. -/
def factContent (fact : Obj φ) : Str :=
  sanitizeText (strOf (orElse (fetch (lit "content") fact) (orElse (fetch (lit "fact") fact)
    (.str [])))) 2000

/-- The kind of a fact, sanitised. -/
def factKind (fact : Obj φ) : Str :=
  SemanticMemory.kindText (strOf (orElse (fetch (lit "kind") fact) (.str (lit "fact"))))

/-- A key of a dictionary.  A list or a dictionary has no hash. -/
def keyOf : PyVal φ → Except Exn (Key φ)
  | .none => .ok .none
  | .bool b => .ok (.bool b)
  | .int i => .ok (.int i)
  | .float x => .ok (.float x)
  | .str s => .ok (.str s)
  | .list _ | .dict _ => .error .typeError

/-- The number that a key is equal to, for the keys that are equal to numbers. -/
def keyNumber : Key φ → Option ℚ
  | .bool b => some (if b then 1 else 0)
  | .int i => some i
  | .float (.finite x) => some (FloatFormat.value x)
  | _ => none

/-- Keys of one entry: `1`, `1.0` and `True` are one key, and two NaNs are two. -/
def sameKey : Key φ → Key φ → Bool
  | .none, .none => true
  | .str s, .str t => s = t
  | .float .posInf, .float .posInf => true
  | .float .negInf, .float .negInf => true
  | a, b => match keyNumber a, keyNumber b with
      | some x, some y => x = y
      | _, _ => false

/-- `d[k] = v` for any key. -/
def setItem (k : Key φ) (v : PyVal φ) : Obj φ → Obj φ
  | [] => [(k, v)]
  | (k', v') :: d => if sameKey k' k then (k', v) :: d else (k', v') :: setItem k v d

/-- `dict(v)`: a copy of a mapping, or the items that a sequence of pairs gives. -/
def dictOf : PyVal φ → Except Exn (Obj φ)
  | .dict d => .ok d
  | v => do
      let items ← iterate v
      items.foldlM (fun d item => do
        match ← iterate item with
        | [key, value] => return setItem (← keyOf key) value d
        | _ => .error .valueError) []

/-- The metadata of a fact. -/
def factMetadata (fact : Obj φ) : Except Exn (Obj φ) :=
  dictOf (orElse (fetch (lit "metadata") fact) (.dict []))

/-- `max(0.0, min(10.0, x))`.  `min(10.0, nan)` is `10.0`. -/
def clampSalience : PyFloat φ → ℚ
  | .nan | .posInf => 10
  | .negInf => 0
  | .finite x => max 0 (min 10 (FloatFormat.value x))

/-- The integers that `float` takes. -/
def floatLimit : Nat := 2 ^ 1024 - 2 ^ 970

/-- The salience of a fact.  `except (TypeError, ValueError)` does not catch the
`OverflowError` of a large integer. -/
def factSalience (env : Importer φ) (fact : Obj φ) : Except Exn ℚ :=
  match getKey (lit "salience") fact with
  | none => .ok (4 / 5)
  | some (.bool b) => .ok (if b then 1 else 0)
  | some (.int i) =>
      if floatLimit ≤ i.natAbs then .error .overflowError else .ok (max 0 (min 10 i))
  | some (.float x) => .ok (clampSalience x)
  | some (.str s) =>
      match env.floatOfText s with
      | some x => .ok (clampSalience x)
      | none => .ok (4 / 5)
  | some _ => .ok (4 / 5)

/-! ## The loop -/

/-- `exists is not None and exists(content)`. -/
def alreadyKnown (env : Importer φ) (i : Nat) (m : SemanticMemory (Obj φ)) (content : Str) :
    Except ImportFault Bool :=
  match env.backend with
  | .postgres => .ok false
  | .sqlite =>
      -- The parameter of the query is encoded first.
      if ¬ Plain (sanitizeText content 2000) then .error (.raised .valueError)
      else if env.lookupFails i then .error .database
      else .ok (m.contentExists content)

/-- `store_fact`, which sanitises again. -/
def storeEntry (env : Importer φ) (i : Nat) (m : SemanticMemory (Obj φ)) (origin content kind : Str)
    (salience : ℚ) (metadata : Obj φ) : Except ImportFault (SemanticMemory (Obj φ)) :=
  if ¬ Plain (sanitizeText content 2000) ∨ ¬ Plain (SemanticMemory.kindText kind) then
    .error (.raised .valueError)
  else if env.insertFails i then .error .database
  else .ok (m.storeFact env.now content kind salience metadata (some (origin, utcNowIso env.now)))

/-- What becomes of an entry. -/
inductive Entered where
  | skipped
  | duplicate
  | imported

/-- Count an entry. -/
def ImportCounts.add (counts : ImportCounts) : Entered → ImportCounts
  | .skipped => { counts with skipped := counts.skipped + 1 }
  | .duplicate => { counts with duplicates := counts.duplicates + 1 }
  | .imported => { counts with imported := counts.imported + 1 }

/-- One entry of the loop. -/
def importEntry (env : Importer φ) (origin : Str) (i : Nat) (m : SemanticMemory (Obj φ)) :
    PyVal φ → Except ImportFault (SemanticMemory (Obj φ) × Entered)
  | .dict fact =>
      let content := factContent fact
      if content.isEmpty then .ok (m, .skipped)
      else
        match alreadyKnown env i m content with
        | .error e => .error e
        | .ok true => .ok (m, .duplicate)
        | .ok false =>
            match factMetadata fact, factSalience env fact with
            | .error e, _ => .error (.raised e)
            | .ok _, .error e => .error (.raised e)
            | .ok metadata, .ok salience =>
                (storeEntry env i m origin content (factKind fact) salience metadata).map
                  fun m => (m, .imported)
  | _ => .ok (m, .skipped)

/-- The loop, from the `i`-th entry on: the table it leaves, and the counts if it does not
raise. -/
def importEntries (env : Importer φ) (origin : Str) (i : Nat) (m : SemanticMemory (Obj φ))
    (counts : ImportCounts) :
    List (PyVal φ) → SemanticMemory (Obj φ) × Except ImportFault ImportCounts
  | [] => (m, .ok counts)
  | entry :: entries =>
      match importEntry env origin i m entry with
      | .error e => (m, .error e)
      | .ok (m', entered) => importEntries env origin (i + 1) m' (counts.add entered) entries

/-- `sanitize_text(source, 64) or "unknown"`. -/
def importOrigin (source : Str) : Str :=
  let origin := sanitizeText source 64
  if origin.isEmpty then lit "unknown" else origin

/-- `import_shared_facts`.  The write gate lets `shugonet` write in every policy. -/
def importFacts (env : Importer φ) (m : SemanticMemory (Obj φ)) (facts : PyVal φ) (source : Str) :
    SemanticMemory (Obj φ) × Except ImportFault ImportCounts :=
  match iterate (orElse facts (.list [])) with
  | .error e => (m, .error (.raised e))
  | .ok entries => importEntries env (importOrigin source) 0 m ⟨0, 0, 0⟩ entries

/-! ## What an entry does -/

/-- The content that a well-formed entry is stored under. -/
def entryContent : PyVal φ → Option Str
  | .dict fact =>
      if (factContent fact).isEmpty then none else some (sanitizeText (factContent fact) 2000)
  | _ => none

/-- The lookup of a fact's content raises. -/
def LookupRaises (env : Importer φ) (i : Nat) (fact : Obj φ) : Prop :=
  env.backend = .sqlite ∧
    (¬ Plain (sanitizeText (factContent fact) 2000) ∨ env.lookupFails i = true)

/-- The insertion of a fact raises. -/
def InsertRaises (env : Importer φ) (i : Nat) (fact : Obj φ) : Prop :=
  (∃ e, factMetadata fact = .error e) ∨ (∃ e, factSalience env fact = .error e) ∨
    ¬ Plain (sanitizeText (factContent fact) 2000) ∨
    ¬ Plain (SemanticMemory.kindText (factKind fact)) ∨ env.insertFails i = true

/-- The backend knows a content that is held. -/
def Recognised (env : Importer φ) (held : Str → Prop) (content : Str) : Prop :=
  env.backend = .sqlite ∧ held content

/-- The `i`-th entry makes the import raise, given what is held when its turn comes.
Metadata, salience and kind are looked at in new facts only. -/
def EntryRaises (env : Importer φ) (i : Nat) (held : Str → Prop) : PyVal φ → Prop
  | .dict fact =>
      factContent fact ≠ [] ∧
        (LookupRaises env i fact ∨
          ¬ Recognised env held (sanitizeText (factContent fact) 2000) ∧ InsertRaises env i fact)
  | _ => False

/-- The lookup raises, or says whether the backend knows the content. -/
theorem alreadyKnown_cases (env : Importer φ) (i : Nat) (m : SemanticMemory (Obj φ))
    (fact : Obj φ) :
    (LookupRaises env i fact ∧ ∃ e, alreadyKnown env i m (factContent fact) = .error e) ∨
      ¬ LookupRaises env i fact ∧
        ∃ known, alreadyKnown env i m (factContent fact) = .ok known ∧
          (known = true ↔
            Recognised env (· ∈ m.contents) (sanitizeText (factContent fact) 2000)) := by
  simp only [alreadyKnown, LookupRaises, Recognised]
  cases env.backend with
  | postgres => exact .inr ⟨by rintro ⟨⟨⟩, -⟩, false, rfl, by simp⟩
  | sqlite =>
      dsimp only
      split
      · rename_i hplain
        exact .inl ⟨⟨rfl, .inl hplain⟩, _, rfl⟩
      · rename_i hplain
        split
        · rename_i hfails
          exact .inl ⟨⟨rfl, .inr hfails⟩, _, rfl⟩
        · rename_i hfails
          refine .inr ⟨?_, _, rfl, ?_⟩
          · rintro ⟨-, h | h⟩
            · exact hplain h
            · exact hfails h
          · rw [SemanticMemory.contentExists_iff]
            exact ⟨fun h => ⟨rfl, h⟩, fun h => h.2⟩

/-- The insertion raises, or adds the content. -/
theorem insert_cases (env : Importer φ) (origin : Str) (i : Nat) (m : SemanticMemory (Obj φ))
    (fact : Obj φ) :
    let inserted : Except ImportFault (SemanticMemory (Obj φ) × Entered) :=
      match factMetadata fact, factSalience env fact with
      | .error e, _ => .error (.raised e)
      | .ok _, .error e => .error (.raised e)
      | .ok metadata, .ok salience =>
          (storeEntry env i m origin (factContent fact) (factKind fact) salience metadata).map
            fun m => (m, .imported)
    (InsertRaises env i fact ∧ ∃ e, inserted = .error e) ∨
      ¬ InsertRaises env i fact ∧
        ∃ m', inserted = .ok (m', .imported) ∧
          m'.contents = m.contents ++ [sanitizeText (factContent fact) 2000] := by
  intro inserted
  simp only [InsertRaises]
  cases hmeta : factMetadata fact with
  | error e => exact .inl ⟨.inl ⟨e, rfl⟩, .raised e, by simp only [inserted, hmeta]⟩
  | ok metadata =>
      cases hsal : factSalience env fact with
      | error e => exact .inl ⟨.inr (.inl ⟨e, rfl⟩), .raised e, by simp only [inserted, hmeta, hsal]⟩
      | ok salience =>
          simp only [inserted, hmeta, hsal, storeEntry]
          split
          · rename_i hplain
            refine .inl ⟨.inr (.inr ?_), _, rfl⟩
            exact hplain.imp_right .inl
          · rename_i hplain
            rw [not_or, not_not, not_not] at hplain
            split
            · rename_i hfails
              exact .inl ⟨.inr (.inr (.inr (.inr hfails))), _, rfl⟩
            · rename_i hfails
              refine .inr ⟨?_, _, rfl, ?_⟩
              · simp [hplain.1, hplain.2, hfails]
              · exact SemanticMemory.contents_storeFact ..

/-- An entry is skipped, raises, is known, or is stored. -/
theorem importEntry_cases (env : Importer φ) (origin : Str) (i : Nat) (m : SemanticMemory (Obj φ))
    (entry : PyVal φ) :
    (entryContent entry = none ∧ ¬ EntryRaises env i (· ∈ m.contents) entry ∧
        importEntry env origin i m entry = .ok (m, .skipped)) ∨
      ∃ content, entryContent entry = some content ∧
        (EntryRaises env i (· ∈ m.contents) entry ∧
            (∃ e, importEntry env origin i m entry = .error e) ∨
          ¬ EntryRaises env i (· ∈ m.contents) entry ∧
            (Recognised env (· ∈ m.contents) content ∧
                importEntry env origin i m entry = .ok (m, .duplicate) ∨
              ¬ Recognised env (· ∈ m.contents) content ∧
                ∃ m', importEntry env origin i m entry = .ok (m', .imported) ∧
                  m'.contents = m.contents ++ [content])) := by
  cases entry with
  | none | bool _ | int _ | float _ | str _ | list _ =>
      exact .inl ⟨rfl, fun h => h, rfl⟩
  | dict fact =>
      by_cases hempty : factContent fact = []
      · refine .inl ⟨by simp [entryContent, hempty], fun h => h.1 hempty, ?_⟩
        simp [importEntry, hempty]
      · refine .inr ⟨sanitizeText (factContent fact) 2000, by simp [entryContent, hempty], ?_⟩
        simp only [importEntry, List.isEmpty_iff, hempty, if_false]
        rcases alreadyKnown_cases env i m fact with ⟨hl, e, he⟩ | ⟨hl, known, he, hknown⟩
        · exact .inl ⟨⟨hempty, .inl hl⟩, e, by rw [he]⟩
        · rw [he]
          cases known with
          | true =>
              have hrec := hknown.1 rfl
              refine .inr ⟨?_, .inl ⟨hrec, rfl⟩⟩
              rintro ⟨-, h | ⟨h, -⟩⟩
              · exact hl h
              · exact h hrec
          | false =>
              have hnew : ¬ Recognised env (· ∈ m.contents) (sanitizeText (factContent fact) 2000) :=
                fun h => Bool.false_ne_true (hknown.2 h)
              rcases insert_cases env origin i m fact with ⟨hi, e, hins⟩ | ⟨hi, m', hins, hm'⟩
              · exact .inl ⟨⟨hempty, .inr ⟨hnew, hi⟩⟩, e, hins⟩
              · refine .inr ⟨?_, .inr ⟨hnew, m', hins, hm'⟩⟩
                rintro ⟨-, h | ⟨-, h⟩⟩
                · exact hl h
                · exact hi h

/-- An entry that does not raise leaves its content held. -/
theorem importEntry_ok {env : Importer φ} {origin : Str} {i : Nat} {m m' : SemanticMemory (Obj φ)}
    {entry : PyVal φ} {entered : Entered}
    (h : importEntry env origin i m entry = .ok (m', entered)) :
    ¬ EntryRaises env i (· ∈ m.contents) entry ∧
      ∀ c, c ∈ m'.contents ↔ c ∈ m.contents ∨ entryContent entry = some c := by
  rcases importEntry_cases env origin i m entry with
    ⟨hnone, hraise, hok⟩ | ⟨content, hsome, ⟨-, e, he⟩ | ⟨hraise, ⟨hrec, hok⟩ | ⟨-, m₁, hok, hm₁⟩⟩⟩
  · rw [hok] at h
    cases h
    exact ⟨hraise, fun c => by simp [hnone]⟩
  · rw [he] at h
    cases h
  · rw [hok] at h
    cases h
    refine ⟨hraise, fun c => ?_⟩
    rw [hsome, Option.some.injEq]
    refine ⟨.inl, ?_⟩
    rintro (hc | rfl)
    · exact hc
    · exact hrec.2
  · rw [hok] at h
    cases h
    refine ⟨hraise, fun c => ?_⟩
    rw [hm₁, List.mem_append, List.mem_singleton, hsome, Option.some.injEq, eq_comm]

/-- An import stops at an entry only if it raises. -/
theorem importEntry_error {env : Importer φ} {origin : Str} {i : Nat} {m : SemanticMemory (Obj φ)}
    {entry : PyVal φ} {e : ImportFault} (h : importEntry env origin i m entry = .error e) :
    EntryRaises env i (· ∈ m.contents) entry := by
  rcases importEntry_cases env origin i m entry with
    ⟨-, -, hok⟩ | ⟨content, -, ⟨hraise, -⟩ | ⟨-, ⟨-, hok⟩ | ⟨-, m', hok, -⟩⟩⟩
  · rw [hok] at h
    cases h
  · exact hraise
  · rw [hok] at h
    cases h
  · rw [hok] at h
    cases h

/-! ## What the loop does -/

/-- What is held once the entries are through. -/
def Held (m : SemanticMemory (Obj φ)) (entries : List (PyVal φ)) (content : Str) : Prop :=
  content ∈ m.contents ∨ ∃ entry ∈ entries, entryContent entry = some content

/-- No entry raises when its turn comes, from the `i`-th on. -/
def Quiet (env : Importer φ) (i : Nat) (m : SemanticMemory (Obj φ)) (entries : List (PyVal φ)) :
    Prop :=
  ∀ before entry after, entries = before ++ entry :: after →
    ¬ EntryRaises env (i + before.length) (Held m before) entry

theorem held_nil (m : SemanticMemory (Obj φ)) : Held m [] = (· ∈ m.contents) := by
  funext c
  simp [Held]

theorem held_cons {m m' : SemanticMemory (Obj φ)} {entry : PyVal φ}
    (h : ∀ c, c ∈ m'.contents ↔ c ∈ m.contents ∨ entryContent entry = some c)
    (entries : List (PyVal φ)) : Held m' entries = Held m (entry :: entries) := by
  funext c
  simp only [Held, h, List.mem_cons, exists_eq_or_imp, or_assoc]

theorem Held.mono {m : SemanticMemory (Obj φ)} {entries more : List (PyVal φ)} {c : Str}
    (h : Held m entries c) (hsub : entries ⊆ more) : Held m more c := by
  rcases h with h | ⟨entry, hmem, hc⟩
  · exact .inl h
  · exact .inr ⟨entry, hsub hmem, hc⟩

/-- The entries are quiet if the first is, and the rest after it. -/
theorem quiet_cons {env : Importer φ} {i : Nat} {m m' : SemanticMemory (Obj φ)} {entry : PyVal φ}
    {entries : List (PyVal φ)} (hraise : ¬ EntryRaises env i (· ∈ m.contents) entry)
    (hm' : ∀ c, c ∈ m'.contents ↔ c ∈ m.contents ∨ entryContent entry = some c)
    (hrest : Quiet env (i + 1) m' entries) : Quiet env i m (entry :: entries) := by
  intro before e after hsplit
  cases before with
  | nil =>
      obtain ⟨rfl, -⟩ := List.cons_eq_cons.1 hsplit
      rw [held_nil]
      exact hraise
  | cons b before =>
      obtain ⟨rfl, htail⟩ := List.cons_eq_cons.1 hsplit
      have h := hrest before e after htail
      rwa [held_cons hm', Nat.add_right_comm, Nat.add_assoc, ← List.length_cons] at h

/-- The loop gets through and holds every content, or stops at the first entry that raises
and holds those before it. -/
theorem importEntries_cases (env : Importer φ) (origin : Str) (i : Nat)
    (m : SemanticMemory (Obj φ)) (counts : ImportCounts) (entries : List (PyVal φ)) :
    (Quiet env i m entries ∧
        (∀ c, c ∈ (importEntries env origin i m counts entries).1.contents ↔ Held m entries c) ∧
        ∃ counts', (importEntries env origin i m counts entries).2 = .ok counts') ∨
      ∃ before entry after, entries = before ++ entry :: after ∧
        EntryRaises env (i + before.length) (Held m before) entry ∧ Quiet env i m before ∧
        (∀ c, c ∈ (importEntries env origin i m counts entries).1.contents ↔ Held m before c) ∧
        ∃ e, (importEntries env origin i m counts entries).2 = .error e := by
  induction entries generalizing i m counts with
  | nil =>
      refine .inl ⟨?_, fun c => by rw [held_nil]; rfl, counts, rfl⟩
      intro before entry after h
      exact absurd h.symm (List.append_ne_nil_of_right_ne_nil _ (List.cons_ne_nil _ _))
  | cons entry entries ih =>
      rw [importEntries]
      cases hentry : importEntry env origin i m entry with
      | error e =>
          refine .inr ⟨[], entry, entries, rfl, ?_, ?_, fun c => by rw [held_nil], e, rfl⟩
          · rw [held_nil]
            exact importEntry_error hentry
          · intro before b after h
            exact absurd h.symm (List.append_ne_nil_of_right_ne_nil _ (List.cons_ne_nil _ _))
      | ok stored =>
          obtain ⟨m', entered⟩ := stored
          obtain ⟨hraise, hm'⟩ := importEntry_ok hentry
          rcases ih (i + 1) m' (counts.add entered) with
            ⟨hquiet, hheld, hok⟩ | ⟨before, e, after, rfl, hr, hquiet, hheld, herr⟩
          · refine .inl ⟨quiet_cons hraise hm' hquiet, fun c => ?_, hok⟩
            rw [← held_cons hm']
            exact hheld c
          · refine .inr ⟨entry :: before, e, after, rfl, ?_, quiet_cons hraise hm' hquiet,
              fun c => ?_, herr⟩
            · rwa [← held_cons hm', List.length_cons, ← Nat.add_assoc, Nat.add_right_comm]
            · rw [← held_cons hm']
              exact hheld c

/-- No entry before quiet ones raises. -/
theorem first_raise {env : Importer φ} {m : SemanticMemory (Obj φ)}
    {entries before before' after after' : List (PyVal φ)} {entry entry' : PyVal φ}
    (hquiet : Quiet env 0 m before) (hsplit : entries = before ++ entry :: after)
    (hsplit' : entries = before' ++ entry' :: after')
    (hraise : EntryRaises env before'.length (Held m before') entry') : before <+: before' := by
  rcases List.append_eq_append_iff.1 (hsplit.symm.trans hsplit') with
    ⟨rest, hpre, -⟩ | ⟨rest, hpre, hrest⟩
  · exact ⟨rest, hpre.symm⟩
  · cases rest with
    | nil => exact ⟨[], by simpa using hpre⟩
    | cons first rest =>
        obtain ⟨rfl, -⟩ := List.cons_eq_cons.1 hrest
        have hnot := hquiet before' entry' rest hpre
        rw [Nat.zero_add] at hnot
        exact absurd hraise hnot

/-! ## Importing twice -/

/-- An importer whose database works. -/
def Importer.working (backend : Backend) (floatOfText : Str → Option (PyFloat φ)) (now : Seconds) :
    Importer φ :=
  ⟨backend, now, floatOfText, fun _ => false, fun _ => false⟩

theorem importFacts_list (env : Importer φ) (m : SemanticMemory (Obj φ)) (entries : List (PyVal φ))
    (source : Str) :
    importFacts env m (.list entries) source =
      importEntries env (importOrigin source) 0 m ⟨0, 0, 0⟩ entries := by
  cases entries with
  | nil => rfl
  | cons entry entries => rfl

/-- Whether an entry raises has nothing to do with the clock. -/
theorem entryRaises_working {backend : Backend} {floatOfText : Str → Option (PyFloat φ)}
    {now now' : Seconds} {i j : Nat} {held : Str → Prop} {entry : PyVal φ} :
    EntryRaises (.working backend floatOfText now) i held entry ↔
      EntryRaises (.working backend floatOfText now') j held entry := by
  cases entry <;> exact Iff.rfl

/-- Entries that the table knows, or that are skipped, change nothing. -/
theorem importEntries_settled {env : Importer φ} {origin : Str} {i : Nat}
    {m : SemanticMemory (Obj φ)} {counts : ImportCounts} {entries : List (PyVal φ)}
    (h : ∀ entry ∈ entries, ∀ content, entryContent entry = some content →
      Recognised env (· ∈ m.contents) content ∧ ∀ i, ¬ EntryRaises env i (· ∈ m.contents) entry) :
    ∃ counts', importEntries env origin i m counts entries = (m, .ok counts') ∧
      counts'.imported = counts.imported := by
  induction entries generalizing i counts with
  | nil => exact ⟨counts, rfl, rfl⟩
  | cons entry entries ih =>
      have hrest := fun e he => h e (List.mem_cons_of_mem _ he)
      rcases importEntry_cases env origin i m entry with
        ⟨-, -, hok⟩ | ⟨content, hsome, ⟨hraise, -⟩ | ⟨-, ⟨-, hok⟩ | ⟨hnew, -⟩⟩⟩
      · obtain ⟨counts', himport, hcount⟩ := @ih (i + 1) (counts.add .skipped) hrest
        exact ⟨counts', by rw [importEntries, hok]; exact himport, hcount⟩
      · exact absurd hraise ((h entry List.mem_cons_self content hsome).2 i)
      · obtain ⟨counts', himport, hcount⟩ := @ih (i + 1) (counts.add .duplicate) hrest
        exact ⟨counts', by rw [importEntries, hok]; exact himport, hcount⟩
      · exact absurd (h entry List.mem_cons_self content hsome).1 hnew

/-- A backend that recognises nothing imports every well-formed entry. -/
theorem importEntries_unrecognised {env : Importer φ} (hbackend : env.backend = .postgres)
    {origin : Str} {i : Nat} {m : SemanticMemory (Obj φ)} {counts counts' : ImportCounts}
    {entries : List (PyVal φ)} (h : (importEntries env origin i m counts entries).2 = .ok counts') :
    counts'.imported = counts.imported + (entries.filterMap entryContent).length := by
  induction entries generalizing i m counts with
  | nil =>
      cases h
      rfl
  | cons entry entries ih =>
      rw [importEntries] at h
      rcases importEntry_cases env origin i m entry with
        ⟨hnone, -, hok⟩ | ⟨content, hsome, ⟨-, e, he⟩ | ⟨-, ⟨hrec, -⟩ | ⟨-, m', hok, -⟩⟩⟩
      · rw [hok] at h
        rw [List.filterMap_cons_none hnone]
        exact @ih (i + 1) m (counts.add .skipped) h
      · rw [he] at h
        cases h
      · rw [Recognised, hbackend] at hrec
        cases hrec.1
      · rw [hok] at h
        rw [List.filterMap_cons_some hsome, List.length_cons, ih h]
        show counts.imported + 1 + _ = _
        omega

section Twice

variable (backend : Backend) (floatOfText : Str → Option (PyFloat φ)) (now now' : Seconds)
variable (source : Str) (entries : List (PyVal φ)) (m : SemanticMemory (Obj φ))

/-- The table after one import. -/
def importedOnce : SemanticMemory (Obj φ) :=
  (importFacts (.working backend floatOfText now) m (.list entries) source).1

/-- The import of the same facts after that. -/
def importedAgain : SemanticMemory (Obj φ) × Except ImportFault ImportCounts :=
  importFacts (.working backend floatOfText now')
    (importedOnce backend floatOfText now source entries m) (.list entries) source

variable {backend floatOfText now now' source entries m}

/-- What raises in the first import raises in the second. -/
theorem quiet_of_importedAgain {counts : ImportCounts}
    (h : (importedAgain backend floatOfText now now' source entries m).2 = .ok counts) :
    Quiet (.working backend floatOfText now) 0 m entries := by
  have hfirst := importEntries_cases (.working backend floatOfText now) (importOrigin source) 0 m
    ⟨0, 0, 0⟩ entries
  rw [← importFacts_list, ← importedOnce] at hfirst
  rcases hfirst with ⟨hquiet, -, -⟩ | ⟨before, entry, after, rfl, hraise, -, hheld, -⟩
  · exact hquiet
  · have hsecond := importEntries_cases (.working backend floatOfText now') (importOrigin source) 0
      (importedOnce backend floatOfText now source (before ++ entry :: after) m) ⟨0, 0, 0⟩
      (before ++ entry :: after)
    rw [← importFacts_list, ← importedAgain, h] at hsecond
    rcases hsecond with ⟨hquiet, -, -⟩ | ⟨_, _, _, -, -, -, -, e, he⟩
    · -- The entries before it add nothing to what they have left already.
      have hsame : Held (importedOnce backend floatOfText now source (before ++ entry :: after) m)
          before = Held m before := by
        funext c
        rw [Held, hheld, Held]
        exact propext ⟨fun hc => hc.elim id .inr, .inl⟩
      have hnot := hquiet before entry after rfl
      rw [hsame] at hnot
      exact absurd (entryRaises_working.1 hraise) hnot
    · cases he

/-- A quiet import that is repeated finds every content, on a backend that looks. -/
theorem importedAgain_settled (hquiet : Quiet (.working backend floatOfText now) 0 m entries)
    (h : backend = .sqlite ∨ ∀ entry ∈ entries, entryContent entry = none) :
    ∃ counts, importedAgain backend floatOfText now now' source entries m =
        (importedOnce backend floatOfText now source entries m, .ok counts) ∧
      counts.imported = 0 := by
  have hfirst := importEntries_cases (.working backend floatOfText now) (importOrigin source) 0 m
    ⟨0, 0, 0⟩ entries
  rw [← importFacts_list, ← importedOnce] at hfirst
  rw [importedAgain, importFacts_list]
  refine importEntries_settled fun entry hentry content hcontent => ?_
  rcases h with rfl | h
  · rcases hfirst with ⟨-, hheld, -⟩ | ⟨before, e, after, hsplit, hraise, -⟩
    · have hin := (hheld content).2 (.inr ⟨entry, hentry, hcontent⟩)
      refine ⟨⟨rfl, hin⟩, fun i hraise => ?_⟩
      obtain ⟨before, after, hsplit⟩ := List.append_of_mem hentry
      refine hquiet before entry after hsplit ?_
      cases entry with
      | none | bool _ | int _ | float _ | str _ | list _ => cases hcontent
      | dict fact =>
          rcases hraise with ⟨hne, hlookup | ⟨hnew, -⟩⟩
          · exact ⟨hne, .inl hlookup⟩
          · have hsome : some (sanitizeText (factContent fact) 2000) = some content := by
              rw [← hcontent, entryContent, if_neg (by simpa using hne)]
            rw [Option.some.inj hsome] at hnew
            exact absurd ⟨rfl, hin⟩ hnew
    · exact absurd hraise (hquiet before e after hsplit)
  · rw [h entry hentry] at hcontent
    cases hcontent

end Twice

/-- A second import changes nothing and reports nothing imported, if and only if no entry
raises and the backend can look contents up, or there is nothing to import. -/
theorem import_idempotent_iff (backend : Backend) (floatOfText : Str → Option (PyFloat φ))
    (now now' : Seconds) (source : Str) (entries : List (PyVal φ)) (m : SemanticMemory (Obj φ)) :
    ((importedAgain backend floatOfText now now' source entries m).1.contents.Perm
        (importedOnce backend floatOfText now source entries m).contents ∧
      ∃ counts, (importedAgain backend floatOfText now now' source entries m).2 = .ok counts ∧
        counts.imported = 0) ↔
      Quiet (.working backend floatOfText now) 0 m entries ∧
        (backend = .sqlite ∨ ∀ entry ∈ entries, entryContent entry = none) := by
  constructor
  · rintro ⟨-, counts, hok, hzero⟩
    refine ⟨quiet_of_importedAgain hok, ?_⟩
    cases backend with
    | sqlite => exact .inl rfl
    | postgres =>
        right
        rw [importedAgain, importFacts_list] at hok
        have hcount := importEntries_unrecognised rfl hok
        have hnil : entries.filterMap entryContent = [] := by
          rw [← List.length_eq_zero_iff]
          omega
        exact List.filterMap_eq_nil_iff.1 hnil
  · rintro ⟨hquiet, h⟩
    have hsettled : ∃ counts, importedAgain backend floatOfText now now' source entries m =
        (importedOnce backend floatOfText now source entries m, .ok counts) ∧ counts.imported = 0 :=
      importedAgain_settled hquiet h
    obtain ⟨counts, hagain, hzero⟩ := hsettled
    rw [hagain]
    exact ⟨.refl _, counts, rfl, hzero⟩

/-- One fact, imported twice into PostgreSQL. -/
theorem postgres_imports_again :
    let fact : PyVal WholeFloat := .dict (obj [("content", .str (lit "a"))])
    ¬ (importedAgain .postgres (fun _ => none) 0 1 (lit "b") [fact] .empty).1.contents.Perm
      (importedOnce .postgres (fun _ => none) 0 (lit "b") [fact] .empty).contents := by
  decide +kernel

end ShugoCore
