import ShugoCore.Audit.Tamper
import ShugoCore.Lib.Interpreter

/-!
# The audit chain, by an interpreter with limits

`verify_audit_file` and the opening of a chain once more, with the limits that the conversions of a
line meet.  `json.loads`, `str` and `json.dumps` raise a `RecursionError` for what nests too deep, and
`json.loads` raises a `ValueError` for an integer of too many digits, as it does for a line that is no
JSON.

A check within the limits returns what the check without them returns, if no field meets a limit
(`entryProblemsWithin_eq_ok_iff`).  Without limits both are the same (`verifyAuditFileWithin_unlimited`).
-/

namespace ShugoCore

open Py Verification

variable {φ : Type} [Builtins φ] (L : Limits φ)

/-! ## Entries -/

/-- The text that an entry's hash is taken over. -/
def hashTextWithin (prev : Str) (body : Obj φ) : Except Exn Str := do
  let document ← L.encode (.dict body)
  encodable (prev ++ render compact document)

/-- `_entry_hmac`. -/
def entryHmacWithin (hashes : Hashlib) (key : Str) (body : Obj φ) : Except Exn Str := do
  let key ← encodable key
  let document ← L.encode (.dict body)
  return hashes.hmacSha256 key (render compact document)

namespace Verification

/-- What the key adds to the check of an entry. -/
def hmacProblemsWithin (hashes : Hashlib) (key : Option Str) (entry : Obj φ) :
    Except Exn (List AuditProblem) :=
  match key.filter fun k => !k.isEmpty with
  | none => .ok []
  | some key =>
      let stored := (getKey (lit "hmac") entry).getD (.str [])
      if truthy stored then do
        let hmac ← entryHmacWithin L hashes key (entry.filter fun i => keyNotIn [lit "hmac"] i.1)
        return if isText hmac stored then [] else [.hmacMismatch]
      else .ok [.missingHmac]

/-- The check of one parsed entry, and the hash the next one must name. -/
def entryProblemsWithin (hashes : Hashlib) (key : Option Str) (v : Verification) (entry : Obj φ) :
    Except Exn (List AuditProblem × Str) := do
  let entryHash ← L.str ((getKey (lit "hash") entry).getD (.str []))
  let body := entry.filter fun i => keyNotIn [lit "hash", lit "hmac"] i.1
  let prev := (getKey (lit "prev_hash") body).getD .none
  let prevText ← L.str prev
  let text ← hashTextWithin L prevText body
  let seq ← intOf ((getKey (lit "seq") body).getD (.int (-1)))
  let hmacs ← hmacProblemsWithin L hashes key entry
  return ((if isText v.expectedPrev prev then [] else [.brokenLinkage]) ++
    (if seq = v.expectedSeq then [] else [.sequenceGap v.expectedSeq]) ++
    (if entryHash = hashes.sha256 text then [] else [.hashMismatch]) ++ hmacs, entryHash)

/-- The body of the loop, for the line with this number. -/
def lineWithin (hashes : Hashlib) (key : Option Str) (v : Verification) (numbered : Str × Nat) :
    Except Exn Verification :=
  let text := strip numbered.1
  if text = [] then .ok v
  else match L.loads text with
    | .error .valueError => .ok { v with errors := v.errors ++ [.atLine numbered.2 .malformed] }
    | .error e => .error e
    | .ok (.dict entry) => do
        let (problems, entryHash) ← v.entryProblemsWithin L hashes key entry
        return {
          errors := v.errors ++ problems.map (.atLine numbered.2)
          expectedPrev := entryHash
          expectedSeq := v.expectedSeq + 1
          checked := v.checked + 1 }
    | .ok _ => .error .attributeError

end Verification

/-! ## Files -/

/-- `verify_audit_file`. -/
def verifyAuditFileWithin (hashes : Hashlib) (file : Option Str) (hmacKey : Option Str) :
    Except Exn (Bool × List AuditError × Nat) :=
  match file with
  | none => .ok (false, [.fileNotFound], 0)
  | some content => do
      let v ← ((fileLines content).zipIdx 1).foldlM (Verification.lineWithin L hashes hmacKey) .start
      return (v.errors.isEmpty, v.errors, v.checked)

namespace AuditChain

/-- One line of `_load_existing`.  A `ValueError` or an `AttributeError` skips the rest of the line. -/
def adoptLineWithin (c : AuditChain) (line : Str) : Except Exn AuditChain :=
  let line := strip line
  if line = [] then .ok c
  else match L.loads line with
    | .error .valueError => .ok c
    | .error e => .error e
    | .ok (.dict entry) =>
        match (getKey (lit "seq") entry).elim (.ok (c.seq + 1)) intOf with
        | .error .valueError => .ok c
        | .error e => .error e
        | .ok seq =>
            match (getKey (lit "hash") entry).elim (.ok c.tail) L.str with
            | .error .valueError => .ok { c with seq }
            | .error e => .error e
            | .ok tail => .ok { c with seq, tail }
    | .ok _ => .ok c

/-- `AuditChain.__init__` over a file. -/
def initWithin (hmacKey : Option Str) (file : Option Str) : Except Exn AuditChain :=
  (fileLines (file.getD [])).foldlM (adoptLineWithin L)
    { hmacKey := hmacKey.filter fun k => !k.isEmpty, seq := 0, tail := genesisHash }

end AuditChain

/-! ## Entries that meet no limit -/

/-- An entry that the verifier converts within the limits. -/
structure Fits (key : Option Str) (e : Obj φ) : Prop where
  hash : L.Shows ((getKey (lit "hash") e).getD (.str []))
  link : L.Shows (fetch (lit "prev_hash") (hashedBody e))
  body : L.Writes (.dict (hashedBody e))
  signed : ∀ k ∈ key, k ≠ [] → truthy (fetch (lit "hmac") e) = true →
    L.Writes (.dict (e.filter fun i => keyNotIn [lit "hmac"] i.1))

variable {L}

theorem canonicalJson_of_encode {v : PyVal φ} {document : Json φ} (h : encode v = some document) :
    canonicalJson v = some (render compact document) := by
  rw [canonicalJson, dumps, h]
  rfl

theorem hashTextWithin_eq_ok_iff {prev text : Str} {body : Obj φ} :
    hashTextWithin L prev body = .ok text ↔
      L.Writes (.dict body) ∧ hashText prev body = .ok text := by
  constructor
  · intro h
    obtain ⟨document, hdocument, h⟩ := ok_of_bind h
    obtain ⟨hwrites, hencode⟩ := Limits.encode_eq_ok_iff.1 hdocument
    refine ⟨hwrites, ?_⟩
    rw [hashText, canonicalJson_of_encode hencode]
    exact h
  · rintro ⟨hwrites, h⟩
    cases hencode : encode (.dict body : PyVal φ) with
    | none =>
        rw [hashText, canonicalJson, dumps, hencode] at h
        cases h
    | some document =>
        rw [hashText, canonicalJson_of_encode hencode] at h
        rw [hashTextWithin, Limits.encode_eq_ok_iff.2 ⟨hwrites, hencode⟩]
        exact h

theorem entryHmacWithin_eq_ok_iff {hashes : Hashlib} {key hmac : Str} {body : Obj φ} :
    entryHmacWithin L hashes key body = .ok hmac ↔
      L.Writes (.dict body) ∧ entryHmac hashes key body = .ok hmac := by
  constructor
  · intro h
    obtain ⟨key', hkey, h⟩ := ok_of_bind h
    obtain ⟨document, hdocument, h⟩ := ok_of_bind h
    obtain ⟨hwrites, hencode⟩ := Limits.encode_eq_ok_iff.1 hdocument
    refine ⟨hwrites, ?_⟩
    rw [entryHmac, hkey, canonicalJson_of_encode hencode]
    exact h
  · rintro ⟨hwrites, h⟩
    obtain ⟨key', hkey, h⟩ := ok_of_bind h
    rw [entryHmacWithin, hkey]
    cases hencode : encode (.dict body : PyVal φ) with
    | none =>
        rw [canonicalJson, dumps, hencode] at h
        cases h
    | some document =>
        rw [canonicalJson_of_encode hencode] at h
        dsimp only [bind, Except.bind]
        rw [Limits.encode_eq_ok_iff.2 ⟨hwrites, hencode⟩]
        exact h

/-- What the key adds to the check of an entry, where there is a key. -/
theorem hmacProblems_key {hashes : Hashlib} {k : Str} (hk : k ≠ []) (e : Obj φ) :
    hmacProblems hashes (some k) e =
      if truthy (fetch (lit "hmac") e) then
        (entryHmac hashes k (e.filter fun i => keyNotIn [lit "hmac"] i.1)).map fun hmac =>
          if isText hmac (fetch (lit "hmac") e) then [] else [.hmacMismatch]
      else .ok [.missingHmac] := by
  have hkey : (some k).filter (fun k : Str => !k.isEmpty) = some k := by
    simp [Option.filter, hk]
  rw [hmacProblems, hkey, fetch]
  cases getKey (lit "hmac") e with
  | none => rfl
  | some stored =>
      dsimp only [Option.getD_some]
      split
      · cases entryHmac hashes k (e.filter fun i => keyNotIn [lit "hmac"] i.1) <;> rfl
      · rfl

theorem hmacProblems_no_key {hashes : Hashlib} {key : Option Str} (h : ∀ k ∈ key, k = []) (e : Obj φ) :
    hmacProblems hashes key e = .ok [] := by
  have hkey : key.filter (fun k : Str => !k.isEmpty) = none := by
    rw [Option.filter_eq_none_iff]
    intro k hk
    simp [h k hk]
  rw [hmacProblems, hkey]

/-- A key that is checked, or none. -/
theorem key_cases (key : Option Str) : (∀ k ∈ key, k = []) ∨ ∃ k, key = some k ∧ k ≠ [] := by
  cases key with
  | none =>
      left
      intro k hk
      cases hk
  | some k =>
      cases k with
      | nil => exact .inl fun k hk => (Option.mem_some.1 hk).symm
      | cons c k => exact .inr ⟨_, rfl, List.cons_ne_nil c k⟩

/-- What the key adds within the limits, where there is a key. -/
theorem hmacProblemsWithin_key {hashes : Hashlib} {k : Str} (hk : k ≠ []) (e : Obj φ) :
    Verification.hmacProblemsWithin L hashes (some k) e =
      if truthy (fetch (lit "hmac") e) then
        (entryHmacWithin L hashes k (e.filter fun i => keyNotIn [lit "hmac"] i.1)).map fun hmac =>
          if isText hmac (fetch (lit "hmac") e) then [] else [.hmacMismatch]
      else .ok [.missingHmac] := by
  have hkey : (some k).filter (fun k : Str => !k.isEmpty) = some k := by
    simp [Option.filter, hk]
  rw [Verification.hmacProblemsWithin, hkey, fetch]
  cases getKey (lit "hmac") e with
  | none => rfl
  | some stored =>
      dsimp only [Option.getD_some]
      split
      · cases entryHmacWithin L hashes k (e.filter fun i => keyNotIn [lit "hmac"] i.1) <;> rfl
      · rfl

theorem map_eq_ok_iff {ε α β : Type} {x : Except ε α} {f : α → β} {b : β} :
    x.map f = .ok b ↔ ∃ a, x = .ok a ∧ f a = b := by
  cases x with
  | error e => exact iff_of_false (fun h => nomatch h) (fun ⟨_, h, _⟩ => nomatch h)
  | ok a => simp [Except.map]

theorem hmacProblemsWithin_eq_ok_iff {hashes : Hashlib} {key : Option Str} {e : Obj φ}
    {problems : List AuditProblem} :
    Verification.hmacProblemsWithin L hashes key e = .ok problems ↔
      (∀ k ∈ key, k ≠ [] → truthy (fetch (lit "hmac") e) = true →
        L.Writes (.dict (e.filter fun i => keyNotIn [lit "hmac"] i.1))) ∧
      Verification.hmacProblems hashes key e = .ok problems := by
  rcases key_cases key with hnone | ⟨k, rfl, hk⟩
  · have hkey : key.filter (fun k : Str => !k.isEmpty) = none := by
      rw [Option.filter_eq_none_iff]
      intro k hmem
      simp [hnone k hmem]
    rw [hmacProblems_no_key hnone, Verification.hmacProblemsWithin, hkey]
    exact (and_iff_right fun k hmem hk => absurd (hnone k hmem) hk).symm
  · rw [hmacProblems_key hk, hmacProblemsWithin_key hk]
    split
    · rename_i hsigned
      simp only [map_eq_ok_iff, entryHmacWithin_eq_ok_iff]
      constructor
      · rintro ⟨hmac, ⟨hwrites, hhmac⟩, hproblems⟩
        exact ⟨fun _ _ _ _ => hwrites, hmac, hhmac, hproblems⟩
      · rintro ⟨hwrites, hmac, hhmac, hproblems⟩
        exact ⟨hmac, ⟨hwrites k rfl hk hsigned, hhmac⟩, hproblems⟩
    · rename_i hunsigned
      exact (and_iff_right fun _ _ _ hsigned => absurd hsigned hunsigned).symm

/-- A check within the limits returns what the check without them returns, if no field meets one. -/
theorem entryProblemsWithin_eq_ok_iff {hashes : Hashlib} {key : Option Str} {v : Verification}
    {e : Obj φ} {found : List AuditProblem × Str} :
    v.entryProblemsWithin L hashes key e = .ok found ↔
      Fits L key e ∧ v.entryProblems hashes key e = .ok found := by
  rw [entryProblems_eq]
  constructor
  · intro h
    obtain ⟨entryHash, hhash, h⟩ := ok_of_bind h
    obtain ⟨prevText, hprev, h⟩ := ok_of_bind h
    obtain ⟨text, htext, h⟩ := ok_of_bind h
    obtain ⟨seq, hseq, h⟩ := ok_of_bind h
    obtain ⟨hmacs, hhmacs, hfound⟩ := ok_of_bind h
    clear h
    obtain ⟨hshows, rfl⟩ := Limits.str_eq_ok_iff.1 hhash
    obtain ⟨hlink, rfl⟩ := Limits.str_eq_ok_iff.1 hprev
    obtain ⟨hwrites, htext⟩ := hashTextWithin_eq_ok_iff.1 htext
    obtain ⟨hsigned, hhmacs⟩ := hmacProblemsWithin_eq_ok_iff.1 hhmacs
    refine ⟨⟨hshows, hlink, hwrites, hsigned⟩, ?_⟩
    rw [show verifiedText e = .ok text from htext, hhmacs]
    dsimp only [hashedBody, bind, Except.bind]
    rw [hseq]
    exact hfound
  · rintro ⟨hfits, h⟩
    obtain ⟨text, htext, h⟩ := ok_of_bind h
    obtain ⟨seq, hseq, h⟩ := ok_of_bind h
    obtain ⟨hmacs, hhmacs, h⟩ := ok_of_bind h
    have htext' := hashTextWithin_eq_ok_iff.2 ⟨hfits.body, htext⟩
    have hhmacs' := hmacProblemsWithin_eq_ok_iff.2 ⟨hfits.signed, hhmacs⟩
    have hlink := Limits.str_of_shows hfits.link
    rw [Verification.entryProblemsWithin, Limits.str_of_shows hfits.hash]
    dsimp only [hashedBody, fetch, bind, Except.bind] at hlink htext' hseq ⊢
    rw [hlink]
    dsimp only
    rw [htext']
    dsimp only
    rw [hseq]
    dsimp only
    rw [hhmacs']
    exact h

/-! ## No limits -/

theorem fits_unlimited (key : Option Str) (e : Obj φ) : Fits (Limits.unlimited φ) key e :=
  ⟨Limits.shows_unlimited _, Limits.shows_unlimited _, Limits.writes_unlimited _,
    fun _ _ _ _ => Limits.writes_unlimited _⟩

/-- A line is checked as it is without limits, and raises if it raises without them. -/
theorem lineWithin_unlimited_eq_ok_iff {hashes : Hashlib} {key : Option Str} {v w : Verification}
    {numbered : Str × Nat} :
    Verification.lineWithin (Limits.unlimited φ) hashes key v numbered = .ok w ↔
      Verification.line φ hashes key v numbered = .ok w := by
  rw [Verification.lineWithin, Verification.line]
  dsimp only
  split
  · rfl
  · rw [Limits.loads_unlimited]
    cases hload : (loads (strip numbered.1) : Option (PyVal φ)) with
    | none => rfl
    | some value =>
        cases value with
        | dict entry =>
            dsimp only [Option.elim_some]
            constructor
            · intro h
              obtain ⟨found, hfound, h⟩ := ok_of_bind h
              rw [(entryProblemsWithin_eq_ok_iff.1 hfound).2]
              exact h
            · intro h
              obtain ⟨found, hfound, h⟩ := ok_of_bind h
              rw [entryProblemsWithin_eq_ok_iff.2 ⟨fits_unlimited key entry, hfound⟩]
              exact h
        | none | bool b | int i | float x | str s | list xs => rfl

theorem foldlM_eq_ok_congr {ε α β : Type} {f g : β → α → Except ε β}
    (hfg : ∀ b a b', f b a = .ok b' ↔ g b a = .ok b') (xs : List α) (b b' : β) :
    xs.foldlM f b = .ok b' ↔ xs.foldlM g b = .ok b' := by
  induction xs generalizing b with
  | nil => rfl
  | cons x xs ih =>
      rw [List.foldlM_cons, List.foldlM_cons]
      constructor
      · intro h
        obtain ⟨c, hc, h⟩ := ok_of_bind h
        rw [(hfg b x c).1 hc]
        exact (ih c).1 h
      · intro h
        obtain ⟨c, hc, h⟩ := ok_of_bind h
        rw [(hfg b x c).2 hc]
        exact (ih c).2 h

/-- Without limits a file gets the report that it gets without them. -/
theorem verifyAuditFileWithin_unlimited (hashes : Hashlib) (file : Option Str) (key : Option Str)
    (report : Bool × List AuditError × Nat) :
    verifyAuditFileWithin (Limits.unlimited φ) hashes file key = .ok report ↔
      verifyAuditFile φ hashes file key = .ok report := by
  cases file with
  | none => rfl
  | some content =>
      have hline : ∀ (v : Verification) (numbered : Str × Nat) (w : Verification),
          Verification.lineWithin (Limits.unlimited φ) hashes key v numbered = .ok w ↔
            Verification.line φ hashes key v numbered = .ok w :=
        fun _ _ _ => lineWithin_unlimited_eq_ok_iff
      have hlines := foldlM_eq_ok_congr hline ((fileLines content).zipIdx 1) .start
      constructor
      · intro h
        obtain ⟨v, hv, h⟩ := ok_of_bind h
        rw [verifyAuditFile, (hlines v).1 hv]
        exact h
      · intro h
        obtain ⟨v, hv, h⟩ := ok_of_bind h
        rw [verifyAuditFileWithin, (hlines v).2 hv]
        exact h

theorem adoptLineWithin_unlimited (c : AuditChain) (line : Str) :
    AuditChain.adoptLineWithin (Limits.unlimited φ) c line = AuditChain.adoptLine φ c line := by
  rw [AuditChain.adoptLineWithin, AuditChain.adoptLine]
  split
  · rfl
  · rw [Limits.loads_unlimited]
    cases (loads (strip line) : Option (PyVal φ)) with
    | none => rfl
    | some value =>
        cases value with
        | dict entry =>
            dsimp only [Option.elim_some]
            cases (getKey (lit "seq") entry).elim (.ok (c.seq + 1)) intOf with
            | error e => cases e <;> rfl
            | ok seq =>
                cases getKey (lit "hash") entry with
                | none => rfl
                | some hash => simp only [Option.elim_some, Limits.str_unlimited]
        | none | bool b | int i | float x | str s | list xs => rfl

/-- Without limits a chain opens as it does without them. -/
theorem initWithin_unlimited (key file : Option Str) :
    AuditChain.initWithin (Limits.unlimited φ) key file = AuditChain.init φ key file := by
  rw [AuditChain.initWithin, AuditChain.init]
  congr
  funext c line
  exact adoptLineWithin_unlimited c line

end ShugoCore
