import ShugoCore.Lib.PyBuiltins
import ShugoCore.Security

/-!
# The audit chain

`AuditChain` and `verify_audit_file` in `audit.py`.  Each line of the file is a
JSON object that carries the hash of the entry before it and its own hash, which
is taken over the entry as it is in memory.  Verification reads every line back
and takes the hash again over what it read.

A file is its text, or `none` before it exists.  Every fallible call returns the
exception it raises.  The sinks that mirror stored entries get them after the
line is written and are left out.
-/

namespace ShugoCore

open Py

variable {φ : Type} [Builtins φ]

/-- `GENESIS_HASH`. -/
def genesisHash : Str := List.replicate 64 48

/-! ## Appending -/

/-- `AuditChain`: what a process remembers of the file. -/
structure AuditChain where
  hmacKey : Option Str
  seq : Int
  tail : Str

/-- What a call to `append` is given, with the reading of the clock it makes. -/
structure AppendCall (φ : Type) where
  timestamp : Str
  eventType : Str
  payload : List (Key φ × PyVal φ)

/-- `text.encode("utf-8")` before a digest raises on surrogates. -/
def encodable (text : Str) : Except Exn Str :=
  if Plain text then .ok text else .error .valueError

/-- The text that an entry's hash is taken over: `prev_hash` and the canonical body. -/
def hashText (prev : Str) (body : List (Key φ × PyVal φ)) : Except Exn Str :=
  match canonicalJson (.dict body) with
  | some text => encodable (prev ++ text)
  | none => .error .typeError

/-- `_entry_hmac`. -/
def entryHmac (hashes : Hashlib) (key : Str) (body : List (Key φ × PyVal φ)) : Except Exn Str := do
  let key ← encodable key
  match canonicalJson (.dict body) with
  | some text => return hashes.hmacSha256 key text
  | none => .error .typeError

namespace AuditChain

/-- The `body` of `_make_entry`, in insertion order. -/
def body (c : AuditChain) (call : AppendCall φ) : List (Key φ × PyVal φ) :=
  [(.str (lit "seq"), .int (c.seq + 1)),
    (.str (lit "timestamp"), .str call.timestamp),
    (.str (lit "type"), .str (sanitizeText call.eventType 64)),
    (.str (lit "payload"), .dict call.payload),
    (.str (lit "prev_hash"), .str c.tail)]

/-- `_make_entry`: the items of the entry and its hash. -/
def makeEntry (hashes : Hashlib) (c : AuditChain) (call : AppendCall φ) :
    Except Exn (List (Key φ × PyVal φ) × Str) := do
  let text ← hashText c.tail (c.body call)
  let hash := hashes.sha256 text
  let entry := c.body call ++ [(.str (lit "hash"), .str hash)]
  match c.hmacKey with
  | none => return (entry, hash)
  | some key => do
      let hmac ← entryHmac hashes key entry
      return (entry ++ [(.str (lit "hmac"), .str hmac)], hash)

/-- `append`: the chain and the file it leaves. -/
def append (hashes : Hashlib) (c : AuditChain) (file : Option Str) (call : AppendCall φ) :
    Except Exn (AuditChain × Option Str) := do
  let (entry, hash) ← c.makeEntry hashes call
  match dumps spaced (.dict entry) with
  | some line =>
      return ({ c with seq := c.seq + 1, tail := hash }, some (file.getD [] ++ (line ++ [newline])))
  | none => .error .typeError

/-! ## Opening -/

/-- One line of `_load_existing`.  A line that is no JSON object, or whose `seq`
is no number, is skipped with a warning. -/
def adoptLine (φ : Type) [Builtins φ] (c : AuditChain) (line : Str) : Except Exn AuditChain :=
  let line := strip line
  if line = [] then .ok c
  else match (loads line : Option (PyVal φ)) with
    | some (.dict entry) =>
        match (getKey (lit "seq") entry).elim (.ok (c.seq + 1)) intOf with
        | .ok seq => .ok { c with
            seq
            tail := (getKey (lit "hash") entry).elim c.tail strOf }
        | .error .valueError => .ok c
        | .error exn => .error exn
    | _ => .ok c

/-- `AuditChain.__init__` over a file.  An empty key is no key. -/
def init (φ : Type) [Builtins φ] (hmacKey : Option Str) (file : Option Str) :
    Except Exn AuditChain :=
  (fileLines (file.getD [])).foldlM (adoptLine φ)
    { hmacKey := hmacKey.filter fun k => !k.isEmpty, seq := 0, tail := genesisHash }

end AuditChain

/-! ## Verifying -/

/-- What `verify_audit_file` finds wrong with a line. -/
inductive AuditProblem where
  | malformed
  | brokenLinkage
  | sequenceGap (expected : Nat)
  | hashMismatch
  | missingHmac
  | hmacMismatch
deriving DecidableEq, Repr

/-- An error of `verify_audit_file`. -/
inductive AuditError where
  | fileNotFound
  | atLine (lineNumber : Nat) (problem : AuditProblem)
deriving DecidableEq, Repr

namespace AuditError

/-- The text of an error. -/
def message : AuditError → String
  | fileNotFound => "audit file not found"
  | atLine n .malformed => s!"line {n}: malformed JSON"
  | atLine n .brokenLinkage => s!"line {n}: broken chain linkage"
  | atLine n (.sequenceGap expected) => s!"line {n}: sequence gap (expected {expected})"
  | atLine n .hashMismatch => s!"line {n}: entry hash mismatch (tampered?)"
  | atLine n .missingHmac =>
      s!"line {n}: missing HMAC (unsigned entry in a key-protected chain)"
  | atLine n .hmacMismatch => s!"line {n}: HMAC mismatch (unauthorized modification?)"

end AuditError

/-- The variables of the loop over the lines. -/
structure Verification where
  errors : List AuditError
  expectedPrev : Str
  expectedSeq : Nat
  checked : Nat
deriving DecidableEq

namespace Verification

/-- The variables before the first line. -/
def start : Verification where
  errors := []
  expectedPrev := genesisHash
  expectedSeq := 1
  checked := 0

/-- What the key adds to the check of an entry. -/
def hmacProblems (hashes : Hashlib) (key : Option Str) (entry : List (Key φ × PyVal φ)) :
    Except Exn (List AuditProblem) :=
  match key.filter fun k => !k.isEmpty with
  | none => .ok []
  | some key =>
      let stored := (getKey (lit "hmac") entry).getD (.str [])
      if truthy stored then do
        let hmac ← entryHmac hashes key (entry.filter fun i => keyNotIn [lit "hmac"] i.1)
        return if isText hmac stored then [] else [.hmacMismatch]
      else .ok [.missingHmac]

/-- The check of one parsed entry, and the hash the next one must name. -/
def entryProblems (hashes : Hashlib) (key : Option Str) (v : Verification)
    (entry : List (Key φ × PyVal φ)) : Except Exn (List AuditProblem × Str) := do
  let entryHash := strOf ((getKey (lit "hash") entry).getD (.str []))
  let body := entry.filter fun i => keyNotIn [lit "hash", lit "hmac"] i.1
  let prev := (getKey (lit "prev_hash") body).getD .none
  let text ← hashText (strOf prev) body
  let seq ← intOf ((getKey (lit "seq") body).getD (.int (-1)))
  let hmacs ← hmacProblems hashes key entry
  return ((if isText v.expectedPrev prev then [] else [.brokenLinkage]) ++
    (if seq = v.expectedSeq then [] else [.sequenceGap v.expectedSeq]) ++
    (if entryHash = hashes.sha256 text then [] else [.hashMismatch]) ++ hmacs, entryHash)

/-- The body of the loop, for the line with this number. -/
def line (φ : Type) [Builtins φ] (hashes : Hashlib) (key : Option Str) (v : Verification)
    (numbered : Str × Nat) : Except Exn Verification :=
  let text := strip numbered.1
  if text = [] then .ok v
  else match (loads text : Option (PyVal φ)) with
    | none => .ok { v with errors := v.errors ++ [.atLine numbered.2 .malformed] }
    | some (.dict entry) => do
        let (problems, entryHash) ← v.entryProblems hashes key entry
        return {
          errors := v.errors ++ problems.map (.atLine numbered.2)
          expectedPrev := entryHash
          expectedSeq := v.expectedSeq + 1
          checked := v.checked + 1 }
    | some _ => .error .attributeError

end Verification

/-- `verify_audit_file`: whether the file is good, what is wrong with it, and how
many entries were checked. -/
def verifyAuditFile (φ : Type) [Builtins φ] (hashes : Hashlib) (file : Option Str)
    (hmacKey : Option Str) : Except Exn (Bool × List AuditError × Nat) :=
  match file with
  | none => .ok (false, [.fileNotFound], 0)
  | some content => do
      let v ← ((fileLines content).zipIdx 1).foldlM (Verification.line φ hashes hmacKey) .start
      return (v.errors.isEmpty, v.errors, v.checked)

/-! ## Sessions -/

/-- One process: it opens the chain and appends. -/
structure AuditSession (φ : Type) where
  hmacKey : Option Str
  calls : List (AppendCall φ)

/-- The calls of a session, one after the other.  A call that raises leaves the
chain and the file alone.  The count is of the calls that returned. -/
def runCalls (hashes : Hashlib) :
    AuditChain → Option Str → List (AppendCall φ) → AuditChain × Option Str × Nat
  | c, file, [] => (c, file, 0)
  | c, file, call :: calls =>
      match c.append hashes file call with
      | .ok (c, file) =>
          let (c, file, n) := runCalls hashes c file calls
          (c, file, n + 1)
      | .error _ => runCalls hashes c file calls

/-- Sessions over one path, from the file that is there. -/
def runSessions (hashes : Hashlib) :
    Option Str → List (AuditSession φ) → Except Exn (Option Str × Nat)
  | file, [] => .ok (file, 0)
  | file, session :: sessions => do
      let c ← AuditChain.init φ session.hmacKey file
      let (_, file, n) := runCalls hashes c file session.calls
      let (file, m) ← runSessions hashes file sessions
      return (file, n + m)

/-- Sessions on a path that has no file yet, then `verify_audit_file` without a
key: how many calls returned, and what the verifier says. -/
def runAndVerify (hashes : Hashlib) (sessions : List (AuditSession φ)) :
    Except Exn (Nat × Bool × List AuditError × Nat) := do
  let (file, n) ← runSessions hashes none sessions
  let verdict ← verifyAuditFile φ hashes file none
  return (n, verdict)

end ShugoCore
