import ShugoCore.Mesh.Requests

/-!
# Pulling an artifact from a peer

`fetch_artifact` of `agent_runtime.py`.  The manifest gives the size and the digest, then
the artifact comes in chunks, is written to `name.part` next to its place, and is moved
there once its digest is right.

The peer may reply anything.  `peer i` is the reply to the `i`-th request of the call, and
the first is the manifest.  The staging directory is a map from file names to contents.
The chunk loop has a bound on its rounds, and `writePart_ends` says that
`max_artifact_bytes` are enough: each round writes at least one byte.
-/

namespace ShugoCore

open Py

/-- The contents of a file. -/
abbrev Bytes := List Nat

/-! ## Base64 -/

/-- The value of a character of the base64 alphabet. -/
def sextet (c : CodePoint) : Option Nat :=
  if 65 ≤ c.val ∧ c.val ≤ 90 then some (c.val - 65)
  else if 97 ≤ c.val ∧ c.val ≤ 122 then some (c.val - 71)
  else if 48 ≤ c.val ∧ c.val ≤ 57 then some (c.val + 4)
  else if c.val = 43 then some 62
  else if c.val = 47 then some 63
  else none

/-- Padding that nothing needs. -/
def surplusPadding : List Str := [[61], [61, 61]]

/-- `base64.b64decode(s, validate=True)` of a text, four characters at a time.  One or two characters of
padding are taken after full groups as well.  Of more than two the versions of Python think
differently, and they are not taken here. -/
def b64decode : Str → Option Bytes
  | [] => some []
  | [a, b, 61, 61] => do
      let a ← sextet a
      let b ← sextet b
      return [a * 4 + b / 16]
  | [a, b, c, 61] => do
      let a ← sextet a
      let b ← sextet b
      let c ← sextet c
      return [a * 4 + b / 16, b % 16 * 16 + c / 4]
  | a :: b :: c :: d :: s => do
      let a ← sextet a
      let b ← sextet b
      let c ← sextet c
      let d ← sextet d
      let rest ← if s ∈ surplusPadding then some [] else b64decode s
      return [a * 4 + b / 16, b % 16 * 16 + c / 4, c % 4 * 64 + d] ++ rest
  | _ => none

/-! ## The staging directory -/

/-- The files of a directory, by name. -/
abbrev Folder := Str → Option Bytes

/-- The name of the file that a transfer writes to. -/
def partName (name : Str) : Str := name ++ lit ".part"

/-- `os.replace(tmp_path, final_path)`. -/
def replaceFile (files : Folder) (tmp final : Str) : Folder :=
  Function.update (Function.update files final (files tmp)) tmp none

/-- `_sha256_file`.  `none` is the `ValueError` of a file that is too large. -/
def sha256File (content : Bytes) (limit : Nat) : Option Str :=
  if limit < content.length then none else some (hexdigest (Sha256.digest content))

/-- `_artifact_name_ok`. -/
def artifactNameOk (name : Str) : Bool :=
  !name.isEmpty && name.length ≤ 200 && name.head? ≠ some 46 &&
    !name.any fun c => c = 47 || c = 92 || c = 0

/-! ## The transfer -/

/-- The parts of the runtime that the call reads. -/
structure ArtifactNode where
  maxArtifactBytes : Nat
  /-- `str.lower`. -/
  lower : Str → Str

/-- The arguments of the call, and what it finds of its surroundings. -/
structure PullRequest where
  peer : Str
  name : Str
  expectSha256 : Option Str
  /-- The peer is among `_outbound`. -/
  known : Bool
  /-- There is a staging directory. -/
  staged : Bool

/-- The disk under a transfer: the error of each operation that fails.  A file can always
be removed. -/
structure Disk where
  makedirs : Option Str
  opened : Option Str
  /-- By the number of chunks before it. -/
  write : Nat → Option Str
  digested : Option Str
  replace : Option Str

/-- A disk without errors. -/
def Disk.sound : Disk := ⟨none, none, fun _ => none, none, none⟩

/-- What the call reports. -/
inductive PullReport where
  | refused (reason : Str)
  /-- An error before a byte is written. -/
  | error (reason : Str)
  /-- An error of the transfer. -/
  | failed (bytes : Nat) (message : Str)
  | success (bytes chunks : Nat) (sha256 : Str)
deriving DecidableEq

/-- The `status` of a report. -/
def PullReport.status : PullReport → String
  | refused _ => "refused"
  | error _ => "error"
  | failed _ _ => "error"
  | success _ _ _ => "success"

variable {φ : Type} [Builtins φ]

/-- `{n}` of a format string. -/
def decimal (n : Int) : Str := (Literal.ofInt n).text

/-- What `artifact_manifest` returns: the manifest, or the report of its failure. -/
def artifactManifest (resp : Reply φ) : Except Exn (Except PullReport (Int × Str)) :=
  match answered resp with
  | .unreachable => .ok (.error (.error (lit "peer unreachable")))
  | .refused reason => .ok (.error (.refused reason))
  | .answer manifest => do
      let size ← intOf (orElse (fetch (lit "size") manifest) (.int 0))
      return .ok (size, strOf (orElse (fetch (lit "sha256") manifest) (.str [])))

/-- One round of the chunk loop: the bytes of a reply, or the text of the exception.  The
length that was asked for is no bound on the reply. -/
def readChunk (node : ArtifactNode) (digest : Str) (written : Nat) (resp : Reply φ) :
    Except Str Bytes :=
  match answered resp with
  | .unreachable => .error (lit "peer unreachable at offset " ++ decimal written)
  | .refused reason =>
      .error (lit "peer refused chunk at " ++ decimal written ++ lit ": " ++ reason)
  | .answer chunk =>
      match intOf (fetch (lit "offset") chunk) with
      | .error .overflowError => .error (lit "cannot convert float infinity to integer")
      | .error _ => .error (lit "peer answered without an offset")
      | .ok answered =>
          if answered ≠ written then
            .error (lit "peer answered the wrong offset at " ++ decimal written)
          else if strOf (orElse (fetch (lit "sha256") chunk) (.str [])) ≠ digest then
            .error (lit "artifact changed on the peer mid-transfer")
          else
            match orElse (fetch (lit "data") chunk) (.str []) with
            | .str text =>
                match b64decode text with
                | none => .error (lit "Invalid base64-encoded string")
                | some [] => .error (lit "empty chunk at offset " ++ decimal written)
                | some data =>
                    if node.maxArtifactBytes < written + data.length then
                      .error (lit "artifact exceeded the size cap")
                    else .ok data
            | _ => .error (lit "argument should be a bytes-like object or ASCII string")

/-- How the chunk loop ends: what is in the file, how many chunks came, and the exception
that ended it, if one did. -/
structure Pulled where
  content : Bytes
  chunks : Nat
  failure : Option Str

/-- The chunk loop, in at most `fuel` rounds.  `content` is what is written so far. -/
def pullChunks (node : ArtifactNode) (disk : Disk) (peer : Nat → Reply φ) (size : Nat)
    (digest : Str) : Nat → Nat → Bytes → Option Pulled
  | fuel, chunks, content =>
      if size ≤ content.length then some ⟨content, chunks, none⟩
      else
        match fuel with
        | 0 => none
        | fuel + 1 =>
            match readChunk node digest content.length (peer (chunks + 1)), disk.write chunks with
            | .error message, _ => some ⟨content, chunks, some message⟩
            | .ok _, some message => some ⟨content, chunks, some message⟩
            | .ok data, none =>
                pullChunks node disk peer size digest fuel (chunks + 1) (content ++ data)

/-- The `with` block: the file is opened, and the chunks are written to it. -/
def writePart (node : ArtifactNode) (disk : Disk) (peer : Nat → Reply φ) (size : Nat)
    (digest : Str) (fuel : Nat) : Option Pulled :=
  match disk.opened with
  | some message => some ⟨[], 0, some message⟩
  | none => pullChunks node disk peer size digest fuel 0 []

/-- The rest of the `try` block: the digest of the file, and its move into place. -/
def finishPull (node : ArtifactNode) (disk : Disk) (name digest : Str) (files : Folder)
    (pulled : Pulled) : PullReport × Folder :=
  let tmp := partName name
  let files := Function.update files tmp (some pulled.content)
  let fail (message : Str) : PullReport × Folder :=
    (.failed pulled.content.length (message.take 200), Function.update files tmp none)
  match pulled.failure, disk.digested, sha256File pulled.content node.maxArtifactBytes with
  | some message, _, _ => fail message
  | none, some message, _ => fail message
  | none, none, none =>
      fail (lit "artifact exceeds " ++ decimal node.maxArtifactBytes ++ lit " bytes")
  | none, none, some actual =>
      if actual ≠ digest then
        fail (lit "digest mismatch after transfer (" ++ actual.take 12 ++ lit " != " ++
          digest.take 12 ++ lit ")")
      else
        match disk.replace with
        | some message => fail message
        | none => (.success pulled.content.length pulled.chunks digest, replaceFile files tmp name)

/-- The checks of the manifest.  Nothing is written before they pass. -/
def checkManifest (node : ArtifactNode) (req : PullRequest) (size : Int) (digest : Str) :
    Option Str :=
  if digest.length ≠ 64 then some (lit "peer advertised no digest")
  else if size ≤ 0 ∨ node.maxArtifactBytes < size then
    some (lit "artifact size " ++ decimal size ++ lit " exceeds the cap " ++
      decimal node.maxArtifactBytes)
  else
    match req.expectSha256 with
    | some expected =>
        if !expected.isEmpty && node.lower expected ≠ digest then
          some (lit "peer digest does not match the expected build")
        else none
    | none => none

/-- `fetch_artifact`.  `none` is a chunk loop that has not ended. -/
def fetchArtifact (node : ArtifactNode) (disk : Disk) (peer : Nat → Reply φ) (req : PullRequest)
    (fuel : Nat) (files : Folder) : Option (Except Exn PullReport × Folder) :=
  if !artifactNameOk req.name then
    some (.ok (.refused (lit "invalid artifact name '" ++ req.name ++ lit "'")), files)
  else if !req.known then
    some (.ok (.refused (lit "unknown peer '" ++ req.peer ++ lit "'")), files)
  else if !req.staged then
    some (.ok (.refused (lit "no staging directory configured on this node")), files)
  else
    match artifactManifest (peer 0) with
    | .error e => some (.error e, files)
    | .ok (.error report) => some (.ok report, files)
    | .ok (.ok (size, digest)) =>
        match checkManifest node req size digest with
        | some reason => some (.ok (.refused reason), files)
        | none =>
            match disk.makedirs with
            | some message => some (.ok (.error (lit "stage dir unusable: " ++ message)), files)
            | none =>
                (writePart node disk peer size.toNat digest fuel).map fun pulled =>
                  let r := finishPull node disk req.name digest files pulled
                  (.ok r.1, r.2)

/-! ## The chunk loop -/

/-- A chunk is never empty, and never takes the file over the cap. -/
theorem readChunk_ok {node : ArtifactNode} {digest : Str} {written : Nat} {resp : Reply φ}
    {data : Bytes} (h : readChunk node digest written resp = .ok data) :
    data ≠ [] ∧ written + data.length ≤ node.maxArtifactBytes := by
  unfold readChunk at h
  split at h
  · cases h
  · cases h
  · split at h
    · cases h
    · cases h
    · split at h
      · cases h
      · split at h
        · cases h
        · split at h
          · split at h
            · cases h
            · cases h
            · rename_i data hne hdecode
              split at h
              · cases h
              · rename_i hcap
                obtain rfl := Except.ok.inj h
                exact ⟨hne, not_lt.1 hcap⟩
          · cases h

section Loop

variable {node : ArtifactNode} {disk : Disk} {peer : Nat → Reply φ} {size : Nat} {digest : Str}
variable {fuel chunks : Nat} {content : Bytes}

/-- The loop ends: every round that does not end it writes a byte. -/
theorem pullChunks_ends (h : size ≤ content.length + fuel) :
    ∃ pulled, pullChunks node disk peer size digest fuel chunks content = some pulled := by
  induction fuel generalizing chunks content with
  | zero => exact ⟨_, by rw [pullChunks, if_pos (by simpa using h)]⟩
  | succ fuel ih =>
      unfold pullChunks
      split
      · exact ⟨_, rfl⟩
      · dsimp only
        split
        · exact ⟨_, rfl⟩
        · exact ⟨_, rfl⟩
        · rename_i data hread _
          obtain ⟨hne, -⟩ := readChunk_ok hread
          have hpos := List.length_pos_of_ne_nil hne
          refine ih ?_
          rw [List.length_append]
          omega

/-- More rounds change nothing. -/
theorem pullChunks_mono {more : Nat} {pulled : Pulled} (hle : fuel ≤ more)
    (h : pullChunks node disk peer size digest fuel chunks content = some pulled) :
    pullChunks node disk peer size digest more chunks content = some pulled := by
  induction fuel generalizing more chunks content with
  | zero =>
      unfold pullChunks at h ⊢
      split at h
      · rename_i hdone
        rw [if_pos hdone, h]
      · cases h
  | succ fuel ih =>
      obtain ⟨more, rfl⟩ := Nat.exists_eq_add_of_lt (Nat.lt_of_succ_le hle)
      unfold pullChunks at h ⊢
      split at h
      · rename_i hdone
        rw [if_pos hdone, h]
      · rename_i hgo
        rw [if_neg hgo]
        dsimp only at h ⊢
        split at h
        · exact h
        · exact h
        · exact ih (by omega) h

/-- The file never outgrows the cap. -/
theorem length_pullChunks {pulled : Pulled} (hcap : content.length ≤ node.maxArtifactBytes)
    (h : pullChunks node disk peer size digest fuel chunks content = some pulled) :
    pulled.content.length ≤ node.maxArtifactBytes := by
  induction fuel generalizing chunks content with
  | zero =>
      unfold pullChunks at h
      split at h
      · obtain rfl := Option.some.inj h
        exact hcap
      · cases h
  | succ fuel ih =>
      unfold pullChunks at h
      split at h
      · obtain rfl := Option.some.inj h
        exact hcap
      · dsimp only at h
        split at h
        · obtain rfl := Option.some.inj h
          exact hcap
        · obtain rfl := Option.some.inj h
          exact hcap
        · rename_i data hread _
          refine ih ?_ h
          rw [List.length_append]
          exact (readChunk_ok hread).2

/-- Given the rounds, the file is written or the attempt has failed, whatever more rounds
there are. -/
theorem writePart_ends (h : size ≤ fuel) :
    ∃ pulled, pulled.content.length ≤ node.maxArtifactBytes ∧
      ∀ more ≥ fuel, writePart node disk peer size digest more = some pulled := by
  cases hopen : disk.opened with
  | some message => exact ⟨_, Nat.zero_le _, fun more _ => by rw [writePart, hopen]⟩
  | none =>
      have hends : ∃ pulled, pullChunks node disk peer size digest fuel 0 [] = some pulled :=
        pullChunks_ends (by simpa using h)
      obtain ⟨pulled, hpull⟩ := hends
      refine ⟨pulled, length_pullChunks (Nat.zero_le _) hpull, fun more hmore => ?_⟩
      rw [writePart, hopen]
      exact pullChunks_mono hmore hpull

end Loop

/-! ## What is left in the directory -/

theorem partName_ne (name : Str) : partName name ≠ name := by
  intro h
  have hlen := congrArg List.length h
  simp [partName, lit] at hlen

/-- What a call has to leave behind. -/
structure Kept (node : ArtifactNode) (manifest : Reply φ) (req : PullRequest) (files : Folder)
    (r : Except Exn PullReport) (files' : Folder) : Prop where
  /-- Only a call that reports success changes the file. -/
  changed : files' req.name ≠ files req.name →
    ∃ bytes chunks digest, r = .ok (.success bytes chunks digest)
  /-- The file of a success is the one that the manifest describes. -/
  success : ∀ bytes chunks digest, r = .ok (.success bytes chunks digest) →
    ∃ size content, artifactManifest manifest = .ok (.ok (size, digest)) ∧
      files' req.name = some content ∧ content.length = bytes ∧
      content.length ≤ node.maxArtifactBytes ∧ hexdigest (Sha256.digest content) = digest ∧
      ∀ expected, req.expectSha256 = some expected → expected ≠ [] → node.lower expected = digest
  /-- A transfer that fails leaves the file as it was, and no part of the new one. -/
  failed : ∀ bytes message, r = .ok (.failed bytes message) →
    files' req.name = files req.name ∧ files' (partName req.name) = none
  /-- An error before the transfer leaves the directory as it was. -/
  error : ∀ reason, r = .ok (.error reason) → files' = files
  /-- No other file is touched. -/
  others : ∀ file, file ≠ req.name → file ≠ partName req.name → files' file = files file

section Kept

variable {node : ArtifactNode} {disk : Disk} {manifest : Reply φ} {req : PullRequest}
variable {files : Folder}

/-- A call that ends before the transfer keeps the directory. -/
theorem kept_unless_begun {r : Except Exn PullReport}
    (hsuccess : ∀ bytes chunks digest, r ≠ .ok (.success bytes chunks digest))
    (hfailed : ∀ bytes message, r ≠ .ok (.failed bytes message)) :
    Kept node manifest req files r files where
  changed h := absurd rfl h
  success bytes chunks digest h := absurd h (hsuccess bytes chunks digest)
  failed bytes message h := absurd h (hfailed bytes message)
  error _ _ := rfl
  others _ _ _ := rfl

/-- A transfer that fails removes the part it has written. -/
theorem kept_of_failed (content : Bytes) (bytes : Nat) (message : Str) :
    Kept node manifest req files (.ok (.failed bytes message))
      (Function.update (Function.update files (partName req.name) (some content))
        (partName req.name) none) where
  changed h := by
    rw [Function.update_idem, Function.update_of_ne (partName_ne req.name).symm] at h
    exact absurd rfl h
  success _ _ _ h := by cases h
  failed _ _ _ := by
    rw [Function.update_idem, Function.update_of_ne (partName_ne req.name).symm]
    exact ⟨rfl, Function.update_self ..⟩
  error _ h := by cases h
  others file _ hpart := by
    rw [Function.update_idem, Function.update_of_ne hpart]

/-- A manifest that cannot be had is refused, or the peer is out of reach. -/
theorem artifactManifest_failed {report : PullReport}
    (h : artifactManifest manifest = .ok (.error report)) :
    (∃ reason, report = .refused reason) ∨ ∃ reason, report = .error reason := by
  unfold artifactManifest at h
  split at h
  · cases h
    exact .inr ⟨_, rfl⟩
  · cases h
    exact .inl ⟨_, rfl⟩
  · rename_i resp _
    cases hsize : intOf (orElse (fetch (lit "size") resp) (.int 0)) with
    | error e =>
        rw [hsize] at h
        cases h
    | ok size =>
        rw [hsize] at h
        cases h

/-- The checks of the manifest, passed. -/
theorem checkManifest_none {size : Int} {digest : Str}
    (h : checkManifest node req size digest = none) :
    0 < size ∧ size ≤ node.maxArtifactBytes ∧
      ∀ expected, req.expectSha256 = some expected → expected ≠ [] →
        node.lower expected = digest := by
  unfold checkManifest at h
  split at h
  · cases h
  · split at h
    · cases h
    · rename_i hsize
      rw [not_or] at hsize
      refine ⟨by omega, by omega, fun expected hexpected hne => ?_⟩
      rw [hexpected] at h
      dsimp only at h
      split at h
      · cases h
      · rename_i hmatch
        by_contra hdiff
        exact hmatch (by simp [hne, hdiff])

/-- The end of a transfer: success, with the digest that was asked for, or a failure. -/
theorem finishPull_kept {size : Int} {digest : Str} {pulled : Pulled}
    (hmanifest : artifactManifest manifest = .ok (.ok (size, digest)))
    (hcheck : checkManifest node req size digest = none)
    (hcap : pulled.content.length ≤ node.maxArtifactBytes) :
    Kept node manifest req files (.ok (finishPull node disk req.name digest files pulled).1)
      (finishPull node disk req.name digest files pulled).2 := by
  unfold finishPull
  dsimp only
  split
  · exact kept_of_failed _ _ _
  · exact kept_of_failed _ _ _
  · exact kept_of_failed _ _ _
  · rename_i actual _ _ hactual
    split
    · exact kept_of_failed _ _ _
    · rename_i hdigest
      split
      · exact kept_of_failed _ _ _
      · have hne := partName_ne req.name
        have hplace : ∀ content : Bytes, replaceFile
            (Function.update files (partName req.name) (some content)) (partName req.name)
            req.name req.name = some content := by
          intro content
          rw [replaceFile, Function.update_of_ne hne.symm, Function.update_self,
            Function.update_self]
        rw [sha256File, if_neg (not_lt.2 hcap)] at hactual
        obtain rfl := Option.some.inj hactual
        refine ⟨fun _ => ⟨_, _, _, rfl⟩, ?_, by rintro _ _ ⟨⟩, by rintro _ ⟨⟩, ?_⟩
        · rintro _ _ _ ⟨⟩
          exact ⟨size, pulled.content, hmanifest, hplace _, rfl, hcap, not_not.1 hdigest,
            (checkManifest_none hcheck).2.2⟩
        · intro file hname hpart
          show replaceFile _ _ _ file = files file
          rw [replaceFile, Function.update_of_ne hpart, Function.update_of_ne hname,
            Function.update_of_ne hpart]

end Kept

/-- The peer is asked for the manifest. -/
def PullRequest.Asks (req : PullRequest) : Prop :=
  artifactNameOk req.name = true ∧ req.known = true ∧ req.staged = true

/-- The transfer begins: the peer is asked, its manifest passes the checks, and there is a
directory to write to. -/
def Begins (node : ArtifactNode) (disk : Disk) (manifest : Reply φ) (req : PullRequest) : Prop :=
  req.Asks ∧ disk.makedirs = none ∧ ∃ size digest,
    artifactManifest manifest = .ok (.ok (size, digest)) ∧ checkManifest node req size digest = none

/-- A call that begins writes the part and goes on from it. -/
theorem fetchArtifact_of_begun {node : ArtifactNode} {disk : Disk} {peer : Nat → Reply φ}
    {req : PullRequest} {size : Int} {digest : Str} (hasks : req.Asks)
    (hdirs : disk.makedirs = none) (hmanifest : artifactManifest (peer 0) = .ok (.ok (size, digest)))
    (hcheck : checkManifest node req size digest = none) (fuel : Nat) (files : Folder) :
    fetchArtifact node disk peer req fuel files =
      (writePart node disk peer size.toNat digest fuel).map fun pulled =>
        (.ok (finishPull node disk req.name digest files pulled).1,
          (finishPull node disk req.name digest files pulled).2) := by
  obtain ⟨hname, hknown, hstaged⟩ := hasks
  simp only [fetchArtifact]
  rw [hname, hknown, hstaged, hmanifest]
  simp only [Bool.not_true, Bool.false_eq_true, if_false, hcheck, hdirs]

/-- How a call ends: a manifest that is no manifest raises, a call that does not begin leaves
the directory as it is, and a transfer ends in `max_artifact_bytes` rounds. -/
theorem fetchArtifact_cases (node : ArtifactNode) (disk : Disk) (peer : Nat → Reply φ)
    (req : PullRequest) (files : Folder) :
    (∃ e, req.Asks ∧ artifactManifest (peer 0) = .error e ∧
        ∀ fuel, fetchArtifact node disk peer req fuel files = some (.error e, files)) ∨
      (¬ Begins node disk (peer 0) req ∧ (req.Asks → ∀ e, artifactManifest (peer 0) ≠ .error e) ∧
        ∃ r, ((∃ reason, r = .refused reason) ∨ ∃ reason, r = .error reason) ∧
          ∀ fuel, fetchArtifact node disk peer req fuel files = some (.ok r, files)) ∨
      (Begins node disk (peer 0) req ∧ ∃ size digest pulled,
        artifactManifest (peer 0) = .ok (.ok (size, digest)) ∧
        checkManifest node req size digest = none ∧
        pulled.content.length ≤ node.maxArtifactBytes ∧
        ∀ fuel ≥ node.maxArtifactBytes, fetchArtifact node disk peer req fuel files =
          some (.ok (finishPull node disk req.name digest files pulled).1,
            (finishPull node disk req.name digest files pulled).2)) := by
  simp only [fetchArtifact]
  by_cases hasks : req.Asks
  · obtain ⟨hname, hknown, hstaged⟩ := id hasks
    rw [hname, hknown, hstaged]
    simp only [Bool.not_true, Bool.false_eq_true, if_false]
    cases hmanifest : artifactManifest (peer 0) with
    | error e => exact .inl ⟨e, hasks, rfl, fun _ => rfl⟩
    | ok outcome =>
        cases outcome with
        | error report =>
            refine .inr (.inl ⟨?_, fun _ => nofun, report, artifactManifest_failed hmanifest,
              fun _ => rfl⟩)
            rintro ⟨-, -, size, digest, hgood, -⟩
            cases hmanifest.symm.trans hgood
        | ok manifest =>
            obtain ⟨size, digest⟩ := manifest
            have honly {size' : Int} {digest' : Str}
                (h : artifactManifest (peer 0) = .ok (.ok (size', digest'))) :
                size' = size ∧ digest' = digest := by
              cases hmanifest.symm.trans h
              exact ⟨rfl, rfl⟩
            dsimp only
            cases hcheck : checkManifest node req size digest with
            | some reason =>
                refine .inr (.inl ⟨?_, fun _ => nofun, _, .inl ⟨reason, rfl⟩, fun _ => rfl⟩)
                rintro ⟨-, -, size', digest', hgood, hnone⟩
                obtain ⟨rfl, rfl⟩ := honly hgood
                cases hcheck.symm.trans hnone
            | none =>
                dsimp only
                cases hdirs : disk.makedirs with
                | some message =>
                    refine .inr (.inl ⟨?_, fun _ => nofun, _, .inr ⟨_, rfl⟩, fun _ => rfl⟩)
                    rintro ⟨-, hnone, -⟩
                    cases hdirs.symm.trans hnone
                | none =>
                    obtain ⟨hpos, hle, -⟩ := checkManifest_none hcheck
                    have hends : ∃ pulled : Pulled, pulled.content.length ≤ node.maxArtifactBytes ∧
                        ∀ more ≥ node.maxArtifactBytes,
                          writePart node disk peer size.toNat digest more = some pulled :=
                      writePart_ends (by omega)
                    obtain ⟨pulled, hcap, hwrite⟩ := hends
                    refine .inr (.inr ⟨⟨hasks, hdirs, size, digest, hmanifest, hcheck⟩, size, digest,
                      pulled, rfl, hcheck, hcap, fun fuel hfuel => ?_⟩)
                    dsimp only
                    rw [hwrite fuel hfuel]
                    rfl
  · refine .inr (.inl ⟨fun h => hasks h.1, fun h => absurd h hasks, ?_⟩)
    split
    · exact ⟨_, .inl ⟨_, rfl⟩, fun _ => rfl⟩
    · split
      · exact ⟨_, .inl ⟨_, rfl⟩, fun _ => rfl⟩
      · split
        · exact ⟨_, .inl ⟨_, rfl⟩, fun _ => rfl⟩
        · rename_i hname hknown hstaged
          refine absurd ⟨?_, ?_, ?_⟩ hasks
          · simpa using hname
          · simpa using hknown
          · simpa using hstaged

/-- The loop ends whatever the peer replies, and only a success touches the file. -/
theorem artifact_pulled_intact (node : ArtifactNode) (disk : Disk) (peer : Nat → Reply φ)
    (req : PullRequest) (files : Folder) :
    ∃ r files', (∀ fuel ≥ node.maxArtifactBytes,
        fetchArtifact node disk peer req fuel files = some (r, files')) ∧
      Kept node (peer 0) req files r files' := by
  rcases fetchArtifact_cases node disk peer req files with ⟨e, -, -, hfetch⟩ |
    ⟨-, -, r, hr, hfetch⟩ | ⟨-, size, digest, pulled, hmanifest, hcheck, hcap, hfetch⟩
  · exact ⟨_, _, fun fuel _ => hfetch fuel, kept_unless_begun nofun nofun⟩
  · refine ⟨_, _, fun fuel _ => hfetch fuel, ?_⟩
    obtain ⟨reason, rfl⟩ | ⟨reason, rfl⟩ := hr
    · exact kept_unless_begun nofun nofun
    · exact kept_unless_begun nofun nofun
  · exact ⟨_, _, hfetch, finishPull_kept hmanifest hcheck hcap⟩

/-- A pull of `app` by a node that knows the peer. -/
def PullRequest.ofApp : PullRequest := ⟨lit "b", lit "app", none, true, true⟩

/-- What is left of an earlier transfer stays when the peer is out of reach. -/
theorem stale_part_survives_error :
    ∃ (files : Folder) (r : PullReport) (files' : Folder),
      fetchArtifact ⟨4, id⟩ Disk.sound (fun _ => (none : Reply WholeFloat)) PullRequest.ofApp 4
        files = some (.ok r, files') ∧
      r.status = "error" ∧ files' (partName (lit "app")) ≠ none :=
  ⟨Function.update (fun _ => none) (partName (lit "app")) (some [1]), _, _, rfl, rfl, by
    rw [Function.update_self]
    exact Option.some_ne_none _⟩

/-! ## What is left of other files -/

/-- A transfer leaves nothing under the name of its part. -/
theorem finishPull_part (node : ArtifactNode) (disk : Disk) (name digest : Str) (files : Folder)
    (pulled : Pulled) :
    (finishPull node disk name digest files pulled).2 (partName name) = none := by
  unfold finishPull
  dsimp only
  split
  · exact Function.update_self ..
  · exact Function.update_self ..
  · exact Function.update_self ..
  · split
    · exact Function.update_self ..
    · split
      · exact Function.update_self ..
      · exact Function.update_self ..

/-- A call leaves another file as it was, unless the file is there under the name of the part
and the transfer begins. -/
theorem other_artifact_kept_iff (node : ArtifactNode) (disk : Disk) (peer : Nat → Reply φ)
    (req : PullRequest) (files : Folder) (other : Str) (hother : other ≠ req.name) :
    ∃ r files', (∀ fuel ≥ node.maxArtifactBytes,
        fetchArtifact node disk peer req fuel files = some (r, files')) ∧
      (files' other = files other ↔
        other ≠ partName req.name ∨ ¬ Begins node disk (peer 0) req ∨ files other = none) := by
  rcases fetchArtifact_cases node disk peer req files with ⟨e, -, hmanifest, hfetch⟩ |
    ⟨hidle, -, r, -, hfetch⟩ | ⟨hbegins, size, digest, pulled, hmanifest, hcheck, hcap, hfetch⟩
  · have hidle : ¬ Begins node disk (peer 0) req := by
      rintro ⟨-, -, size, digest, hgood, -⟩
      cases hmanifest.symm.trans hgood
    exact ⟨_, _, fun fuel _ => hfetch fuel, fun _ => .inr (.inl hidle), fun _ => rfl⟩
  · exact ⟨_, _, fun fuel _ => hfetch fuel, fun _ => .inr (.inl hidle), fun _ => rfl⟩
  · refine ⟨_, _, hfetch, ?_⟩
    by_cases hpart : other = partName req.name
    · rw [hpart, finishPull_part]
      constructor
      · exact fun h => .inr (.inr h.symm)
      · rintro (h | h | h)
        · exact absurd rfl h
        · exact absurd hbegins h
        · exact h.symm
    · refine ⟨fun _ => .inl hpart, fun _ => ?_⟩
      exact (finishPull_kept hmanifest hcheck hcap).others other hother hpart

/-- The artifact `app.part`, staged. -/
def appPartStaged : Folder := Function.update (fun _ => none) (lit "app.part") (some [1])

/-- A peer that is out of reach leaves it there. -/
theorem appPart_kept_unreachable :
    lit "app.part" ≠ PullRequest.ofApp.name ∧ ∃ r files',
      (∀ fuel ≥ 4, fetchArtifact ⟨4, id⟩ Disk.sound (fun _ => (none : Reply WholeFloat))
        PullRequest.ofApp fuel appPartStaged = some (r, files')) ∧
      files' (lit "app.part") = appPartStaged (lit "app.part") := by
  have hne : lit "app.part" ≠ PullRequest.ofApp.name := by decide
  obtain ⟨r, files', hfetch, hiff⟩ := other_artifact_kept_iff ⟨4, id⟩ Disk.sound
    (fun _ => (none : Reply WholeFloat)) PullRequest.ofApp appPartStaged (lit "app.part") hne
  refine ⟨hne, r, files', hfetch, hiff.2 (.inr (.inl ?_))⟩
  rintro ⟨-, -, size, digest, hmanifest, -⟩
  cases hmanifest

/-- A peer that gives a manifest and then nothing. -/
def manifestOnly : Nat → Reply WholeFloat
  | 0 => some (.dict (obj [("size", .int 1), ("sha256", .str (List.replicate 64 97))]))
  | _ + 1 => none

/-- A pull of `app` takes away the artifact `app.part`. -/
theorem appPart_lost :
    artifactNameOk (lit "app") = true ∧ artifactNameOk (lit "app.part") = true ∧
      lit "app.part" ≠ lit "app" ∧ appPartStaged (lit "app.part") = some [1] ∧
      ∃ r files', fetchArtifact ⟨4, id⟩ Disk.sound manifestOnly PullRequest.ofApp 4 appPartStaged =
        some (.ok r, files') ∧ files' (lit "app.part") = none := by
  refine ⟨by decide, by decide, by decide, Function.update_self .., ?_⟩
  obtain ⟨r, files', hfetch, hlost⟩ : ∃ r files', fetchArtifact ⟨4, id⟩ Disk.sound manifestOnly
      PullRequest.ofApp 4 appPartStaged = some (.ok r, files') ∧
      files' (partName (lit "app")) = none :=
    ⟨_, _, rfl, finishPull_part ⟨4, id⟩ Disk.sound (lit "app") (List.replicate 64 97) appPartStaged
      ⟨[], 0, some _⟩⟩
  exact ⟨r, files', hfetch, hlost⟩

end ShugoCore
