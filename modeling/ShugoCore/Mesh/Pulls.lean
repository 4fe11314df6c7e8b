import ShugoCore.Lib.Run
import ShugoCore.Mesh.Artifacts

/-!
# Pulls of one artifact at the same time

`fetch_artifact` of `agent_runtime.py`, one file operation at a time, for any number of calls
that pull the same name into the same directory.  They all write to `name.part`.  A file is
what its inode holds: opening the temporary file empties the inode that is there, a handle
keeps writing to its inode when the name is gone, and `os.replace` moves an inode.

A call digests the temporary file and then moves it.  In between the file is anybody's, so
what it moves need not be what it has verified.  It is if no call opens the file or writes to
it while another one is between the start of its digest and its move
(`installed_as_verified`).
-/

namespace ShugoCore

open Py Machine

variable {φ : Type} [Builtins φ]

/-- An open handle on the temporary file. -/
structure PartHandle where
  inode : Nat
  /-- Where the next byte goes. -/
  offset : Nat
  /-- What is in the buffer of the handle. -/
  pending : Bytes
  /-- The `with` block has raised. -/
  failed : Bool

/-- Where a call is. -/
inductive PullPhase where
  /-- The manifest is checked. -/
  | ready
  /-- In the `with` block. -/
  | writing (handle : PartHandle)
  /-- After the `with` block. -/
  | closed
  /-- In `_sha256_file`, with what is read so far. -/
  | reading (inode : Nat) (read : Bytes)
  /-- The digest is right. -/
  | verified
  /-- In the `except` block. -/
  | failing
  | returned (success : Bool)

/-- A call of `fetch_artifact` whose manifest has passed. -/
structure PullCall where
  size : Nat
  digest : Str
  written : Nat
  chunks : Nat
  phase : PullPhase

/-- What `os.replace` has moved into place, and the digest that its call reports. -/
structure Installed where
  digest : Str
  content : Bytes
deriving DecidableEq

/-- The directory, and the calls. -/
structure Pulls where
  inodes : Nat
  disk : Nat → Bytes
  /-- `name.part`. -/
  tmp : Option Nat
  /-- `name`. -/
  final : Option Nat
  calls : List PullCall
  installed : List Installed

/-- The operations of a call.  A `true` is an operation that raises. -/
inductive FileOp (φ : Type) where
  /-- `open(tmp_path, "wb")`. -/
  | opened (raises : Bool)
  /-- The reply to a request for a chunk. -/
  | receive (resp : Reply φ)
  /-- Some of the buffer goes to the file. -/
  | flush (bytes : Nat)
  /-- A write raises. -/
  | fault
  /-- The end of the `with` block. -/
  | close (raises : Bool)
  /-- `_sha256_file` opens the file. -/
  | digest (raises : Bool)
  /-- It reads a block. -/
  | block (bytes : Nat) (raises : Bool)
  /-- `os.replace(tmp_path, final_path)`. -/
  | replace (raises : Bool)
  /-- `os.remove(tmp_path)`. -/
  | remove (raises : Bool)

/-- A step: a call gets its manifest, or goes on. -/
inductive PullOp (φ : Type) where
  | begin (req : PullRequest) (manifest : Reply φ)
  | act (call : Nat) (op : FileOp φ)

/-- The content of a file after a write.  What is skipped reads as zeros. -/
def writeAt (content : Bytes) (offset : Nat) (data : Bytes) : Bytes :=
  if data = [] then content
  else
    content.take offset ++ List.replicate (offset - content.length) 0 ++ data ++
      content.drop (offset + data.length)

namespace Pulls

/-- A directory with these files. -/
def start (tmp final : Option Bytes) : Pulls where
  inodes := 2
  disk n := if n = 0 then tmp.getD [] else final.getD []
  tmp := tmp.map fun _ => 0
  final := final.map fun _ => 1
  calls := []
  installed := []

/-- A call goes on. -/
def setCall (s : Pulls) (k : Nat) (c : PullCall) : Pulls := { s with calls := s.calls.set k c }

/-- Write to an inode. -/
def write (s : Pulls) (inode offset : Nat) (data : Bytes) : Pulls :=
  { s with disk := Function.update s.disk inode (writeAt (s.disk inode) offset data) }

/-- `open(tmp_path, "wb")`: empty the file that is there, or make one. -/
def openPart (s : Pulls) : Nat × Pulls :=
  match s.tmp with
  | some n => (n, { s with disk := Function.update s.disk n [] })
  | none =>
      (s.inodes, { s with
        inodes := s.inodes + 1
        disk := Function.update s.disk s.inodes []
        tmp := some s.inodes })

/-- An operation of a call, in the order of the source.  One that is not the call's next is
not taken. -/
def act (node : ArtifactNode) (s : Pulls) (k : Nat) (c : PullCall) (op : FileOp φ) : Pulls :=
  let goTo (phase : PullPhase) : Pulls := s.setCall k { c with phase := phase }
  match c.phase, op with
  | .ready, .opened true => goTo .failing
  | .ready, .opened false =>
      s.openPart.2.setCall k { c with phase := .writing ⟨s.openPart.1, 0, [], false⟩ }
  | .writing h, .receive resp =>
      if h.failed ∨ c.size ≤ c.written then s
      else
        match readChunk node c.digest c.written resp with
        | .error _ => goTo (.writing { h with failed := true })
        | .ok data =>
            s.setCall k { c with
              written := c.written + data.length
              chunks := c.chunks + 1
              phase := .writing { h with pending := h.pending ++ data } }
  | .writing h, .flush n =>
      (s.write h.inode h.offset (h.pending.take n)).setCall k { c with
        phase := .writing { h with
          offset := h.offset + (h.pending.take n).length
          pending := h.pending.drop n } }
  | .writing h, .fault => goTo (.writing { h with failed := true })
  | .writing h, .close raises =>
      if h.failed ∨ c.size ≤ c.written then
        if raises then goTo .failing
        else
          (s.write h.inode h.offset h.pending).setCall k
            { c with phase := if h.failed then .failing else .closed }
      else s
  | .closed, .digest raises =>
      match raises, s.tmp with
      | false, some n => goTo (.reading n [])
      | _, _ => goTo .failing
  | .reading n read, .block bytes raises =>
      if bytes = 0 then s
      else if raises then goTo .failing
      else
        let block := ((s.disk n).drop read.length).take bytes
        if block = [] then
          goTo (if hexdigest (Sha256.digest read) = c.digest then .verified else .failing)
        else if node.maxArtifactBytes < (read ++ block).length then goTo .failing
        else goTo (.reading n (read ++ block))
  | .verified, .replace raises =>
      match raises, s.tmp with
      | false, some n =>
          { s.setCall k { c with phase := .returned true } with
            tmp := none
            final := some n
            installed := s.installed ++ [⟨c.digest, s.disk n⟩] }
      | _, _ => goTo .failing
  | .failing, .remove raises =>
      let s := goTo (.returned false)
      if raises then s else { s with tmp := none }
  | _, _ => s

/-- One step. -/
def step (node : ArtifactNode) (s : Pulls) : PullOp φ → Pulls
  | .begin req manifest =>
      match artifactManifest manifest with
      | .ok (.ok (size, digest)) =>
          match checkManifest node req size digest with
          | none => { s with calls := s.calls ++ [⟨size.toNat, digest, 0, 0, .ready⟩] }
          | some _ => s
      | _ => s
  | .act k op =>
      match s.calls[k]? with
      | some c => s.act node k c op
      | none => s

/-! ## Who is in the way -/

/-- A call is between the start of its digest and its move. -/
def watches : PullPhase → Bool
  | .reading _ _ | .verified => true
  | .ready | .writing _ | .closed | .failing | .returned _ => false

/-- The bytes that an operation writes to the file of a handle. -/
def written (c : PullCall) (h : PartHandle) : FileOp φ → Bytes
  | .flush n => h.pending.take n
  | .close false => if h.failed ∨ c.size ≤ c.written then h.pending else []
  | _ => []

/-- The operation opens the temporary file, or writes to the file that is there. -/
def disturbs (s : Pulls) (c : PullCall) (op : FileOp φ) : Bool :=
  match c.phase, op with
  | .ready, .opened false => true
  | .writing h, op => s.tmp = some h.inode ∧ written c h op ≠ []
  | _, _ => false

/-- No call disturbs the file while one is between the start of its digest and its move. -/
def Undisturbed (s : Pulls) : PullOp φ → Prop
  | .begin _ _ => True
  | .act k op => ∀ c ∈ s.calls[k]?, disturbs s c op = true →
      ∀ c' ∈ s.calls, watches c'.phase = false

instance (s : Pulls) (op : PullOp φ) : Decidable (Undisturbed s op) :=
  match op with
  | .begin _ _ => inferInstanceAs (Decidable True)
  | .act k op => inferInstanceAs (Decidable (∀ c ∈ s.calls[k]?, disturbs s c op = true →
      ∀ c' ∈ s.calls, watches c'.phase = false))

/-- What is installed has the digest that is reported. -/
def Intact (s : Pulls) : Prop :=
  ∀ i ∈ s.installed, hexdigest (Sha256.digest i.content) = i.digest

/-- What a call knows of the file at the temporary path. -/
def Knows (s : Pulls) (c : PullCall) : Prop :=
  match c.phase with
  | .reading n read => ∀ m, s.tmp = some m → m = n ∧ read <+: s.disk m
  | .verified => ∀ m, s.tmp = some m → hexdigest (Sha256.digest (s.disk m)) = c.digest
  | _ => True

/-- Every call is right about the temporary file. -/
def Watched (s : Pulls) : Prop := ∀ c ∈ s.calls, s.Knows c

theorem knows_of_not_watches (s : Pulls) {c : PullCall} (h : watches c.phase = false) :
    s.Knows c := by
  simp only [Knows]
  cases hphase : c.phase with
  | reading n read =>
      rw [hphase] at h
      cases h
  | verified =>
      rw [hphase] at h
      cases h
  | ready | writing _ | closed | failing | returned _ => trivial

/-- What a call knows depends on the temporary file only. -/
theorem Knows.of_eq {s s' : Pulls} {c : PullCall} (h : s.Knows c)
    (hsame : ∀ m, s'.tmp = some m → s.tmp = some m ∧ s'.disk m = s.disk m) : s'.Knows c := by
  simp only [Knows] at h ⊢
  split
  · rename_i n read hphase
    rw [hphase] at h
    intro m hm
    obtain ⟨htmp, hdisk⟩ := hsame m hm
    rw [hdisk]
    exact h m htmp
  · rename_i hphase
    rw [hphase] at h
    intro m hm
    obtain ⟨htmp, hdisk⟩ := hsame m hm
    rw [hdisk]
    exact h m htmp
  · trivial

/-- Without a temporary file there is nothing to be wrong about. -/
theorem knows_of_removed {s : Pulls} (h : s.tmp = none) (c : PullCall) : s.Knows c := by
  simp only [Knows]
  split
  · intro m hm
    cases h.symm.trans hm
  · intro m hm
    cases h.symm.trans hm
  · trivial

/-! ## One step -/

/-- A call goes on, and the others see the file as it was, or do not look. -/
theorem Watched.setCall {s : Pulls} (h : Watched s) (s' : Pulls) (hcalls : s'.calls = s.calls)
    (k : Nat) {c' : PullCall}
    (hsame : (∀ c ∈ s.calls, watches c.phase = false) ∨
      ∀ m, s'.tmp = some m → s.tmp = some m ∧ s'.disk m = s.disk m)
    (hknows : s'.Knows c') : Watched (s'.setCall k c') := by
  intro c hc
  rcases List.mem_or_eq_of_mem_set hc with hold | rfl
  · rw [hcalls] at hold
    change s'.Knows c
    rcases hsame with hidle | hsame
    · exact s'.knows_of_not_watches (hidle c hold)
    · exact (h c hold).of_eq hsame
  · exact hknows

/-- A call goes on without touching the directory. -/
theorem Watched.goTo {s : Pulls} (h : Watched s) (k : Nat) {c' : PullCall} (hknows : s.Knows c') :
    Watched (s.setCall k c') := h.setCall s rfl k (.inr fun _ hm => ⟨hm, rfl⟩) hknows

/-- A write to another file, or of nothing, is not seen. -/
theorem write_same {s : Pulls} {inode : Nat} (offset : Nat) {data : Bytes}
    (h : ¬ (s.tmp = some inode ∧ data ≠ [])) (m : Nat)
    (hm : (s.write inode offset data).tmp = some m) :
    s.tmp = some m ∧ (s.write inode offset data).disk m = s.disk m := by
  have htmp : s.tmp = some m := hm
  refine ⟨htmp, ?_⟩
  by_cases hinode : m = inode
  · subst hinode
    have hnil : data = [] := by
      by_contra hne
      exact h ⟨htmp, hne⟩
    simp only [write, Function.update_self, writeAt, if_pos hnil]
  · simp only [write, Function.update_of_ne hinode]

section Act

variable {node : ArtifactNode} {s : Pulls} {k : Nat} {c : PullCall}

/-- Opening the file.  Nobody looks. -/
theorem watched_open (h : Watched s) (op : FileOp φ) (hphase : c.phase = .ready)
    (halone : disturbs s c op = true → ∀ c' ∈ s.calls, watches c'.phase = false) :
    Watched (s.act node k c op) := by
  simp only [act]
  rw [hphase]
  cases op with
  | opened raises =>
      cases raises with
      | true => exact h.goTo k (s.knows_of_not_watches rfl)
      | false =>
          have hidle := halone (by simp only [disturbs]; rw [hphase])
          refine h.setCall s.openPart.2 ?_ k (.inl hidle) (knows_of_not_watches _ rfl)
          simp only [openPart]
          split <;> rfl
  | _ => exact h

/-- The `with` block.  Nobody looks when it writes to the temporary file. -/
theorem watched_write (h : Watched s) (op : FileOp φ) {handle : PartHandle}
    (hphase : c.phase = .writing handle)
    (halone : disturbs s c op = true → ∀ c' ∈ s.calls, watches c'.phase = false) :
    Watched (s.act node k c op) := by
  have hseen (offset : Nat) : (∀ c' ∈ s.calls, watches c'.phase = false) ∨
      ∀ m, (s.write handle.inode offset (written c handle op)).tmp = some m →
        s.tmp = some m ∧ (s.write handle.inode offset (written c handle op)).disk m = s.disk m := by
    by_cases hdisturbs : s.tmp = some handle.inode ∧ written c handle op ≠ []
    · exact .inl (halone (by simp only [disturbs]; rw [hphase]; exact decide_eq_true hdisturbs))
    · exact .inr (write_same offset hdisturbs)
  simp only [act]
  rw [hphase]
  cases op with
  | receive resp =>
      dsimp only
      split
      · exact h
      · split
        · exact h.goTo k (s.knows_of_not_watches rfl)
        · exact h.goTo k (s.knows_of_not_watches rfl)
  | flush n =>
      exact h.setCall (s.write handle.inode handle.offset (handle.pending.take n)) rfl k
        (hseen handle.offset) (knows_of_not_watches _ rfl)
  | fault => exact h.goTo k (s.knows_of_not_watches rfl)
  | close raises =>
      dsimp only
      split
      · rename_i hends
        cases raises with
        | true => exact h.goTo k (s.knows_of_not_watches rfl)
        | false =>
            have hall : written c handle (.close false : FileOp φ) = handle.pending := if_pos hends
            rw [hall] at hseen
            refine h.setCall (s.write handle.inode handle.offset handle.pending) rfl k
              (hseen handle.offset) (knows_of_not_watches _ ?_)
            dsimp only
            split <;> rfl
      · exact h
  | _ => exact h

/-- The digest.  What is read is the beginning of the file, and in the end all of it. -/
theorem watched_digest (h : Watched s) (hc : c ∈ s.calls) (op : FileOp φ)
    (hphase : c.phase = .closed ∨ ∃ n read, c.phase = .reading n read) :
    Watched (s.act node k c op) := by
  simp only [act]
  rcases hphase with hphase | ⟨n, read, hphase⟩
  · rw [hphase]
    cases op with
    | digest raises =>
        dsimp only
        split
        · rename_i n htmp
          refine h.goTo k ?_
          intro m hm
          cases htmp.symm.trans hm
          exact ⟨rfl, List.nil_prefix⟩
        · exact h.goTo k (s.knows_of_not_watches rfl)
    | _ => exact h
  · have hknows := h c hc
    unfold Knows at hknows
    rw [hphase] at hknows ⊢
    cases op with
    | block bytes raises =>
        dsimp only
        split
        · exact h
        · rename_i hsome
          split
          · exact h.goTo k (s.knows_of_not_watches rfl)
          · split
            · rename_i hend
              split
              · rename_i hdigest
                refine h.goTo k ?_
                intro m hm
                obtain ⟨rfl, hread⟩ := hknows m hm
                -- Nothing is left to read, so all of the file is read.
                have hdrop : (s.disk m).drop read.length = [] :=
                  (List.take_eq_nil_iff.1 hend).resolve_left hsome
                have hall : read = s.disk m :=
                  hread.eq_of_length_le (List.drop_eq_nil_iff.1 hdrop)
                rw [← hall]
                exact hdigest
              · exact h.goTo k (s.knows_of_not_watches rfl)
            · split
              · exact h.goTo k (s.knows_of_not_watches rfl)
              · refine h.goTo k ?_
                intro m hm
                obtain ⟨rfl, hread⟩ := hknows m hm
                refine ⟨rfl, ?_⟩
                obtain ⟨rest, hrest⟩ := hread
                rw [← hrest, List.drop_left]
                exact (List.prefix_append_right_inj _).2 (List.take_prefix _ _)
    | _ => exact h

/-- The move and the removal take the temporary file away. -/
theorem watched_end (h : Watched s) (op : FileOp φ)
    (hphase : c.phase = .verified ∨ c.phase = .failing ∨ ∃ success, c.phase = .returned success) :
    Watched (s.act node k c op) := by
  simp only [act]
  rcases hphase with hphase | hphase | ⟨success, hphase⟩
  · rw [hphase]
    cases op with
    | replace raises =>
        dsimp only
        split
        · exact fun c' _ => knows_of_removed rfl c'
        · exact h.goTo k (s.knows_of_not_watches rfl)
    | _ => exact h
  · rw [hphase]
    cases op with
    | remove raises =>
        dsimp only
        split
        · exact h.goTo k (s.knows_of_not_watches rfl)
        · exact fun c' _ => knows_of_removed rfl c'
    | _ => exact h
  · rw [hphase]
    exact h

theorem Watched.act (h : Watched s) (hc : c ∈ s.calls) (op : FileOp φ)
    (halone : disturbs s c op = true → ∀ c' ∈ s.calls, watches c'.phase = false) :
    Watched (s.act node k c op) := by
  cases hphase : c.phase with
  | ready => exact watched_open h op hphase halone
  | writing handle => exact watched_write h op hphase halone
  | closed => exact watched_digest h hc op (.inl hphase)
  | reading n read => exact watched_digest h hc op (.inr ⟨n, read, hphase⟩)
  | verified => exact watched_end h op (.inl hphase)
  | failing => exact watched_end h op (.inr (.inl hphase))
  | returned success => exact watched_end h op (.inr (.inr ⟨success, hphase⟩))

variable (node s k c) in
/-- What an operation installs. -/
theorem installed_act (op : FileOp φ) :
    (s.act node k c op).installed = s.installed ∨
      ∃ n, c.phase = .verified ∧ s.tmp = some n ∧
        (s.act node k c op).installed = s.installed ++ [⟨c.digest, s.disk n⟩] := by
  unfold act
  dsimp only
  split
  · exact .inl rfl
  · left
    simp only [openPart]
    split <;> rfl
  · split
    · exact .inl rfl
    · split <;> exact .inl rfl
  · exact .inl rfl
  · exact .inl rfl
  · split
    · split <;> exact .inl rfl
    · exact .inl rfl
  · split <;> exact .inl rfl
  · split
    · exact .inl rfl
    · split
      · exact .inl rfl
      · split
        · exact .inl rfl
        · split <;> exact .inl rfl
  · rename_i hphase
    split
    · rename_i n htmp
      exact .inr ⟨n, hphase, htmp, rfl⟩
    · exact .inl rfl
  · split <;> exact .inl rfl
  · exact .inl rfl

end Act

/-! ## Runs -/

/-- Every call is right about the temporary file, and every success about what it installed. -/
theorem watched_step {node : ArtifactNode} {s : Pulls} (op : PullOp φ)
    (h : Watched s ∧ Intact s) (halone : Undisturbed s op) :
    Watched (s.step node op) ∧ Intact (s.step node op) := by
  cases op with
  | begin req manifest =>
      unfold step
      dsimp only
      split
      · split
        · refine ⟨fun c hc => ?_, h.2⟩
          rcases List.mem_append.1 hc with hold | hnew
          · exact h.1 c hold
          · rw [List.mem_singleton.1 hnew]
            exact knows_of_not_watches _ rfl
        · exact h
      · exact h
  | act k op =>
      unfold step
      dsimp only
      cases hc : s.calls[k]? with
      | none => exact h
      | some c =>
          have hmem : c ∈ s.calls := List.mem_of_getElem? hc
          refine ⟨h.1.act hmem op (halone c hc), ?_⟩
          intro i hi
          rcases installed_act node s k c op with heq |
            ⟨n, hphase, htmp, heq⟩
          · rw [heq] at hi
            exact h.2 i hi
          · rw [heq] at hi
            rcases List.mem_append.1 hi with hold | hnew
            · exact h.2 i hold
            · have hknows := h.1 c hmem
              unfold Knows at hknows
              rw [hphase] at hknows
              rw [List.mem_singleton.1 hnew]
              exact hknows n htmp

end Pulls

open Pulls in
/-- However the operations of any number of calls come: if no call opens the temporary file or
writes to it while another one is between the start of its digest and its move, then whatever
is moved into place has the digest that its call reports. -/
theorem installed_as_verified (node : ArtifactNode) (tmp final : Option Bytes)
    (ops : List (PullOp φ)) (halone : Meets (Pulls.step node) Undisturbed (start tmp final) ops) :
    Always (Pulls.step node) Intact (start tmp final) ops := by
  have hstart : Watched (start tmp final) ∧ Intact (start tmp final) :=
    ⟨fun _ hc => absurd hc List.not_mem_nil, fun _ hi => absurd hi List.not_mem_nil⟩
  exact (Always.of_inv (I := fun s => Watched s ∧ Intact s)
    (fun _ op h hop => watched_step op h hop) hstart halone).mono fun _ h => h.2

/-- The digest of the artifact whose only byte is `a`. -/
def digestOfA : Str := hexdigest (Sha256.digest [97])

/-- Its manifest. -/
def manifestOfA : Reply WholeFloat :=
  some (.dict (obj [("size", .int 1), ("sha256", .str digestOfA)]))

/-- Its only chunk. -/
def chunkOfA : Reply WholeFloat :=
  some (.dict (obj [("offset", .int 0), ("sha256", .str digestOfA), ("data", .str (lit "YQ=="))]))

/-- A call pulls it and verifies it. -/
def pullOfA : List (PullOp WholeFloat) :=
  [.begin PullRequest.ofApp manifestOfA, .act 0 (.opened false), .act 0 (.receive chunkOfA),
    .act 0 (.close false), .act 0 (.digest false), .act 0 (.block 4 false), .act 0 (.block 4 false)]

/-- Alone, it installs what it has verified. -/
theorem lone_pull_installed :
    (run (Pulls.step ⟨4, id⟩) (Pulls.start none none)
        (pullOfA ++ [.act 0 (.replace false)])).installed = [⟨digestOfA, [97]⟩] ∧
      Always (Pulls.step ⟨4, id⟩) Pulls.Intact (Pulls.start none none)
        (pullOfA ++ [.act 0 (.replace false)]) :=
  ⟨by decide +kernel, installed_as_verified ⟨4, id⟩ none none _ (by decide +kernel)⟩

/-- A second call opens the temporary file before the first one moves it. -/
def racingPull : List (PullOp WholeFloat) :=
  pullOfA ++ [.begin PullRequest.ofApp manifestOfA, .act 1 (.opened false), .act 0 (.replace false)]

/-- The first call installs the empty file, and reports the digest of `a`. -/
theorem racing_pull_installs_nothing :
    (run (Pulls.step ⟨4, id⟩) (Pulls.start none none) racingPull).installed =
        [⟨digestOfA, []⟩] ∧
      ¬ Always (Pulls.step ⟨4, id⟩) Pulls.Intact (Pulls.start none none) racingPull := by
  have hinstalled : (run (Pulls.step ⟨4, id⟩) (Pulls.start none none) racingPull).installed =
      [⟨digestOfA, []⟩] := by decide +kernel
  refine ⟨hinstalled, fun halways => ?_⟩
  have hintact : Pulls.Intact (run (Pulls.step ⟨4, id⟩) (Pulls.start none none) racingPull) :=
    halways.last
  have hdigest := hintact ⟨digestOfA, []⟩ (by rw [hinstalled]; exact List.mem_singleton_self _)
  revert hdigest
  decide +kernel

end ShugoCore
