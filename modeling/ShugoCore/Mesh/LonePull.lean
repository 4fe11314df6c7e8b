import ShugoCore.Mesh.Pulls

/-!
# A pull alone

`fetchArtifact` is `fetch_artifact` as one function, `Pulls.step` is the same code one file
operation at a time.  A call that has the directory to itself has a run that ends as the
function says: with the same report and the same two files (`fetched_alone`).  In that run
the handle keeps everything in its buffer until it is closed.
-/

namespace ShugoCore

open Py Machine

variable {φ : Type} [Builtins φ]

namespace Pulls

/-- The directory with one call. -/
def alone (s : Pulls) (c : PullCall) : Pulls := { s with calls := [c] }

variable (φ) in
/-- Operations of the only call lead from one state to the other. -/
def Leads (node : ArtifactNode) (s s' : Pulls) : Prop :=
  ∃ ops : List (FileOp φ), run (step node) s (ops.map (.act 0)) = s'

/-- What is in the temporary file and in the file. -/
def contents (s : Pulls) : Option Bytes × Option Bytes := (s.tmp.map s.disk, s.final.map s.disk)

section Alone

variable {node : ArtifactNode} {s s' s'' : Pulls} {c : PullCall}

theorem Leads.refl (s : Pulls) : Leads φ node s s := ⟨[], rfl⟩

theorem Leads.trans (h : Leads φ node s s') (h' : Leads φ node s' s'') : Leads φ node s s'' := by
  obtain ⟨ops, rfl⟩ := h
  obtain ⟨ops', rfl⟩ := h'
  exact ⟨ops ++ ops', by rw [List.map_append, run_append]⟩

theorem Leads.act (node : ArtifactNode) (s : Pulls) (c : PullCall) (op : FileOp φ) :
    Leads φ node (s.alone c) ((s.alone c).act node 0 c op) := ⟨[op], rfl⟩

/-- The chunk loop.  The buffer of the handle holds what has come. -/
theorem leads_chunks {disk : Disk} {peer : Nat → Reply φ} {size : Nat} {digest : Str}
    {fuel chunks : Nat} {content : Bytes} {pulled : Pulled}
    (h : pullChunks node disk peer size digest fuel chunks content = some pulled) (s : Pulls)
    (n : Nat) :
    ∃ written chunks' pending, Leads φ node
        (s.alone ⟨size, digest, content.length, chunks, .writing ⟨n, 0, content, false⟩⟩)
        (s.alone ⟨size, digest, written, chunks',
          .writing ⟨n, 0, pending, pulled.failure.isSome⟩⟩) ∧
      (pulled.failure = none → pending = pulled.content ∧ size ≤ written) := by
  induction fuel generalizing chunks content with
  | zero =>
      unfold pullChunks at h
      split at h
      · rename_i hdone
        obtain rfl := Option.some.inj h
        exact ⟨_, _, _, Leads.refl _, fun _ => ⟨rfl, hdone⟩⟩
      · cases h
  | succ fuel ih =>
      unfold pullChunks at h
      split at h
      · rename_i hdone
        obtain rfl := Option.some.inj h
        exact ⟨_, _, _, Leads.refl _, fun _ => ⟨rfl, hdone⟩⟩
      · rename_i hmore
        have hreceive := Leads.act node s
          ⟨size, digest, content.length, chunks, .writing ⟨n, 0, content, false⟩⟩
          (.receive (peer (chunks + 1)))
        simp only [act, hmore, Bool.false_eq_true, or_self, if_false] at hreceive
        dsimp only at h
        split at h
        · rename_i message hread
          obtain rfl := Option.some.inj h
          rw [hread] at hreceive
          exact ⟨_, _, _, hreceive, (fun h => by cases h)⟩
        · rename_i data message hread _
          obtain rfl := Option.some.inj h
          rw [hread] at hreceive
          exact ⟨_, _, _, hreceive.trans (Leads.act node s _ .fault), (fun h => by cases h)⟩
        · rename_i data hread _
          rw [hread] at hreceive
          obtain ⟨written, chunks', pending, hrest, hends⟩ := ih h
          rw [List.length_append] at hrest
          exact ⟨written, chunks', pending, hreceive.trans hrest, hends⟩

theorem leads_removed (s : Pulls) (hphase : c.phase = .failing) :
    Leads φ node (s.alone c) ({ s with tmp := none }.alone { c with phase := .returned false }) := by
  have hremove := Leads.act (φ := φ) node s c (.remove false)
  unfold Pulls.act at hremove
  rw [hphase] at hremove
  exact hremove

/-- The digest of the whole file, in blocks that are larger than it. -/
theorem leads_digested {n : Nat} (htmp : s.tmp = some n)
    (hcap : (s.disk n).length ≤ node.maxArtifactBytes) (hphase : c.phase = .closed) :
    Leads φ node (s.alone c) (s.alone { c with
      phase := if hexdigest (Sha256.digest (s.disk n)) = c.digest then .verified else .failing }) := by
  have hopen : Leads φ node (s.alone c) (s.alone { c with phase := .reading n [] }) := by
    have hdigest := Leads.act (φ := φ) node s c (.digest false)
    unfold Pulls.act at hdigest
    have halone : (s.alone c).tmp = some n := htmp
    rw [hphase, halone] at hdigest
    exact hdigest
  have hend : Leads φ node (s.alone { c with phase := .reading n (s.disk n) }) (s.alone { c with
      phase := if hexdigest (Sha256.digest (s.disk n)) = c.digest then .verified else .failing }) := by
    have hblock := Leads.act (φ := φ) node s { c with phase := .reading n (s.disk n) }
      (.block 1 false)
    have hnone : ((s.disk n).drop (s.disk n).length).take 1 = [] := by simp
    simp only [Pulls.act, alone, hnone, if_true, Nat.one_ne_zero, if_false,
      Bool.false_eq_true] at hblock
    exact hblock
  by_cases hnil : s.disk n = []
  · rw [hnil] at hend ⊢
    exact hopen.trans hend
  · have hread : Leads φ node (s.alone { c with phase := .reading n [] })
        (s.alone { c with phase := .reading n (s.disk n) }) := by
      have hblock := Leads.act (φ := φ) node s { c with phase := .reading n [] }
        (.block (s.disk n).length false)
      have hlen : (s.disk n).length ≠ 0 := by simpa using hnil
      simp only [Pulls.act, alone, List.length_nil, List.drop_zero, List.take_length, hlen, hnil,
        if_false, Bool.false_eq_true, List.nil_append, not_lt.2 hcap] at hblock
      exact hblock
    exact hopen.trans (hread.trans hend)

/-- The transfer succeeds: nothing has failed, and the digest is right. -/
def Installs (disk : Disk) (digest : Str) (pulled : Pulled) : Prop :=
  pulled.failure = none ∧ disk.digested = none ∧
    hexdigest (Sha256.digest pulled.content) = digest ∧ disk.replace = none

/-- A call is over, with these files. -/
def Ended (s : Pulls) (success : Bool) (tmp final : Option Bytes) : Prop :=
  s.contents = (tmp, final) ∧ s.calls.map PullCall.phase = [.returned success]

theorem leads_failed (node : ArtifactNode) (s : Pulls) (hphase : c.phase = .failing) :
    ∃ s', Leads φ node (s.alone c) s' ∧ Ended s' false none (s.final.map s.disk) :=
  ⟨_, leads_removed s hphase, rfl, rfl⟩

/-- After the `with` block. -/
theorem leads_closed (disk : Disk) {n : Nat} {pulled : Pulled} (htmp : s.tmp = some n)
    (hcontent : s.disk n = pulled.content)
    (hcap : pulled.content.length ≤ node.maxArtifactBytes) (hphase : c.phase = .closed)
    (hgood : pulled.failure = none) :
    ∃ s', Leads φ node (s.alone c) s' ∧
      (Installs disk c.digest pulled → Ended s' true none (some pulled.content)) ∧
      (¬ Installs disk c.digest pulled → Ended s' false none (s.final.map s.disk)) := by
  obtain ⟨gone, hfail, hgone⟩ := leads_failed (φ := φ) node s
    (c := { c with phase := .failing }) rfl
  by_cases hdigested : disk.digested = none
  · have hdigest := leads_digested (φ := φ) htmp (by rwa [hcontent]) hphase
    rw [hcontent] at hdigest
    by_cases hright : hexdigest (Sha256.digest pulled.content) = c.digest
    · rw [if_pos hright] at hdigest
      have hreplace (raises : Bool) := Leads.act (φ := φ) node s
        { c with phase := .verified } (.replace raises)
      have halone (c : PullCall) : (s.alone c).tmp = some n := htmp
      by_cases hmoves : disk.replace = none
      · have hmove := hreplace false
        simp only [Pulls.act, halone] at hmove
        refine ⟨_, hdigest.trans hmove, fun _ => ⟨?_, rfl⟩, fun h => ?_⟩
        · rw [← hcontent]
          rfl
        · exact absurd ⟨hgood, hdigested, hright, hmoves⟩ h
      · have hmove := hreplace true
        simp only [Pulls.act] at hmove
        exact ⟨gone, hdigest.trans (hmove.trans hfail), fun h => absurd h.2.2.2 hmoves,
          fun _ => hgone⟩
    · rw [if_neg hright] at hdigest
      exact ⟨gone, hdigest.trans hfail, fun h => absurd h.2.2.1 hright, fun _ => hgone⟩
  · have hdigest := Leads.act (φ := φ) node s c (.digest true)
    unfold Pulls.act at hdigest
    rw [hphase] at hdigest
    exact ⟨gone, hdigest.trans hfail, fun h => absurd h.2.1 hdigested, fun _ => hgone⟩

theorem writeAt_nil (data : Bytes) : writeAt [] 0 data = data := by
  rw [writeAt]
  split
  · rename_i hnil
    exact hnil.symm
  · simp

/-- The end of the `with` block, and what follows it. -/
theorem leads_pulled (disk : Disk) (digest : Str) (chunks : Nat) {n size written : Nat}
    {pending : Bytes} {pulled : Pulled} (htmp : s.tmp = some n) (hempty : s.disk n = [])
    (hfinal : s.final ≠ some n) (hcap : pulled.content.length ≤ node.maxArtifactBytes)
    (hends : pulled.failure = none → pending = pulled.content ∧ size ≤ written) :
    ∃ s', Leads φ node (s.alone ⟨size, digest, written, chunks,
        .writing ⟨n, 0, pending, pulled.failure.isSome⟩⟩) s' ∧
      (Installs disk digest pulled → Ended s' true none (some pulled.content)) ∧
      (¬ Installs disk digest pulled → Ended s' false none (s.final.map s.disk)) := by
  have hclose (raises : Bool) := Leads.act (φ := φ) node s
    ⟨size, digest, written, chunks, .writing ⟨n, 0, pending, pulled.failure.isSome⟩⟩ (.close raises)
  cases hfailure : pulled.failure with
  | some message =>
      have hfails := hclose true
      simp only [hfailure, Pulls.act, Option.isSome_some, true_or, if_true] at hfails
      obtain ⟨s', hfail, hended⟩ := leads_failed (φ := φ) node s
        (c := ⟨size, digest, written, chunks, .failing⟩) rfl
      refine ⟨s', hfails.trans hfail, fun h => ?_, fun _ => hended⟩
      cases hfailure.symm.trans h.1
  | none =>
      obtain ⟨rfl, hwhole⟩ := hends hfailure
      have hcloses := hclose false
      simp only [hfailure, Pulls.act, Option.isSome_none, Bool.false_eq_true, false_or, hwhole,
        if_true, if_false] at hcloses
      have hcontent : (s.write n 0 pulled.content).disk n = pulled.content := by
        simp only [write, Function.update_self, hempty, writeAt_nil]
      have hkept : (s.write n 0 pulled.content).final.map (s.write n 0 pulled.content).disk =
          s.final.map s.disk := by
        show s.final.map _ = _
        cases hf : s.final with
        | none => rfl
        | some m =>
            have hne : m ≠ n := fun h => hfinal (by rw [hf, h])
            simp only [Option.map_some, write, Function.update_of_ne hne]
      obtain ⟨s', hrest, hinstalls, hfails⟩ := leads_closed (φ := φ) disk
        (s := s.write n 0 pulled.content) (c := ⟨size, digest, written, chunks, .closed⟩)
        htmp hcontent hcap rfl hfailure
      rw [hkept] at hfails
      exact ⟨s', Leads.trans hcloses hrest, hinstalls, hfails⟩

end Alone

/-- The files after a transfer. -/
theorem finishPull_files {node : ArtifactNode} {pulled : Pulled} (disk : Disk) (name digest : Str)
    (files : Folder) (hcap : pulled.content.length ≤ node.maxArtifactBytes) :
    (Installs disk digest pulled →
      (finishPull node disk name digest files pulled).1.status = "success" ∧
      (finishPull node disk name digest files pulled).2 name = some pulled.content) ∧
    (¬ Installs disk digest pulled →
      (finishPull node disk name digest files pulled).1.status = "error" ∧
      (finishPull node disk name digest files pulled).2 name = files name) := by
  have hne := (partName_ne name).symm
  have hcapped : sha256File pulled.content node.maxArtifactBytes =
      some (hexdigest (Sha256.digest pulled.content)) := by
    rw [sha256File, if_neg (not_lt.2 hcap)]
  have hkept : Function.update (Function.update files (partName name) (some pulled.content))
      (partName name) none name = files name := by
    rw [Function.update_of_ne hne, Function.update_of_ne hne]
  unfold finishPull
  rw [hcapped]
  dsimp only
  split
  · rename_i hfailure
    refine ⟨fun h => ?_, fun _ => ⟨rfl, hkept⟩⟩
    cases hfailure.symm.trans h.1
  · rename_i hdigested
    refine ⟨fun h => ?_, fun _ => ⟨rfl, hkept⟩⟩
    cases hdigested.symm.trans h.2.1
  · rename_i hnone
    cases hnone
  · rename_i actual hfailure hdigested hactual
    obtain rfl := Option.some.inj hactual
    split
    · rename_i hwrong
      exact ⟨fun h => absurd h.2.2.1 hwrong, fun _ => ⟨rfl, hkept⟩⟩
    · rename_i hright
      split
      · rename_i hreplace
        refine ⟨fun h => ?_, fun _ => ⟨rfl, hkept⟩⟩
        cases hreplace.symm.trans h.2.2.2
      · rename_i hreplace
        refine ⟨fun _ => ⟨rfl, ?_⟩, fun h => ?_⟩
        · simp only [replaceFile, Function.update_of_ne hne, Function.update_self]
        · exact absurd ⟨hfailure, hdigested, not_not.1 hright, hreplace⟩ h

/-- The temporary file is open, and it is not the file. -/
theorem openPart_start (tmp final : Option Bytes) :
    (start tmp final).openPart.2.tmp = some (start tmp final).openPart.1 ∧
      (start tmp final).openPart.2.disk (start tmp final).openPart.1 = [] ∧
      (start tmp final).openPart.2.final ≠ some (start tmp final).openPart.1 ∧
      (start tmp final).openPart.2.final.map (start tmp final).openPart.2.disk = final := by
  cases tmp <;> cases final <;> exact ⟨rfl, rfl, by simp [openPart, start], rfl⟩

/-- A call alone, from its manifest to its end. -/
theorem leads_ready {node : ArtifactNode} {disk : Disk} {peer : Nat → Reply φ} {size fuel : Nat}
    {digest : Str} {pulled : Pulled} (tmp final : Option Bytes)
    (hwrite : writePart node disk peer size digest fuel = some pulled)
    (hcap : pulled.content.length ≤ node.maxArtifactBytes) :
    ∃ s', Leads φ node ((start tmp final).alone ⟨size, digest, 0, 0, .ready⟩) s' ∧
      (Installs disk digest pulled → Ended s' true none (some pulled.content)) ∧
      (¬ Installs disk digest pulled → Ended s' false none final) := by
  have hopen (raises : Bool) := Leads.act (φ := φ) node (start tmp final)
    ⟨size, digest, 0, 0, .ready⟩ (.opened raises)
  unfold writePart at hwrite
  cases hopened : disk.opened with
  | some message =>
      rw [hopened] at hwrite
      obtain rfl := Option.some.inj hwrite
      obtain ⟨s', hfail, hended⟩ := leads_failed (φ := φ) node (start tmp final)
        (c := ⟨size, digest, 0, 0, .failing⟩) rfl
      have hsame : (start tmp final).final.map (start tmp final).disk = final := by
        cases final <;> rfl
      rw [hsame] at hended
      exact ⟨s', (hopen true).trans hfail, fun h => (by cases h.1), fun _ => hended⟩
  | none =>
      rw [hopened] at hwrite
      obtain ⟨htmp, hempty, hfinal, hsame⟩ := openPart_start tmp final
      obtain ⟨written, chunks, pending, hchunks, hends⟩ :=
        leads_chunks hwrite (start tmp final).openPart.2 (start tmp final).openPart.1
      obtain ⟨s', hrest, hinstalls, hfails⟩ := leads_pulled (φ := φ) disk digest
        chunks htmp hempty hfinal hcap hends
      rw [hsame] at hfails
      have hopens : Leads φ node ((start tmp final).alone ⟨size, digest, 0, 0, .ready⟩)
          ((start tmp final).openPart.2.alone ⟨size, digest, 0, 0,
            .writing ⟨(start tmp final).openPart.1, 0, [], false⟩⟩) := by
        cases tmp <;> exact hopen false
      exact ⟨s', hopens.trans (hchunks.trans hrest), hinstalls, hfails⟩

end Pulls

open Pulls in
/-- A call alone, one operation at a time, can end as `fetch_artifact` ends. -/
theorem fetched_alone (node : ArtifactNode) (disk : Disk) (peer : Nat → Reply φ)
    (req : PullRequest) (files : Folder) (hbegins : Begins node disk (peer 0) req) :
    ∃ (ops : List (FileOp φ)) (r : PullReport) (files' : Folder),
      (∀ fuel ≥ node.maxArtifactBytes,
        fetchArtifact node disk peer req fuel files = some (.ok r, files')) ∧
      Ended (run (Pulls.step node) (start (files (partName req.name)) (files req.name))
          (.begin req (peer 0) :: ops.map (.act 0)))
        (r.status = "success") (files' (partName req.name)) (files' req.name) := by
  obtain ⟨hasks, hdirs, size, digest, hmanifest, hcheck⟩ := hbegins
  obtain ⟨hpos, hle, -⟩ := checkManifest_none hcheck
  have hends : ∃ pulled : Pulled, pulled.content.length ≤ node.maxArtifactBytes ∧
      ∀ more ≥ node.maxArtifactBytes,
        writePart node disk peer size.toNat digest more = some pulled :=
    writePart_ends (by omega)
  obtain ⟨pulled, hcap, hwrite⟩ := hends
  obtain ⟨s', ⟨ops, hops⟩, hinstalls, hfails⟩ := leads_ready (files (partName req.name))
    (files req.name) (hwrite _ le_rfl) hcap
  have hbegin : run (Pulls.step node) (start (files (partName req.name)) (files req.name))
      (.begin req (peer 0) :: ops.map (.act 0)) = s' := by
    rw [← hops, run_cons, Pulls.step, hmanifest]
    simp only [hcheck]
    rfl
  obtain ⟨hsuccess, herror⟩ := finishPull_files disk req.name digest files hcap
  refine ⟨ops, (finishPull node disk req.name digest files pulled).1,
    (finishPull node disk req.name digest files pulled).2, fun fuel hfuel => ?_, ?_⟩
  · rw [fetchArtifact_of_begun hasks hdirs hmanifest hcheck, hwrite fuel hfuel]
    rfl
  · rw [hbegin, finishPull_part]
    by_cases h : Installs disk digest pulled
    · rw [(hsuccess h).1, (hsuccess h).2]
      exact hinstalls h
    · rw [(herror h).1, (herror h).2]
      exact hfails h

end ShugoCore
