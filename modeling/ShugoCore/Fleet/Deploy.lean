import Mathlib.Data.List.Dedup
import Mathlib.Data.List.Sort
import ShugoCore.Interaction.Attention
import ShugoCore.Lib.Interpreter

/-!
# Fleet rollout

`FleetDeployHandler.deploy` of `fleet_deploy.py`.  It looks for the artifact, works out the targets, and
then installs the artifact on one target after the other over ADB.

The file system is a parameter that does not change during a call, and each of its operations can
raise.  ADB is a parameter too, whose answers depend on all that it was asked before, and which can
raise in the place of an answer.  `str.lower` is one as well, and so are the limits that `str` meets.

Every refusal comes before the first device is touched, and nothing is installed but what may be
(`installs_safe`).  But an `OSError` is expected of `resolve` alone, `targets` can be a value that cannot
be gone through, a parameter can be a value without a text, a run of ADB can raise, and the bound is
compared with the number of targets that are named, of which some can be the same.  So a rollout is
fail-closed if and only if none of this happens (`fail_closed_iff`).
-/

namespace ShugoCore

open Py

/-! ## Text -/

/-- The characters that end a line for `str.splitlines`. -/
def isLineEnd (c : CodePoint) : Bool :=
  (10 ≤ c.val && c.val ≤ 13) || (28 ≤ c.val && c.val ≤ 30) || c.val = 0x85 || c.val = 0x2028 ||
    c.val = 0x2029

/-- `str.splitlines()`.  The flag says that the last character was a carriage return. -/
def splitlines (afterReturn : Bool) : Str → List Str
  | [] => []
  | c :: s =>
      if c = newline && afterReturn then splitlines false s
      else if isLineEnd c then [] :: splitlines (c = carriageReturn) s
      else
        match splitlines false s with
        | [] => [[c]]
        | line :: lines => (c :: line) :: lines

/-- `_DETAIL_LIMIT`. -/
def detailLimit : Nat := 300

/-- `_clip`. -/
def clip (text : Str) : Str := ((lit " ").intercalate (splitWords text)).take detailLimit

/-! ## Paths and what answers -/

/-- An absolute path without links. -/
structure FilePath where
  parts : List Str
deriving DecidableEq, Repr

namespace FilePath

/-- `str(path)`. -/
def text (path : FilePath) : Str := lit "/" ++ (lit "/").intercalate path.parts

/-- `path.name`. -/
def name (path : FilePath) : Str := path.parts.getLast?.getD []

/-- `path.suffix`. -/
def suffix (path : FilePath) : Str :=
  match rfind (lit ".") path.name with
  | some i => if 0 < i ∧ i + 1 < path.name.length then path.name.drop i else []
  | none => []

end FilePath

/-- What is raised. -/
inductive Raised where
  | osError (text : Str)
  | runtimeError
  | valueError
  | typeError
  | recursionError
deriving DecidableEq, Repr

/-- What `adb` answers: the return code, and what it wrote. -/
structure AdbAnswer where
  code : Int
  out : Str
  err : Str

/-- What a rollout asks of the machine that it runs on. -/
structure DeployHost where
  /-- `str.lower`. -/
  lower : Str → Str
  /-- `Path(raw).expanduser()`, as the text of a path. -/
  expanduser : Str → Except Raised Str
  resolve : Str → Except Raised FilePath
  isFile : FilePath → Except Raised Bool
  /-- `sha256_file`. -/
  sha256File : FilePath → Except Raised Str
  /-- `AdbRunner.run`, after the runs before. -/
  adb : List (List Str) → List Str → Except Raised AdbAnswer

/-- An event of the audit chain. -/
inductive FleetEvent where
  | refused (reason : Str)
  | target (serial : Str) (ok : Bool) (artifact detail : Str)
  | deployed (status artifact sha256 : Str) (targets : List Str) (deployed failed : Nat) (dryRun : Bool)
deriving DecidableEq, Repr

/-- What a rollout does. -/
inductive FleetEffect where
  | adb (args : List Str)
  | audit (event : FleetEvent)
deriving DecidableEq, Repr

/-- The arguments of a run of `adb`. -/
def FleetEffect.run? : FleetEffect → Option (List Str)
  | .adb args => some args
  | .audit _ => none

/-- The serial and the file of an `adb install`. -/
def FleetEffect.install? : FleetEffect → Option (Str × Str)
  | .adb [s, serial, install, r, file] =>
      if s = lit "-s" ∧ install = lit "install" ∧ r = lit "-r" then some (serial, file) else none
  | _ => none

/-- The runs of `adb` so far. -/
def runsOf (effects : List FleetEffect) : List (List Str) := effects.filterMap FleetEffect.run?

/-- The installations so far. -/
def installsOf (effects : List FleetEffect) : List (Str × Str) :=
  effects.filterMap FleetEffect.install?

/-! ## The handler -/

/-- `FleetDeployHandler`.  The serials that are allowed are a set. -/
structure FleetDeployHandler where
  allowedTargets : List Str
  distinct : allowedTargets.Nodup
  package : Str
  artifactRoot : Option FilePath
  maxTargets : Nat

/-- `__init__`, with a root that is resolved. -/
def FleetDeployHandler.init (allowedTargets : List Str) (package : Str) (artifactRoot : Option FilePath)
    (maxTargets : Int) : FleetDeployHandler where
  allowedTargets := ((allowedTargets.map strip).filter fun t => t ≠ []).dedup
  distinct := List.nodup_dedup _
  package := if package = [] then lit "com.samurai.shugocore" else package
  artifactRoot := artifactRoot
  maxTargets := (max 1 maxTargets).toNat

/-- `ARTIFACT_SUFFIXES`. -/
def artifactSuffixes : List Str := [lit ".apk"]

/-- The part of a device in the result. -/
structure DeployEntry where
  serial : Str
  ok : Bool
  detail : Str
  installed : Option (Dict Str Str)
deriving DecidableEq, Repr

/-- The result of a rollout that was not refused. -/
structure DeployPayload where
  status : Str
  artifact : Str
  sha256 : Str
  dryRun : Bool
  deployed : Nat
  failed : Nat
  results : List DeployEntry
deriving DecidableEq, Repr

/-- What `deploy` returns. -/
inductive DeployResponse where
  | refused (reason : Str)
  | payload (payload : DeployPayload)
deriving DecidableEq, Repr

/-- What `deploy` returns, or raises, and what it has done. -/
structure DeployOutcome where
  response : Except Raised DeployResponse
  effects : List FleetEffect

/-- The value of a line such as `versionCode=22 minSdk=28`, up to the first space. -/
def firstWord (value : Str) : Str := (splitWords value).headD []

/-- The loop of `_installed`. -/
def versionsOf (out : Str) : Dict Str Str :=
  (splitlines false out).foldl (fun info line =>
    let token := strip line
    [lit "versionName", lit "versionCode"].foldl (fun info key =>
      if (key ++ lit "=").isPrefixOf token then
        Dict.set info key (firstWord (token.drop (key.length + 1)))
      else info) info) []

section

variable {φ : Type} [Builtins φ] (L : Limits φ)

/-- `str(v).strip()`. -/
def strippedText (v : PyVal φ) : Except Raised Str :=
  match L.str v with
  | .ok text => .ok (strip text)
  | .error .recursionError => .error .recursionError
  | .error _ => .error .valueError

/-- `str(params.get(k) or "").strip()`. -/
def paramText (k : String) (params : Obj φ) : Except Raised Str :=
  strippedText L (orElse (fetch (lit k) params) (.str []))

/-- `str` of a number. -/
def numeral (n : Int) : Str := (Literal.ofInt n).text

/-- `err or out or f"adb exited {rc}"`. -/
def AdbAnswer.complaint (answer : AdbAnswer) : Str :=
  if answer.err ≠ [] then answer.err
  else if answer.out ≠ [] then answer.out
  else lit "adb exited " ++ numeral answer.code

/-- `["-s", serial, "shell", "dumpsys", "package", self.package]`. -/
def versionArgs (h : FleetDeployHandler) (serial : Str) : List Str :=
  [lit "-s", serial, lit "shell", lit "dumpsys", lit "package", h.package]

/-- `["-s", serial, "install", "-r", str(artifact)]`. -/
def installArgs (artifact : FilePath) (serial : Str) : List Str :=
  [lit "-s", serial, lit "install", lit "-r", artifact.text]

/-- The installation went well, as far as `adb` says. -/
def AdbAnswer.succeeded (answer : AdbAnswer) : Bool :=
  decide (answer.code = 0 ∧ lit "Success" <:+: answer.out)

/-- `_installed`. -/
def AdbAnswer.versions (answer : AdbAnswer) : Dict Str Str :=
  if answer.code ≠ 0 then [(lit "error", clip answer.complaint)] else versionsOf answer.out

/-- The path is inside the root, if there is one. -/
def InsideRoot (root : Option FilePath) (path : FilePath) : Prop :=
  ∀ r ∈ root, r.parts <+: path.parts

instance (root : Option FilePath) (path : FilePath) : Decidable (InsideRoot root path) :=
  Option.decidableForallMem root

/-- The digest that is asked for, or nothing. -/
def requestedDigest (host : DeployHost) (params : Obj φ) : Except Raised Str :=
  (paramText L "sha256" params).map host.lower

/-- The checks of `_resolve_artifact` on a path that is resolved. -/
def checkArtifact (host : DeployHost) (h : FleetDeployHandler) (params : Obj φ) (path : FilePath) :
    Except Raised (Except Str (FilePath × Str)) := do
  if !(← host.isFile path) then return .error (lit "artifact '" ++ path.name ++ lit "' is not a file")
  else if host.lower path.suffix ∉ artifactSuffixes then
    return .error (lit "artifact '" ++ path.name ++ lit "' is not " ++
      (lit "/").intercalate artifactSuffixes)
  else if ¬ InsideRoot h.artifactRoot path then
    return .error (lit "artifact '" ++ path.name ++ lit "' is outside the operator artifact root")
  else
    let digest ← host.sha256File path
    let expected ← requestedDigest L host params
    if expected ≠ [] ∧ expected ≠ digest then
      return .error (lit "artifact sha256 " ++ digest.take 12 ++ lit " does not match the expected " ++
        expected.take 12)
    else return .ok (path, digest)

/-- `_resolve_artifact`: the path and its digest, or why it is refused. -/
def resolveArtifact (host : DeployHost) (h : FleetDeployHandler) (params : Obj φ) :
    Except Raised (Except Str (FilePath × Str)) := do
  let raw ← paramText L "artifact" params
  if raw = [] then return .error (lit "artifact path is required")
  else
    let path ← host.expanduser raw
    match host.resolve path with
    | .ok path => checkArtifact L host h params path
    | .error (.osError text) => return .error (lit "artifact path is unusable: " ++ clip text)
    | .error e => throw e

/-- The targets that a request names.  A text is one target. -/
def namedTargets (params : Obj φ) : Except Raised (List Str) :=
  let requested := match fetch (lit "targets") params with
    | .str s => .list [.str s]
    | v => orElse v (.list [])
  match iterate requested with
  | .ok ts => do return (← ts.mapM (strippedText L)).filter fun t => t ≠ []
  | .error _ => .error .typeError

/-- The targets of a request that names these: if none, all that are allowed. -/
def FleetDeployHandler.wanted (h : FleetDeployHandler) (named : List Str) : List Str :=
  if named = [] then h.allowedTargets.insertionSort (· ≤ ·) else named

/-- `_resolve_targets`: the targets, or why they are refused. -/
def resolveTargets (h : FleetDeployHandler) (params : Obj φ) : Except Raised (Except Str (List Str)) := do
  if h.allowedTargets = [] then
    return .error (lit "no deployment targets are allowlisted for this node (the operator must " ++
      lit "allow the serials first)")
  else
    let targets := h.wanted (← namedTargets L params)
    let unknown := targets.filter fun t => t ∉ h.allowedTargets
    if h.maxTargets < targets.length then
      return .error (numeral targets.length ++ lit " targets exceed the " ++ numeral h.maxTargets ++
        lit "-device rollout bound")
    else if unknown ≠ [] then
      return .error (lit "target(s) not in the operator allowlist: " ++
        strOf (.list (unknown.map .str) : PyVal φ))
    else return .ok (targets.dedup.insertionSort (· ≤ ·))

/-- The entry of a device on which the artifact was installed, or not. -/
def installEntry (host : DeployHost) (h : FleetDeployHandler) (artifact : FilePath) (expectVersion : Str)
    (serial : Str) (effects : List FleetEffect) : Except Raised DeployEntry × List FleetEffect :=
  let installed := effects ++ [.adb (installArgs artifact serial)]
  match host.adb (runsOf effects) (installArgs artifact serial) with
  | .error e => (.error e, installed)
  | .ok answer =>
      let detail := clip (answer.out ++ lit "\n" ++ answer.err)
      if answer.succeeded ∧ expectVersion ≠ [] then
        let asked := installed ++ [.adb (versionArgs h serial)]
        match host.adb (runsOf installed) (versionArgs h serial) with
        | .error e => (.error e, asked)
        | .ok versions =>
            let seen := (Dict.get? versions.versions (lit "versionName")).getD []
            if seen ≠ expectVersion then
              (.ok ⟨serial, false, lit "installed versionName '" ++ seen ++
                lit "' does not match expected '" ++ expectVersion ++ lit "'", some versions.versions⟩,
                asked)
            else (.ok ⟨serial, true, detail, some versions.versions⟩, asked)
      else (.ok ⟨serial, answer.succeeded, detail, none⟩, installed)

/-- `_deploy_one`, and what is done. -/
def deployOne (host : DeployHost) (h : FleetDeployHandler) (artifact : FilePath) (dryRun : Bool)
    (expectVersion : Str) (serial : Str) (effects : List FleetEffect) :
    Except Raised DeployEntry × List FleetEffect :=
  let done :=
    if dryRun then (.ok ⟨serial, true, lit "dry run: install skipped", none⟩, effects)
    else installEntry host h artifact expectVersion serial effects
  match done.1 with
  | .error e => (.error e, done.2)
  | .ok entry => (.ok entry, done.2 ++ [.audit (.target serial entry.ok artifact.name entry.detail)])

/-- The loop of `deploy`. -/
def deployAll (host : DeployHost) (h : FleetDeployHandler) (artifact : FilePath) (dryRun : Bool)
    (expectVersion : Str) :
    List Str → List FleetEffect → Except Raised (List DeployEntry) × List FleetEffect
  | [], effects => (.ok [], effects)
  | serial :: targets, effects =>
      let one := deployOne host h artifact dryRun expectVersion serial effects
      match one.1 with
      | .error e => (.error e, one.2)
      | .ok entry =>
          let rest := deployAll host h artifact dryRun expectVersion targets one.2
          (rest.1.map (entry :: ·), rest.2)

/-- `_refuse`. -/
def refuse (reason : Str) : DeployOutcome := ⟨.ok (.refused reason), [.audit (.refused reason)]⟩

/-- The status of a rollout. -/
def rolloutStatus (deployed failed : Nat) : Str :=
  if deployed = 0 then lit "failed" else if failed ≠ 0 then lit "partial" else lit "success"

/-- The rollout, when the artifact, the targets and the version are known. -/
def rollOut (host : DeployHost) (h : FleetDeployHandler) (artifact : FilePath) (digest : Str)
    (dryRun : Bool) (expectVersion : Str) (targets : List Str) : DeployOutcome :=
  let rolled := deployAll host h artifact dryRun expectVersion targets []
  match rolled.1 with
  | .error e => ⟨.error e, rolled.2⟩
  | .ok results =>
      let deployed := results.countP DeployEntry.ok
      let failed := results.length - deployed
      let status := rolloutStatus deployed failed
      ⟨.ok (.payload ⟨status, artifact.name, digest, dryRun, deployed, failed, results⟩),
        rolled.2 ++ [.audit (.deployed status artifact.name digest targets deployed failed dryRun)]⟩

/-- `deploy`. -/
def deploy (host : DeployHost) (h : FleetDeployHandler) (params : Obj φ) : DeployOutcome :=
  match resolveArtifact L host h params with
  | .error e => ⟨.error e, []⟩
  | .ok (.error reason) => refuse reason
  | .ok (.ok (artifact, digest)) =>
      match resolveTargets L h params with
      | .error e => ⟨.error e, []⟩
      | .ok (.error reason) => refuse reason
      | .ok (.ok targets) =>
          match paramText L "expect_version" params with
          | .error e => ⟨.error e, []⟩
          | .ok expectVersion =>
              rollOut host h artifact digest (truthy (fetch (lit "dry_run") params)) expectVersion
                targets

/-! ## The artifact -/

/-- The path that a request means. -/
def Locates (host : DeployHost) (params : Obj φ) (path : FilePath) : Prop :=
  ∃ raw unresolved, paramText L "artifact" params = .ok raw ∧ raw ≠ [] ∧
    host.expanduser raw = .ok unresolved ∧ host.resolve unresolved = .ok path

/-- An existing `.apk` inside the root, with the digest that is asked for. -/
structure Installable (host : DeployHost) (h : FleetDeployHandler) (params : Obj φ) (path : FilePath) :
    Prop where
  isFile : host.isFile path = .ok true
  suffix : host.lower path.suffix ∈ artifactSuffixes
  inside : InsideRoot h.artifactRoot path
  digest : ∃ digest expected, host.sha256File path = .ok digest ∧
    requestedDigest L host params = .ok expected ∧ (expected ≠ [] → expected = digest)

/-- Nothing is raised about a path that is resolved. -/
def CheckSteady (host : DeployHost) (h : FleetDeployHandler) (params : Obj φ) (path : FilePath) : Prop :=
  ∃ isFile, host.isFile path = .ok isFile ∧
    (isFile = true → host.lower path.suffix ∈ artifactSuffixes → InsideRoot h.artifactRoot path →
      ∃ digest expected, host.sha256File path = .ok digest ∧
        requestedDigest L host params = .ok expected)

/-- Nothing is raised about the artifact, but an `OSError` while its path is resolved. -/
def LookupSteady (host : DeployHost) (h : FleetDeployHandler) (params : Obj φ) : Prop :=
  ∃ raw, paramText L "artifact" params = .ok raw ∧
    (raw ≠ [] → ∃ unresolved, host.expanduser raw = .ok unresolved ∧
      ((∃ text, host.resolve unresolved = .error (.osError text)) ∨
        ∃ path, host.resolve unresolved = .ok path ∧ CheckSteady L host h params path))

section

variable (host : DeployHost) (h : FleetDeployHandler) (params : Obj φ)

/-- What is checked before the digest. -/
structure Vetted (path : FilePath) : Prop where
  isFile : host.isFile path = .ok true
  suffix : host.lower path.suffix ∈ artifactSuffixes
  inside : InsideRoot h.artifactRoot path

variable {L host h params} {path : FilePath}

theorem Installable.vetted (hinstall : Installable L host h params path) : Vetted host h path :=
  ⟨hinstall.isFile, hinstall.suffix, hinstall.inside⟩

/-- A check that fails needs no digest. -/
theorem checkSteady_of_not_vetted {isFile : Bool} (hfile : host.isFile path = .ok isFile)
    (hno : ¬ Vetted host h path) : CheckSteady L host h params path := by
  refine ⟨isFile, hfile, ?_⟩
  intro htrue hsuffix hinside
  rw [htrue] at hfile
  exact absurd ⟨hfile, hsuffix, hinside⟩ hno

theorem checkArtifact_of_not_vetted {isFile : Bool} (hfile : host.isFile path = .ok isFile)
    (hno : ¬ Vetted host h path) : ∃ reason, checkArtifact L host h params path = .ok (.error reason) := by
  rw [checkArtifact, hfile]
  dsimp only [bind, Except.bind]
  split
  · exact ⟨_, rfl⟩
  · rename_i hisFile
    have htrue : isFile = true := by simpa using hisFile
    rw [htrue] at hfile
    split
    · exact ⟨_, rfl⟩
    · rename_i hsuffix
      rw [not_not] at hsuffix
      have houtside : ¬ InsideRoot h.artifactRoot path := fun hinside => hno ⟨hfile, hsuffix, hinside⟩
      rw [if_pos houtside]
      exact ⟨_, rfl⟩

/-- An artifact that is vetted is refused for its digest only. -/
theorem checkArtifact_of_vetted (hvetted : Vetted host h path) :
    checkArtifact L host h params path = (do
      let digest ← host.sha256File path
      let expected ← requestedDigest L host params
      if expected ≠ [] ∧ expected ≠ digest then
        return .error (lit "artifact sha256 " ++ digest.take 12 ++ lit " does not match the expected " ++
          expected.take 12)
      else return .ok (path, digest)) := by
  obtain ⟨hfile, hsuffix, hinside⟩ := hvetted
  rw [checkArtifact, hfile]
  dsimp only [bind, Except.bind]
  rw [if_neg (by decide), if_neg (not_not.2 hsuffix), if_neg (not_not.2 hinside)]

variable (L host h params)

theorem checkArtifact_cases (path : FilePath) :
    (∃ e, checkArtifact L host h params path = .error e ∧ ¬ CheckSteady L host h params path) ∨
    (∃ reason, checkArtifact L host h params path = .ok (.error reason) ∧ CheckSteady L host h params path ∧
      ¬ Installable L host h params path) ∨
    ∃ digest, checkArtifact L host h params path = .ok (.ok (path, digest)) ∧ CheckSteady L host h params path ∧
      Installable L host h params path := by
  cases hfile : host.isFile path with
  | error e =>
      refine .inl ⟨e, by rw [checkArtifact, hfile]; rfl, ?_⟩
      rintro ⟨isFile, hfile', -⟩
      rw [hfile] at hfile'
      cases hfile'
  | ok isFile =>
      by_cases hvetted : Vetted host h path
      · rw [checkArtifact_of_vetted hvetted]
        have hsha : CheckSteady L host h params path → ∃ digest expected,
            host.sha256File path = .ok digest ∧ requestedDigest L host params = .ok expected := by
          rintro ⟨isFile', hfile', hsha⟩
          rw [hvetted.isFile] at hfile'
          cases hfile'
          exact hsha rfl hvetted.suffix hvetted.inside
        cases hdigest : host.sha256File path with
        | error e =>
            refine .inl ⟨e, rfl, fun hsteady => ?_⟩
            obtain ⟨digest, expected, hdigest', -⟩ := hsha hsteady
            cases hdigest.symm.trans hdigest'
        | ok digest =>
            dsimp only [bind, Except.bind]
            cases hexpected : requestedDigest L host params with
            | error e =>
                refine .inl ⟨e, rfl, fun hsteady => ?_⟩
                obtain ⟨digest', expected, -, hexpected'⟩ := hsha hsteady
                cases hexpected.symm.trans hexpected'
            | ok expected =>
                have hsteady : CheckSteady L host h params path :=
                  ⟨isFile, hfile, fun _ _ _ => ⟨digest, expected, hdigest, hexpected⟩⟩
                dsimp only
                split
                · rename_i hmismatch
                  refine .inr (.inl ⟨_, rfl, hsteady, ?_⟩)
                  intro hinstall
                  obtain ⟨digest', expected', hdigest', hexpected', heq⟩ := hinstall.digest
                  cases hdigest.symm.trans hdigest'
                  cases hexpected.symm.trans hexpected'
                  exact hmismatch.2 (heq hmismatch.1)
                · rename_i hmatch
                  refine .inr (.inr ⟨digest, rfl, hsteady, ?_⟩)
                  exact ⟨hvetted.isFile, hvetted.suffix, hvetted.inside, digest, expected, hdigest,
                    hexpected, fun hne => not_not.1 fun hdiff => hmatch ⟨hne, hdiff⟩⟩
      · have hrefusal : ∃ reason, checkArtifact L host h params path = .ok (.error reason) :=
          checkArtifact_of_not_vetted hfile hvetted
        obtain ⟨reason, hrefused⟩ := hrefusal
        exact .inr (.inl ⟨reason, hrefused, checkSteady_of_not_vetted hfile hvetted,
          fun hinstall => hvetted hinstall.vetted⟩)

section

variable {L : Limits φ} {host : DeployHost} {h : FleetDeployHandler} {params : Obj φ} {raw unresolved : Str}

/-- Once the user's directory is filled in, the rest of the lookup decides. -/
theorem lookupSteady_iff_of_expanded (htext : paramText L "artifact" params = .ok raw)
    (hraw : raw ≠ []) (hexpand : host.expanduser raw = .ok unresolved) :
    LookupSteady L host h params ↔ (∃ text, host.resolve unresolved = .error (.osError text)) ∨
      ∃ path, host.resolve unresolved = .ok path ∧ CheckSteady L host h params path := by
  constructor
  · rintro ⟨other, hother, hsteady⟩
    cases htext.symm.trans hother
    obtain ⟨unresolved', hunresolved, hlookup⟩ := hsteady hraw
    cases hexpand.symm.trans hunresolved
    exact hlookup
  · exact fun hlookup => ⟨raw, htext, fun _ => ⟨unresolved, hexpand, hlookup⟩⟩

theorem locates_iff_of_expanded {path : FilePath} (htext : paramText L "artifact" params = .ok raw)
    (hraw : raw ≠ []) (hexpand : host.expanduser raw = .ok unresolved) :
    Locates L host params path ↔ host.resolve unresolved = .ok path := by
  constructor
  · rintro ⟨other, unresolved', hother, -, hunresolved, hpath⟩
    cases htext.symm.trans hother
    cases hexpand.symm.trans hunresolved
    exact hpath
  · exact fun hpath => ⟨raw, unresolved, htext, hraw, hexpand, hpath⟩

end

theorem resolveArtifact_cases :
    (∃ e, resolveArtifact L host h params = .error e ∧ ¬ LookupSteady L host h params) ∨
    (∃ reason, resolveArtifact L host h params = .ok (.error reason) ∧ LookupSteady L host h params ∧
      ∀ path, Locates L host params path → ¬ Installable L host h params path) ∨
    ∃ path digest, resolveArtifact L host h params = .ok (.ok (path, digest)) ∧
      LookupSteady L host h params ∧ Locates L host params path ∧ Installable L host h params path := by
  rw [resolveArtifact]
  cases htext : paramText L "artifact" params with
  | error e =>
      refine .inl ⟨e, rfl, ?_⟩
      rintro ⟨raw, hraw, -⟩
      cases htext.symm.trans hraw
  | ok raw =>
      dsimp only [bind, Except.bind]
      split
      · rename_i hblank
        refine .inr (.inl ⟨_, rfl, ⟨raw, htext, fun hne => absurd hblank hne⟩, ?_⟩)
        rintro path ⟨other, -, hother, hne, -⟩
        cases htext.symm.trans hother
        exact absurd hblank hne
      · rename_i hraw
        cases hexpand : host.expanduser raw with
        | error e =>
            refine .inl ⟨e, rfl, ?_⟩
            rintro ⟨other, hother, hsteady⟩
            cases htext.symm.trans hother
            obtain ⟨unresolved, hexpand', -⟩ := hsteady hraw
            cases hexpand.symm.trans hexpand'
        | ok unresolved =>
            simp only [lookupSteady_iff_of_expanded htext hraw hexpand,
              locates_iff_of_expanded htext hraw hexpand]
            cases hresolve : host.resolve unresolved with
            | error e =>
                cases e with
                | osError text => exact .inr (.inl ⟨_, rfl, .inl ⟨text, rfl⟩, by simp⟩)
                | runtimeError | valueError | typeError | recursionError =>
                    exact .inl ⟨_, rfl, by simp⟩
            | ok path =>
                simp only [reduceCtorEq, exists_false, false_or, Except.ok.injEq, exists_eq_left',
                  forall_eq']
                rcases checkArtifact_cases L host h params path with ⟨e, hcheck, hno⟩ |
                  ⟨reason, hcheck, hyes, hno⟩ | ⟨digest, hcheck, hyes, hinstall⟩
                · exact .inl ⟨e, hcheck, hno⟩
                · exact .inr (.inl ⟨reason, hcheck, hyes, hno⟩)
                · exact .inr (.inr ⟨path, digest, hcheck, hyes, rfl, hinstall⟩)

/-! ## The targets -/

/-- The targets that are named are allowed, and no more than the bound. -/
structure TargetsMet (h : FleetDeployHandler) (named : List Str) : Prop where
  allowed : ∀ t ∈ h.wanted named, t ∈ h.allowedTargets
  bounded : (h.wanted named).dedup.length ≤ h.maxTargets

theorem resolveTargets_cases :
    (h.allowedTargets = [] ∧ ∃ reason, resolveTargets L h params = .ok (.error reason)) ∨
    (h.allowedTargets ≠ [] ∧ ∃ e, namedTargets L params = .error e ∧ resolveTargets L h params = .error e) ∨
    ∃ named, h.allowedTargets ≠ [] ∧ namedTargets L params = .ok named ∧
      ((h.maxTargets < (h.wanted named).length ∧ ∃ reason, resolveTargets L h params = .ok (.error reason)) ∨
        (¬ TargetsMet h named ∧ ∃ reason, resolveTargets L h params = .ok (.error reason)) ∨
        (h.wanted named).length ≤ h.maxTargets ∧ TargetsMet h named ∧
          resolveTargets L h params = .ok (.ok ((h.wanted named).dedup.insertionSort (· ≤ ·)))) := by
  rw [resolveTargets]
  split
  · rename_i hnone
    exact .inl ⟨hnone, _, rfl⟩
  · rename_i hsome
    cases hnamed : namedTargets L params with
    | error e => exact .inr (.inl ⟨hsome, e, rfl, rfl⟩)
    | ok named =>
        refine .inr (.inr ⟨named, hsome, rfl, ?_⟩)
        dsimp only [bind, Except.bind]
        split
        · rename_i hmany
          exact .inl ⟨hmany, _, rfl⟩
        · rename_i hfew
          rw [not_lt] at hfew
          split
          · rename_i hunknown
            refine .inr (.inl ⟨?_, _, rfl⟩)
            intro hmet
            refine hunknown (List.filter_eq_nil_iff.2 fun t ht => ?_)
            simpa using hmet.allowed t ht
          · rename_i hknown
            rw [ne_eq, not_not, List.filter_eq_nil_iff] at hknown
            refine .inr (.inr ⟨hfew, ⟨fun t ht => by simpa using hknown t ht, ?_⟩, rfl⟩)
            exact (List.dedup_sublist _).length_le.trans hfew

/-! ## The rollout -/

/-- No run of `adb` raises while the artifact is installed on the targets, one after the other. -/
def AllRunsReturn (artifact : FilePath) (expectVersion : Str) : List Str → List (List Str) → Prop
  | [], _ => True
  | serial :: targets, runs =>
      ∃ answer, host.adb runs (installArgs artifact serial) = .ok answer ∧
        if answer.succeeded ∧ expectVersion ≠ [] then
          (∃ versions, host.adb (runs ++ [installArgs artifact serial]) (versionArgs h serial) =
            .ok versions) ∧
          AllRunsReturn artifact expectVersion targets
            (runs ++ [installArgs artifact serial] ++ [versionArgs h serial])
        else AllRunsReturn artifact expectVersion targets (runs ++ [installArgs artifact serial])

theorem runsOf_concat_adb (effects : List FleetEffect) (args : List Str) :
    runsOf (effects ++ [.adb args]) = runsOf effects ++ [args] := by
  rw [runsOf, List.filterMap_append]
  rfl

theorem runsOf_concat_audit (effects : List FleetEffect) (event : FleetEvent) :
    runsOf (effects ++ [.audit event]) = runsOf effects := by
  rw [runsOf, List.filterMap_append]
  exact List.append_nil _

theorem installsOf_concat_audit (effects : List FleetEffect) (event : FleetEvent) :
    installsOf (effects ++ [.audit event]) = installsOf effects := by
  rw [installsOf, List.filterMap_append]
  exact List.append_nil _

/-- Whatever `adb` answers, the artifact is installed once. -/
theorem installEntry_installs (artifact : FilePath) (expectVersion serial : Str)
    (effects : List FleetEffect) :
    installsOf (installEntry host h artifact expectVersion serial effects).2 =
      installsOf effects ++ [(serial, artifact.text)] := by
  have hinstall : installsOf (effects ++ [.adb (installArgs artifact serial)]) =
      installsOf effects ++ [(serial, artifact.text)] := by
    rw [installsOf, List.filterMap_append]
    rfl
  have hasked : installsOf (effects ++ [.adb (installArgs artifact serial)] ++
      [.adb (versionArgs h serial)]) = installsOf effects ++ [(serial, artifact.text)] := by
    rw [← hinstall, installsOf, List.filterMap_append]
    exact List.append_nil _
  rw [installEntry]
  dsimp only
  cases host.adb (runsOf effects) (installArgs artifact serial) with
  | error e => exact hinstall
  | ok answer =>
      dsimp only
      split
      · cases host.adb (runsOf (effects ++ [.adb (installArgs artifact serial)]))
          (versionArgs h serial) with
        | error e => exact hasked
        | ok versions =>
            dsimp only
            split
            · exact hasked
            · exact hasked
      · exact hinstall

theorem serial_of_installEntry (artifact : FilePath) (expectVersion serial : Str)
    (effects : List FleetEffect) {entry : DeployEntry}
    (hentry : (installEntry host h artifact expectVersion serial effects).1 = .ok entry) :
    entry.serial = serial := by
  rw [installEntry] at hentry
  dsimp only at hentry
  split at hentry
  · cases hentry
  · split at hentry
    · split at hentry
      · cases hentry
      · split at hentry
        · cases hentry
          rfl
        · cases hentry
          rfl
    · cases hentry
      rfl

/-- A device is done if and only if none of its runs raises. -/
theorem installEntry_returns_iff (artifact : FilePath) (expectVersion serial : Str)
    (effects : List FleetEffect) (rest : List (List Str) → Prop) :
    (∃ entry, (installEntry host h artifact expectVersion serial effects).1 = .ok entry ∧
      rest (runsOf (installEntry host h artifact expectVersion serial effects).2)) ↔
    ∃ answer, host.adb (runsOf effects) (installArgs artifact serial) = .ok answer ∧
      if answer.succeeded ∧ expectVersion ≠ [] then
        (∃ versions, host.adb (runsOf effects ++ [installArgs artifact serial])
          (versionArgs h serial) = .ok versions) ∧
        rest (runsOf effects ++ [installArgs artifact serial] ++ [versionArgs h serial])
      else rest (runsOf effects ++ [installArgs artifact serial]) := by
  rw [installEntry]
  dsimp only
  cases hanswer : host.adb (runsOf effects) (installArgs artifact serial) with
  | error e => simp only [reduceCtorEq, false_and, exists_false]
  | ok answer =>
      simp only [Except.ok.injEq, exists_eq_left']
      split
      · rw [runsOf_concat_adb]
        cases hversions : host.adb (runsOf effects ++ [installArgs artifact serial])
            (versionArgs h serial) with
        | error e => simp only [reduceCtorEq, false_and, exists_false]
        | ok versions =>
            have hruns : runsOf (effects ++ [.adb (installArgs artifact serial)] ++
                [.adb (versionArgs h serial)]) =
                runsOf effects ++ [installArgs artifact serial] ++ [versionArgs h serial] := by
              rw [runsOf_concat_adb, runsOf_concat_adb]
            dsimp only
            split
            · simp only [Except.ok.injEq, exists_eq_left', hruns, exists_eq', true_and]
            · simp only [Except.ok.injEq, exists_eq_left', hruns, exists_eq', true_and]
      · simp only [Except.ok.injEq, exists_eq_left', runsOf_concat_adb]

/-- What a device adds: unless it is a dry run, the artifact is installed on it. -/
theorem deployOne_installs (artifact : FilePath) (dryRun : Bool) (expectVersion serial : Str)
    (effects : List FleetEffect) :
    installsOf (deployOne host h artifact dryRun expectVersion serial effects).2 =
      installsOf effects ++ if dryRun then [] else [(serial, artifact.text)] := by
  rw [deployOne]
  cases dryRun with
  | true =>
      rw [if_pos rfl, if_pos rfl, List.append_nil]
      exact installsOf_concat_audit effects _
  | false =>
      rw [if_neg Bool.false_ne_true, if_neg Bool.false_ne_true,
        ← installEntry_installs host h artifact expectVersion serial effects]
      cases (installEntry host h artifact expectVersion serial effects).1 with
      | error e => rfl
      | ok entry => exact installsOf_concat_audit _ _

theorem deployOne_returns_iff (artifact : FilePath) (dryRun : Bool) (expectVersion serial : Str)
    (effects : List FleetEffect) (rest : List (List Str) → Prop) :
    (∃ entry, (deployOne host h artifact dryRun expectVersion serial effects).1 = .ok entry ∧
      rest (runsOf (deployOne host h artifact dryRun expectVersion serial effects).2)) ↔
    if dryRun then rest (runsOf effects)
    else ∃ answer, host.adb (runsOf effects) (installArgs artifact serial) = .ok answer ∧
      if answer.succeeded ∧ expectVersion ≠ [] then
        (∃ versions, host.adb (runsOf effects ++ [installArgs artifact serial])
          (versionArgs h serial) = .ok versions) ∧
        rest (runsOf effects ++ [installArgs artifact serial] ++ [versionArgs h serial])
      else rest (runsOf effects ++ [installArgs artifact serial]) := by
  rw [deployOne]
  cases dryRun with
  | true =>
      rw [if_pos rfl, if_pos rfl]
      simp [runsOf_concat_audit]
  | false =>
      rw [if_neg Bool.false_ne_true, if_neg Bool.false_ne_true,
        ← installEntry_returns_iff host h artifact expectVersion serial effects rest]
      cases (installEntry host h artifact expectVersion serial effects).1 with
      | error e => exact iff_of_false (fun ⟨_, h, _⟩ => nomatch h) (fun ⟨_, h, _⟩ => nomatch h)
      | ok entry => simp only [Except.ok.injEq, exists_eq_left', runsOf_concat_audit]

/-- An entry is that of its device. -/
theorem serial_of_deployOne (artifact : FilePath) (dryRun : Bool) (expectVersion serial : Str)
    (effects : List FleetEffect) {entry : DeployEntry}
    (hentry : (deployOne host h artifact dryRun expectVersion serial effects).1 = .ok entry) :
    entry.serial = serial := by
  rw [deployOne] at hentry
  cases dryRun with
  | true =>
      cases hentry
      rfl
  | false =>
      rw [if_neg Bool.false_ne_true] at hentry
      cases hdone : (installEntry host h artifact expectVersion serial effects).1 with
      | error e =>
          rw [hdone] at hentry
          cases hentry
      | ok built =>
          rw [hdone] at hentry
          cases hentry
          exact serial_of_installEntry host h artifact expectVersion serial effects hdone

/-- The devices that the loop gets to are the first ones, and all of them if nothing raises. -/
theorem deployAll_spec (artifact : FilePath) (dryRun : Bool) (expectVersion : Str)
    (targets : List Str) (effects : List FleetEffect) :
    ∃ reached, reached <+: targets ∧
      installsOf (deployAll host h artifact dryRun expectVersion targets effects).2 =
        installsOf effects ++ (if dryRun then [] else reached.map fun t => (t, artifact.text)) ∧
      ∀ results, (deployAll host h artifact dryRun expectVersion targets effects).1 = .ok results →
        results.map DeployEntry.serial = targets := by
  induction targets generalizing effects with
  | nil =>
      refine ⟨[], List.prefix_refl _, ?_, ?_⟩
      · rw [List.map_nil, ite_self, List.append_nil]
        rfl
      · rintro results hresults
        cases hresults
        rfl
  | cons serial targets ih =>
      have hinstalls := deployOne_installs host h artifact dryRun expectVersion serial effects
      rw [deployAll]
      dsimp only
      cases hone : (deployOne host h artifact dryRun expectVersion serial effects).1 with
      | error e =>
          refine ⟨[serial], List.cons_prefix_cons.2 ⟨rfl, List.nil_prefix⟩, hinstalls, ?_⟩
          intro results hresults
          cases hresults
      | ok entry =>
          obtain ⟨reached, hprefix, hrest, hserials⟩ :=
            ih (deployOne host h artifact dryRun expectVersion serial effects).2
          refine ⟨serial :: reached, List.cons_prefix_cons.2 ⟨rfl, hprefix⟩, ?_, ?_⟩
          · dsimp only
            rw [hrest, hinstalls, List.append_assoc]
            cases dryRun <;> rfl
          · intro results hresults
            dsimp only at hresults
            cases hall : (deployAll host h artifact dryRun expectVersion targets
                (deployOne host h artifact dryRun expectVersion serial effects).2).1 with
            | error e =>
                rw [hall] at hresults
                cases hresults
            | ok entries =>
                rw [hall] at hresults
                cases hresults
                rw [List.map_cons, hserials entries hall,
                  serial_of_deployOne host h artifact dryRun expectVersion serial effects hone]

/-- The loop returns if and only if it is a dry run, or no run of `adb` raises. -/
theorem deployAll_returns_iff (artifact : FilePath) (dryRun : Bool) (expectVersion : Str)
    (targets : List Str) (effects : List FleetEffect) :
    (∃ results, (deployAll host h artifact dryRun expectVersion targets effects).1 = .ok results) ↔
      (dryRun = false → AllRunsReturn host h artifact expectVersion targets (runsOf effects)) := by
  induction targets generalizing effects with
  | nil => exact iff_of_true ⟨[], rfl⟩ fun _ => trivial
  | cons serial targets ih =>
      have hone := deployOne_returns_iff host h artifact dryRun expectVersion serial effects
        (fun runs => dryRun = false → AllRunsReturn host h artifact expectVersion targets runs)
      have hcons : (∃ results, (deployAll host h artifact dryRun expectVersion (serial :: targets)
          effects).1 = .ok results) ↔
          ∃ entry, (deployOne host h artifact dryRun expectVersion serial effects).1 = .ok entry ∧
            (dryRun = false → AllRunsReturn host h artifact expectVersion targets
              (runsOf (deployOne host h artifact dryRun expectVersion serial effects).2)) := by
        rw [deployAll]
        dsimp only
        cases hentry : (deployOne host h artifact dryRun expectVersion serial effects).1 with
        | error e => exact iff_of_false (fun ⟨_, h⟩ => nomatch h) (fun ⟨_, h, _⟩ => nomatch h)
        | ok entry =>
            simp only [Except.ok.injEq, exists_eq_left']
            rw [← ih]
            cases (deployAll host h artifact dryRun expectVersion targets
              (deployOne host h artifact dryRun expectVersion serial effects).2).1 with
            | error e => exact iff_of_false (fun ⟨_, h⟩ => nomatch h) (fun ⟨_, h⟩ => nomatch h)
            | ok entries => exact iff_of_true ⟨_, rfl⟩ ⟨_, rfl⟩
      rw [hcons, hone]
      cases dryRun with
      | true => simp
      | false => simp [AllRunsReturn]

theorem success_iff {deployed failed : Nat} (h : rolloutStatus deployed failed = lit "success") :
    failed = 0 := by
  rw [rolloutStatus] at h
  split at h
  · exact absurd h (by decide)
  · split at h
    · exact absurd h (by decide)
    · rename_i hfailed
      exact not_not.1 hfailed

/-- What a rollout has done, and what it returns if it returns. -/
theorem rollOut_spec (artifact : FilePath) (digest : Str) (dryRun : Bool) (expectVersion : Str)
    (targets : List Str) :
    (∃ reached, reached <+: targets ∧
      installsOf (rollOut host h artifact digest dryRun expectVersion targets).effects =
        if dryRun then [] else reached.map fun t => (t, artifact.text)) ∧
      ((dryRun = false → AllRunsReturn host h artifact expectVersion targets []) →
        ∃ payload, (rollOut host h artifact digest dryRun expectVersion targets).response =
            .ok (.payload payload) ∧
          payload.results.map DeployEntry.serial = targets ∧
          payload.deployed + payload.failed = targets.length ∧
          (payload.status = lit "success" → ∀ entry ∈ payload.results, entry.ok = true)) ∧
      (¬ (dryRun = false → AllRunsReturn host h artifact expectVersion targets []) →
        ∃ e, (rollOut host h artifact digest dryRun expectVersion targets).response = .error e) := by
  obtain ⟨reached, hprefix, hinstalls, hserials⟩ :=
    deployAll_spec host h artifact dryRun expectVersion targets []
  have hreturns := deployAll_returns_iff host h artifact dryRun expectVersion targets []
  change _ ↔ (dryRun = false → AllRunsReturn host h artifact expectVersion targets []) at hreturns
  rw [← hreturns, rollOut]
  dsimp only
  generalize deployAll host h artifact dryRun expectVersion targets [] = rolled at hinstalls hserials
  obtain ⟨response, effects⟩ := rolled
  cases response with
  | error e =>
      refine ⟨⟨reached, hprefix, hinstalls⟩, ?_, fun _ => ⟨e, rfl⟩⟩
      rintro ⟨results, hresults⟩
      cases hresults
  | ok results =>
      have hcount : results.countP DeployEntry.ok ≤ results.length := List.countP_le_length
      refine ⟨⟨reached, hprefix, ?_⟩, fun _ => ⟨_, rfl, hserials results rfl, ?_, ?_⟩, ?_⟩
      · exact (installsOf_concat_audit effects _).trans hinstalls
      · rw [← hserials results rfl, List.length_map]
        exact Nat.add_sub_cancel' hcount
      · intro hsuccess
        have hall : results.countP DeployEntry.ok = results.length :=
          le_antisymm hcount (Nat.sub_eq_zero_iff_le.1 (success_iff hsuccess))
        exact List.countP_eq_length.1 hall
      · intro hno
        exact absurd ⟨results, rfl⟩ hno

/-! ## Fail-closed -/

/-- The artifact that is asked for can be installed. -/
def ArtifactMet : Prop := ∃ path, Locates L host params path ∧ Installable L host h params path

/-- All that a rollout needs. -/
def Feasible (named : List Str) : Prop :=
  ArtifactMet L host h params ∧ h.allowedTargets ≠ [] ∧ namedTargets L params = .ok named ∧
    TargetsMet h named

/-- What is installed is an artifact as it should be, on at most as many devices as allowed, which are
allowed and each of them once. -/
structure SafeInstalls : Prop where
  installs : ∀ i ∈ installsOf (deploy L host h params).effects, i.1 ∈ h.allowedTargets ∧
    ∃ path, i.2 = path.text ∧ Installable L host h params path
  once : ((installsOf (deploy L host h params).effects).map Prod.fst).Nodup
  bounded : (installsOf (deploy L host h params).effects).length ≤ h.maxTargets

/-- Installations are safe.  What cannot be done is refused before `adb` is run, and the rest is
done. -/
structure FailClosed : Prop extends SafeInstalls L host h params where
  refused : (∀ named, ¬ Feasible L host h params named) →
    runsOf (deploy L host h params).effects = [] ∧
      ∃ reason, (deploy L host h params).response = .ok (.refused reason)
  done : ∀ named, Feasible L host h params named →
    ∃ payload, (deploy L host h params).response = .ok (.payload payload) ∧
      (payload.results.map DeployEntry.serial).Perm (h.wanted named).dedup ∧
      payload.deployed + payload.failed = (h.wanted named).dedup.length ∧
      (payload.status = lit "success" → ∀ entry ∈ payload.results, entry.ok = true)

/-- More targets are named than the bound allows, but that many are not different, and all are allowed. -/
def Overcounted (named : List Str) : Prop := h.maxTargets < named.length ∧ TargetsMet h named

/-- The version that is expected has a text, and unless it is a dry run no run of `adb` raises. -/
def RolloutSteady (path : FilePath) (named : List Str) : Prop :=
  ∃ expectVersion, paramText L "expect_version" params = .ok expectVersion ∧
    (truthy (fetch (lit "dry_run") params) = false → AllRunsReturn host h path expectVersion
      ((h.wanted named).dedup.insertionSort (· ≤ ·)) [])

/-- Nothing is raised about the artifact.  If it can be installed and some target is allowed, then the
targets can be gone through, and are not too many only because some are named twice.  And where a
rollout has all it needs, nothing is raised in the course of it. -/
structure Careful : Prop where
  lookup : LookupSteady L host h params
  targets : ArtifactMet L host h params → h.allowedTargets ≠ [] →
    ∃ named, namedTargets L params = .ok named ∧ ¬ Overcounted h named
  rollout : ∀ path named, Locates L host params path → Feasible L host h params named →
    RolloutSteady L host h params path named

end

section

variable {L : Limits φ} {host : DeployHost} {h : FleetDeployHandler} {params : Obj φ}

/-- Targets that are not met are not met because they are too many, if the bound is the reason. -/
theorem overcounted_of_many {named : List Str} (hmany : h.maxTargets < (h.wanted named).length)
    (hmet : TargetsMet h named) : Overcounted h named := by
  rw [FleetDeployHandler.wanted] at hmany
  split at hmany
  · rename_i hnone
    have hbounded := hmet.bounded
    rw [FleetDeployHandler.wanted, if_pos hnone,
      ((List.perm_insertionSort _ _).nodup_iff.2 h.distinct).dedup] at hbounded
    exact absurd hbounded (not_le.2 hmany)
  · exact ⟨hmany, hmet⟩

/-- There is one path that a request means. -/
theorem Locates.unique {path path' : FilePath} (hpath : Locates L host params path)
    (hpath' : Locates L host params path') : path' = path := by
  obtain ⟨raw, unresolved, hraw, -, hunresolved, hresolve⟩ := hpath
  obtain ⟨raw', unresolved', hraw', -, hunresolved', hresolve'⟩ := hpath'
  cases hraw.symm.trans hraw'
  cases hunresolved.symm.trans hunresolved'
  cases hresolve.symm.trans hresolve'
  rfl

/-- What is raised is no response. -/
theorem failClosed_ne_error (hclosed : FailClosed L host h params) {e : Raised} :
    (deploy L host h params).response ≠ .error e := by
  intro herror
  by_cases hfeasible : ∃ named, Feasible L host h params named
  · obtain ⟨named, hnamed⟩ := hfeasible
    obtain ⟨payload, hpayload, -⟩ := hclosed.done named hnamed
    rw [herror] at hpayload
    cases hpayload
  · obtain ⟨-, reason, hreason⟩ := hclosed.refused (not_exists.1 hfeasible)
    rw [herror] at hreason
    cases hreason

theorem safeInstalls_of_none (hnone : installsOf (deploy L host h params).effects = []) :
    SafeInstalls L host h params := by
  constructor
  · rw [hnone]
    intro i hi
    cases hi
  · rw [hnone]
    exact List.nodup_nil
  · rw [hnone]
    exact Nat.zero_le _

/-- On targets that are met, a rollout installs what it should, however far it gets. -/
theorem safeInstalls_of_rollOut {path : FilePath} {digest expectVersion : Str} {dryRun : Bool}
    {named : List Str} (hinstall : Installable L host h params path) (hmet : TargetsMet h named)
    (hdeploy : deploy L host h params = rollOut host h path digest dryRun expectVersion
      ((h.wanted named).dedup.insertionSort (· ≤ ·))) : SafeInstalls L host h params := by
  have hperm := List.perm_insertionSort (· ≤ ·) (h.wanted named).dedup
  obtain ⟨⟨reached, hprefix, hinstalls⟩, -⟩ := rollOut_spec host h path digest dryRun expectVersion
    ((h.wanted named).dedup.insertionSort (· ≤ ·))
  rw [← hdeploy] at hinstalls
  have hfst : ((installsOf (deploy L host h params).effects).map Prod.fst).Sublist
      ((h.wanted named).dedup.insertionSort (· ≤ ·)) := by
    rw [hinstalls]
    split
    · exact List.nil_sublist _
    · rw [List.map_map]
      exact (List.map_id reached).symm ▸ hprefix.sublist
  constructor
  · intro i hi
    have hmem := hperm.mem_iff.1 (hfst.subset (List.mem_map_of_mem hi))
    refine ⟨hmet.allowed i.1 (List.mem_dedup.1 hmem), path, ?_, hinstall⟩
    rw [hinstalls] at hi
    split at hi
    · cases hi
    · obtain ⟨t, -, rfl⟩ := List.mem_map.1 hi
      rfl
  · exact hfst.nodup (hperm.nodup_iff.2 (List.nodup_dedup _))
  · rw [← List.length_map Prod.fst]
    exact (hfst.length_le.trans hperm.length_eq.le).trans hmet.bounded

/-- Whatever is raised in a rollout, what was installed until then is safe. -/
theorem installs_safe (L : Limits φ) (host : DeployHost) (h : FleetDeployHandler) (params : Obj φ) :
    SafeInstalls L host h params := by
  rcases resolveArtifact_cases L host h params with ⟨e, hartifact, -⟩ | ⟨reason, hartifact, -⟩ |
    ⟨path, digest, hartifact, -, hlocates, hinstall⟩
  · exact safeInstalls_of_none (by rw [deploy, hartifact]; rfl)
  · exact safeInstalls_of_none (by rw [deploy, hartifact]; rfl)
  · cases htargets : resolveTargets L h params with
    | error e => exact safeInstalls_of_none (by rw [deploy, hartifact, htargets]; rfl)
    | ok resolved =>
        cases resolved with
        | error reason => exact safeInstalls_of_none (by rw [deploy, hartifact, htargets]; rfl)
        | ok targets =>
            rcases resolveTargets_cases L params (h := h) with ⟨-, reason, hrefused⟩ |
              ⟨-, e, -, hraised⟩ | ⟨named, -, -, hcases⟩
            · cases htargets.symm.trans hrefused
            · cases htargets.symm.trans hraised
            · rcases hcases with ⟨-, reason, hrefused⟩ | ⟨-, reason, hrefused⟩ | ⟨-, hmet, hok⟩
              · cases htargets.symm.trans hrefused
              · cases htargets.symm.trans hrefused
              · cases hversion : paramText L "expect_version" params with
                | error e =>
                    exact safeInstalls_of_none (by rw [deploy, hartifact, hok, hversion]; rfl)
                | ok expectVersion =>
                    exact safeInstalls_of_rollOut hinstall hmet
                      (by rw [deploy, hartifact, hok, hversion])

/-- A refusal is fail-closed, if there is a reason for it. -/
theorem failClosed_of_refuse {reason : Str} (hdeploy : deploy L host h params = refuse reason)
    (hno : ∀ named, ¬ Feasible L host h params named) : FailClosed L host h params where
  toSafeInstalls := installs_safe L host h params
  refused := by
    intro _
    rw [hdeploy]
    exact ⟨rfl, reason, rfl⟩
  done := by
    intro named hnamed
    exact absurd hnamed (hno named)

theorem deploy_of_refusedTargets {path : FilePath} {digest reason : Str}
    (hartifact : resolveArtifact L host h params = .ok (.ok (path, digest)))
    (htargets : resolveTargets L h params = .ok (.error reason)) :
    deploy L host h params = refuse reason := by
  rw [deploy, hartifact, htargets]

/-- Where the artifact and the targets are met, a rollout is fail-closed if and only if nothing is raised
in the course of it. -/
theorem failClosed_iff_steady {path : FilePath} {digest : Str} {named : List Str}
    (hartifact : resolveArtifact L host h params = .ok (.ok (path, digest)))
    (hfeasible : Feasible L host h params named)
    (htargets : resolveTargets L h params =
      .ok (.ok ((h.wanted named).dedup.insertionSort (· ≤ ·)))) :
    FailClosed L host h params ↔ RolloutSteady L host h params path named := by
  have hperm := List.perm_insertionSort (· ≤ ·) (h.wanted named).dedup
  cases hversion : paramText L "expect_version" params with
  | error e =>
      have hdeploy : (deploy L host h params).response = .error e := by
        rw [deploy, hartifact, htargets, hversion]
      refine iff_of_false (fun hclosed => failClosed_ne_error hclosed hdeploy) ?_
      rintro ⟨expectVersion, hversion', -⟩
      cases hversion.symm.trans hversion'
  | ok expectVersion =>
      have hdeploy : deploy L host h params = rollOut host h path digest
          (truthy (fetch (lit "dry_run") params)) expectVersion
          ((h.wanted named).dedup.insertionSort (· ≤ ·)) := by
        rw [deploy, hartifact, htargets, hversion]
      have hsteady : RolloutSteady L host h params path named ↔
          (truthy (fetch (lit "dry_run") params) = false → AllRunsReturn host h path expectVersion
            ((h.wanted named).dedup.insertionSort (· ≤ ·)) []) := by
        constructor
        · rintro ⟨expectVersion', hversion', hanswered⟩
          cases hversion.symm.trans hversion'
          exact hanswered
        · intro hanswered
          exact ⟨expectVersion, hversion, hanswered⟩
      obtain ⟨-, hreturns, hraises⟩ := rollOut_spec host h path digest
        (truthy (fetch (lit "dry_run") params)) expectVersion
        ((h.wanted named).dedup.insertionSort (· ≤ ·))
      rw [← hdeploy] at hreturns hraises
      rw [hsteady]
      constructor
      · intro hclosed
        by_contra hno
        obtain ⟨e, he⟩ := hraises hno
        exact failClosed_ne_error hclosed he
      · intro hanswered
        obtain ⟨payload, hresponse, hserials, hcount, hsuccess⟩ := hreturns hanswered
        refine ⟨installs_safe L host h params, ?_, ?_⟩
        · intro hno
          exact absurd hfeasible (hno named)
        · intro named' hfeasible'
          cases hfeasible.2.2.1.symm.trans hfeasible'.2.2.1
          refine ⟨payload, hresponse, hserials ▸ hperm, ?_, hsuccess⟩
          rw [hcount, hperm.length_eq]

/-- Where the artifact can be installed and the targets can be gone through, they must not be too many
only because some are named twice, and nothing may be raised in the course of the rollout. -/
theorem failClosed_iff_of_named {path : FilePath} {digest : Str} {named : List Str}
    (hartifact : resolveArtifact L host h params = .ok (.ok (path, digest)))
    (hlocates : Locates L host params path) (hinstall : Installable L host h params path)
    (hallowed : h.allowedTargets ≠ []) (hnamed : namedTargets L params = .ok named)
    (hcases : (h.maxTargets < (h.wanted named).length ∧
        ∃ reason, resolveTargets L h params = .ok (.error reason)) ∨
      (¬ TargetsMet h named ∧ ∃ reason, resolveTargets L h params = .ok (.error reason)) ∨
      (h.wanted named).length ≤ h.maxTargets ∧ TargetsMet h named ∧
        resolveTargets L h params = .ok (.ok ((h.wanted named).dedup.insertionSort (· ≤ ·)))) :
    FailClosed L host h params ↔ ¬ Overcounted h named ∧
      (Feasible L host h params named → RolloutSteady L host h params path named) := by
  have hmetArtifact : ArtifactMet L host h params := ⟨path, hlocates, hinstall⟩
  have honly : ∀ {named'}, Feasible L host h params named' → TargetsMet h named := by
    intro named' hfeasible
    cases hnamed.symm.trans hfeasible.2.2.1
    exact hfeasible.2.2.2
  rcases hcases with ⟨hmany, reason, htargets⟩ | ⟨hunmet, reason, htargets⟩ | ⟨hfew, hmet, htargets⟩
  · -- more targets than the bound: refused, rightly unless some of them are the same
    have hdeploy := deploy_of_refusedTargets hartifact htargets
    constructor
    · intro hclosed
      have hnot : ¬ Feasible L host h params named := by
        intro hfeasible
        obtain ⟨payload, hpayload, -⟩ := hclosed.done named hfeasible
        rw [hdeploy] at hpayload
        cases hpayload
      exact ⟨fun hover => hnot ⟨hmetArtifact, hallowed, hnamed, hover.2⟩,
        fun hfeasible => absurd hfeasible hnot⟩
    · rintro ⟨hnot, -⟩
      exact failClosed_of_refuse hdeploy fun named' hfeasible =>
        hnot (overcounted_of_many hmany (honly hfeasible))
  · exact iff_of_true (failClosed_of_refuse (deploy_of_refusedTargets hartifact htargets)
      fun named' hfeasible => hunmet (honly hfeasible))
      ⟨fun hover => hunmet hover.2, fun hfeasible => absurd (honly hfeasible) hunmet⟩
  · have hfeasible : Feasible L host h params named := ⟨hmetArtifact, hallowed, hnamed, hmet⟩
    have hover : ¬ Overcounted h named := by
      intro hover
      have hwanted : h.wanted named = named := by
        rw [FleetDeployHandler.wanted, if_neg]
        rintro rfl
        exact Nat.not_lt_zero _ hover.1
      rw [hwanted] at hfew
      exact absurd hover.1 (not_lt.2 hfew)
    rw [failClosed_iff_steady hartifact hfeasible htargets]
    exact ⟨fun hsteady => ⟨hover, fun _ => hsteady⟩, fun hcareful => hcareful.2 hfeasible⟩

end

/-- For every interpreter, machine, handler and request: a rollout is fail-closed if and only if the
request is careful. -/
theorem fail_closed_iff (L : Limits φ) (host : DeployHost) (h : FleetDeployHandler) (params : Obj φ) :
    FailClosed L host h params ↔ Careful L host h params := by
  rcases resolveArtifact_cases L host h params with ⟨e, hartifact, hunsteady⟩ |
    ⟨reason, hartifact, hsteady, hnone⟩ | ⟨path, digest, hartifact, hsteady, hlocates, hinstall⟩
  · -- something is raised about the artifact
    refine iff_of_false ?_ fun hcareful => hunsteady hcareful.lookup
    intro hclosed
    refine failClosed_ne_error hclosed (e := e) ?_
    rw [deploy, hartifact]
  · -- the artifact is refused
    have hnot : ¬ ArtifactMet L host h params := by
      rintro ⟨path, hlocates, hinstall⟩
      exact hnone path hlocates hinstall
    have hdeploy : deploy L host h params = refuse reason := by
      rw [deploy, hartifact]
    exact iff_of_true (failClosed_of_refuse hdeploy fun named hfeasible => hnot hfeasible.1)
      ⟨hsteady, fun hmet => absurd hmet hnot, fun path named _ hfeasible => absurd hfeasible.1 hnot⟩
  · have hmetArtifact : ArtifactMet L host h params := ⟨path, hlocates, hinstall⟩
    rcases resolveTargets_cases L params (h := h) with ⟨hempty, reason, htargets⟩ |
      ⟨hallowed, e, hnamed, htargets⟩ | ⟨named, hallowed, hnamed, hcases⟩
    · refine iff_of_true (failClosed_of_refuse (deploy_of_refusedTargets hartifact htargets)
        fun named hfeasible => hfeasible.2.1 hempty) ?_
      exact ⟨hsteady, fun _ hne => absurd hempty hne,
        fun path named _ hfeasible => absurd hempty hfeasible.2.1⟩
    · -- the targets cannot be gone through
      refine iff_of_false ?_ ?_
      · intro hclosed
        refine failClosed_ne_error hclosed (e := e) ?_
        rw [deploy, hartifact, htargets]
      · intro hcareful
        obtain ⟨named, hok, -⟩ := hcareful.targets hmetArtifact hallowed
        cases hnamed.symm.trans hok
    · rw [failClosed_iff_of_named hartifact hlocates hinstall hallowed hnamed hcases]
      constructor
      · rintro ⟨hnot, hrollout⟩
        refine ⟨hsteady, fun _ _ => ⟨named, hnamed, hnot⟩, ?_⟩
        intro path' named' hlocates' hfeasible
        cases hnamed.symm.trans hfeasible.2.2.1
        rw [hlocates.unique hlocates']
        exact hrollout hfeasible
      · intro hcareful
        obtain ⟨named', hok, hnot⟩ := hcareful.targets hmetArtifact hallowed
        cases hnamed.symm.trans hok
        exact ⟨hnot, hcareful.rollout path named hlocates⟩

end

/-- A machine with one artifact. -/
def workshop : DeployHost where
  lower s := s
  expanduser raw := .ok raw
  resolve _ := .ok ⟨[lit "builds", lit "app.apk"]⟩
  isFile _ := .ok true
  sha256File _ := .ok (lit "2c26b46b")
  adb _ _ := .ok ⟨0, lit "Success", []⟩

/-- A handler for one device. -/
def oneDevice : FleetDeployHandler := .init [lit "R52WC05JPMW"] [] none 8

/-- A request with a number in the place of the targets. -/
def numberedTargets : Obj WholeFloat :=
  obj [("artifact", .str (lit "/builds/app.apk")), ("targets", .int 5)]

/-- It is not refused: the number cannot be gone through. -/
theorem numberedTargets_raises :
    (deploy (Limits.unlimited WholeFloat) workshop oneDevice numberedTargets).response =
        .error .typeError ∧
      ¬ FailClosed (Limits.unlimited WholeFloat) workshop oneDevice numberedTargets := by
  have hraised : (deploy (Limits.unlimited WholeFloat) workshop oneDevice numberedTargets).response =
      .error .typeError := by
    rfl
  exact ⟨hraised, fun hclosed => failClosed_ne_error hclosed hraised⟩

end ShugoCore
