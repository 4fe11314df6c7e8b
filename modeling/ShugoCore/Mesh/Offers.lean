import ShugoCore.Mesh.Artifacts

/-!
# Builds that are offered

`_artifact_accept_offer` and `_receive_offered_artifact` of `agent_runtime.py`.  An offer that
passes its checks is accepted at once, and the build is pulled in a thread of its own.  The
audit event at the end of the pull is the only trace of how it went.

Whatever goes wrong in the transfer ends in an event.  The size in the peer's manifest is
converted outside of any `try`, so a size that is no number ends the thread without one
(`accepted_offer_audited_iff`).
-/

namespace ShugoCore

open Py

variable {φ : Type} [Builtins φ]

/-- An offer that was accepted. -/
structure ArtifactOffer where
  peer : Str
  name : Str
  size : Int
  sha256 : Str
deriving DecidableEq

/-- What `_artifact_accept_offer` replies. -/
inductive OfferReply where
  | error (reason : Str)
  | accepted (offer : ArtifactOffer)

/-- `c in "0123456789abcdef"`. -/
def isHexDigit (c : CodePoint) : Bool := c ∈ lit "0123456789abcdef"

/-- The checks of an offer. -/
def checkOffer (node : ArtifactNode) (agentId : Str) (staged : Bool) (offer : ArtifactOffer) :
    OfferReply :=
  if offer.peer = [] ∨ offer.peer = agentId then .error (lit "invalid offer source")
  else if !artifactNameOk offer.name then .error (lit "invalid artifact name")
  else if offer.sha256.length ≠ 64 || offer.sha256.any (fun c => !isHexDigit c) then
    .error (lit "offer carries no usable digest")
  else if offer.size ≤ 0 ∨ node.maxArtifactBytes < offer.size then
    .error (lit "offer size " ++ decimal offer.size ++ lit " exceeds the cap " ++
      decimal node.maxArtifactBytes)
  else if !staged then .error (lit "this node has no staging directory")
  else .accepted offer

/-- `_artifact_accept_offer`.  A size that is no number counts as 0; an infinite one raises. -/
def artifactAcceptOffer (node : ArtifactNode) (agentId : Str) (staged : Bool) (msg : Obj φ) :
    Except Exn OfferReply :=
  let text (key : String) : Str := strOf (orElse (fetch (lit key) msg) (.str []))
  let offer (size : Int) : ArtifactOffer :=
    ⟨strip (text "from"), text "name", size, node.lower (strip (text "sha256"))⟩
  match intOf (orElse (fetch (lit "size") msg) (.int 0)) with
  | .ok size => .ok (checkOffer node agentId staged (offer size))
  | .error .overflowError => .error .overflowError
  | .error _ => .ok (checkOffer node agentId staged (offer 0))

/-- What a pull tells the audit hook. -/
inductive ArtifactEvent where
  /-- `mesh_artifact_received`. -/
  | received (name peer : Str) (bytes : Nat) (sha256 : Str) (chunks : Nat)
  /-- `mesh_artifact_failed`. -/
  | failed (name peer : Str) (size : Int) (reason : Str)
deriving DecidableEq

/-- How a background pull ends. -/
structure PullEnd where
  events : List ArtifactEvent
  /-- The exception that ends the thread. -/
  raised : Option Exn

/-- The pull that an accepted offer asks for.  `known` are the names of `_outbound`. -/
def ArtifactOffer.request (offer : ArtifactOffer) (known : Str → Bool) : PullRequest :=
  ⟨offer.peer, offer.name, some offer.sha256, known offer.peer, true⟩

/-- What `fetch_artifact` and `_receive_offered_artifact` tell the hook of a report. -/
def eventOf (offer : ArtifactOffer) : PullReport → ArtifactEvent
  | .success bytes chunks sha256 => .received offer.name offer.peer bytes sha256 chunks
  | .refused reason => .failed offer.name offer.peer offer.size reason
  | .error reason => .failed offer.name offer.peer offer.size reason
  | .failed _ message => .failed offer.name offer.peer offer.size message

/-- `_receive_offered_artifact`, with an audit hook that does not raise. -/
def receiveOfferedArtifact (node : ArtifactNode) (disk : Disk) (peer : Nat → Reply φ)
    (known : Str → Bool) (offer : ArtifactOffer) (fuel : Nat) (files : Folder) :
    Option (PullEnd × Folder) :=
  (fetchArtifact node disk peer (offer.request known) fuel files).map fun out =>
    match out.1 with
    | .ok report => (⟨[eventOf offer report], none⟩, out.2)
    | .error e => (⟨[], some e⟩, out.2)

/-- The size in a manifest is a number, if the peer gives a manifest. -/
def SizeConverts (manifest : Reply φ) : Prop :=
  ∀ fields, answered manifest = .answer fields →
    ∃ size, intOf (orElse (fetch (lit "size") fields) (.int 0)) = .ok size

/-- Nothing but the size makes `artifact_manifest` raise. -/
theorem artifactManifest_raises_iff (manifest : Reply φ) :
    (∃ e, artifactManifest manifest = .error e) ↔ ¬ SizeConverts manifest := by
  simp only [artifactManifest, SizeConverts]
  cases answered manifest with
  | unreachable => exact ⟨nofun, fun h => absurd nofun h⟩
  | refused reason => exact ⟨nofun, fun h => absurd nofun h⟩
  | answer fields =>
      cases hsize : intOf (orElse (fetch (lit "size") fields) (.int 0)) with
      | error e =>
          refine ⟨fun _ h => ?_, fun _ => ⟨e, by dsimp only; rw [hsize]; rfl⟩⟩
          obtain ⟨size, hsize'⟩ := h fields rfl
          cases hsize.symm.trans hsize'
      | ok size =>
          refine ⟨fun ⟨e, h⟩ => ?_, fun h => absurd ?_ h⟩
          · dsimp only at h
            rw [hsize] at h
            cases h
          · rintro _ ⟨⟩
            exact ⟨size, hsize⟩

omit [Builtins φ] in
/-- An offer that is accepted has passed the checks of `fetch_artifact` that come first. -/
theorem checkOffer_accepted {node : ArtifactNode} {agentId : Str} {staged : Bool}
    {offer offer' : ArtifactOffer} (h : checkOffer node agentId staged offer = .accepted offer') :
    artifactNameOk offer'.name = true := by
  unfold checkOffer at h
  split at h
  · cases h
  · split at h
    · cases h
    · rename_i hname
      split at h
      · cases h
      · split at h
        · cases h
        · split at h
          · cases h
          · cases h
            simpa using hname

theorem artifactAcceptOffer_accepted {node : ArtifactNode} {agentId : Str} {staged : Bool}
    {msg : Obj φ} {offer : ArtifactOffer}
    (h : artifactAcceptOffer node agentId staged msg = .ok (.accepted offer)) :
    artifactNameOk offer.name = true := by
  unfold artifactAcceptOffer at h
  dsimp only at h
  split at h
  · exact checkOffer_accepted (Except.ok.inj h)
  · cases h
  · exact checkOffer_accepted (Except.ok.inj h)

/-- The pull of an accepted offer ends, whatever the peer replies, and it ends with exactly
one audit event unless the peer is known and the size in its manifest is no number. -/
theorem accepted_offer_audited_iff (node : ArtifactNode) (disk : Disk) (peer : Nat → Reply φ)
    (known : Str → Bool) (agentId : Str) (staged : Bool) (files : Folder) (msg : Obj φ)
    (offer : ArtifactOffer)
    (haccepted : artifactAcceptOffer node agentId staged msg = .ok (.accepted offer)) :
    ∃ out files', (∀ fuel ≥ node.maxArtifactBytes,
        receiveOfferedArtifact node disk peer known offer fuel files = some (out, files')) ∧
      ((∃ event, out.events = [event]) ↔ (known offer.peer = true → SizeConverts (peer 0))) := by
  have hname := artifactAcceptOffer_accepted haccepted
  have hasks : (offer.request known).Asks ↔ known offer.peer = true :=
    ⟨fun h => h.2.1, fun h => ⟨hname, h, rfl⟩⟩
  simp only [receiveOfferedArtifact]
  rcases fetchArtifact_cases node disk peer (offer.request known) files with
    ⟨e, hasked, hraised, hfetch⟩ | ⟨-, hsound, r, -, hfetch⟩ |
    ⟨hbegins, size, digest, pulled, hmanifest, -, -, hfetch⟩
  · refine ⟨⟨[], some e⟩, files, fun fuel _ => by rw [hfetch fuel]; rfl, ?_⟩
    constructor
    · rintro ⟨event, hevent⟩
      cases hevent
    · intro h
      exact absurd (h (hasks.1 hasked)) ((artifactManifest_raises_iff _).1 ⟨e, hraised⟩)
  · refine ⟨⟨[eventOf offer r], none⟩, files, fun fuel _ => by rw [hfetch fuel]; rfl, ?_⟩
    refine ⟨fun _ hknown => ?_, fun _ => ⟨_, rfl⟩⟩
    by_contra hbad
    obtain ⟨e, he⟩ := (artifactManifest_raises_iff _).2 hbad
    exact hsound (hasks.2 hknown) e he
  · let r := finishPull node disk offer.name digest files pulled
    refine ⟨⟨[eventOf offer r.1], none⟩, r.2, fun fuel hfuel => by rw [hfetch fuel hfuel]; rfl, ?_⟩
    refine ⟨fun _ _ => ?_, fun _ => ⟨_, rfl⟩⟩
    by_contra hbad
    obtain ⟨e, he⟩ := (artifactManifest_raises_iff _).2 hbad
    cases he.symm.trans hmanifest

/-- An offer of `app`, of one byte. -/
def offerOfApp : Obj WholeFloat :=
  obj [("from", .str (lit "b")), ("name", .str (lit "app")), ("size", .int 1),
    ("sha256", .str (List.replicate 64 97))]

/-- The offer, accepted. -/
def acceptedApp : ArtifactOffer := ⟨lit "b", lit "app", 1, List.replicate 64 97⟩

/-- A peer that is out of reach afterwards is told of. -/
theorem offer_from_silent_peer_audited :
    artifactAcceptOffer ⟨4, id⟩ (lit "a") true offerOfApp = .ok (.accepted acceptedApp) ∧
      ∃ out files', (∀ fuel ≥ 4, receiveOfferedArtifact ⟨4, id⟩ Disk.sound
          (fun _ => (none : Reply WholeFloat)) (fun _ => true) acceptedApp fuel (fun _ => none) =
            some (out, files')) ∧
        ∃ event, out.events = [event] := by
  have haccepted : artifactAcceptOffer ⟨4, id⟩ (lit "a") true offerOfApp =
      .ok (.accepted acceptedApp) := rfl
  obtain ⟨out, files', hends, hiff⟩ := accepted_offer_audited_iff ⟨4, id⟩ Disk.sound
    (fun _ => (none : Reply WholeFloat)) (fun _ => true) (lit "a") true (fun _ => none) offerOfApp
    acceptedApp haccepted
  exact ⟨haccepted, out, files', hends, hiff.2 fun _ fields h => nomatch h⟩

/-- A manifest without a number in it. -/
def wordyManifest : Reply WholeFloat :=
  some (.dict (obj [("size", .str (lit "abc")), ("sha256", .str (List.replicate 64 97))]))

/-- The peer that made the offer replies with it, and the pull leaves no trace. -/
theorem offer_with_wordy_manifest_unaudited :
    artifactAcceptOffer ⟨4, id⟩ (lit "a") true offerOfApp = .ok (.accepted acceptedApp) ∧
      ∀ fuel ≥ 4, (receiveOfferedArtifact ⟨4, id⟩ Disk.sound (fun _ => wordyManifest)
        (fun _ => true) acceptedApp fuel (fun _ => none)).map (fun out => (out.1.events, out.1.raised)) =
          some ([], some .valueError) :=
  ⟨rfl, fun _ _ => rfl⟩

end ShugoCore
