import ShugoCore.Fleet.PeerFiles
import ShugoCore.Lib.Run

/-!
# Onboarding nodes

`onboard` of `fleet_onboard.py`, on the data dirs of any number of nodes.  It writes the secret of the
fleet, unless the node holds another one and it is not forced, and it merges peers into those that
the node has.

What a data dir says is its `Membership`: the secret, and a roster that has a peer for an id.  On
memberships onboarding is `Membership.join`, and a roster is overlaid with the peers that are given
(`onboarding_merges`).  So no onboarding forgets a peer, and the entries of a file that cannot be read
are what is lost.

That the nodes of a fleet share a secret depends on what the nodes that join are given
(`fleet_shares_secret_iff`).
-/

namespace ShugoCore

open Py Machine

/-- The files of a data dir. -/
structure DataDir where
  token : Option Utf8Text
  peers : Option Utf8Text

/-- `secrets.token_hex(TOKEN_CHARS // 2)`. -/
structure HexSecret where
  digits : List (Fin 16)
  length_digits : digits.length = 32

namespace HexSecret

variable (s : HexSecret)

/-- The digits as text. -/
def text : Str := s.digits.map fun d => hexDigit d.val

theorem not_isSpace {c : CodePoint} (hc : c ∈ s.text) : isSpace c = false := by
  obtain ⟨d, -, rfl⟩ := List.mem_map.1 hc
  exact (by decide : ∀ d : Fin 16, isSpace (hexDigit d.val) = false) d

theorem plain : Plain s.text := by
  intro c hc
  obtain ⟨d, -, rfl⟩ := List.mem_map.1 hc
  exact (by decide : ∀ d : Fin 16, isSurrogate (hexDigit d.val) = false) d

theorem text_ne : s.text ≠ [] := by
  intro h
  have hlen := congrArg List.length h
  rw [text, List.length_map, s.length_digits] at hlen
  cases hlen

theorem isSecret : IsSecret s.text := by
  have hdrop : s.text.dropWhile isSpace = s.text :=
    List.dropWhile_eq_self_iff.2 fun _ => by simpa using s.not_isSpace (List.getElem_mem _)
  refine ⟨?_, s.text_ne⟩
  rw [strip, hdrop, List.rdropWhile_eq_self_iff]
  exact fun hne => by simpa using s.not_isSpace (List.getLast_mem hne)

/-- The secret of zeros. -/
def zeros : HexSecret := ⟨List.replicate 32 0, List.length_replicate⟩

/-- A secret that was made up. -/
def secret : FleetSecret := ⟨s.text, s.plain, s.isSecret⟩

theorem held_secret : s.secret.held = s.secret :=
  FleetSecret.held_of_no_return fun hcr => absurd (s.not_isSpace hcr) (by decide)

end HexSecret

/-- The arguments of a call of `main`. -/
structure OnboardArgs where
  /-- `--peers`. -/
  spec : Utf8Text
  token : Option Utf8Text
  /-- What the file of `--token-file` holds, if there is one. -/
  tokenFile : Option Utf8Text
  forceToken : Bool
  /-- The secret that would be made up. -/
  fresh : HexSecret

/-- The report of a call. -/
structure OnboardReport where
  written : List Str
  reused : List Str
  problems : List Str
  peersAdded : List Str
  peersUpdated : List Str

namespace OnboardArgs

/-- The secret that the call is given. -/
def supplied (args : OnboardArgs) : Option FleetSecret :=
  (args.token.bind FleetSecret.ofText).or (readToken args.tokenFile)

/-- The node holds another secret, and the call is not forced. -/
def refused (args : OnboardArgs) (existing : Option FleetSecret) : Bool :=
  match args.supplied, existing with
  | some s, some e => s ≠ e && !args.forceToken
  | _, _ => false

/-- The file of the secret, and what is reported of it. -/
def secretFile (args : OnboardArgs) (token : Option Utf8Text) :
    List Str × List Str × Option Utf8Text :=
  let existing := readToken token
  match args.supplied with
  | some s =>
      ([lit "mesh_token.txt" ++ if existing.isSome then lit " (forced)" else []], [],
        some (writeToken s))
  | none =>
      if existing.isSome && !args.forceToken then ([], [lit "mesh_token.txt"], token)
      else
        ([lit "mesh_token.txt (new 32-char secret; copy it to every node)"], [],
          some (writeToken args.fresh.secret))

end OnboardArgs

/-- The peers of a node by their ids, and the ids that a call has added or updated. -/
structure PeerMerge where
  merged : Dict Str FleetPeer
  added : List Str
  updated : List Str

/-- A peer that is given. -/
def PeerMerge.step (m : PeerMerge) (p : FleetPeer) : PeerMerge where
  merged := Dict.set m.merged p.id p
  added := if Dict.get? m.merged p.id = none then m.added ++ [p.id] else m.added
  updated :=
    match Dict.get? m.merged p.id with
    | some q => if q ≠ p then m.updated ++ [p.id] else m.updated
    | none => m.updated

/-- `{peer["id"]: peer for peer in peers}`. -/
def byId (peers : List FleetPeer) : Dict Str FleetPeer := Dict.ofPairs (peers.map fun p => (p.id, p))

/-- `[merged[key] for key in sorted(merged)]`. -/
def sortedPeers (merged : Dict Str FleetPeer) : List FleetPeer :=
  (merged.insertionSort fun a b => a.1 ≤ b.1).map Prod.snd

/-- The number of peers that are written. -/
def writtenPeers (n : Nat) : Str :=
  lit "mesh_peers.json (" ++ (Literal.ofInt n).text ++ lit " peer(s))"

/-- `onboard`, of a data dir that exists, with the problems of the arguments. -/
def onboard (φ : Type) [Builtins φ] (args : OnboardArgs) (dir : DataDir) : OnboardReport × DataDir :=
  let (peers, problems) := parsePeers φ args.spec.text
  let existing := readToken dir.token
  if args.refused existing then
    (⟨[], [], lit ("mesh_token.txt already holds a different secret: this node is already in " ++
      "a fleet, and overwriting forks it (--force-token to mean it)") :: problems, [], []⟩, dir)
  else
    let (written, reused, token) := args.secretFile dir.token
    if peers = [] then (⟨written, reused, problems, [], []⟩, { dir with token })
    else
      let m := peers.foldl PeerMerge.step ⟨byId (readPeersFile φ dir.peers).1, [], []⟩
      (⟨written ++ [writtenPeers m.merged.length], reused, problems, m.added, m.updated⟩,
        ⟨token, some (writePeersFile φ (sortedPeers m.merged))⟩)

/-- The data dir after a call. -/
def onboarded (φ : Type) [Builtins φ] (dir : DataDir) (args : OnboardArgs) : DataDir :=
  (onboard φ args dir).2

/-! ## Memberships -/

/-- What a data dir says: the secret, and the peer of an id. -/
structure Membership where
  secret : Option FleetSecret
  roster : Str → Option FleetPeer

/-- The roster of a file of peers.  Of peers with one id it has the last. -/
def rosterOf (φ : Type) [Builtins φ] (file : Option Utf8Text) (id : Str) : Option FleetPeer :=
  Dict.get? (byId (readPeersFile φ file).1) id

/-- The membership of a data dir. -/
def memberOf (φ : Type) [Builtins φ] (dir : DataDir) : Membership :=
  ⟨readToken dir.token, rosterOf φ dir.peers⟩

/-- A roster with a peer under its id. -/
def enroll (roster : Str → Option FleetPeer) (p : FleetPeer) : Str → Option FleetPeer :=
  Function.update roster p.id (some p)

/-- A roster with peers laid over it. -/
def overlay (roster : Str → Option FleetPeer) (peers : List FleetPeer) : Str → Option FleetPeer :=
  peers.foldl enroll roster

/-- The secret that a call leaves. -/
def OnboardArgs.secretAfter (args : OnboardArgs) (existing : Option FleetSecret) :
    Option FleetSecret :=
  match args.supplied with
  | some s => some s.held
  | none => if existing.isSome && !args.forceToken then existing else some args.fresh.secret

/-- What onboarding does to a membership. -/
def Membership.join (φ : Type) [Builtins φ] (m : Membership) (args : OnboardArgs) : Membership :=
  if args.refused m.secret then m
  else ⟨args.secretAfter m.secret, overlay m.roster (parsePeers φ args.spec.text).1⟩

section

variable {φ : Type} [Builtins φ]

/-! ## Secrets of memberships -/

/-- The file of the secret after a call. -/
def OnboardArgs.tokenAfter (args : OnboardArgs) (token : Option Utf8Text) : Option Utf8Text :=
  (args.secretFile token).2.2

theorem readToken_tokenAfter (args : OnboardArgs) (token : Option Utf8Text) :
    readToken (args.tokenAfter token) = args.secretAfter (readToken token) := by
  simp only [OnboardArgs.tokenAfter, OnboardArgs.secretFile, OnboardArgs.secretAfter]
  cases args.supplied with
  | some s => exact readToken_write s
  | none =>
      dsimp only
      split
      · rfl
      · rw [readToken_write, HexSecret.held_secret]

/-! ## Rosters -/

theorem enroll_self (roster : Str → Option FleetPeer) (p : FleetPeer) :
    enroll roster p p.id = some p := Function.update_self ..

theorem enroll_of_ne {roster : Str → Option FleetPeer} {p : FleetPeer} {id : Str} (h : id ≠ p.id) :
    enroll roster p id = roster id := Function.update_of_ne h ..

/-- Peers by their ids. -/
structure Roll (merged : Dict Str FleetPeer) : Prop where
  keyed : ∀ i ∈ merged, i.1 = i.2.id
  nodup : (merged.map Prod.fst).Nodup
  joined : ∀ i ∈ merged, i.2.Joined

theorem Roll.set {merged : Dict Str FleetPeer} (h : Roll merged) {p : FleetPeer} (hp : p.Joined) :
    Roll (Dict.set merged p.id p) := by
  refine ⟨fun i hi => ?_, Dict.nodup_set h.nodup, fun i hi => ?_⟩
  · rcases Dict.mem_set hi with hi | rfl
    · exact h.keyed i hi
    · rfl
  · rcases Dict.mem_set hi with hi | rfl
    · exact h.joined i hi
    · exact hp

theorem roll_nil : Roll [] := ⟨by simp, by simp, by simp⟩

theorem foldl_step_merged (peers : List FleetPeer) (m : PeerMerge) :
    (peers.foldl PeerMerge.step m).merged =
      peers.foldl (fun merged p => Dict.set merged p.id p) m.merged := by
  induction peers generalizing m with
  | nil => rfl
  | cons p peers ih => exact ih (m.step p)

theorem Roll.merge {merged : Dict Str FleetPeer} (h : Roll merged) {peers : List FleetPeer}
    (hp : ∀ p ∈ peers, p.Joined) : Roll (peers.foldl (fun merged p => Dict.set merged p.id p) merged) := by
  induction peers generalizing merged with
  | nil => exact h
  | cons p peers ih =>
      rw [List.forall_mem_cons] at hp
      exact ih (h.set hp.1) hp.2

theorem get?_merge (merged : Dict Str FleetPeer) (peers : List FleetPeer) :
    Dict.get? (peers.foldl (fun merged p => Dict.set merged p.id p) merged) =
      overlay (Dict.get? merged) peers := by
  induction peers generalizing merged with
  | nil => rfl
  | cons p peers ih =>
      rw [List.foldl_cons, ih, overlay, overlay, List.foldl_cons]
      congr 1
      funext id
      by_cases h : id = p.id
      · rw [h, Dict.get?_set_self, enroll_self]
      · rw [Dict.get?_set_of_ne _ (Ne.symm h), enroll_of_ne h]

theorem byId_eq (peers : List FleetPeer) :
    byId peers = peers.foldl (fun merged p => Dict.set merged p.id p) [] := by
  rw [byId, Dict.ofPairs, List.foldl_map]

theorem roll_byId {peers : List FleetPeer} (h : ∀ p ∈ peers, p.Joined) : Roll (byId peers) := by
  rw [byId_eq]
  exact roll_nil.merge h

theorem Roll.byId_sortedPeers {merged : Dict Str FleetPeer} (h : Roll merged) :
    (byId (sortedPeers merged)).Perm merged := by
  have hperm : (merged.insertionSort fun a b => a.1 ≤ b.1).Perm merged := List.perm_insertionSort _ _
  have hitems : ((merged.insertionSort fun a b => a.1 ≤ b.1).map Prod.snd).map (fun p => (p.id, p)) =
      merged.insertionSort fun a b => a.1 ≤ b.1 := by
    rw [List.map_map]
    conv_rhs => rw [← List.map_id (merged.insertionSort fun a b => a.1 ≤ b.1)]
    refine List.map_congr_left fun i hi => ?_
    exact Prod.ext (h.keyed i (hperm.mem_iff.1 hi)).symm rfl
  rw [byId, sortedPeers, hitems, Dict.ofPairs_eq_self ((hperm.map Prod.fst).nodup_iff.2 h.nodup)]
  exact hperm

theorem Roll.joined_sortedPeers {merged : Dict Str FleetPeer} (h : Roll merged) :
    ∀ p ∈ sortedPeers merged, p.Joined := by
  intro p hp
  obtain ⟨i, hi, rfl⟩ := List.mem_map.1 hp
  exact h.joined i ((List.perm_insertionSort _ _).mem_iff.1 hi)

theorem Roll.pairwise_sortedPeers {merged : Dict Str FleetPeer} (h : Roll merged) :
    ((sortedPeers merged).map FleetPeer.id).Pairwise (· < ·) := by
  have hperm : (merged.insertionSort fun a b => a.1 ≤ b.1).Perm merged := List.perm_insertionSort _ _
  have hkeys : (sortedPeers merged).map FleetPeer.id =
      (merged.insertionSort fun a b => a.1 ≤ b.1).map Prod.fst := by
    rw [sortedPeers, List.map_map]
    exact List.map_congr_left fun i hi => (h.keyed i (hperm.mem_iff.1 hi)).symm
  have hsorted : (merged.insertionSort fun a b => a.1 ≤ b.1).Pairwise fun a b => a.1 ≤ b.1 :=
    List.pairwise_insertionSort _ _
  rw [hkeys]
  exact ((List.pairwise_map.2 hsorted).and ((hperm.map Prod.fst).nodup_iff.2 h.nodup)).imp
    fun h => lt_of_le_of_ne h.1 h.2

theorem Roll.rosterOf_write [LawfulBuiltins φ] {merged : Dict Str FleetPeer} (h : Roll merged) :
    rosterOf φ (some (writePeersFile φ (sortedPeers merged))) = Dict.get? merged := by
  funext id
  rw [rosterOf, readPeersFile_write φ h.joined_sortedPeers]
  exact Dict.get?_perm h.byId_sortedPeers (roll_byId h.joined_sortedPeers).nodup id

/-! ## What onboarding does -/

variable (φ)

/-- The peers of a file and those of a call. -/
def OnboardArgs.merged (args : OnboardArgs) (file : Option Utf8Text) : Dict Str FleetPeer :=
  (parsePeers φ args.spec.text).1.foldl (fun merged p => Dict.set merged p.id p)
    (byId (readPeersFile φ file).1)

/-- The file of peers after a call. -/
def OnboardArgs.peersAfter (args : OnboardArgs) (file : Option Utf8Text) : Option Utf8Text :=
  if (parsePeers φ args.spec.text).1 = [] then file
  else some (writePeersFile φ (sortedPeers (args.merged φ file)))

/-- The files after a call. -/
theorem onboarded_eq (dir : DataDir) (args : OnboardArgs) :
    onboarded φ dir args =
      if args.refused (readToken dir.token) then dir
      else ⟨args.tokenAfter dir.token, args.peersAfter φ dir.peers⟩ := by
  simp only [onboarded, onboard, OnboardArgs.tokenAfter, OnboardArgs.peersAfter, OnboardArgs.merged]
  split
  · rfl
  · split
    · rfl
    · simp only [foldl_step_merged]

variable [LawfulBuiltins φ]

theorem roll_merged (args : OnboardArgs) (file : Option Utf8Text) : Roll (args.merged φ file) :=
  (roll_byId fun _ hp => joined_readPeersFile hp).merge fun _ hp => joined_parsePeers hp

theorem rosterOf_peersAfter (args : OnboardArgs) (file : Option Utf8Text) :
    rosterOf φ (args.peersAfter φ file) =
      overlay (rosterOf φ file) (parsePeers φ args.spec.text).1 := by
  rw [OnboardArgs.peersAfter]
  split
  · rename_i hpeers
    rw [hpeers]
    rfl
  · rw [(roll_merged φ args file).rosterOf_write, OnboardArgs.merged, get?_merge]
    rfl

/-- Onboarding a data dir joins its membership. -/
theorem memberOf_onboarded (dir : DataDir) (args : OnboardArgs) :
    memberOf φ (onboarded φ dir args) = (memberOf φ dir).join φ args := by
  rw [onboarded_eq, Membership.join]
  show memberOf φ (ite _ _ _) = ite (args.refused (readToken dir.token) = true) _ _
  split
  · rfl
  · simp only [memberOf, readToken_tokenAfter, rosterOf_peersAfter]

/-- A file of peers as it is written, in the order of their ids. -/
def Canonical (file : Option Utf8Text) : Prop :=
  ∃ peers : List FleetPeer, (peers.map FleetPeer.id).Pairwise (· < ·) ∧
    (∀ p ∈ peers, p.Joined) ∧ file = some (writePeersFile φ peers)

theorem canonical_peersAfter {args : OnboardArgs} {file : Option Utf8Text}
    (h : Canonical φ file ∨ (parsePeers φ args.spec.text).1 ≠ []) :
    Canonical φ (args.peersAfter φ file) := by
  rw [OnboardArgs.peersAfter]
  split
  · rename_i hpeers
    exact h.resolve_right (not_not.2 hpeers)
  · have hroll := roll_merged φ args file
    exact ⟨_, hroll.pairwise_sortedPeers, hroll.joined_sortedPeers, rfl⟩

/-- A call that has no peers to merge. -/
def MergesNone (dir : DataDir) (args : OnboardArgs) : Prop :=
  args.refused (readToken dir.token) = true ∨ (parsePeers φ args.spec.text).1 = []

instance (dir : DataDir) (args : OnboardArgs) : Decidable (MergesNone φ dir args) :=
  inferInstanceAs (Decidable (_ ∨ _))

theorem canonical_onboarded {dir : DataDir} {args : OnboardArgs}
    (h : Canonical φ dir.peers ∨ ¬ MergesNone φ dir args) :
    Canonical φ (onboarded φ dir args).peers := by
  rw [onboarded_eq]
  split
  · rename_i hrefused
    exact h.resolve_right fun hn => hn (.inl hrefused)
  · exact canonical_peersAfter φ (h.imp id fun hn hpeers => hn (.inr hpeers))

theorem canonical_run {dir : DataDir} {calls : List OnboardArgs}
    (h : Canonical φ dir.peers ∨ ¬ Meets (onboarded φ) (MergesNone φ) dir calls) :
    Canonical φ (run (onboarded φ) dir calls).peers := by
  induction calls generalizing dir with
  | nil => exact h.resolve_right fun hn => hn trivial
  | cons args calls ih =>
      refine ih ?_
      rcases h with h | h
      · exact .inl (canonical_onboarded φ (.inl h))
      · by_cases hnone : MergesNone φ dir args
        · exact .inr fun hmeets => h ⟨hnone, hmeets⟩
        · exact .inl (canonical_onboarded φ (.inr hnone))

theorem overlay_ne_none {roster : Str → Option FleetPeer} {id : Str} (h : roster id ≠ none)
    (peers : List FleetPeer) : overlay roster peers id ≠ none := by
  induction peers generalizing roster with
  | nil => exact h
  | cons p peers ih =>
      refine ih ?_
      by_cases hid : id = p.id
      · rw [hid, enroll_self]
        exact Option.some_ne_none p
      · rwa [enroll_of_ne hid]

/-- In any run of onboardings of a node, its membership is joined by one call after the other, and no
peer is forgotten.  Once a call has given it a peer, there is nothing to report of its file, and the
agent dials the peers of its roster. -/
theorem onboarding_merges (dir : DataDir) (calls : List OnboardArgs) :
    memberOf φ (run (onboarded φ) dir calls) = run (Membership.join φ) (memberOf φ dir) calls ∧
      (∀ id, rosterOf φ dir.peers id ≠ none →
        rosterOf φ (run (onboarded φ) dir calls).peers id ≠ none) ∧
      (¬ Meets (onboarded φ) (MergesNone φ) dir calls →
        ∃ peers : List FleetPeer, (peers.map FleetPeer.id).Pairwise (· < ·) ∧
          readPeersFile φ (run (onboarded φ) dir calls).peers = (peers, []) ∧
          loadMeshPeersFile φ (run (onboarded φ) dir calls).peers =
            .ok (peers.map FleetPeer.endpoint)) := by
  have hrefines : ∀ dir, memberOf φ (run (onboarded φ) dir calls) =
      run (Membership.join φ) (memberOf φ dir) calls := by
    induction calls with
    | nil => exact fun _ => rfl
    | cons args calls ih => exact fun dir => by rw [run_cons, run_cons, ih, memberOf_onboarded]
  refine ⟨hrefines dir, fun id hid => ?_, fun hmerges => ?_⟩
  · have hroster := congrArg Membership.roster (hrefines dir)
    show (memberOf φ _).roster id ≠ none
    rw [hroster]
    refine inv_run (I := fun m : Membership => m.roster id ≠ none) (fun m args hm => ?_) hid calls
    rw [Membership.join]
    split
    · exact hm
    · exact overlay_ne_none hm _
  · obtain ⟨peers, hsorted, hjoined, hfile⟩ := canonical_run φ (.inr hmerges)
    rw [hfile]
    exact ⟨peers, hsorted, readPeersFile_write φ hjoined, loadMeshPeersFile_write φ hjoined⟩

theorem onboarding_merges_tablet :
    let call : OnboardArgs :=
      ⟨⟨lit "tablet=10.0.0.2:9000", plain_lit _⟩, none, none, false, .zeros⟩
    let after := run (onboarded JsonFloat) ⟨none, none⟩ [call]
    ∃ peers : List FleetPeer, (peers.map FleetPeer.id).Pairwise (· < ·) ∧
      readPeersFile JsonFloat after.peers = (peers, []) ∧
      loadMeshPeersFile JsonFloat after.peers = .ok (peers.map FleetPeer.endpoint) := by
  intro call after
  exact (onboarding_merges JsonFloat ⟨none, none⟩ [call]).2.2 (by decide +kernel)

/-! ## Calls that are repeated -/

theorem overlay_of_not_mem {roster : Str → Option FleetPeer} {peers : List FleetPeer} {id : Str}
    (h : id ∉ peers.map FleetPeer.id) : overlay roster peers id = roster id := by
  induction peers generalizing roster with
  | nil => rfl
  | cons p peers ih =>
      rw [List.map_cons, List.mem_cons, not_or] at h
      exact (ih h.2).trans (enroll_of_ne h.1)

theorem overlay_congr {roster roster' : Str → Option FleetPeer} {peers : List FleetPeer} {id : Str}
    (h : id ∈ peers.map FleetPeer.id ∨ roster id = roster' id) :
    overlay roster peers id = overlay roster' peers id := by
  induction peers generalizing roster roster' with
  | nil => exact h.resolve_left List.not_mem_nil
  | cons p peers ih =>
      refine ih ?_
      by_cases hid : id = p.id
      · exact .inr (by rw [hid, enroll_self, enroll_self])
      · rw [enroll_of_ne hid, enroll_of_ne hid]
        exact h.imp (fun hmem => (List.mem_cons.1 hmem).resolve_left hid) fun heq => heq

theorem overlay_overlay (roster : Str → Option FleetPeer) (peers : List FleetPeer) :
    overlay (overlay roster peers) peers = overlay roster peers := by
  funext id
  by_cases h : id ∈ peers.map FleetPeer.id
  · exact overlay_congr (.inl h)
  · exact overlay_of_not_mem h

/-- Peers that are looked up alike are written alike. -/
theorem Roll.sortedPeers_eq {merged merged' : Dict Str FleetPeer} (h : Roll merged)
    (h' : Roll merged') (hget : Dict.get? merged = Dict.get? merged') :
    sortedPeers merged = sortedPeers merged' := by
  have hitems : merged.Perm merged' :=
    (List.perm_ext_iff_of_nodup h.nodup.of_map h'.nodup.of_map).2 fun i => by
      rw [← Dict.get?_eq_some_iff h.nodup, ← Dict.get?_eq_some_iff h'.nodup, hget]
  have hm := List.perm_insertionSort (fun a b : Str × FleetPeer => a.1 ≤ b.1) merged
  have hm' := List.perm_insertionSort (fun a b : Str × FleetPeer => a.1 ≤ b.1) merged'
  have hperm := hm.trans (hitems.trans hm'.symm)
  have hnodup := (hm.map Prod.fst).nodup_iff.2 h.nodup
  have heq := hperm.eq_of_pairwise
    (fun a b ha hb hab hba =>
      List.inj_on_of_nodup_map hnodup ha (hperm.mem_iff.2 hb) (le_antisymm hab hba))
    (List.pairwise_insertionSort _ _) (List.pairwise_insertionSort _ _)
  rw [sortedPeers, sortedPeers, heq]

theorem peersAfter_peersAfter (args : OnboardArgs) (file : Option Utf8Text) :
    args.peersAfter φ (args.peersAfter φ file) = args.peersAfter φ file := by
  by_cases hpeers : (parsePeers φ args.spec.text).1 = []
  · rw [OnboardArgs.peersAfter, if_pos hpeers]
  · have hfile : args.peersAfter φ file = some (writePeersFile φ (sortedPeers (args.merged φ file))) :=
      if_neg hpeers
    have hroll := roll_merged φ args file
    have hget : Dict.get? (args.merged φ (args.peersAfter φ file)) =
        Dict.get? (args.merged φ file) := by
      have hlookup : ∀ file, Dict.get? (args.merged φ file) =
          overlay (rosterOf φ file) (parsePeers φ args.spec.text).1 := fun file => by
        rw [OnboardArgs.merged, get?_merge]
        rfl
      rw [hlookup, rosterOf_peersAfter, overlay_overlay, hlookup]
    rw [OnboardArgs.peersAfter, if_neg hpeers,
      (roll_merged φ args _).sortedPeers_eq hroll hget, ← hfile]

/-- Repeating a call changes no file, if the call is not to force a secret of its own making, and the
secret that it is given is read back as it is. -/
theorem onboard_idempotent (dir : DataDir) (args : OnboardArgs)
    (hforce : args.forceToken = false ∨ args.supplied ≠ none)
    (hheld : ∀ s ∈ args.supplied, s.held = s) (fresh : HexSecret) :
    onboarded φ (onboarded φ dir args) { args with fresh := fresh } = onboarded φ dir args := by
  by_cases hrefused : args.refused (readToken dir.token) = true
  · rw [onboarded_eq φ dir, if_pos hrefused, onboarded_eq]
    exact if_pos hrefused
  · have hsecret := readToken_tokenAfter args dir.token
    have htoken : args.refused (args.secretAfter (readToken dir.token)) = false ∧
        { args with fresh := fresh }.tokenAfter (args.tokenAfter dir.token) =
          args.tokenAfter dir.token := by
      have hsame : { args with fresh := fresh }.supplied = args.supplied := rfl
      cases hs : args.supplied with
      | some s =>
          have hback : args.secretAfter (readToken dir.token) = some s := by
            rw [OnboardArgs.secretAfter, hs]
            exact congrArg some (hheld s hs)
          simp [OnboardArgs.refused, hback, OnboardArgs.tokenAfter, OnboardArgs.secretFile, hsame, hs]
      | none =>
          have hforced : args.forceToken = false := hforce.resolve_right (not_not.2 hs)
          have hsome : (args.secretAfter (readToken dir.token)).isSome = true := by
            rw [OnboardArgs.secretAfter, hs]
            dsimp only
            split
            · rename_i hkeep
              exact (Bool.and_eq_true_iff.1 hkeep).1
            · rfl
          refine ⟨by simp only [OnboardArgs.refused, hs], ?_⟩
          rw [← hsecret] at hsome
          rw [OnboardArgs.tokenAfter, OnboardArgs.secretFile, hsame, hs]
          simp [hsome, hforced]
    rw [onboarded_eq φ dir, if_neg hrefused, onboarded_eq, hsecret]
    refine (if_neg ?_).trans ?_
    · exact Bool.eq_false_iff.1 htoken.1
    · rw [htoken.2]
      congr 1
      exact peersAfter_peersAfter φ args dir.peers

theorem onboard_idempotent_tablet :
    let call : OnboardArgs :=
      ⟨⟨lit "tablet=10.0.0.2:9000", plain_lit _⟩, none, none, false, .zeros⟩
    onboarded JsonFloat (onboarded JsonFloat ⟨none, none⟩ call) { call with fresh := .zeros } =
      onboarded JsonFloat ⟨none, none⟩ call := by
  intro call
  exact onboard_idempotent JsonFloat ⟨none, none⟩ call (.inl rfl) (fun s hs => by cases hs) .zeros

end

/-! ## Fleets -/

/-- The data dirs by their paths. -/
abbrev DataDirs := Str → Option DataDir

/-- The file of `--token-file`. -/
inductive TokenFile where
  | none
  | other (content : Option Utf8Text)
  /-- The `mesh_token.txt` of a node. -/
  | member (dataDir : Str)

/-- A call for a node of the fleet. -/
structure Joining where
  dataDir : Str
  spec : Utf8Text
  token : Option Utf8Text
  tokenFile : TokenFile
  forceToken : Bool
  fresh : HexSecret

namespace Joining

/-- The arguments with what the file of the secret holds. -/
def args (j : Joining) (dirs : DataDirs) : OnboardArgs where
  spec := j.spec
  token := j.token
  tokenFile :=
    match j.tokenFile with
    | .none => none
    | .other content => content
    | .member dataDir => (dirs dataDir).bind DataDir.token
  forceToken := j.forceToken
  fresh := j.fresh

/-- The data dirs after a call.  There is nothing to do in one that does not exist. -/
def step (φ : Type) [Builtins φ] (dirs : DataDirs) (j : Joining) : DataDirs :=
  Function.update dirs j.dataDir ((dirs j.dataDir).map fun dir => onboarded φ dir (j.args dirs))

/-- The secret of a node. -/
def secretAt (dirs : DataDirs) (dataDir : Str) : Option FleetSecret :=
  (dirs dataDir).bind fun dir => readToken dir.token

/-- No node holds another secret. -/
def Shares (T : FleetSecret) (dirs : DataDirs) : Prop :=
  ∀ dataDir s, secretAt dirs dataDir = some s → s = T

/-- If the node has no secret, or is forced to take another one, it is given this one, or happens to
make it up. -/
def Brings (T : FleetSecret) (dirs : DataDirs) (j : Joining) : Prop :=
  dirs j.dataDir ≠ none → secretAt dirs j.dataDir = none ∨ j.forceToken = true →
    ((j.args dirs).supplied.getD j.fresh.secret).held = T

variable {φ : Type} [Builtins φ]

theorem readToken_onboarded (dir : DataDir) (args : OnboardArgs) :
    readToken (onboarded φ dir args).token =
      if args.refused (readToken dir.token) then readToken dir.token
      else args.secretAfter (readToken dir.token) := by
  rw [onboarded_eq]
  split
  · rfl
  · exact readToken_tokenAfter args dir.token

/-- The secret that is left where there was none, or where one is forced. -/
theorem secretAfter_of_free (args : OnboardArgs) {existing : Option FleetSecret}
    (h : existing = none ∨ args.forceToken = true) :
    args.refused existing = false ∧
      args.secretAfter existing = some (args.supplied.getD args.fresh.secret).held := by
  have hfree : (existing.isSome && !args.forceToken) = false := by
    rcases h with rfl | h
    · rfl
    · rw [h, Bool.not_true, Bool.and_false]
  constructor
  · rcases h with rfl | h
    · cases hs : args.supplied <;> simp only [OnboardArgs.refused, hs]
    · cases hs : args.supplied <;> cases existing <;> simp [OnboardArgs.refused, hs, h]
  · rw [OnboardArgs.secretAfter]
    cases args.supplied with
    | some s => rfl
    | none =>
        rw [Option.getD_none, HexSecret.held_secret]
        exact if_neg (Bool.eq_false_iff.1 hfree)

/-- A secret that is held and not forced away stays. -/
theorem secretAfter_of_held {args : OnboardArgs} {dir : DataDir} {e : FleetSecret}
    (he : readToken dir.token = some e) (hforce : args.forceToken = false) :
    readToken (onboarded φ dir args).token = some e := by
  rw [readToken_onboarded, he]
  split
  · rfl
  · rename_i hrefused
    rw [OnboardArgs.secretAfter]
    cases hs : args.supplied with
    | some s =>
        have hse : s = e := by simpa [OnboardArgs.refused, hs, hforce] using hrefused
        subst hse
        exact congrArg some (held_of_readToken he)
    | none => simp [hforce]

theorem secretAt_step_self {dirs : DataDirs} {j : Joining} {dir : DataDir}
    (h : dirs j.dataDir = some dir) :
    secretAt (step φ dirs j) j.dataDir = readToken (onboarded φ dir (j.args dirs)).token := by
  rw [secretAt, step, Function.update_self, h]
  rfl

theorem secretAt_step_of_ne {dirs : DataDirs} {j : Joining} {dataDir : Str}
    (h : dataDir ≠ j.dataDir) : secretAt (step φ dirs j) dataDir = secretAt dirs dataDir := by
  rw [secretAt, step, Function.update_of_ne h, secretAt]

theorem shares_step_iff {T : FleetSecret} {dirs : DataDirs} (h : Shares T dirs) (j : Joining) :
    Shares T (step φ dirs j) ↔ Brings T dirs j := by
  have hothers : ∀ dataDir, dataDir ≠ j.dataDir → ∀ s,
      secretAt (step φ dirs j) dataDir = some s → s = T := fun dataDir hne s hs =>
    h dataDir s (secretAt_step_of_ne (φ := φ) hne ▸ hs)
  cases hdir : dirs j.dataDir with
  | none =>
      have hsame : step φ dirs j = dirs := by
        rw [step, hdir, Option.map_none, ← hdir]
        exact Function.update_eq_self j.dataDir dirs
      rw [hsame]
      exact iff_of_true h fun hne => absurd hdir hne
  | some dir =>
      have hself := secretAt_step_self (φ := φ) hdir
      have hat : secretAt dirs j.dataDir = readToken dir.token := by
        rw [secretAt, hdir]
        rfl
      by_cases hfree : readToken dir.token = none ∨ j.forceToken = true
      · obtain ⟨hrefused, hafter⟩ := secretAfter_of_free (j.args dirs) hfree
        rw [readToken_onboarded, hrefused, hafter] at hself
        constructor
        · intro hshares _ _
          exact hshares j.dataDir _ hself
        · intro hbrings dataDir s hs
          by_cases hne : dataDir = j.dataDir
          · have hT := hbrings (by rw [hdir]; exact Option.some_ne_none dir) (hat ▸ hfree)
            rw [hne, hself] at hs
            rw [← Option.some.inj hs]
            exact hT
          · exact hothers dataDir hne s hs
      · rw [not_or] at hfree
        obtain ⟨e, he⟩ := Option.ne_none_iff_exists'.1 hfree.1
        have hforce : (j.args dirs).forceToken = false := Bool.eq_false_iff.2 hfree.2
        rw [secretAfter_of_held he hforce] at hself
        refine iff_of_true (fun dataDir s hs => ?_) fun _ hbad => ?_
        · by_cases hne : dataDir = j.dataDir
          · rw [hne, hself] at hs
            exact h j.dataDir s (by rw [hat, he, hs])
          · exact hothers dataDir hne s hs
        · rw [hat] at hbad
          exact absurd hbad (not_or.2 hfree)

/-- In any run of onboardings, in which the secrets of nodes are handed on in any way, no node comes to
hold a secret other than that of the fleet, if and only if every node that takes a secret is given
that one. -/
theorem fleet_shares_secret_iff (φ : Type) [Builtins φ] {T : FleetSecret} {dirs : DataDirs}
    (h : Shares T dirs) (js : List Joining) :
    Always (step φ) (Shares T) dirs js ↔ Meets (step φ) (Brings T) dirs js :=
  always_iff_meets (I := fun _ => True) (fun _ _ _ => trivial)
    (fun _ j _ hs => shares_step_iff hs j) trivial h

theorem fleet_shares_secret_iff_handed :
    let dirs : DataDirs := fun dataDir =>
      if dataDir = lit "tablet" then some ⟨some (writeToken HexSecret.zeros.secret), none⟩
      else if dataDir = lit "phone" then some ⟨none, none⟩ else none
    let js : List Joining :=
      [⟨lit "phone", ⟨[], fun _ hc => by cases hc⟩, none, .member (lit "tablet"), false, .zeros⟩]
    Always (step JsonFloat) (Shares HexSecret.zeros.secret) dirs js ↔
      Meets (step JsonFloat) (Brings HexSecret.zeros.secret) dirs js := by
  intro dirs js
  refine fleet_shares_secret_iff JsonFloat (fun dataDir s hs => ?_) js
  obtain ⟨dir, hdir, hs⟩ := Option.bind_eq_some_iff.1 hs
  by_cases htablet : dataDir = lit "tablet"
  · rw [show dirs dataDir = some ⟨some (writeToken HexSecret.zeros.secret), none⟩ from
      if_pos htablet] at hdir
    cases hdir
    rw [readToken_write, HexSecret.held_secret] at hs
    exact (Option.some.inj hs).symm
  · by_cases hphone : dataDir = lit "phone"
    · rw [show dirs dataDir = some ⟨none, none⟩ from
        (if_neg htablet).trans (if_pos hphone)] at hdir
      cases hdir
      cases hs
    · rw [show dirs dataDir = none from (if_neg htablet).trans (if_neg hphone)] at hdir
      cases hdir

/-- Without force no node ever changes its secret. -/
theorem secret_kept {dirs : DataDirs} {dataDir : Str} {s : FleetSecret}
    (h : secretAt dirs dataDir = some s) {js : List Joining} (hforce : ∀ j ∈ js, j.forceToken = false) :
    secretAt (run (step φ) dirs js) dataDir = some s := by
  induction js generalizing dirs with
  | nil => exact h
  | cons j js ih =>
      rw [List.forall_mem_cons] at hforce
      refine ih ?_ hforce.2
      by_cases hne : dataDir = j.dataDir
      · rw [hne] at h ⊢
        obtain ⟨dir, hdir, he⟩ := Option.bind_eq_some_iff.1 h
        rw [secretAt_step_self hdir]
        exact secretAfter_of_held he hforce.1
      · rw [secretAt_step_of_ne hne]
        exact h

end Joining

end ShugoCore
