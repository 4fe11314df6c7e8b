import ShugoCore.Clock
import ShugoCore.Lib.Run
import ShugoCore.Mobile.Manifest

/-!
# Paired devices

`MobileNodeRegistry` of `mobile_nodes.py`.  `pair` files a device under its sanitised id, with a time
to live, and `unpair` and `heartbeat` look under the id as it is given.  A heartbeat does not extend a
pairing.

Beside the registry stands the list of the calls that were made on it, from any thread in any order.
A pairing stands if it is the last call that concerns the entry of its device (`Stands`), and the
registry knows exactly the pairings that stand and when their devices were last heard
(`entry_iff_stands`).  What it says of a device then follows: which devices it routes a workload to and
which of them the broker accepts (`routed_iff`), and which are reported as lost (`lost_iff`).
-/

namespace ShugoCore

open Py Machine

variable {φ : Type} [Builtins φ]

/-! ## The registry -/

/-- An entry of the registry. -/
structure PairedNode (φ : Type) where
  deviceId : Str
  manifest : Obj φ
  pairedBy : Str
  pairedAt : Seconds
  expiresAt : Seconds

/-- The clock readings of a call of `pair`, in order. -/
structure PairClock where
  pairedAt : Seconds
  expiresFrom : Seconds
  heardAt : Seconds

/-- `MobileNodeRegistry`. -/
structure MobileNodeRegistry (φ : Type) where
  pairingTtlHours : Seconds
  heartbeatTimeout : Seconds
  paired : Dict Str (PairedNode φ)
  lastHeartbeat : Dict Str Seconds

/-- What is said of a device to others. -/
structure NodeView (φ : Type) where
  deviceId : Str
  manifest : Obj φ
  pairedBy : Str
  expiresAt : Seconds
  alive : Bool

/-- The entry that `pair` makes. -/
def pairedNode (pairingTtlHours : Seconds) (clock : PairClock) (deviceId : Str) (manifest : Obj φ)
    (pairedBy : Str) : Except Exn (PairedNode φ) :=
  let device := sanitizeText deviceId 48
  if device = [] then .error .valueError
  else do
    let safeManifest ← pairedManifest manifest
    return {
      deviceId := device
      manifest := safeManifest
      pairedBy := sanitizeText pairedBy 120
      pairedAt := clock.pairedAt
      expiresAt := clock.expiresFrom + pairingTtlHours * 3600 }

namespace MobileNodeRegistry

/-- `__init__`. -/
def new (pairingTtlHours heartbeatTimeout : Seconds) : MobileNodeRegistry φ :=
  ⟨max (1 / 100) pairingTtlHours, max 1 heartbeatTimeout, [], []⟩

/-- `pair`. -/
def pair (r : MobileNodeRegistry φ) (clock : PairClock) (deviceId : Str) (manifest : Obj φ)
    (pairedBy : Str) : Except Exn (PairedNode φ × MobileNodeRegistry φ) := do
  let entry ← pairedNode r.pairingTtlHours clock deviceId manifest pairedBy
  return (entry, { r with
    paired := Dict.set r.paired entry.deviceId entry
    lastHeartbeat := Dict.set r.lastHeartbeat entry.deviceId clock.heardAt })

/-- `unpair`. -/
def unpair (r : MobileNodeRegistry φ) (deviceId : Str) : Bool × MobileNodeRegistry φ :=
  ((Dict.get? r.paired deviceId).isSome,
    { r with
      paired := Dict.remove r.paired deviceId
      lastHeartbeat := Dict.remove r.lastHeartbeat deviceId })

/-- `is_paired`. -/
def isPaired (r : MobileNodeRegistry φ) (now : Seconds) (deviceId : Str) : Bool :=
  match Dict.get? r.paired deviceId with
  | some entry => now < entry.expiresAt
  | none => false

/-- `heartbeat`. -/
def heartbeat (r : MobileNodeRegistry φ) (monotonic : Seconds) (deviceId : Str) :
    Bool × MobileNodeRegistry φ :=
  match Dict.get? r.paired deviceId with
  | none => (false, r)
  | some _ => (true, { r with lastHeartbeat := Dict.set r.lastHeartbeat deviceId monotonic })

/-- `alive`. -/
def alive (r : MobileNodeRegistry φ) (monotonic : Seconds) (deviceId : Str) : Bool :=
  match Dict.get? r.lastHeartbeat deviceId with
  | some last => monotonic - last ≤ r.heartbeatTimeout
  | none => false

/-- `sorted(self._paired.items())`. -/
def sortedNodes (r : MobileNodeRegistry φ) : List (Str × PairedNode φ) :=
  r.paired.insertionSort fun a b => a.1 ≤ b.1

/-- What a listing says of a device.  The clock is read for each one. -/
def view (r : MobileNodeRegistry φ) (monotonic : Str → Seconds) (device : Str) (entry : PairedNode φ) :
    NodeView φ where
  deviceId := device
  manifest := entry.manifest
  pairedBy := entry.pairedBy
  expiresAt := entry.expiresAt
  alive := monotonic device - (Dict.get? r.lastHeartbeat device).getD 0 ≤ r.heartbeatTimeout

/-- `list_nodes`. -/
def listNodes (r : MobileNodeRegistry φ) (now : Seconds) (monotonic : Str → Seconds) :
    List (NodeView φ) :=
  r.sortedNodes.filterMap fun item =>
    if item.2.expiresAt ≤ now then none else some (r.view monotonic item.1 item.2)

/-- `manifest`. -/
def manifest (r : MobileNodeRegistry φ) (deviceId : Str) : Obj φ :=
  match Dict.get? r.paired deviceId with
  | some entry => entry.manifest
  | none => []

/-- `nodes_for_workload`. -/
def nodesForWorkload (r : MobileNodeRegistry φ) (now : Seconds) (monotonic : Str → Seconds)
    (workload : Str) : List (NodeView φ) :=
  let name := sanitizeText workload 32
  if name ∉ knownWorkloads then []
  else r.sortedNodes.filterMap fun item =>
    if item.2.expiresAt ≤ now then none
    else if !nodeSupportsWorkload item.2.manifest name then none
    else some (r.view monotonic item.1 item.2)

/-- What the broker is told of a device when it is asked for a computation. -/
def computeNode (r : MobileNodeRegistry φ) (now monotonic : Seconds) (deviceId : Str) :
    ComputeNode φ where
  paired := r.isPaired now deviceId
  alive := r.alive monotonic deviceId
  manifest := r.manifest deviceId

end MobileNodeRegistry

/-- `check_liveness` of the manager: the lost devices, and what is reported of them. -/
def checkLiveness (r : MobileNodeRegistry φ) (now : Seconds) (monotonic : Str → Seconds) :
    List Str × Option Str :=
  let lost := ((r.listNodes now monotonic).filter fun d => !d.alive).map NodeView.deviceId
  (lost, if lost = [] then none
    else some (lit "heartbeat lost: " ++ (lost.intersperse (lit ", ")).flatten))

/-! ## Calls -/

/-- A call that changes the registry. -/
inductive RegistryCall (φ : Type) where
  | pair (clock : PairClock) (deviceId : Str) (manifest : Obj φ) (pairedBy : Str)
  | unpair (deviceId : Str)
  | heartbeat (monotonic : Seconds) (deviceId : Str)

namespace MobileNodeRegistry

/-- One call.  A pairing that raises changes nothing. -/
def step (r : MobileNodeRegistry φ) : RegistryCall φ → MobileNodeRegistry φ
  | .pair clock deviceId manifest pairedBy =>
      match r.pair clock deviceId manifest pairedBy with
      | .ok out => out.2
      | .error _ => r
  | .unpair deviceId => (r.unpair deviceId).2
  | .heartbeat monotonic deviceId => (r.heartbeat monotonic deviceId).2

end MobileNodeRegistry

/-- The call makes or removes the entry of a device. -/
def RegistryCall.Concerns (hours : Seconds) (device : Str) : RegistryCall φ → Prop
  | .pair clock deviceId manifest pairedBy =>
      ∃ entry, pairedNode hours clock deviceId manifest pairedBy = .ok entry ∧ entry.deviceId = device
  | .unpair deviceId => deviceId = device
  | .heartbeat _ _ => False

/-- When a device was last heard, after one more call. -/
def RegistryCall.heard (device : Str) (last : Seconds) : RegistryCall φ → Seconds
  | .heartbeat monotonic deviceId => if deviceId = device then monotonic else last
  | _ => last

/-- The call pairs a device with a manifest, and the device is heard with it. -/
def RegistryCall.Pairs (hours : Seconds) (manifest : Obj φ) (entry : PairedNode φ) (heardAt : Seconds) :
    RegistryCall φ → Prop
  | .pair clock deviceId m pairedBy =>
      m = manifest ∧ pairedNode hours clock deviceId m pairedBy = .ok entry ∧ heardAt = clock.heardAt
  | _ => False

/-- A pairing stands: no later call concerns the entry of its device, which was last heard then or
with the last heartbeat since. -/
def Stands (hours : Seconds) (calls : List (RegistryCall φ)) (manifest : Obj φ)
    (entry : PairedNode φ) (heardAt : Seconds) : Prop :=
  ∃ before c after, calls = before ++ c :: after ∧
    ∃ t, c.Pairs hours manifest entry t ∧ (∀ c ∈ after, ¬ c.Concerns hours entry.deviceId) ∧
      heardAt = after.foldl (RegistryCall.heard entry.deviceId) t

/-- A pairing of a device stands and is not over. -/
def InConsent (hours : Seconds) (calls : List (RegistryCall φ)) (now : Seconds) (device : Str) : Prop :=
  ∃ manifest entry heardAt, Stands hours calls manifest entry heardAt ∧ entry.deviceId = device ∧
    now < entry.expiresAt

/-! ## What stands after one more call -/

section

variable {hours : Seconds} {calls : List (RegistryCall φ)} {manifest : Obj φ} {entry : PairedNode φ}
  {heardAt : Seconds}

theorem RegistryCall.Pairs.unique {c : RegistryCall φ} {m : Obj φ} {e : PairedNode φ} {t : Seconds}
    (h : c.Pairs hours manifest entry heardAt) (h' : c.Pairs hours m e t) :
    entry = e ∧ heardAt = t := by
  cases c with
  | pair clock deviceId given pairedBy =>
      obtain ⟨-, hentry, rfl⟩ := h
      obtain ⟨-, he, rfl⟩ := h'
      exact ⟨Except.ok.inj (hentry.symm.trans he), rfl⟩
  | unpair deviceId => exact h.elim
  | heartbeat monotonic deviceId => exact h.elim

theorem RegistryCall.Pairs.concerns {c : RegistryCall φ} (h : c.Pairs hours manifest entry heardAt) :
    c.Concerns hours entry.deviceId := by
  cases c with
  | pair clock deviceId given pairedBy => exact ⟨entry, h.2.1, rfl⟩
  | unpair deviceId => exact h.elim
  | heartbeat monotonic deviceId => exact h.elim

theorem stands_nil : ¬ Stands hours [] manifest entry heardAt := by
  rintro ⟨before, c, after, h, -⟩
  simp at h

theorem stands_concat {c : RegistryCall φ} :
    Stands hours (calls ++ [c]) manifest entry heardAt ↔
      c.Pairs hours manifest entry heardAt ∨
        ¬ c.Concerns hours entry.deviceId ∧
          ∃ t, Stands hours calls manifest entry t ∧ heardAt = c.heard entry.deviceId t := by
  rw [Stands, exists_split_concat]
  constructor
  · rintro (⟨t, hpairs, -, rfl⟩ | ⟨before, d, after, rfl, t, hpairs, hafter, rfl⟩)
    · exact .inl hpairs
    · refine .inr ⟨hafter c (by simp), _, ⟨before, d, after, rfl, t, hpairs, ?_, rfl⟩, ?_⟩
      · exact fun e he => hafter e (List.mem_append_left _ he)
      · rw [List.foldl_append]
        rfl
  · rintro (hpairs | ⟨hc, t, ⟨before, d, after, rfl, t₀, hpairs, hafter, rfl⟩, rfl⟩)
    · exact .inl ⟨heardAt, hpairs, fun e he => absurd he List.not_mem_nil, rfl⟩
    · refine .inr ⟨before, d, after, rfl, t₀, hpairs, ?_, ?_⟩
      · intro e he
        rcases List.mem_append.1 he with he | he
        · exact hafter e he
        · rw [List.mem_singleton.1 he]
          exact hc
      · rw [List.foldl_append]
        rfl

end

/-! ## What the registry knows -/

namespace MobileNodeRegistry

variable {r : MobileNodeRegistry φ}

/-- What the registry has of a device: its entry, and when it was last heard. -/
def reading (r : MobileNodeRegistry φ) (device : Str) : Option (PairedNode φ) × Option Seconds :=
  (Dict.get? r.paired device, Dict.get? r.lastHeartbeat device)

/-- What one call does to the reading of a device: it is paired, or unpaired, or the call spares its
entry. -/
inductive Reads (hours : Seconds) (c : RegistryCall φ) (device : Str)
    (before after : Option (PairedNode φ) × Option Seconds) : Prop where
  | paired (manifest : Obj φ) (entry : PairedNode φ) (heardAt : Seconds)
      (pairs : c.Pairs hours manifest entry heardAt) (id : entry.deviceId = device)
      (reads : after = (some entry, some heardAt))
  | unpaired (call : c = .unpair device) (reads : after = (none, none))
  | spared (concerns : ¬ c.Concerns hours device)
      (pairs : ∀ manifest entry heardAt, entry.deviceId = device → ¬ c.Pairs hours manifest entry heardAt)
      (reads : after = (before.1, before.2.map (c.heard device)))

theorem reads_step {device : Str}
    (h : (r.reading device).1.isSome = (r.reading device).2.isSome) (c : RegistryCall φ) :
    Reads r.pairingTtlHours c device (r.reading device) ((r.step c).reading device) := by
  cases c with
  | pair clock deviceId manifest pairedBy =>
      have hkeep : (r.reading device).2.map
          (RegistryCall.heard device · (.pair clock deviceId manifest pairedBy)) =
            (r.reading device).2 := Option.map_id'
      simp only [step, pair]
      cases hentry : pairedNode r.pairingTtlHours clock deviceId manifest pairedBy with
      | error e =>
          refine .spared ?_ ?_ (by rw [hkeep]; rfl)
          · rintro ⟨entry, hfound, -⟩
            rw [hentry] at hfound
            cases hfound
          · rintro m entry heardAt - ⟨-, hfound, -⟩
            rw [hentry] at hfound
            cases hfound
      | ok entry =>
          by_cases hd : entry.deviceId = device
          · subst hd
            refine .paired manifest entry clock.heardAt ⟨rfl, hentry, rfl⟩ rfl ?_
            simp [bind, Except.bind, pure, Except.pure, reading]
          · refine .spared ?_ ?_ ?_
            · rintro ⟨found, hfound, hid⟩
              rw [hentry] at hfound
              cases hfound
              exact hd hid
            · rintro m found heardAt hid ⟨-, hfound, -⟩
              rw [hentry] at hfound
              cases hfound
              exact hd hid
            · rw [hkeep]
              simp [bind, Except.bind, pure, Except.pure, reading, hd, Dict.get?_set_of_ne]
  | unpair deviceId =>
      by_cases hd : deviceId = device
      · subst hd
        exact .unpaired rfl (by simp [step, unpair, reading])
      · refine .spared hd (fun _ _ _ _ hpairs => hpairs) ?_
        have hkeep : (r.reading device).2.map (RegistryCall.heard (φ := φ) device · (.unpair deviceId)) =
            (r.reading device).2 := Option.map_id'
        rw [hkeep]
        simp [step, unpair, reading, hd, Dict.get?_remove_of_ne]
  | heartbeat monotonic deviceId =>
      refine .spared (fun hc => hc) (fun _ _ _ _ hpairs => hpairs) ?_
      simp only [step, heartbeat]
      by_cases hd : deviceId = device
      · subst hd
        cases hentry : Dict.get? r.paired deviceId with
        | none =>
            rw [reading, hentry] at h
            have hlast : Dict.get? r.lastHeartbeat deviceId = none := by simpa using h.symm
            simp [reading, hentry, hlast]
        | some entry =>
            rw [reading, hentry] at h
            obtain ⟨last, hlast⟩ := Option.isSome_iff_exists.1 h.symm
            simp [reading, hentry, hlast, RegistryCall.heard]
      · have hkeep : (r.reading device).2.map
            (RegistryCall.heard (φ := φ) device · (.heartbeat monotonic deviceId)) =
              (r.reading device).2 := by
          simp [RegistryCall.heard, hd]
        rw [hkeep]
        cases Dict.get? r.paired deviceId with
        | none => rfl
        | some entry => simp [reading, hd, Dict.get?_set_of_ne]

/-- The registry has the pairings that stand after some calls, and nothing else. -/
structure Knows (hours : Seconds) (calls : List (RegistryCall φ)) (r : MobileNodeRegistry φ) : Prop where
  ttl : r.pairingTtlHours = hours
  entry : ∀ device entry heardAt, r.reading device = (some entry, some heardAt) ↔
    entry.deviceId = device ∧ ∃ manifest, Stands hours calls manifest entry heardAt
  together : ∀ device, (r.reading device).1.isSome = (r.reading device).2.isSome
  nodup : (r.paired.map Prod.fst).Nodup

theorem knows_new (hours timeout : Seconds) :
    Knows (max (1 / 100) hours) [] (new hours timeout : MobileNodeRegistry φ) where
  ttl := rfl
  entry device entry heardAt := by
    constructor
    · intro h
      cases h
    · rintro ⟨-, manifest, h⟩
      exact absurd h stands_nil
  together device := rfl
  nodup := List.nodup_nil

theorem nodup_step (h : (r.paired.map Prod.fst).Nodup) (c : RegistryCall φ) :
    ((r.step c).paired.map Prod.fst).Nodup := by
  cases c with
  | pair clock deviceId manifest pairedBy =>
      simp only [step, pair]
      cases pairedNode r.pairingTtlHours clock deviceId manifest pairedBy with
      | error e => exact h
      | ok entry => exact Dict.nodup_set h
  | unpair deviceId => exact Dict.nodup_remove h deviceId
  | heartbeat monotonic deviceId =>
      simp only [step, heartbeat]
      cases Dict.get? r.paired deviceId with
      | none => exact h
      | some entry => exact h

theorem ttl_step (r : MobileNodeRegistry φ) (c : RegistryCall φ) :
    (r.step c).pairingTtlHours = r.pairingTtlHours ∧
      (r.step c).heartbeatTimeout = r.heartbeatTimeout := by
  cases c with
  | pair clock deviceId manifest pairedBy =>
      simp only [step, pair]
      cases pairedNode r.pairingTtlHours clock deviceId manifest pairedBy with
      | error e => exact ⟨rfl, rfl⟩
      | ok entry => exact ⟨rfl, rfl⟩
  | unpair deviceId => exact ⟨rfl, rfl⟩
  | heartbeat monotonic deviceId =>
      simp only [step, heartbeat]
      cases Dict.get? r.paired deviceId with
      | none => exact ⟨rfl, rfl⟩
      | some entry => exact ⟨rfl, rfl⟩

theorem Knows.step {hours : Seconds} {calls : List (RegistryCall φ)} (h : Knows hours calls r)
    (c : RegistryCall φ) : Knows hours (calls ++ [c]) (r.step c) where
  ttl := (ttl_step r c).1.trans h.ttl
  entry device entry heardAt := by
    have hreads := reads_step (h.together device) c
    rw [h.ttl] at hreads
    simp only [stands_concat]
    cases hreads with
    | paired manifest made madeAt hpairs hid hreads =>
        rw [hreads]
        constructor
        · intro he
          cases he
          exact ⟨hid, manifest, .inl hpairs⟩
        · rintro ⟨rfl, m, hfound | ⟨hspared, -⟩⟩
          · rw [(hpairs.unique hfound).1, (hpairs.unique hfound).2]
          · exact absurd (hid ▸ hpairs.concerns) hspared
    | unpaired hcall hreads =>
        subst hcall
        rw [hreads]
        constructor
        · intro he
          cases he
        · rintro ⟨rfl, m, hpairs | ⟨hspared, -⟩⟩
          · exact hpairs.elim
          · exact absurd rfl hspared
    | spared hconcerns hpairs hreads =>
        rw [hreads, Prod.mk.injEq, Option.map_eq_some_iff]
        constructor
        · rintro ⟨hentry, t, ht, rfl⟩
          obtain ⟨rfl, m, hstands⟩ := (h.entry device entry t).1 (Prod.ext hentry ht)
          exact ⟨rfl, m, .inr ⟨hconcerns, t, hstands, rfl⟩⟩
        · rintro ⟨rfl, m, hfound | ⟨-, t, hstands, rfl⟩⟩
          · exact absurd hfound (hpairs m entry heardAt rfl)
          · have hold := (h.entry entry.deviceId entry t).2 ⟨rfl, m, hstands⟩
            exact ⟨congrArg Prod.fst hold, t, congrArg Prod.snd hold, rfl⟩
  together device := by
    have hreads := reads_step (h.together device) c
    cases hreads with
    | paired manifest entry heardAt hpairs hid hreads => rw [hreads]; rfl
    | unpaired hcall hreads => rw [hreads]; rfl
    | spared hconcerns hpairs hreads =>
        rw [hreads, Option.isSome_map]
        exact h.together device
  nodup := nodup_step h.nodup c

/-- After every list of calls. -/
theorem knows_run (hours timeout : Seconds) (calls : List (RegistryCall φ)) :
    Knows (max (1 / 100) hours) calls (run MobileNodeRegistry.step (new hours timeout) calls) := by
  induction calls using List.reverseRecOn with
  | nil => exact knows_new hours timeout
  | append_singleton calls c ih =>
      rw [run_append]
      exact ih.step c

theorem timeout_run (hours timeout : Seconds) (calls : List (RegistryCall φ)) :
    (run MobileNodeRegistry.step (new hours timeout : MobileNodeRegistry φ) calls).heartbeatTimeout =
      max 1 timeout := by
  induction calls using List.reverseRecOn with
  | nil => rfl
  | append_singleton calls c ih =>
      rw [run_append]
      exact (ttl_step _ c).2.trans ih

/-! ## What it says of a device -/

section

variable {hours : Seconds} {calls : List (RegistryCall φ)}

/-- An entry is of a pairing that stands, and says when its device was last heard. -/
theorem Knows.of_get? (h : Knows hours calls r) {device : Str} {entry : PairedNode φ}
    (hentry : Dict.get? r.paired device = some entry) :
    entry.deviceId = device ∧ ∃ manifest heardAt, Stands hours calls manifest entry heardAt ∧
      Dict.get? r.lastHeartbeat device = some heardAt := by
  have hlast := h.together device
  rw [reading, hentry] at hlast
  obtain ⟨heardAt, hheard⟩ := Option.isSome_iff_exists.1 hlast.symm
  obtain ⟨hid, manifest, hstands⟩ := (h.entry device entry heardAt).1 (Prod.ext hentry hheard)
  exact ⟨hid, manifest, heardAt, hstands, hheard⟩

theorem Knows.get? (h : Knows hours calls r) {manifest : Obj φ} {entry : PairedNode φ}
    {heardAt : Seconds} (hstands : Stands hours calls manifest entry heardAt) :
    Dict.get? r.paired entry.deviceId = some entry ∧
      Dict.get? r.lastHeartbeat entry.deviceId = some heardAt := by
  have hread := (h.entry entry.deviceId entry heardAt).2 ⟨rfl, manifest, hstands⟩
  exact ⟨congrArg Prod.fst hread, congrArg Prod.snd hread⟩

/-- The manifest of an entry is what is kept of the manifest that the device was paired with. -/
theorem manifest_of_stands {manifest : Obj φ} {entry : PairedNode φ} {heardAt : Seconds}
    (h : Stands hours calls manifest entry heardAt) : pairedManifest manifest = .ok entry.manifest := by
  obtain ⟨before, c, after, -, t, hpairs, -, -⟩ := h
  cases c with
  | pair clock deviceId given pairedBy =>
      obtain ⟨rfl, hentry, -⟩ := hpairs
      rw [pairedNode] at hentry
      split at hentry
      · cases hentry
      · obtain ⟨safe, hsafe, hmade⟩ := ok_of_bind hentry
        cases hmade
        exact hsafe
  | unpair deviceId => exact hpairs.elim
  | heartbeat monotonic deviceId => exact hpairs.elim

theorem Knows.isPaired_iff (h : Knows hours calls r) {now : Seconds} {device : Str} :
    r.isPaired now device = true ↔ InConsent hours calls now device := by
  rw [isPaired]
  constructor
  · intro hpaired
    cases hentry : Dict.get? r.paired device with
    | none =>
        rw [hentry] at hpaired
        cases hpaired
    | some entry =>
        obtain ⟨hid, manifest, heardAt, hstands, -⟩ := h.of_get? hentry
        rw [hentry] at hpaired
        exact ⟨manifest, entry, heardAt, hstands, hid, of_decide_eq_true hpaired⟩
  · rintro ⟨manifest, entry, heardAt, hstands, rfl, hlive⟩
    rw [(h.get? hstands).1]
    exact decide_eq_true hlive

/-- What a listing says of a pairing that stands. -/
theorem Knows.view_eq (h : Knows hours calls r) {manifest : Obj φ} {entry : PairedNode φ}
    {heardAt : Seconds} (hstands : Stands hours calls manifest entry heardAt)
    (monotonic : Str → Seconds) :
    r.view monotonic entry.deviceId entry =
      ⟨entry.deviceId, entry.manifest, entry.pairedBy, entry.expiresAt,
        monotonic entry.deviceId - heardAt ≤ r.heartbeatTimeout⟩ := by
  rw [view, (h.get? hstands).2, Option.getD_some]

/-- The entries are those of the pairings that stand. -/
theorem Knows.exists_sortedNodes (h : Knows hours calls r) {P : Str × PairedNode φ → Prop} :
    (∃ item ∈ r.sortedNodes, P item) ↔
      ∃ manifest entry heardAt, Stands hours calls manifest entry heardAt ∧
        P (entry.deviceId, entry) := by
  have hmem : ∀ item : Str × PairedNode φ,
      item ∈ r.sortedNodes ↔ Dict.get? r.paired item.1 = some item.2 := by
    intro item
    rw [sortedNodes, List.mem_insertionSort, Dict.get?_eq_some_iff h.nodup]
  constructor
  · rintro ⟨⟨device, entry⟩, hitem, hP⟩
    obtain ⟨hid, manifest, heardAt, hstands, -⟩ := h.of_get? ((hmem _).1 hitem)
    simp only at hid
    subst hid
    exact ⟨manifest, entry, heardAt, hstands, hP⟩
  · rintro ⟨manifest, entry, heardAt, hstands, hP⟩
    exact ⟨_, (hmem _).2 (h.get? hstands).1, hP⟩

/-- The devices that are listed are those whose pairing stands and is not over. -/
theorem Knows.mem_listNodes (h : Knows hours calls r) {now : Seconds} {monotonic : Str → Seconds}
    {node : NodeView φ} :
    node ∈ r.listNodes now monotonic ↔
      ∃ manifest entry heardAt, Stands hours calls manifest entry heardAt ∧ now < entry.expiresAt ∧
        node = r.view monotonic entry.deviceId entry := by
  rw [listNodes, List.mem_filterMap, h.exists_sortedNodes]
  refine exists_congr fun manifest => exists_congr fun entry => exists_congr fun heardAt => ?_
  refine and_congr_right fun hstands => ?_
  by_cases hlive : entry.expiresAt ≤ now
  · simp [hlive, not_lt.2 hlive]
  · simp [hlive, not_le.1 hlive, eq_comm]

/-- The devices that a workload is routed to are those that declared it, too. -/
theorem Knows.mem_nodesForWorkload (h : Knows hours calls r) {now : Seconds}
    {monotonic : Str → Seconds} {workload : Str} {node : NodeView φ} :
    node ∈ r.nodesForWorkload now monotonic workload ↔
      sanitizeText workload 32 ∈ knownWorkloads ∧
        ∃ manifest entry heardAt, Stands hours calls manifest entry heardAt ∧ now < entry.expiresAt ∧
          Declares manifest (sanitizeText workload 32) ∧
          node = r.view monotonic entry.deviceId entry := by
  rw [nodesForWorkload]
  by_cases hname : sanitizeText workload 32 ∈ knownWorkloads
  · simp only [hname, not_true, if_false, true_and]
    rw [List.mem_filterMap, h.exists_sortedNodes]
    refine exists_congr fun manifest => exists_congr fun entry => exists_congr fun heardAt => ?_
    refine and_congr_right fun hstands => ?_
    have hsupports := nodeSupportsWorkload_pairedManifest (manifest_of_stands hstands) hname
    by_cases hlive : entry.expiresAt ≤ now
    · simp [hlive, not_lt.2 hlive]
    · rw [if_neg hlive, ← hsupports]
      cases nodeSupportsWorkload entry.manifest (sanitizeText workload 32) <;>
        simp [not_le.1 hlive, eq_comm]
  · simp [hname]

omit [Builtins φ] in
/-- What the broker needs of a device. -/
theorem computeRefusal_eq_none_iff (device workload : Str) (node : ComputeNode φ) :
    computeRefusal device workload node = none ↔
      sanitizeText workload 32 ∈ knownWorkloads ∧ node.paired = true ∧ node.alive = true ∧
        nodeSupportsWorkload node.manifest (sanitizeText workload 32) = true := by
  rw [computeRefusal]
  by_cases hname : sanitizeText workload 32 ∈ knownWorkloads
  · cases node.paired with
    | false => simp [hname]
    | true =>
        cases node.alive with
        | false => simp [hname]
        | true =>
            cases nodeSupportsWorkload node.manifest (sanitizeText workload 32) <;> simp [hname]
  · simp [hname]

/-- The broker takes a request for a device exactly if the workload is routed to it and it is alive. -/
theorem Knows.computeRefusal_eq_none (h : Knows hours calls r) {now : Seconds}
    {monotonic : Str → Seconds} {device workload : Str} :
    computeRefusal device workload (r.computeNode now (monotonic device) device) = none ↔
      ∃ node ∈ r.nodesForWorkload now monotonic workload, node.deviceId = device ∧ node.alive = true := by
  rw [computeRefusal_eq_none_iff]
  simp only [h.mem_nodesForWorkload, computeNode, h.isPaired_iff]
  constructor
  · rintro ⟨hname, ⟨manifest, entry, heardAt, hstands, rfl, hlive⟩, halive, hsupports⟩
    obtain ⟨hentry, hheard⟩ := h.get? hstands
    rw [MobileNodeRegistry.manifest, hentry] at hsupports
    rw [alive, hheard] at halive
    have hdeclares :=
      (nodeSupportsWorkload_pairedManifest (manifest_of_stands hstands) hname).1 hsupports
    refine ⟨_, ⟨hname, manifest, entry, heardAt, hstands, hlive, hdeclares, rfl⟩, rfl, ?_⟩
    rw [h.view_eq hstands]
    exact halive
  · rintro ⟨node, ⟨hname, manifest, entry, heardAt, hstands, hlive, hdeclares, rfl⟩, rfl, halive⟩
    obtain ⟨hentry, hheard⟩ := h.get? hstands
    rw [h.view_eq hstands] at halive ⊢
    refine ⟨hname, ⟨manifest, entry, heardAt, hstands, rfl, hlive⟩, ?_, ?_⟩
    · rw [alive, hheard]
      exact halive
    · rw [MobileNodeRegistry.manifest, hentry]
      exact (nodeSupportsWorkload_pairedManifest (manifest_of_stands hstands) hname).2 hdeclares

end

/-- After every run of calls, and for every workload: the devices that it is routed to are those whose
last pairing stands, is not over and declared it; and the broker takes a request for a device exactly
if it is routed to the device and the device is alive. -/
theorem routed_iff (hours timeout : Seconds) (calls : List (RegistryCall φ)) (now : Seconds)
    (monotonic : Str → Seconds) (device workload : Str) :
    let r := run step (new hours timeout) calls
    let name := sanitizeText workload 32
    (device ∈ (r.nodesForWorkload now monotonic workload).map NodeView.deviceId ↔
      name ∈ knownWorkloads ∧ ∃ manifest entry heardAt,
        Stands (max (1 / 100) hours) calls manifest entry heardAt ∧ entry.deviceId = device ∧
          now < entry.expiresAt ∧ Declares manifest name) ∧
    (computeRefusal device workload (r.computeNode now (monotonic device) device) = none ↔
      ∃ node ∈ r.nodesForWorkload now monotonic workload,
        node.deviceId = device ∧ node.alive = true) := by
  intro r name
  have h := knows_run hours timeout calls
  refine ⟨?_, h.computeRefusal_eq_none⟩
  simp only [List.mem_map, r, h.mem_nodesForWorkload]
  constructor
  · rintro ⟨node, ⟨hname, manifest, entry, heardAt, hstands, hlive, hdeclares, rfl⟩, rfl⟩
    exact ⟨hname, manifest, entry, heardAt, hstands, rfl, hlive, hdeclares⟩
  · rintro ⟨hname, manifest, entry, heardAt, hstands, rfl, hlive, hdeclares⟩
    exact ⟨_, ⟨hname, manifest, entry, heardAt, hstands, hlive, hdeclares, rfl⟩, rfl⟩

/-- After every run of calls a device is reported as lost if and only if its last pairing stands and is
not over, and neither that pairing nor a heartbeat since was within the timeout. -/
theorem lost_iff (hours timeout : Seconds) (calls : List (RegistryCall φ)) (now : Seconds)
    (monotonic : Str → Seconds) (device : Str) :
    device ∈ (checkLiveness (run step (new hours timeout) calls) now monotonic).1 ↔
      ∃ manifest entry heardAt, Stands (max (1 / 100) hours) calls manifest entry heardAt ∧
        entry.deviceId = device ∧ now < entry.expiresAt ∧
          max 1 timeout < monotonic device - heardAt := by
  have h := knows_run hours timeout calls
  simp only [checkLiveness, List.mem_map, List.mem_filter, h.mem_listNodes]
  constructor
  · rintro ⟨node, ⟨⟨manifest, entry, heardAt, hstands, hlive, rfl⟩, hlost⟩, rfl⟩
    refine ⟨manifest, entry, heardAt, hstands, rfl, hlive, ?_⟩
    rw [h.view_eq hstands, timeout_run, Bool.not_eq_true', decide_eq_false_iff_not, not_le] at hlost
    exact hlost
  · rintro ⟨manifest, entry, heardAt, hstands, rfl, hlive, hlost⟩
    refine ⟨_, ⟨⟨manifest, entry, heardAt, hstands, hlive, rfl⟩, ?_⟩, rfl⟩
    rw [h.view_eq hstands, timeout_run, Bool.not_eq_true', decide_eq_false_iff_not, not_le]
    exact hlost

end MobileNodeRegistry

end ShugoCore
