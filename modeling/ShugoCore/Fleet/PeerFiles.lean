import ShugoCore.Interaction.Attention
import ShugoCore.Lib.JsonIndent
import ShugoCore.Security.Sanitised

/-!
# The files that a node joins with

`mesh_token.txt` holds the secret of the fleet and `mesh_peers.json` the peers to dial.
`fleet_onboard.py` writes them and reads them when it is run again, and `shugocore_agent.py` reads
them with functions of its own.

Both read what was written as peers alike (`readPeersFile_write`, `loadMeshPeersFile_write`).  The
secret they do not: the agent takes the first word of it, and no more than 256 characters
(`agent_secret_iff`).

Texts come from files in UTF-8 and from a command line in UTF-8.  Of the conversions that are left
open, `LawfulBuiltins` says what Python documents.  The text of the exception in a report is left out.
-/

namespace ShugoCore

open Py

/-- What a file in UTF-8 holds. -/
structure Utf8Text where
  text : Str
  plain : Plain text

/-- What the conversions of Python guarantee. -/
class LawfulBuiltins (φ : Type) [Builtins φ] : Prop where
  /-- A number is read back from its text. -/
  intOfText_ofInt : ∀ i, Builtins.intOfText φ (Literal.ofInt i).text = some i
  /-- `repr` escapes surrogates. -/
  plain_reprContainer : ∀ v : PyVal φ, Plain (Builtins.reprContainer v)

/-- `text.partition(c)` without the separator. -/
def partitionAt (c : CodePoint) (text : Str) : Str × Str :=
  (text.takeWhile (· ≠ c), (text.dropWhile (· ≠ c)).tail)

/-- `text.rpartition(c)` without the separator. -/
def rpartitionAt (c : CodePoint) (text : Str) : Str × Str :=
  ((text.rdropWhile (· ≠ c)).dropLast, text.rtakeWhile (· ≠ c))

/-! ## Peers -/

/-- What is asked of a peer. -/
structure PeerValid (id host : Str) (port : Int) : Prop where
  id_stripped : strip id = id
  id_ne : id ≠ []
  host_stripped : strip host = host
  host_ne : host ≠ []
  port_pos : 0 < port
  port_lt : port < 65536

/-- `{"id": …, "host": …, "port": …}`. -/
structure FleetPeer where
  id : Str
  host : Str
  port : Int
  valid : PeerValid id host port
deriving DecidableEq

theorem PeerValid.of_strip {id host : Str} {port : Int}
    (h : strip id ≠ [] ∧ strip host ≠ [] ∧ 0 < port ∧ port < 65536) :
    PeerValid (strip id) (strip host) port :=
  ⟨strip_strip id, h.1, strip_strip host, h.2.1, h.2.2.1, h.2.2.2⟩

namespace FleetPeer

@[ext] theorem ext {p q : FleetPeer} (hid : p.id = q.id) (hhost : p.host = q.host)
    (hport : p.port = q.port) : p = q := by
  cases p
  cases q
  cases hid
  cases hhost
  cases hport
  rfl

/-- The peer of the parts of an entry. -/
def ofParts (id host : Str) (port : Int) : Option FleetPeer :=
  if h : strip id ≠ [] ∧ strip host ≠ [] ∧ 0 < port ∧ port < 65536 then
    some ⟨strip id, strip host, port, .of_strip h⟩
  else none

/-- `(peer_id, host, port)`. -/
def endpoint (p : FleetPeer) : Str × Str × Int := (p.id, p.host, p.port)

theorem ofParts_self (p : FleetPeer) : ofParts p.id p.host p.port = some p := by
  have hid : strip p.id ≠ [] := p.valid.id_stripped.symm ▸ p.valid.id_ne
  have hhost : strip p.host ≠ [] := p.valid.host_stripped.symm ▸ p.valid.host_ne
  rw [ofParts, dif_pos ⟨hid, hhost, p.valid.port_pos, p.valid.port_lt⟩]
  exact congrArg some (FleetPeer.ext p.valid.id_stripped p.valid.host_stripped rfl)

end FleetPeer

section

variable (φ : Type) [Builtins φ]

/-- `int(port_text)`, or zero. -/
def portOf (portText : Str) : Int := (Builtins.intOfText φ portText).getD 0

/-- An entry of `parse_peers`. -/
def parsePeer (entry : Str) : Option FleetPeer :=
  let (peerId, address) := partitionAt 61 entry
  let (host, portText) := rpartitionAt 58 address
  if 61 ∈ entry then FleetPeer.ofParts peerId host (portOf φ portText) else none

/-- The entries of a list of peers. -/
def peerEntries (spec : Str) : List Str := ((spec.splitOn 44).map strip).filter (· ≠ [])

/-- `parse_peers`. -/
def parsePeers (spec : Str) : List FleetPeer × List Str :=
  ((peerEntries spec).filterMap (parsePeer φ), (peerEntries spec).filter (parsePeer φ · = none))

/-- `_parse_mesh_peers`. -/
def parseMeshPeers (spec : Str) : List (Str × Str × Int) :=
  (peerEntries spec).filterMap fun entry =>
    if 61 ∉ entry then none
    else
      let (peerId, address) := partitionAt 61 entry
      let (host, portText) := rpartitionAt 58 address
      match Builtins.intOfText φ portText with
      | none => none
      | some port =>
          if strip peerId = [] ∨ strip host = [] ∨ ¬ (0 < port ∧ port < 65536) then none
          else some (strip peerId, strip host, port)

variable {φ}

/-- `str(entry.get(k) or "")`. -/
def entryText (k : String) (entry : Obj φ) : Str := strOf (orElse (fetch (lit k) entry) (.str []))

/-- An entry of `read_peers_file`, or its id. -/
def entryPeer (entry : Obj φ) : Except Str FleetPeer :=
  let (host, portText) :=
    match getKey (lit "address") entry with
    | some _ => rpartitionAt 58 (entryText "address" entry)
    | none => (entryText "host" entry, entryText "port" entry)
  let peerId := strip (entryText "id" entry)
  match FleetPeer.ofParts peerId host (portOf φ portText) with
  | some peer => .ok peer
  | none => .error peerId

/-- The problem of an entry, if it has one. -/
def entryProblem (entry : Obj φ) : Option Str :=
  match entryPeer entry with
  | .ok _ => none
  | .error peerId =>
      some ((if peerId = [] then lit "?" else peerId) ++ lit ": malformed peer entry")

/-- A dictionary. -/
def asDict : PyVal φ → Option (Obj φ)
  | .dict entry => some entry
  | _ => none

/-- The dictionaries of a list. -/
def dictsOf (xs : List (PyVal φ)) : List (Obj φ) := xs.filterMap asDict

/-- Either accepted form, as a list of entries. -/
def entriesOf : PyVal φ → Option (List (Obj φ))
  | .dict items => some (items.map fun i => obj [("id", i.1.toVal), ("address", i.2)])
  | .list xs => some (dictsOf xs)
  | _ => none

variable (φ)

/-- `read_peers_file`: the peers and the problems. -/
def readPeersFile : Option Utf8Text → List FleetPeer × List Str
  | none => ([], [])
  | some file =>
      match (loadFile file.text : Option (PyVal φ)) with
      | none => ([], [lit "mesh_peers.json unreadable"])
      | some data =>
          match entriesOf data with
          | none => ([], [lit "mesh_peers.json is neither an object nor a list"])
          | some entries =>
              (entries.filterMap fun entry => (entryPeer entry).toOption,
                entries.filterMap entryProblem)

variable {φ}

/-- `{"id": peer_id, "host": host, "port": port}`. -/
def FleetPeer.toVal (p : FleetPeer) : PyVal φ :=
  .dict (obj [("id", .str p.id), ("host", .str p.host), ("port", .int p.port)])

variable (φ)

/-- The text that `write_peers_file` writes. -/
def peersText (peers : List FleetPeer) : Str :=
  (dumpsIndented 2 (.list (peers.map FleetPeer.toVal) : PyVal φ)).getD [] ++ [newline]

variable {φ}

/-- An item of the object form, as the agent reads it. -/
def meshItem (item : Key φ × PyVal φ) : Option (Str × Str × Int) :=
  let (host, portText) := rpartitionAt 58 (strOf item.2)
  match Builtins.intOfText φ portText with
  | none => none
  | some port =>
      if strOf item.1.toVal ≠ [] ∧ host ≠ [] ∧ 0 < port ∧ port < 65536 then
        some (strip (strOf item.1.toVal), strip host, port)
      else none

/-- An entry of the list form, as the agent reads it.  The conversion of an infinite float is not
caught. -/
def meshEntry (entry : Obj φ) : Except Exn (Option (Str × Str × Int)) :=
  match intOf (fetch (lit "port") entry) with
  | .error .overflowError => .error .overflowError
  | .error _ => .ok none
  | .ok port =>
      let peerId := strip (entryText "id" entry)
      let host := strip (entryText "host" entry)
      if peerId ≠ [] ∧ host ≠ [] ∧ 0 < port ∧ port < 65536 then .ok (some (peerId, host, port))
      else .ok none

variable (φ)

/-- `_load_mesh_peers_file`. -/
def loadMeshPeersFile : Option Utf8Text → Except Exn (List (Str × Str × Int))
  | none => .ok []
  | some file =>
      match (loadFile file.text : Option (PyVal φ)) with
      | some (.dict items) => .ok (items.filterMap meshItem)
      | some (.list xs) => do return (← (dictsOf xs).mapM meshEntry).filterMap id
      | _ => .ok []

end

/-! ## Secrets -/

/-- A text that is stripped, and not empty. -/
structure IsSecret (t : Str) : Prop where
  stripped : strip t = t
  ne : t ≠ []

/-- The secret of a fleet. -/
structure FleetSecret where
  text : Str
  plain : Plain text
  valid : IsSecret text
deriving DecidableEq

theorem IsSecret.of_strip {t : Str} (h : strip t ≠ []) : IsSecret (strip t) := ⟨strip_strip t, h⟩

/-- `text.strip()`, unless it is empty. -/
def FleetSecret.ofText (t : Utf8Text) : Option FleetSecret :=
  if h : strip t.text ≠ [] then some ⟨strip t.text, plain_strip t.plain, .of_strip h⟩ else none

/-- What is read from a file. -/
def Utf8Text.translated (file : Utf8Text) : Utf8Text :=
  ⟨universalNewlines false file.text, plain_universalNewlines file.plain false⟩

/-- `read_token`. -/
def readToken (file : Option Utf8Text) : Option FleetSecret :=
  match file with
  | none => none
  | some file => FleetSecret.ofText file.translated

/-- `_load_mesh_token`, with the value of `SHUGOCORE_MESH_TOKEN`. -/
def loadMeshToken (environ : Str) (file : Option Utf8Text) : Option Str :=
  if strip environ ≠ [] then some ((strip environ).take 256)
  else
    match file with
    | none => none
    | some file =>
        match splitWords (strip (file.translated.text.take 512)) with
        | [] => none
        | word :: _ =>
            let cleaned := (strip word).take 256
            if cleaned = [] then none else some cleaned

/-! ## Reading peers back -/

/-- No surrogate pair of the peer is in halves. -/
def FleetPeer.Joined (p : FleetPeer) : Prop := join p.id = p.id ∧ join p.host = p.host

section

variable {φ : Type}

/-- An entry that holds a peer, in the list form. -/
structure HoldsPeer (p : FleetPeer) (entry : Obj φ) : Prop where
  address : getKey (lit "address") entry = none
  id : fetch (lit "id") entry = .str p.id
  host : fetch (lit "host") entry = .str p.host
  port : fetch (lit "port") entry = .int p.port

theorem readBack_toVal {p : FleetPeer} (h : p.Joined) :
    ∃ entry, readBack (p.toVal : PyVal φ) = .dict entry ∧ HoldsPeer p entry := by
  obtain ⟨entry, hentry, hget⟩ : ∃ entry, readBack (p.toVal : PyVal φ) = .dict entry ∧
      ∀ k, getKey (lit k) entry = (getKey (lit k)
        (obj [("id", .str p.id), ("host", .str p.host), ("port", .int p.port)])).map readBack :=
    readBack_obj (by simp)
  refine ⟨entry, hentry, ?_, ?_, ?_, ?_⟩
  · rw [hget]
    simp
  · rw [fetch, hget]
    simp [readBack_str h.1]
  · rw [fetch, hget]
    simp [readBack_str h.2]
  · rw [fetch, hget]
    simp [readBack, doc, joinDoc, load]

theorem textKeyed_toVal (p : FleetPeer) : textKeyed (p.toVal : PyVal φ) = true := by
  simp [FleetPeer.toVal, textKeyed, textKeyedItems, obj, Key.asStr]

theorem textKeyed_peers (peers : List FleetPeer) :
    textKeyed (.list (peers.map FleetPeer.toVal) : PyVal φ) = true := by
  rw [textKeyed]
  induction peers with
  | nil => rfl
  | cons p peers ih => rw [List.map_cons, textKeyedList, textKeyed_toVal, ih]; rfl

theorem dictsOf_map (entries : List (Obj φ)) : dictsOf (entries.map .dict) = entries := by
  induction entries with
  | nil => rfl
  | cons entry entries ih =>
      rw [dictsOf] at ih ⊢
      rw [List.map_cons, List.filterMap_cons_some (show asDict (.dict entry) = some entry from rfl), ih]

variable [Builtins φ]

theorem HoldsPeer.texts {p : FleetPeer} {entry : Obj φ} (h : HoldsPeer p entry) :
    entryText "id" entry = p.id ∧ entryText "host" entry = p.host ∧
      entryText "port" entry = (Literal.ofInt p.port).text := by
  have hport : orElse (.int p.port) (.str []) = (.int p.port : PyVal φ) :=
    if_pos (by simpa [truthy] using ne_of_gt p.valid.port_pos)
  simp only [entryText, h.id, h.host, h.port, orElse_str, hport, strOf, and_self]

theorem HoldsPeer.entryPeer [LawfulBuiltins φ] {p : FleetPeer} {entry : Obj φ}
    (h : HoldsPeer p entry) : entryPeer entry = .ok p := by
  obtain ⟨hid, hhost, hport⟩ := h.texts
  have hread : portOf φ (Literal.ofInt p.port).text = p.port := by
    rw [portOf, LawfulBuiltins.intOfText_ofInt, Option.getD_some]
  simp only [ShugoCore.entryPeer, h.address, hid, hhost, hport, hread, p.valid.id_stripped,
    p.ofParts_self]

theorem HoldsPeer.meshEntry {p : FleetPeer} {entry : Obj φ} (h : HoldsPeer p entry) :
    meshEntry entry = .ok (some p.endpoint) := by
  obtain ⟨hid, hhost, -⟩ := h.texts
  simp only [ShugoCore.meshEntry, h.port, intOf, hid, hhost, p.valid.id_stripped,
    p.valid.host_stripped]
  rw [if_pos ⟨p.valid.id_ne, p.valid.host_ne, p.valid.port_pos, p.valid.port_lt⟩, FleetPeer.endpoint]

variable (φ)

theorem peersText_eq (peers : List FleetPeer) :
    peersText φ peers =
      renderIndented 2 0 (doc (.list (peers.map FleetPeer.toVal) : PyVal φ)) ++ [newline] := by
  rw [peersText, dumpsIndented_eq 2 (textKeyed_peers peers), Option.getD_some]

theorem plain_peersText (peers : List FleetPeer) : Plain (peersText φ peers) := by
  rw [peersText_eq]
  exact (laid_renderIndented 2 _ 0).plain.append fun c hc => by
    rw [List.mem_singleton.1 hc]
    decide

/-- `write_peers_file`. -/
def writePeersFile (peers : List FleetPeer) : Utf8Text := ⟨peersText φ peers, plain_peersText φ peers⟩

variable {φ}

/-- The entries of a file of peers. -/
theorem loadFile_peersText {peers : List FleetPeer} (h : ∀ p ∈ peers, p.Joined) :
    ∃ entries : List (Obj φ), loadFile (peersText φ peers) = some (.list (entries.map .dict)) ∧
      List.Forall₂ HoldsPeer peers entries := by
  rw [peersText_eq, loadFile_renderIndented, readBack_list, List.map_map]
  induction peers with
  | nil => exact ⟨[], rfl, .nil⟩
  | cons p peers ih =>
      rw [List.forall_mem_cons] at h
      obtain ⟨entry, hentry, hp⟩ := readBack_toVal (φ := φ) h.1
      obtain ⟨entries, hentries, hpeers⟩ := ih h.2
      refine ⟨entry :: entries, ?_, .cons hp hpeers⟩
      rw [List.map_cons, List.map_cons, Function.comp_apply, hentry]
      simp only [Option.some.injEq, PyVal.list.injEq] at hentries ⊢
      rw [hentries]

variable (φ)

/-- The peers that are written are read back, and there is nothing to report. -/
theorem readPeersFile_write [LawfulBuiltins φ] {peers : List FleetPeer}
    (h : ∀ p ∈ peers, p.Joined) :
    readPeersFile φ (some (writePeersFile φ peers)) = (peers, []) := by
  obtain ⟨entries, hload, hall⟩ := loadFile_peersText (φ := φ) h
  simp only [readPeersFile, writePeersFile, hload, entriesOf, dictsOf_map]
  clear hload h
  induction hall with
  | nil => rfl
  | @cons p entry _ _ hp _ ih =>
      obtain ⟨hpeers, hproblems⟩ := Prod.mk.inj ih
      have hok := congrArg Except.toOption hp.entryPeer
      have hnone : entryProblem entry = none := by rw [entryProblem, hp.entryPeer]
      rw [List.filterMap_cons_some (f := fun entry => (entryPeer entry).toOption) hok, hpeers,
        List.filterMap_cons_none hnone, hproblems]

/-- The agent reads the peers that are written. -/
theorem loadMeshPeersFile_write {peers : List FleetPeer} (h : ∀ p ∈ peers, p.Joined) :
    loadMeshPeersFile φ (some (writePeersFile φ peers)) = .ok (peers.map FleetPeer.endpoint) := by
  obtain ⟨entries, hload, hall⟩ := loadFile_peersText (φ := φ) h
  have hmesh : entries.mapM meshEntry = .ok ((peers.map FleetPeer.endpoint).map some) := by
    clear hload h
    induction hall with
    | nil => rfl
    | cons hp _ ih => rw [List.mapM_cons, hp.meshEntry, ih]; rfl
  simp only [loadMeshPeersFile, writePeersFile, hload, dictsOf_map, hmesh]
  show Except.ok (((peers.map FleetPeer.endpoint).map some).filterMap id) = _
  rw [List.filterMap_map, Function.id_comp, List.filterMap_some]

end

/-! ## No halves of a pair -/

theorem joined_iff_isChain {s : Str} :
    Py.Joined s ↔ s.IsChain fun h l => ¬ (isHigh h = true ∧ isLow l = true) := by
  induction s with
  | nil => simp [Py.Joined]
  | cons h s ih =>
      cases s with
      | nil => simp [Py.Joined]
      | cons l s => rw [Py.Joined, ih, List.isChain_cons_cons]

theorem join_of_isInfix {s t : Str} (h : t <:+: s) (hs : join s = s) : join t = t := by
  have hchain := joined_iff_isChain.1 (hs ▸ joined_join s)
  obtain ⟨front, back, rfl⟩ := h
  exact join_of_joined (joined_iff_isChain.2 hchain.left_of_append.right_of_append)

theorem join_of_plain {s : Str} (h : Plain s) : join s = s := join_of_joined (joined_of_plain h)

theorem rpartitionAt_within (c : CodePoint) (text : Str) :
    (rpartitionAt c text).1 <:+: text ∧ (rpartitionAt c text).2 <:+: text :=
  ⟨((List.dropLast_prefix _).trans (List.rdropWhile_prefix _ _)).isInfix,
    (List.rtakeWhile_suffix _ _).isInfix⟩

theorem partitionAt_within (c : CodePoint) (text : Str) :
    (partitionAt c text).1 <:+: text ∧ (partitionAt c text).2 <:+: text :=
  ⟨(List.takeWhile_prefix _).isInfix,
    ((List.tail_suffix _).trans (List.dropWhile_suffix _)).isInfix⟩

theorem FleetPeer.joined_ofParts {id host : Str} {port : Int} {p : FleetPeer}
    (h : ofParts id host port = some p) (hid : join id = id) (hhost : join host = host) :
    p.Joined := by
  rw [ofParts] at h
  split at h
  · cases h
    exact ⟨join_of_isInfix (strip_isInfix id) hid, join_of_isInfix (strip_isInfix host) hhost⟩
  · cases h

theorem plain_of_isInfix {s t : Str} (h : t <:+: s) (hs : Plain s) : Plain t :=
  fun c hc => hs c (h.subset hc)

theorem isInfix_intercalate (sep : Str) {l : Str} {ls : List Str} (h : l ∈ ls) :
    l <:+: sep.intercalate ls := by
  induction ls with
  | nil => cases h
  | cons l' ls ih =>
      by_cases hls : ls = []
      · subst hls
        rw [List.mem_singleton.1 h, List.intercalate_singleton]
      · rw [List.intercalate_cons_of_ne_nil hls]
        rcases List.mem_cons.1 h with rfl | h
        · exact ⟨[], sep ++ sep.intercalate ls, by rw [List.nil_append, List.append_assoc]⟩
        · exact (ih h).trans (List.suffix_append _ _).isInfix

section

variable {φ : Type}

/-- An entry whose values can be read from JSON. -/
def EntryJson (entry : Obj φ) : Prop := ∀ k, isJson (fetch (lit k) entry) = true

theorem entryJson_of_entriesOf {data : PyVal φ} (h : isJson data = true) {entries : List (Obj φ)}
    (he : entriesOf data = some entries) {entry : Obj φ} (hentry : entry ∈ entries) :
    EntryJson entry := by
  cases data with
  | dict items =>
      cases he
      obtain ⟨⟨key, v⟩, hi, rfl⟩ := List.mem_map.1 hentry
      obtain ⟨hkey, hv⟩ := isJsonItems_iff.1 (isJson_dict.1 h).1 _ hi
      obtain ⟨s, rfl, hs⟩ := Key.isJson_iff.1 hkey
      intro k
      simp only [fetch, getKey_obj_cons, getKey_obj_nil, Key.toVal]
      split
      · exact decide_eq_true hs
      · split
        · exact hv
        · rfl
  | list xs =>
      cases he
      obtain ⟨x, hx, hdict⟩ := List.mem_filterMap.1 hentry
      cases x with
      | dict items =>
          cases hdict
          rw [isJson, isJsonList_iff] at h
          exact fun k => isJson_fetch (h _ hx) (lit k)
      | _ => cases hdict
  | _ => cases he

variable [Builtins φ]

/-- The peers of a command line have no surrogates at all. -/
theorem joined_parsePeers {spec : Utf8Text} {p : FleetPeer}
    (h : p ∈ (parsePeers φ spec.text).1) : p.Joined := by
  obtain ⟨entry, hentry, hp⟩ := List.mem_filterMap.1 h
  obtain ⟨part, hpart, rfl⟩ := List.mem_map.1 (List.mem_filter.1 hentry).1
  have hpart' := isInfix_intercalate [44] hpart
  rw [List.intercalate_splitOn] at hpart'
  have hplain : Plain (strip part) := plain_of_isInfix ((strip_isInfix part).trans hpart') spec.plain
  simp only [parsePeer] at hp
  split at hp
  · refine FleetPeer.joined_ofParts hp ?_ ?_
    · exact join_of_plain (plain_of_isInfix (partitionAt_within 61 _).1 hplain)
    · exact join_of_plain (plain_of_isInfix
        ((rpartitionAt_within 58 _).1.trans (partitionAt_within 61 _).2) hplain)
  · cases hp

theorem join_strOf [LawfulBuiltins φ] {v : PyVal φ} (h : isJson v = true) :
    join (strOf v) = strOf v := by
  cases v with
  | none => exact join_lit _
  | bool b => cases b <;> exact join_lit _
  | int i => exact join_of_plain (Literal.printable_text (Literal.wf_ofInt i)).plain
  | float x =>
      cases x with
      | nan | posInf | negInf => exact join_lit _
      | finite x => exact join_of_plain (Literal.printable_text (FloatFormat.repr_wf x)).plain
  | str s => exact of_decide_eq_true h
  | list xs => exact join_of_plain (LawfulBuiltins.plain_reprContainer (.list xs))
  | dict items => exact join_of_plain (LawfulBuiltins.plain_reprContainer (.dict items))

theorem join_entryText [LawfulBuiltins φ] {entry : Obj φ} (h : EntryJson entry) (k : String) :
    join (entryText k entry) = entryText k entry := by
  rw [entryText, orElse]
  split
  · exact join_strOf (h k)
  · rfl

theorem joined_of_entryPeer [LawfulBuiltins φ] {entry : Obj φ} (h : EntryJson entry)
    {p : FleetPeer} (hp : entryPeer entry = .ok p) : p.Joined := by
  simp only [entryPeer] at hp
  split at hp
  · rename_i peer hparts
    cases hp
    refine FleetPeer.joined_ofParts hparts ?_ ?_
    · exact join_of_isInfix (strip_isInfix _) (join_entryText h "id")
    · split
      · exact join_of_isInfix (rpartitionAt_within 58 _).1 (join_entryText h "address")
      · exact join_entryText h "host"
  · cases hp

/-- The two readings of a list of peers agree. -/
theorem parseMeshPeers_eq (spec : Str) :
    parseMeshPeers φ spec = (parsePeers φ spec).1.map FleetPeer.endpoint := by
  rw [parseMeshPeers, parsePeers, List.map_filterMap]
  refine List.filterMap_congr fun entry _ => ?_
  by_cases hsep : 61 ∈ entry
  · simp only [parsePeer, hsep, not_true, if_false, if_true, portOf]
    cases Builtins.intOfText φ (rpartitionAt 58 (partitionAt 61 entry).2).2 with
    | none => simp [FleetPeer.ofParts]
    | some port =>
        simp only [Option.getD_some, FleetPeer.ofParts]
        split
        · rename_i hbad
          rw [dif_neg fun hok => hbad.elim hok.1 fun h => h.elim hok.2.1 fun h => h hok.2.2]
          rfl
        · rename_i hok
          rw [dif_pos (by simpa only [not_or, not_not] using hok)]
          rfl
  · simp only [parsePeer, hsep, not_false_eq_true, if_true, if_false]
    rfl

/-- So have the peers of a file. -/
theorem joined_readPeersFile [LawfulBuiltins φ] {file : Option Utf8Text} {p : FleetPeer}
    (h : p ∈ (readPeersFile φ file).1) : p.Joined := by
  cases file with
  | none => cases h
  | some file =>
      simp only [readPeersFile] at h
      split at h
      · cases h
      · rename_i data hdata
        split at h
        · cases h
        · rename_i entries he
          obtain ⟨entry, hentry, hp⟩ := List.mem_filterMap.1 h
          have hjson := entryJson_of_entriesOf (isJson_loadFile file.plain hdata) he hentry
          cases hpeer : entryPeer entry with
          | ok q =>
              rw [hpeer] at hp
              cases hp
              exact joined_of_entryPeer hjson hpeer
          | error peerId =>
              rw [hpeer] at hp
              cases hp

end

/-! ## The secret that is written -/

theorem universalNewlines_append_solid {d : CodePoint} (hd : isSpace d = false) (b : Bool)
    (m r : Str) :
    universalNewlines b (m ++ d :: r) = universalNewlines b m ++ d :: universalNewlines false r := by
  have hcr : d ≠ carriageReturn := by rintro rfl; exact absurd hd (by decide)
  have hnl : d ≠ newline := by rintro rfl; exact absurd hd (by decide)
  induction m generalizing b with
  | nil => simp [universalNewlines, hcr, hnl]
  | cons c m ih =>
      simp only [List.cons_append, universalNewlines, ih]
      split
      · rfl
      · split <;> rfl

theorem newline_mem_universalNewlines {m : Str} (h : carriageReturn ∈ m) (b : Bool) :
    newline ∈ universalNewlines b m := by
  induction m generalizing b with
  | nil => cases h
  | cons c m ih =>
      rw [universalNewlines]
      rcases List.mem_cons.1 h with rfl | h
      · rw [if_pos rfl]
        exact List.mem_cons_self
      · split
        · exact List.mem_cons_self
        · split
          · exact ih h false
          · exact List.mem_cons_of_mem _ (ih h false)

/-- A secret begins and ends with something that is no space. -/
theorem IsSecret.ends {t : Str} (h : IsSecret t) :
    (∃ c, t = [c] ∧ isSpace c = false) ∨
      ∃ c m d, t = c :: (m ++ [d]) ∧ isSpace c = false ∧ isSpace d = false := by
  obtain ⟨hstrip, hne⟩ := h
  have hpre : strip t <+: t.dropWhile isSpace := List.rdropWhile_prefix _ _
  have hlen := hpre.length_le
  rw [hstrip] at hlen
  have hsuffix : t.dropWhile isSpace <:+ t := List.dropWhile_suffix _
  have hdrop : t.dropWhile isSpace = t := hsuffix.eq_of_length (le_antisymm hsuffix.length_le hlen)
  rw [strip, hdrop] at hstrip
  cases t with
  | nil => exact absurd rfl hne
  | cons c t =>
      have hc : isSpace c = false := by
        have hhead := List.dropWhile_eq_self_iff.1 hdrop (Nat.zero_lt_succ _)
        simpa using hhead
      rcases List.eq_nil_or_concat t with rfl | ⟨m, d, rfl⟩
      · exact .inl ⟨c, rfl, hc⟩
      · refine .inr ⟨c, m, d, by rw [List.concat_eq_append], hc, ?_⟩
        have hlast := List.rdropWhile_eq_self_iff.1 hstrip (List.cons_ne_nil _ _)
        simpa using hlast

theorem strip_concat_newline (s : Str) : strip (s ++ [newline]) = strip s := by
  rw [strip, strip, List.dropWhile_append]
  split
  · rename_i hempty
    rw [List.isEmpty_iff.1 hempty]
    rfl
  · rw [List.rdropWhile_concat_pos _ _ _ (by decide)]

/-- Only what is inside of a secret can be read back as something else. -/
theorem IsSecret.read {t : Str} (h : IsSecret t) :
    strip (universalNewlines false (t ++ [newline])) = universalNewlines false t := by
  rcases h.ends with ⟨c, rfl, hc⟩ | ⟨c, m, d, rfl, hc, hd⟩
  · have hread := universalNewlines_append_solid hc false []
    simp only [List.nil_append] at hread
    rw [List.singleton_append, hread, hread, ← List.singleton_append]
    show strip ([c] ++ [newline]) = [c]
    rw [strip_concat_newline, h.stripped]
  · have hread : ∀ r, universalNewlines false (c :: (m ++ d :: r)) =
        c :: (universalNewlines false m ++ d :: universalNewlines false r) := by
      intro r
      have hhead := universalNewlines_append_solid hc false [] (m ++ d :: r)
      rw [List.nil_append] at hhead
      rw [hhead, universalNewlines_append_solid hd]
      rfl
    have hlast : c :: (m ++ [d]) ++ [newline] = c :: (m ++ d :: [newline]) := by simp
    rw [hlast, hread, hread]
    show strip (c :: (universalNewlines false m ++ d :: [newline])) = _
    rw [show c :: (universalNewlines false m ++ d :: [newline]) =
      c :: (universalNewlines false m ++ [d]) ++ [newline] by simp, strip_concat_newline,
      strip_of_ends hc hd]
    rfl

theorem IsSecret.isSecret_read {t : Str} (h : IsSecret t) : IsSecret (universalNewlines false t) := by
  refine ⟨by rw [← h.read, strip_strip], ?_⟩
  rcases h.ends with ⟨c, rfl, hc⟩ | ⟨c, m, d, rfl, hc, -⟩
  · rw [← List.nil_append [c], universalNewlines_append_solid hc]
    exact List.append_ne_nil_of_right_ne_nil _ (List.cons_ne_nil _ _)
  · rw [← List.nil_append (c :: _), universalNewlines_append_solid hc]
    exact List.append_ne_nil_of_right_ne_nil _ (List.cons_ne_nil _ _)

namespace FleetSecret

@[ext] theorem ext {s t : FleetSecret} (h : s.text = t.text) : s = t := by
  cases s
  cases t
  cases h
  rfl

/-- A secret as it is read back. -/
def held (s : FleetSecret) : FleetSecret :=
  ⟨universalNewlines false s.text, plain_universalNewlines s.plain false, s.valid.isSecret_read⟩

theorem held_of_no_return {s : FleetSecret} (h : carriageReturn ∉ s.text) : s.held = s :=
  FleetSecret.ext (universalNewlines_eq_self h)

theorem plain_line (s : FleetSecret) : Plain (s.text ++ [newline]) :=
  s.plain.append fun c hc => by
    rw [List.mem_singleton.1 hc]
    decide

end FleetSecret

/-- `write_token`. -/
def writeToken (s : FleetSecret) : Utf8Text := ⟨s.text ++ [newline], s.plain_line⟩

theorem readToken_write (s : FleetSecret) : readToken (some (writeToken s)) = some s.held := by
  have hread : strip (writeToken s).translated.text = s.held.text := s.valid.read
  have hne : strip (writeToken s).translated.text ≠ [] := hread ▸ s.held.valid.ne
  rw [readToken, FleetSecret.ofText, dif_pos hne]
  exact congrArg some (FleetSecret.ext hread)

theorem return_not_mem_universalNewlines (b : Bool) (s : Str) :
    carriageReturn ∉ universalNewlines b s := by
  induction s generalizing b with
  | nil => exact List.not_mem_nil
  | cons c s ih =>
      rw [universalNewlines]
      split
      · exact fun h => (List.mem_cons.1 h).elim (by decide) (ih true)
      · rename_i hc
        split
        · exact ih false
        · exact fun h => (List.mem_cons.1 h).elim (fun he => hc he.symm) (ih false)

/-- A secret that was read is read back as it is. -/
theorem held_of_readToken {file : Option Utf8Text} {s : FleetSecret}
    (h : readToken file = some s) : s.held = s := by
  refine FleetSecret.held_of_no_return fun hcr => ?_
  cases file with
  | none => cases h
  | some file =>
      rw [readToken, FleetSecret.ofText] at h
      split at h
      · cases h
        exact return_not_mem_universalNewlines false file.text ((strip_isInfix _).subset hcr)
      · cases h

/-! ## The secret of the agent -/

theorem splitWords_singleton (c : CodePoint) :
    splitWords [c] = if isSpace c then [] else [[c]] := (rfl)

theorem splitWords_cons_cons (c d : CodePoint) (s : Str) :
    splitWords (c :: d :: s) =
      if isSpace c then splitWords (d :: s)
      else if isSpace d then [c] :: splitWords s
      else
        match splitWords (d :: s) with
        | [] => [[c]]
        | word :: words => (c :: word) :: words := (rfl)

theorem not_isSpace_of_mem_splitWords : ∀ {s w : Str}, w ∈ splitWords s →
    ∀ c ∈ w, isSpace c = false
  | [], _, h => by cases h
  | [c], w, h => by
      rw [splitWords_singleton] at h
      split at h
      · cases h
      · rename_i hc
        rw [List.mem_singleton.1 h, List.forall_mem_singleton]
        exact Bool.eq_false_iff.2 hc
  | c :: d :: s, w, h => by
      rw [splitWords_cons_cons] at h
      split at h
      · exact not_isSpace_of_mem_splitWords h
      · rename_i hc
        have hword : ∀ x ∈ [c], isSpace x = false :=
          List.forall_mem_singleton.2 (Bool.eq_false_iff.2 hc)
        split at h
        · rcases List.mem_cons.1 h with rfl | h
          · exact hword
          · exact not_isSpace_of_mem_splitWords h
        · split at h
          · rw [List.mem_singleton.1 h]
            exact hword
          · rename_i word words hwords
            rcases List.mem_cons.1 h with rfl | h
            · exact List.forall_mem_cons.2 ⟨hword c List.mem_cons_self,
                not_isSpace_of_mem_splitWords (hwords ▸ List.mem_cons_self)⟩
            · exact not_isSpace_of_mem_splitWords (hwords ▸ List.mem_cons_of_mem word h)

theorem splitWords_word {s : Str} (hne : s ≠ []) (h : ∀ c ∈ s, isSpace c = false) :
    splitWords s = [s] := by
  induction s with
  | nil => exact absurd rfl hne
  | cons c s ih =>
      rw [List.forall_mem_cons] at h
      cases s with
      | nil => rw [splitWords_singleton, if_neg (by simp [h.1])]
      | cons d s =>
          have hd := h.2 d List.mem_cons_self
          rw [splitWords_cons_cons, if_neg (by simp [h.1]), if_neg (by simp [hd]),
            ih (List.cons_ne_nil d s) h.2]

/-- The agent has the secret that was written if and only if it is one word that is not too long. -/
theorem agent_secret_iff {environ : Str} (henviron : strip environ = []) (s : FleetSecret) :
    loadMeshToken environ (some (writeToken s)) =
        (readToken (some (writeToken s))).map FleetSecret.text ↔
      (∀ c ∈ s.text, isSpace c = false) ∧ s.text.length ≤ 256 := by
  rw [readToken_write, loadMeshToken, if_neg (not_not.2 henviron), Option.map_some]
  constructor
  · intro hload
    simp only at hload
    split at hload
    · cases hload
    · rename_i word _ hwords
      split at hload
      · cases hload
      · have hheld := Option.some.inj hload
        have hword := not_isSpace_of_mem_splitWords (hwords ▸ List.mem_cons_self)
        have hspace : ∀ c ∈ s.held.text, isSpace c = false := by
          rw [← hheld]
          exact fun c hc => hword c ((strip_isInfix word).subset (List.take_subset _ _ hc))
        have hcr : carriageReturn ∉ s.text := fun hcr =>
          absurd (hspace _ (newline_mem_universalNewlines hcr false)) (by decide)
        rw [FleetSecret.held_of_no_return hcr] at hheld hspace
        refine ⟨hspace, ?_⟩
        rw [← hheld]
        exact List.length_take_le _ _
  · rintro ⟨hspace, hlen⟩
    have hcr : carriageReturn ∉ s.text := fun hcr => absurd (hspace _ hcr) (by decide)
    have hread : (writeToken s).translated.text = s.text ++ [newline] := by
      refine universalNewlines_eq_self fun hmem => ?_
      rcases List.mem_append.1 hmem with hmem | hmem
      · exact hcr hmem
      · exact absurd (List.mem_singleton.1 hmem) (by decide)
    have htake : (s.text ++ [newline]).take 512 = s.text ++ [newline] := by
      rw [List.take_of_length_le]
      rw [List.length_append, List.length_singleton]
      omega
    simp only [hread, htake, strip_concat_newline, s.valid.stripped,
      splitWords_word s.valid.ne hspace, List.take_of_length_le hlen, if_neg s.valid.ne,
      FleetSecret.held_of_no_return hcr]

theorem agent_secret_iff_word :
    let s : FleetSecret := ⟨lit "0f0f", plain_lit _, by decide, by decide⟩
    loadMeshToken [] (some (writeToken s)) =
        (readToken (some (writeToken s))).map FleetSecret.text ↔
      (∀ c ∈ s.text, isSpace c = false) ∧ s.text.length ≤ 256 := by
  intro s
  exact agent_secret_iff (by decide) s

/-! ## Conversions for closed terms -/

/-- Floats for closed terms, with a conversion that reads numbers as JSON does. -/
def JsonFloat : Type := WholeFloat

instance : Builtins JsonFloat where
  toFloatFormat := inferInstanceAs (FloatFormat WholeFloat)
  reprContainer _ := []
  intOfText s :=
    match (parse s : Option (Json WholeFloat)) with
    | some (.int i) => some i
    | _ => none

theorem intOfText_jsonFloat (i : Int) :
    Builtins.intOfText JsonFloat (Literal.ofInt i).text = some i := by
  have hparse : (parse (Literal.ofInt i).text : Option (Json WholeFloat)) = some (.int i) :=
    parse_render standard_compact (.int i)
  simp only [Builtins.intOfText, hparse]

theorem plain_reprContainer_jsonFloat (v : PyVal JsonFloat) : Plain (Builtins.reprContainer v) :=
  fun _ hc => by cases hc

instance : LawfulBuiltins JsonFloat := ⟨intOfText_jsonFloat, plain_reprContainer_jsonFloat⟩

end ShugoCore
