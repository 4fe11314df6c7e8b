import ShugoCore.Mesh.Artifacts

/-!
# Chunks of an artifact

The other side of `fetch_artifact`: `_artifact_chunk_reply` of `agent_runtime.py`, with the clamps
of the constructor and the frame that the reply is sent in.

A chunk is at most half of a frame, which leaves room for base64 and the fields around it. But a
chunk is also at least 16 KiB, and that is more than a small frame holds. A reply fits the frame if
and only if its data, its fields and its newline do (`artifact_chunk_fits_iff`). From frames of 32
KiB on every reply with a name, an id and a sender of common length does
(`artifact_chunk_fits_of_large`).
-/

namespace ShugoCore

open Py

/-! ## Base64 -/

/-- The base64 alphabet. -/
def base64Alphabet : Str := lit "ABCDEFGHIJKLMNOPQRSTUVWXYZabcdefghijklmnopqrstuvwxyz0123456789+/"

/-- The character of six bits. -/
def sextetChar (n : Nat) : CodePoint := base64Alphabet.getD n 61

/-- `base64.b64encode(data).decode("ascii")`, three bytes at a time. -/
def b64encode : Bytes → Str
  | [] => []
  | [a] => [sextetChar (a / 4), sextetChar (a % 4 * 16), 61, 61]
  | [a, b] => [sextetChar (a / 4), sextetChar (a % 4 * 16 + b / 16), sextetChar (b % 16 * 4), 61]
  | a :: b :: c :: data =>
      sextetChar (a / 4) :: sextetChar (a % 4 * 16 + b / 16) :: sextetChar (b % 16 * 4 + c / 64) ::
        sextetChar (c % 64) :: b64encode data

theorem length_b64encode (data : Bytes) : (b64encode data).length = 4 * ((data.length + 2) / 3) := by
  fun_induction b64encode data with
  | case1 => rfl
  | case2 a => simp
  | case3 a b => simp
  | case4 a b c data ih =>
      simp only [List.length_cons, ih]
      omega

theorem sextet_sextetChar {n : Nat} (h : n < 64) :
    sextet (sextetChar n) = some n ∧ sextetChar n ≠ 61 := by
  have hall : ∀ n : Fin 64, sextet (sextetChar n) = some n.val ∧ sextetChar n ≠ 61 := by
    decide +kernel
  exact hall ⟨n, h⟩

/-- A character of base64 is one byte, and no surrogate. -/
theorem sextetChar_plain (n : Nat) :
    charSize (sextetChar n) = 1 ∧ isSurrogate (sextetChar n) = false := by
  rcases lt_or_ge n base64Alphabet.length with h | h
  · have hall : ∀ n : Fin base64Alphabet.length,
        charSize (sextetChar n) = 1 ∧ isSurrogate (sextetChar n) = false := by decide +kernel
    exact hall ⟨n, h⟩
  · rw [sextetChar, List.getD_eq_getElem?_getD, List.getElem?_eq_none h]
    decide +kernel

/-- What is encoded is padded to full groups. -/
theorem b64encode_not_surplus (data : Bytes) : b64encode data ∉ surplusPadding := by
  have hlength := length_b64encode data
  simp only [surplusPadding, List.mem_cons, List.not_mem_nil, or_false, not_or]
  constructor
  · intro h
    rw [h, List.length_singleton] at hlength
    omega
  · intro h
    rw [h, List.length_cons, List.length_singleton] at hlength
    omega

/-- A full group is decoded before the rest. -/
theorem b64decode_group {a b c d : CodePoint} {s : Str} (hd : d ≠ 61) (hs : s ∉ surplusPadding) :
    b64decode (a :: b :: c :: d :: s) = do
    let a ← sextet a
    let b ← sextet b
    let c ← sextet c
    let d ← sextet d
    let rest ← b64decode s
    return [a * 4 + b / 16, b % 16 * 16 + c / 4, c % 4 * 64 + d] ++ rest := by
  rw [b64decode]
  · simp only [if_neg hs]
  · intro _ hd'
    exact absurd hd' hd
  · intro hd'
    exact absurd hd' hd

/-- Bytes are decoded to what was encoded. -/
theorem b64decode_b64encode {data : Bytes} (h : ∀ b ∈ data, b < 256) :
    b64decode (b64encode data) = some data := by
  fun_induction b64encode data with
  | case1 => rfl
  | case2 a =>
      have ha : a < 256 := h a (by simp)
      have hhigh := (sextet_sextetChar (n := a / 4) (by omega)).1
      have hlow := (sextet_sextetChar (n := a % 4 * 16) (by omega)).1
      have hbyte : a / 4 * 4 + a % 4 * 16 / 16 = a := by omega
      simp only [b64decode, hhigh, hlow, bind, Option.bind, pure, hbyte]
  | case3 a b =>
      have ha : a < 256 := h a (by simp)
      have hb : b < 256 := h b (by simp)
      have hfirst := (sextet_sextetChar (n := a / 4) (by omega)).1
      have hsecond := (sextet_sextetChar (n := a % 4 * 16 + b / 16) (by omega)).1
      obtain ⟨hthird, hpad⟩ := sextet_sextetChar (n := b % 16 * 4) (by omega)
      have hbytes : a / 4 * 4 + (a % 4 * 16 + b / 16) / 16 = a ∧
          (a % 4 * 16 + b / 16) % 16 * 16 + b % 16 * 4 / 4 = b := by omega
      simp only [b64decode, hfirst, hsecond, hthird, bind, Option.bind, pure, hbytes]
  | case4 a b c data ih =>
      have ha : a < 256 := h a (by simp)
      have hb : b < 256 := h b (by simp)
      have hc : c < 256 := h c (by simp)
      have hfirst := (sextet_sextetChar (n := a / 4) (by omega)).1
      have hsecond := (sextet_sextetChar (n := a % 4 * 16 + b / 16) (by omega)).1
      have hthird := (sextet_sextetChar (n := b % 16 * 4 + c / 64) (by omega)).1
      obtain ⟨hfourth, hpad⟩ := sextet_sextetChar (n := c % 64) (by omega)
      have hrest := ih fun d hd => h d (by simp [hd])
      have hbytes : a / 4 * 4 + (a % 4 * 16 + b / 16) / 16 = a ∧
          (a % 4 * 16 + b / 16) % 16 * 16 + (b % 16 * 4 + c / 64) / 4 = b ∧
          (b % 16 * 4 + c / 64) % 4 * 64 + c % 64 = c := by omega
      rw [b64decode_group hpad (b64encode_not_surplus data)]
      simp only [hfirst, hsecond, hthird, hfourth, hrest, bind, Option.bind, pure, hbytes]
      rfl

theorem b64encode_plain {data : Bytes} :
    ∀ c ∈ b64encode data, charSize c = 1 ∧ isSurrogate c = false := by
  have hpad : charSize 61 = 1 ∧ isSurrogate 61 = false := by decide +kernel
  fun_induction b64encode data with
  | case1 => simp
  | case2 a => simp only [List.forall_mem_cons, sextetChar_plain, hpad, true_and, List.not_mem_nil,
    false_implies,
      implies_true]
  | case3 a b => simp only [List.forall_mem_cons, sextetChar_plain, hpad, true_and,
    List.not_mem_nil, false_implies,
      implies_true]
  | case4 a b c data ih =>
      simp only [List.forall_mem_cons, sextetChar_plain, true_and]
      exact ih

/-- Each character of the text is one byte of the frame. -/
theorem textSize_b64encode (data : Bytes) :
    textSize (b64encode data) = 2 + 4 * ((data.length + 2) / 3) := by
  have hone : (b64encode data).map charSize = (b64encode data).map fun _ => 1 :=
    List.map_congr_left fun c hc => (b64encode_plain c hc).1
  rw [textSize, hone]
  simp [length_b64encode]

theorem join_b64encode (data : Bytes) : join (b64encode data) = b64encode data :=
  join_of_joined (joined_of_plain fun c hc => (b64encode_plain c hc).2)

/-! ## The reply -/

/-- What `artifact_descriptor` says of a file, and what its bytes are when they are read. -/
structure SharedArtifact where
  size : Nat
  sha256 : Str
  /-- `none` is an `OSError`. -/
  content : Option Bytes
  joined : join sha256 = sha256
  bytes : ∀ data ∈ content, ∀ b ∈ data, b < 256

/-- The parts of the runtime that a reply reads. -/
structure ArtifactServer where
  agentId : Str
  maxFrameBytes : Nat
  artifactChunkBytes : Nat
  /-- `artifact_descriptor`. -/
  shared : Str → Option SharedArtifact

/-- `__init__`. -/
def ArtifactServer.new (agentId : Str) (maxFrameBytes artifactChunkBytes : Int)
    (shared : Str → Option SharedArtifact) : ArtifactServer where
  agentId
  maxFrameBytes := (max 1024 maxFrameBytes).toNat
  artifactChunkBytes := (max (16 * 1024) (min artifactChunkBytes (max 1024 maxFrameBytes / 2))).toNat
  shared

variable {φ : Type} [Builtins φ]

/-- An error reply. -/
def artifactError (reason : Str) : Obj φ :=
  obj [("type", .str (lit "error")), ("status", .str (lit "error")), ("reason", .str reason)]

/-- A chunk of an artifact. -/
def artifactChunk (name : Str) (artifact : SharedArtifact) (offset : Int) (data : Bytes) : Obj φ :=
  obj [("type", .str (lit "artifact_chunk")), ("status", .str (lit "ok")), ("name", .str name),
    ("offset", .int offset), ("length", .int data.length), ("total", .int artifact.size),
    ("sha256", .str artifact.sha256), ("data", .str (b64encode data)),
    ("eof", .bool (artifact.size ≤ offset + data.length))]

/-- `handle.seek(offset)` and `handle.read(length)`. -/
def readRange (content : Bytes) (offset length : Int) : Bytes :=
  (content.drop offset.toNat).take length.toNat

/-- `int(msg.get(key) or 0)`. -/
def rangeField (key : String) (msg : Obj φ) : Except Exn Int :=
  intOf (orElse (fetch (lit key) msg) (.int 0))

/-- `_artifact_chunk_reply`. -/
def ArtifactServer.artifactChunkReply (server : ArtifactServer) (msg : Obj φ) : Except Exn (Obj φ) :=
  let name := strOf (orElse (fetch (lit "name") msg) (.str []))
  match if artifactNameOk name then server.shared name else none with
  | none => .ok (artifactError (lit "artifact is not shared by this node"))
  | some artifact =>
      match rangeField "offset" msg, rangeField "length" msg with
      | .error .overflowError, _ | .ok _, .error .overflowError => .error .overflowError
      | .error _, _ | .ok _, .error _ => .ok (artifactError (lit "bad chunk range"))
      | .ok offset, .ok length =>
          let offset := max 0 offset
          let length := min (max 1 length) server.artifactChunkBytes
          match artifact.content with
          | none => .ok (artifactError (lit "artifact unreadable"))
          | some content =>
              -- `seek` takes no offset of more than 63 bits.
              if 2 ^ 63 ≤ offset then .error .overflowError
              else .ok (artifactChunk name artifact offset (readRange content offset length))

/-- The branch of `_dispatch_message` for a chunk. -/
def ArtifactServer.dispatch (server : ArtifactServer) (msg : Obj φ) : Except Exn (Obj φ) := do
  let resp ← server.artifactChunkReply msg
  return setKey (lit "from") (.str server.agentId)
    (setKey (lit "in_response_to") (getOr "id" (.str []) msg) resp)

/-! ## Its size -/

/-- The message asks for a part of a shared file that can be read. -/
structure AsksChunk (server : ArtifactServer) (msg : Obj φ) (name : Str) (artifact : SharedArtifact)
    (content : Bytes) (offset length : Int) : Prop where
  named : strOf (orElse (fetch (lit "name") msg) (.str [])) = name
  accepted : artifactNameOk name = true
  shared : server.shared name = some artifact
  readable : artifact.content = some content
  fromOffset : rangeField "offset" msg = .ok offset
  upToLength : rangeField "length" msg = .ok length
  seekable : offset < 2 ^ 63
  writable : textKeyed (getOr "id" (.str []) msg) = true

/-- The reply to it. -/
def chunkReply (server : ArtifactServer) (msg : Obj φ) (name : Str) (artifact : SharedArtifact)
    (offset : Int) (data : Bytes) : Obj φ :=
  obj [("type", .str (lit "artifact_chunk")), ("status", .str (lit "ok")), ("name", .str name),
    ("offset", .int offset), ("length", .int data.length), ("total", .int artifact.size),
    ("sha256", .str artifact.sha256), ("data", .str (b64encode data)),
    ("eof", .bool (artifact.size ≤ offset + data.length)),
    ("in_response_to", getOr "id" (.str []) msg), ("from", .str server.agentId)]

/-- The bytes that are read for a message. -/
def ArtifactServer.chunkData (server : ArtifactServer) (content : Bytes) (offset length : Int) :
    Bytes :=
  readRange content (max 0 offset) (min (max 1 length) server.artifactChunkBytes)

theorem dispatch_chunk {server : ArtifactServer} {msg : Obj φ} {name : Str}
    {artifact : SharedArtifact} {content : Bytes} {offset length : Int}
    (h : AsksChunk server msg name artifact content offset length) :
    server.dispatch msg =
      .ok (chunkReply server msg name artifact (max 0 offset)
        (server.chunkData content offset length)) := by
  have hseek : ¬ 2 ^ 63 ≤ max 0 offset := not_le.2 (max_lt (by norm_num) h.seekable)
  simp only [ArtifactServer.dispatch, ArtifactServer.artifactChunkReply, h.named, h.accepted,
    if_true, h.shared, h.fromOffset, h.upToLength, h.readable, if_neg hseek, bind, Except.bind,
    pure, Except.pure]
  rw [artifactChunk, setKey_obj (by simp), setKey_obj (by simp)]
  rfl

/-- The bytes of the fields that differ from reply to reply, but for the data. -/
def headerSize (server : ArtifactServer) (msg : Obj φ) (name : Str) (artifact : SharedArtifact)
    (offset : Int) (length : Nat) : Nat :=
  textSize name + (decimal offset).length + (decimal length).length +
    (decimal artifact.size).length + textSize artifact.sha256 +
    (if artifact.size ≤ offset + length then 4 else 5) + valueSize (getOr "id" (.str []) msg) +
    textSize server.agentId

/-- The frame of a reply: base64 makes four bytes of three, and 151 are the same in every one. -/
theorem valueSize_chunkReply (server : ArtifactServer) (msg : Obj φ) (name : Str)
    (artifact : SharedArtifact) (offset : Int) (data : Bytes) :
    valueSize (.dict (chunkReply server msg name artifact offset data) : PyVal φ) + 1 =
      151 + 4 * ((data.length + 2) / 3) +
        headerSize server msg name artifact offset data.length := by
  have hkeys : textSize (lit "type") = 6 ∧ textSize (lit "artifact_chunk") = 16 ∧
      textSize (lit "status") = 8 ∧ textSize (lit "ok") = 4 ∧ textSize (lit "name") = 6 ∧
      textSize (lit "offset") = 8 ∧ textSize (lit "length") = 8 ∧ textSize (lit "total") = 7 ∧
      textSize (lit "sha256") = 8 ∧ textSize (lit "data") = 6 ∧ textSize (lit "eof") = 5 ∧
      textSize (lit "in_response_to") = 16 ∧ textSize (lit "from") = 6 := by decide +kernel
  simp only [chunkReply, obj, List.map_cons, List.map_nil, valueSize, itemsSize, Key.asStr,
    Option.getD_some, hkeys, textSize_b64encode, headerSize, decimal, decide_eq_true_eq]
  omega

/-! ## What fits is read -/

/-- The frame of a message is no longer than a frame may be. -/
def FitsFrame (maxFrame : Nat) (message : Obj φ) : Prop :=
  ∃ frame, encodeFrame message = some frame ∧ (utf8 frame).length ≤ maxFrame

/-- However the frame comes in pieces, the requester writes the bytes. -/
def Delivers (node : ArtifactNode) (maxFrame : Nat) (digest : Str) (offset : Nat) (data : Bytes)
    (message : Obj φ) :
    Prop :=
  ∀ frame ∈ encodeFrame message, ∀ pieces : List Str, (∀ piece ∈ pieces, piece ≠ []) →
    pieces.flatten = frame →
    readChunk node digest offset (oneShotReply maxFrame pieces : Reply φ) = .ok data

omit [Builtins φ] in
theorem textKeyed_chunkReply {server : ArtifactServer} {msg : Obj φ} {name : Str}
    {artifact : SharedArtifact} {offset : Int} {data : Bytes}
    (h : textKeyed (getOr "id" (.str []) msg) = true) :
    textKeyed (.dict (chunkReply server msg name artifact offset data) : PyVal φ) = true := by
  simp [chunkReply, obj, textKeyed, textKeyedItems, Key.asStr, h]

/-- A reply fits if and only if its size does. -/
theorem fits_chunkReply_iff {server : ArtifactServer} {msg : Obj φ} {name : Str}
    {artifact : SharedArtifact} {offset : Int} {data : Bytes} {maxFrame : Nat}
    (h : textKeyed (getOr "id" (.str []) msg) = true) :
    FitsFrame maxFrame (chunkReply server msg name artifact offset data) ↔
      151 + 4 * ((data.length + 2) / 3) + headerSize server msg name artifact offset data.length ≤
        maxFrame := by
  have hkeyed : textKeyed
      (.dict (chunkReply server msg name artifact offset data) : PyVal φ) = true :=
    textKeyed_chunkReply h
  obtain ⟨frame, hframe, hsize, -⟩ := encodeFrame_spec hkeyed
  rw [valueSize_chunkReply] at hsize
  rw [← hsize]
  constructor
  · rintro ⟨frame', hframe', hle⟩
    obtain rfl : frame = frame' := Option.some.inj (hframe.symm.trans hframe')
    exact hle
  · exact fun hle => ⟨frame, hframe, hle⟩

/-- What the requester makes of a reply. -/
theorem answered_chunkReply (server : ArtifactServer) (msg : Obj φ) (name : Str)
    (artifact : SharedArtifact) (offset : Int) (data : Bytes) :
    ∃ d, answered (some (readBack (.dict (chunkReply server msg name artifact offset data)))) =
        .answer d ∧
      fetch (lit "offset") d = .int offset ∧ fetch (lit "sha256") d = .str artifact.sha256 ∧
      fetch (lit "data") d = .str (b64encode data) := by
  obtain ⟨d, hd, hget⟩ : ∃ d,
      readBack (.dict (chunkReply server msg name artifact offset data)) = .dict d ∧
      ∀ k, getKey (lit k) d =
        (getKey (lit k) (chunkReply server msg name artifact offset data)).map readBack :=
    readBack_obj (by simp)
  have hfetch : ∀ k v, getKey (lit k) (chunkReply server msg name artifact offset data) = some v →
      fetch (lit k) d = readBack v := by
    intro k v hv
    rw [fetch, hget, hv, Option.map_some, Option.getD_some]
  have htype : fetch (lit "type") d = .str (lit "artifact_chunk") :=
    (hfetch "type" _ (by simp [chunkReply])).trans (readBack_str (join_lit _))
  have hstatus : fetch (lit "status") d = .str (lit "ok") :=
    (hfetch "status" _ (by simp [chunkReply])).trans (readBack_str (join_lit _))
  have hoffset : fetch (lit "offset") d = .int offset :=
    hfetch "offset" (.int offset) (by simp [chunkReply])
  have hdigest : fetch (lit "sha256") d = .str artifact.sha256 :=
    (hfetch "sha256" _ (by simp [chunkReply])).trans (readBack_str artifact.joined)
  have hdata : fetch (lit "data") d = .str (b64encode data) :=
    (hfetch "data" _ (by simp [chunkReply])).trans (readBack_str (join_b64encode data))
  refine ⟨d, ?_, hoffset, hdigest, hdata⟩
  have hne : d ≠ [] := by
    rintro rfl
    cases htype
  have htruthy : truthy (.dict d : PyVal φ) = true := by simpa [truthy] using hne
  have hokay : peerError (.dict d : PyVal φ) = none := by
    simp [peerError, htype, hstatus, isText]
  simp only [hd, answered, htruthy, hokay, Bool.not_true, Bool.false_eq_true, if_false]

/-- A reply that fits and has bytes is read to the bytes. -/
theorem delivers_chunkReply {server : ArtifactServer} {msg : Obj φ} {name : Str}
    {artifact : SharedArtifact} {offset : Nat} {data : Bytes} {maxFrame : Nat} {node : ArtifactNode}
    (h : textKeyed (getOr "id" (.str []) msg) = true)
    (hfits : FitsFrame maxFrame (chunkReply server msg name artifact offset data))
    (hsome : data ≠ []) (hbytes : ∀ b ∈ data, b < 256)
    (hcap : offset + data.length ≤ node.maxArtifactBytes) :
    Delivers node maxFrame artifact.sha256 offset data
      (chunkReply server msg name artifact offset data) := by
  intro frame hmem pieces hpieces hflat
  obtain ⟨frame', hframe', hle⟩ := hfits
  obtain rfl : frame' = frame := Option.some.inj (hframe'.symm.trans hmem)
  have hkeyed : textKeyed
      (.dict (chunkReply server msg name artifact offset data) : PyVal φ) = true :=
    textKeyed_chunkReply h
  obtain ⟨frame'', hframe'', -, hread⟩ := encodeFrame_spec hkeyed
  obtain rfl : frame'' = frame' := Option.some.inj (hframe''.symm.trans hframe')
  rw [hread maxFrame pieces hle hpieces hflat]
  obtain ⟨d, hanswer, hoffset, hdigest, hdata⟩ :=
    answered_chunkReply server msg name artifact offset data
  have hdecoded := b64decode_b64encode hbytes
  obtain ⟨b, rest, rfl⟩ := List.exists_cons_of_ne_nil hsome
  rw [readChunk, hanswer]
  simp only [hoffset, hdigest, hdata, orElse_str, strOf, intOf, ne_eq, not_true_eq_false, if_false,
    hdecoded, if_neg (not_lt.2 hcap)]

/-! ## The configuration -/

/-- How many bytes are read: what is asked for, or a chunk, or the rest of the file. -/
def chunkLength (maxFrameBytes artifactChunkBytes : Int) (size : Nat) (offset length : Int) : Nat :=
  min
    (min (max 1 length) (max (16 * 1024) (min artifactChunkBytes (max 1024 maxFrameBytes / 2)))).toNat
    (size - (max 0 offset).toNat)

/-- The reply fits one frame, and the requester gets the bytes, if there are any. -/
structure Arrives (maxFrame : Nat) (digest : Str) (offset : Nat) (data : Bytes) (reply : Obj φ) :
    Prop where
  fits : FitsFrame maxFrame reply
  delivers : data ≠ [] → ∀ node : ArtifactNode, offset + data.length ≤ node.maxArtifactBytes →
    Delivers node maxFrame digest offset data reply

variable {agentId name : Str} {maxFrameBytes artifactChunkBytes offset length : Int}
  {shared : Str → Option SharedArtifact} {msg : Obj φ} {artifact : SharedArtifact} {content : Bytes}

theorem length_chunkData (agentId : Str) (maxFrameBytes artifactChunkBytes : Int)
    (shared : Str → Option SharedArtifact) (content : Bytes) (offset length : Int) :
    ((ArtifactServer.new agentId maxFrameBytes artifactChunkBytes shared).chunkData content offset
      length).length =
      chunkLength maxFrameBytes artifactChunkBytes content.length offset length := by
  have hchunk :
      ((max (16 * 1024) (min artifactChunkBytes (max 1024 maxFrameBytes / 2))).toNat : Int) =
        max (16 * 1024) (min artifactChunkBytes (max 1024 maxFrameBytes / 2)) :=
    Int.toNat_of_nonneg (le_trans (by norm_num) (le_max_left _ _))
  simp only [ArtifactServer.chunkData, ArtifactServer.new, readRange, List.length_take,
    List.length_drop, chunkLength, hchunk]

/-- For every configuration, name and offset, the reply to a request for a chunk arrives if and only
if its data, its fields and its newline fit a frame. -/
theorem artifact_chunk_fits_iff
    (h : AsksChunk (.new agentId maxFrameBytes artifactChunkBytes shared) msg name artifact content
      offset length) :
    ∃ reply,
      (ArtifactServer.new agentId maxFrameBytes artifactChunkBytes shared).dispatch msg = .ok reply ∧
      (Arrives (max 1024 maxFrameBytes).toNat artifact.sha256 (max 0 offset).toNat
          ((ArtifactServer.new agentId maxFrameBytes artifactChunkBytes shared).chunkData content
            offset length) reply ↔
        151 +
            4 * ((chunkLength maxFrameBytes artifactChunkBytes content.length offset length + 2) / 3) +
            headerSize (.new agentId maxFrameBytes artifactChunkBytes shared) msg name artifact
              (max 0 offset)
              (chunkLength maxFrameBytes artifactChunkBytes content.length offset length) ≤
          (max 1024 maxFrameBytes).toNat) := by
  refine ⟨_, dispatch_chunk h, ?_⟩
  rw [← length_chunkData agentId maxFrameBytes artifactChunkBytes shared]
  have hoffset : ((max 0 offset).toNat : Int) = max 0 offset := Int.toNat_of_nonneg (le_max_left _ _)
  constructor
  · exact fun harrives => (fits_chunkReply_iff h.writable).1 harrives.fits
  · intro hsize
    have hfits := (fits_chunkReply_iff h.writable).2 hsize
    refine ⟨hfits, fun hsome node hcap => ?_⟩
    have hbytes : ∀ b ∈ (ArtifactServer.new agentId maxFrameBytes artifactChunkBytes shared).chunkData
        content offset length, b < 256 := fun b hb =>
      artifact.bytes content h.readable b (List.mem_of_mem_drop (List.mem_of_mem_take hb))
    rw [← hoffset] at hfits ⊢
    exact delivers_chunkReply h.writable hfits hsome hbytes hcap

/-- In frames of 32 KiB and more, it arrives if the other fields take less than a third. -/
theorem artifact_chunk_fits_of_large
    (h : AsksChunk (.new agentId maxFrameBytes artifactChunkBytes shared) msg name artifact content
      offset length) (hlarge : 32 * 1024 ≤ maxFrameBytes)
    (hheader : headerSize (.new agentId maxFrameBytes artifactChunkBytes shared) msg name artifact
        (max 0 offset) (chunkLength maxFrameBytes artifactChunkBytes content.length offset length) +
      155 ≤ maxFrameBytes / 3) :
    ∃ reply,
      (ArtifactServer.new agentId maxFrameBytes artifactChunkBytes shared).dispatch msg = .ok reply ∧
      FitsFrame (max 1024 maxFrameBytes).toNat reply := by
  refine ⟨_, dispatch_chunk h, (fits_chunkReply_iff h.writable).2 ?_⟩
  rw [length_chunkData]
  have hhalf : (chunkLength maxFrameBytes artifactChunkBytes content.length offset length : Int) ≤
      maxFrameBytes / 2 := by
    have hle : chunkLength maxFrameBytes artifactChunkBytes content.length offset length ≤
        (max (16 * 1024) (min artifactChunkBytes (max 1024 maxFrameBytes / 2))).toNat :=
      (min_le_left _ _).trans (Int.toNat_le_toNat (min_le_right _ _))
    omega
  omega

/-! ## A small frame -/

/-- A file as it is described and read. -/
def SharedArtifact.ofFile (content : Bytes) (h : ∀ b ∈ content, b < 256) : SharedArtifact where
  size := content.length
  sha256 := hexdigest (Sha256.digest content)
  content := some content
  joined := join_of_joined (joined_of_plain (hex_hexdigest _).plain)
  bytes := fun _ hdata => Option.some.inj hdata ▸ h

/-- A request for a number of bytes of a file, from its beginning. -/
def requestOf (name : String) (length : Nat) : Obj WholeFloat :=
  obj [("type", .str (lit "artifact")), ("from", .str (lit "a")), ("name", .str (lit name)),
    ("offset", .int 0), ("length", .int length), ("id", .str (lit "1"))]

theorem asks_requestOf {name : String} (hok : artifactNameOk (lit name) = true) {content : Bytes}
    (h : ∀ b ∈ content, b < 256) (length : Nat) (maxFrameBytes artifactChunkBytes : Int) :
    AsksChunk (.new (lit "b") maxFrameBytes artifactChunkBytes fun _ => some (.ofFile content h))
      (requestOf name length) (lit name) (.ofFile content h) content 0 length where
  named := by
    have hname : fetch (lit "name") (requestOf name length) = .str (lit name) := by
      simp [fetch, requestOf]
    rw [hname, orElse_str, strOf]
  accepted := hok
  shared := rfl
  readable := rfl
  fromOffset := by simp [rangeField, requestOf, fetch, orElse, truthy, intOf]
  upToLength := by
    have hlength : fetch (lit "length") (requestOf name length) = .int length := by
      simp [fetch, requestOf]
    rw [rangeField, hlength, orElse_int, intOf]
  seekable := by norm_num
  writable := by simp [requestOf, getOr, textKeyed]

/-- With the default frame, a file of one byte arrives. -/
theorem one_byte_arrives : ∃ reply : Obj WholeFloat,
    (ArtifactServer.new (lit "b") 1048576 196608 fun _ => some (.ofFile [97] (by decide))).dispatch
        (requestOf "a" 1) = .ok reply ∧
      Arrives 1048576 (hexdigest (Sha256.digest [97])) 0 [97] reply := by
  have hok : artifactNameOk (lit "a") = true := by decide +kernel
  have h := asks_requestOf hok (by decide : ∀ b ∈ [97], b < 256) 1 1048576 196608
  obtain ⟨reply, hreply, harrives⟩ := artifact_chunk_fits_iff h
  exact ⟨reply, hreply, harrives.2 (by decide +kernel)⟩

/-- A file of 16 KiB. -/
def zeros : Bytes := List.replicate 16384 0

theorem zeros_lt : ∀ b ∈ zeros, b < 256 := by
  intro b hb
  rw [List.eq_of_mem_replicate hb]
  decide

/-- A frame of one KiB has no room for a chunk of the least size. -/
theorem zeros_do_not_arrive : ∃ reply : Obj WholeFloat,
    (ArtifactServer.new (lit "b") 1024 196608 fun _ => some (.ofFile zeros zeros_lt)).dispatch
        (requestOf "zeros" 16384) = .ok reply ∧
      ¬ FitsFrame 1024 reply := by
  have hok : artifactNameOk (lit "zeros") = true := by decide +kernel
  have h := asks_requestOf hok zeros_lt 16384 1024 196608
  refine ⟨_, dispatch_chunk h, fun hfits => ?_⟩
  have hsize := (fits_chunkReply_iff h.writable).1 hfits
  have hlength : chunkLength 1024 196608 zeros.length 0 16384 = 16384 := by
    rw [zeros, List.length_replicate]
    decide
  rw [length_chunkData, show ((16384 : Nat) : Int) = 16384 from rfl, hlength] at hsize
  omega

end ShugoCore
