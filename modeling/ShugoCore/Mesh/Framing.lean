import ShugoCore.Lib.LineStream
import ShugoCore.Mesh.Requests

/-!
# Frames on a connection

`_PeerServer._handle_client` of `agent_runtime.py`.  A connection brings frames, one a line,
in pieces that know nothing of lines.  Each line is decoded and checked, and what passes is
dispatched.

A byte is the code point of its value here.  `handleLine` is what the server does with a line,
and the loop around it is the reader of `LineStream`.  Frames within the cap are dispatched
alike however they are cut.  But the check raises where it compares a token that is not
ASCII, and the exception ends the connection, so what comes after it is lost
(`dispatched_accepted_iff`).
-/

namespace ShugoCore

open Py LineStream

variable {φ : Type} [Builtins φ]

/-! ## Lines -/

/-- The low bits of a continuation byte. -/
def continuation (c : CodePoint) : Option Nat :=
  if 0x80 ≤ c.val ∧ c.val ≤ 0xBF then some (c.val - 0x80) else none

/-- `bytes.decode("utf-8")`.  `none` is the `UnicodeDecodeError`. -/
def decodeUtf8 : Str → Option Str
  | [] => some []
  | a :: s =>
      if a.val < 0x80 then (decodeUtf8 s).map (a :: ·)
      else if 0xC2 ≤ a.val ∧ a.val ≤ 0xDF then
        match s with
        | b :: s => do
            let b ← continuation b
            let rest ← decodeUtf8 s
            return Fin.ofNat 0x110000 ((a.val - 0xC0) * 64 + b) :: rest
        | [] => none
      else if 0xE0 ≤ a.val ∧ a.val ≤ 0xEF then
        match s with
        | b :: c :: s => do
            let b ← continuation b
            let c ← continuation c
            let point := (a.val - 0xE0) * 4096 + b * 64 + c
            -- Neither overlong nor a surrogate.
            if point < 0x800 ∨ (0xD800 ≤ point ∧ point ≤ 0xDFFF) then none
            let rest ← decodeUtf8 s
            return Fin.ofNat 0x110000 point :: rest
        | _ => none
      else if 0xF0 ≤ a.val ∧ a.val ≤ 0xF4 then
        match s with
        | b :: c :: d :: s => do
            let b ← continuation b
            let c ← continuation c
            let d ← continuation d
            let point := (a.val - 0xF0) * 262144 + b * 4096 + c * 64 + d
            if point < 0x10000 ∨ 0x10FFFF < point then none
            let rest ← decodeUtf8 s
            return Fin.ofNat 0x110000 point :: rest
        | _ => none
      else none

/-- `bytes.strip`. -/
def stripBytes (line : Str) : Str := (line.dropWhile isByteSpace).rdropWhile isByteSpace

/-- `json.loads(line.decode("utf-8"))`. -/
def loadsBytes (line : Str) : Option (PyVal φ) := (decodeUtf8 line).bind loads

/-! ## The secret -/

/-- `_PeerServer`. -/
structure PeerServer where
  maxFrameBytes : Nat
  authToken : Option Str

/-- `str.isascii`. -/
def isAscii (s : Str) : Bool := s.all fun c => c.val < 0x80

/-- `hmac.compare_digest` of two texts. -/
def compareDigest (a b : Str) : Except Exn Bool :=
  if isAscii a && isAscii b then .ok (a = b) else .error .typeError

/-- The check of the token. -/
def tokenReason (token : Str) (msg : Obj φ) : Except Exn (Option Str) :=
  let presented := fetch (lit "token") msg
  if !truthy presented then
    .ok (some (lit "mesh token missing (this node gates every frame; give the sender SHUGOCORE_MESH_TOKEN)"))
  else do
    let same ← compareDigest (strOf presented) token
    .ok (if same then none else some (lit "mesh token does not match this node's"))

/-- The message has a type. -/
def typed (msg : Obj φ) : Bool :=
  match fetch (lit "type") msg with
  | .str t => !t.isEmpty
  | _ => false

/-- `_accepts_reason`.  `none` is a frame that is accepted. -/
def acceptsReason (server : PeerServer) : PyVal φ → Except Exn (Option Str)
  | .dict msg =>
      if !typed msg then .ok (some (lit "no message type"))
      else
        match server.authToken with
        | some token => if token.isEmpty then .ok none else tokenReason token msg
        | none => .ok none
  | _ => .ok (some (lit "not a JSON object"))

/-! ## The connection -/

/-- What comes of a line. -/
def handleLine (server : PeerServer) (line : Str) : LineEnd (PyVal φ) :=
  let line := stripBytes line
  if line.isEmpty then .skipped
  else if server.maxFrameBytes < line.length then .skipped
  else
    match loadsBytes line with
    | none => .skipped
    | some msg =>
        match acceptsReason server msg with
        | .error _ => .stopped
        | .ok (some _) => .skipped
        | .ok none => .emitted msg

/-- The reader of a connection. -/
def connection (server : PeerServer) : Reader CodePoint (PyVal φ) :=
  ⟨10, server.maxFrameBytes, handleLine server⟩

/-- `_handle_client`: the messages that are dispatched of what `recv` returns.  An exception
of the dispatch is caught, and nobody stops the server. -/
def handleClient (server : PeerServer) (pieces : List (Option Str)) : List (PyVal φ) :=
  serve (connection server) [] pieces

/-- The message of a frame, if the server accepts it. -/
def accepted (server : PeerServer) (frame : Str) : Option (PyVal φ) :=
  (loadsBytes (stripBytes frame)).filter fun msg =>
    match acceptsReason server msg with
    | .ok none => true
    | _ => false

/-- The check raises: the frame presents a token, and the token of the frame or that of the
server is not ASCII. -/
def Chokes (φ : Type) [Builtins φ] (server : PeerServer) (frame : Str) : Prop :=
  ∃ (msg : Obj φ) (token : Str), loadsBytes (stripBytes frame) = some (.dict msg) ∧
    typed msg = true ∧ server.authToken = some token ∧ token ≠ [] ∧
    truthy (fetch (lit "token") msg) = true ∧
    (isAscii (strOf (fetch (lit "token") msg)) && isAscii token) = false

theorem acceptsReason_raises_iff (server : PeerServer) (msg : PyVal φ) :
    (∃ e, acceptsReason server msg = .error e) ↔ ∃ fields token, msg = .dict fields ∧
      typed fields = true ∧ server.authToken = some token ∧ token ≠ [] ∧
      truthy (fetch (lit "token") fields) = true ∧
      (isAscii (strOf (fetch (lit "token") fields)) && isAscii token) = false := by
  constructor
  · rintro ⟨e, h⟩
    unfold acceptsReason at h
    split at h
    · rename_i fields
      split at h
      · cases h
      · rename_i htyped
        split at h
        · rename_i token htoken
          split at h
          · cases h
          · rename_i hne
            unfold tokenReason at h
            dsimp only at h
            split at h
            · cases h
            · rename_i htruthy
              unfold compareDigest at h
              split at h
              · cases h
              · rename_i hascii
                exact ⟨fields, token, rfl, by simpa using htyped, htoken, by simpa using hne,
                  by simpa using htruthy, by simpa using hascii⟩
        · cases h
    · cases h
  · rintro ⟨fields, token, rfl, htyped, htoken, hne, htruthy, hascii⟩
    refine ⟨.typeError, ?_⟩
    have hsome : token.isEmpty = false := by simpa using hne
    simp only [acceptsReason, htyped, htoken, hsome, tokenReason, htruthy, compareDigest, hascii]
    rfl

theorem length_stripBytes_le (line : Str) : (stripBytes line).length ≤ line.length :=
  ((List.rdropWhile_prefix _ _).length_le).trans (List.dropWhile_suffix _).length_le

theorem loadsBytes_nil : (loadsBytes [] : Option (PyVal φ)) = none := rfl

/-- The outcomes of a line. -/
theorem handleLine_cases (server : PeerServer) (line : Str) :
    (handleLine server line = (.skipped : LineEnd (PyVal φ)) ∧
        (server.maxFrameBytes < line.length ∨ accepted server line = (none : Option (PyVal φ)))) ∨
      (∃ msg : PyVal φ, handleLine server line = .emitted msg ∧ accepted server line = some msg) ∨
      (handleLine server line = (.stopped : LineEnd (PyVal φ)) ∧ Chokes φ server line ∧
        accepted server line = (none : Option (PyVal φ))) := by
  unfold handleLine accepted
  dsimp only
  split
  · rename_i hempty
    rw [List.isEmpty_iff] at hempty
    rw [hempty]
    exact .inl ⟨rfl, .inr rfl⟩
  · split
    · rename_i hlong
      exact .inl ⟨rfl, .inl (Nat.lt_of_lt_of_le hlong (length_stripBytes_le line))⟩
    · cases hload : (loadsBytes (stripBytes line) : Option (PyVal φ)) with
      | none => exact .inl ⟨rfl, .inr rfl⟩
      | some msg =>
          dsimp only
          rw [Option.filter_some]
          cases hreason : acceptsReason server msg with
          | error e =>
              obtain ⟨fields, token, rfl, hrest⟩ := (acceptsReason_raises_iff _ _).1 ⟨e, hreason⟩
              exact .inr (.inr ⟨rfl, ⟨fields, token, hload, hrest⟩, rfl⟩)
          | ok reason =>
              cases reason with
              | none => exact .inr (.inl ⟨msg, rfl, rfl⟩)
              | some reason => exact .inl ⟨rfl, .inr rfl⟩

/-- What the server dispatches it accepts. -/
theorem accepted_of_emitted {server : PeerServer} {line : Str} {msg : PyVal φ}
    (h : handleLine server line = .emitted msg) : accepted server line = some msg := by
  rcases handleLine_cases (φ := φ) server line with ⟨hline, -⟩ | ⟨msg', hline, haccepted⟩ | ⟨hline, -⟩
  · cases hline.symm.trans h
  · cases hline.symm.trans h
    exact haccepted
  · cases hline.symm.trans h

theorem accepted_of_skipped {server : PeerServer} {line : Str}
    (hcap : line.length ≤ server.maxFrameBytes)
    (h : handleLine server line = (.skipped : LineEnd (PyVal φ))) :
    accepted server line = (none : Option (PyVal φ)) := by
  rcases handleLine_cases (φ := φ) server line with ⟨-, hlong | haccepted⟩ | ⟨msg, hline, -⟩ |
    ⟨hline, -⟩
  · exact absurd hcap (not_le.2 hlong)
  · exact haccepted
  · cases hline.symm.trans h
  · cases hline.symm.trans h

theorem chokes_of_stopped {server : PeerServer} {line : Str}
    (h : handleLine server line = (.stopped : LineEnd (PyVal φ))) :
    Chokes φ server line ∧ accepted server line = (none : Option (PyVal φ)) := by
  rcases handleLine_cases (φ := φ) server line with ⟨hline, -⟩ | ⟨msg, hline, -⟩ | ⟨-, hrest⟩
  · cases hline.symm.trans h
  · cases hline.symm.trans h
  · exact hrest

/-- A frame within the cap on which the check raises ends the connection. -/
theorem Chokes.stopped {server : PeerServer} {line : Str} (h : Chokes φ server line)
    (hcap : line.length ≤ server.maxFrameBytes) :
    handleLine server line = (.stopped : LineEnd (PyVal φ)) := by
  obtain ⟨fields, token, hload, hrest⟩ := h
  have hraises : ∃ e, acceptsReason server (.dict fields) = .error e :=
    (acceptsReason_raises_iff _ _).2 ⟨fields, token, rfl, hrest⟩
  obtain ⟨e, he⟩ := hraises
  have hstrip : (stripBytes line).length ≤ server.maxFrameBytes :=
    (length_stripBytes_le line).trans hcap
  have hsome : (stripBytes line).isEmpty = false := by
    rw [← Bool.not_eq_true, List.isEmpty_iff]
    intro hempty
    rw [hempty, loadsBytes_nil] at hload
    cases hload
  simp only [handleLine, hsome, not_lt.2 hstrip, hload, he]
  rfl

/-! ## The reply to a request -/

/-- The reply in a buffer of bytes: its first line. -/
def readReply (buf : Str) : Reply φ :=
  let line := stripBytes (buf.takeWhile (· ≠ 10))
  if line.isEmpty then none else loadsBytes line

/-- What `_one_shot_request` returns of the pieces it receives. -/
def oneShotRead (maxFrame : Nat) (chunks : List Str) : Reply φ :=
  readReply (receive maxFrame [] chunks)

/-! ## Every cut -/

/-- Frames within the cap, cut into pieces of any size.  What is dispatched is the same for
every cut.  It is the accepted frames in their order exactly if no frame on which the check
raises has an accepted frame after it.  The reply to a request is the same for every cut of a
frame that fits with its newline. -/
theorem dispatched_accepted_iff (server : PeerServer) (frames : List Str)
    (hlines : ∀ frame ∈ frames, 10 ∉ frame)
    (hcap : ∀ frame ∈ frames, frame.length ≤ server.maxFrameBytes) :
    (∀ pieces pieces', LineStream.Cut (connection (φ := φ) server) frames pieces →
        LineStream.Cut (connection (φ := φ) server) frames pieces' →
        (handleClient server pieces : List (PyVal φ)) = handleClient server pieces') ∧
      ((∀ pieces, LineStream.Cut (connection (φ := φ) server) frames pieces →
          handleClient server pieces = (frames.filterMap (accepted server) : List (PyVal φ))) ↔
        ∀ frame rest, frame :: rest <:+ frames → Chokes φ server frame →
          ∀ later ∈ rest, accepted server later = (none : Option (PyVal φ))) ∧
      ∀ maxFrame body chunks, 10 ∉ body → (body ++ [10]).length ≤ maxFrame →
        (∀ chunk ∈ chunks, chunk ≠ []) → chunks.flatten = body ++ [10] →
        (oneShotRead maxFrame chunks : Reply φ) = readReply (body ++ [10]) := by
  have hwhole : Whole (connection (φ := φ) server) frames := hlines
  refine ⟨fun pieces pieces' h h' => ?_, ?_, ?_⟩
  · have hread := (serve_reading hwhole h).eq_read hcap
    have hread' := (serve_reading hwhole h').eq_read hcap
    exact hread.trans hread'.symm
  · refine (serve_eq_filterMap_iff (r := connection server) (fun _ _ => accepted_of_emitted)
      (fun _ hle => accepted_of_skipped hle) hwhole).trans ?_
    constructor
    · intro h frame rest hsuffix hchokes later hlater
      by_contra hne
      have hgo := (h frame rest hsuffix ⟨later, List.mem_cons_of_mem _ hlater, hne⟩).2
      exact hgo (hchokes.stopped (hcap frame (hsuffix.subset List.mem_cons_self)))
    · rintro h frame rest hsuffix ⟨later, hlater, hne⟩
      refine ⟨hcap frame (hsuffix.subset List.mem_cons_self), fun hstop => ?_⟩
      obtain ⟨hchokes, hnone⟩ := chokes_of_stopped hstop
      rcases List.mem_cons.1 hlater with rfl | hlater
      · exact hne hnone
      · exact hne (h frame rest hsuffix hchokes later hlater)
  · intro maxFrame body chunks hbody hfits hpieces hframe
    rw [oneShotRead, receive_of_fits hbody hfits List.not_mem_nil hpieces hframe]

/-- A frame with a token of another alphabet, and one with the right token. -/
def strangerThenHolder : List Str :=
  [lit "\x7b\"type\": \"a\", \"token\": \"\\u00e9\"\x7d",
    lit "\x7b\"type\": \"b\", \"token\": \"key\"\x7d"]

/-- A server with the token `key`. -/
def keyServer : PeerServer := ⟨1024, some (lit "key")⟩

/-- The holder alone is dispatched however it is cut. -/
theorem holder_dispatched :
    let frames := strangerThenHolder.drop 1
    (∀ frame ∈ frames, 10 ∉ frame) ∧ (∀ frame ∈ frames, frame.length ≤ keyServer.maxFrameBytes) ∧
      ∀ pieces, LineStream.Cut (connection (φ := WholeFloat) keyServer) frames pieces →
        handleClient keyServer pieces =
          (frames.filterMap (accepted keyServer) : List (PyVal WholeFloat)) := by
  have hlines : ∀ frame ∈ strangerThenHolder.drop 1, 10 ∉ frame := by decide +kernel
  have hcap : ∀ frame ∈ strangerThenHolder.drop 1, frame.length ≤ keyServer.maxFrameBytes := by
    decide +kernel
  refine ⟨hlines, hcap, (dispatched_accepted_iff keyServer _ hlines hcap).2.1.2 ?_⟩
  rintro frame rest hsuffix - later hlater
  have hlen := hsuffix.length_le
  cases rest with
  | nil => cases hlater
  | cons next rest => exact absurd hlen (by simp [strangerThenHolder])

/-- After the stranger it is not. -/
theorem holder_lost_after_stranger :
    (∀ frame ∈ strangerThenHolder, 10 ∉ frame ∧ frame.length ≤ keyServer.maxFrameBytes) ∧
      (strangerThenHolder.filterMap (accepted (φ := WholeFloat) keyServer)).length = 1 ∧
      ¬ ∀ pieces, LineStream.Cut (connection (φ := WholeFloat) keyServer) strangerThenHolder pieces →
        handleClient keyServer pieces =
          (strangerThenHolder.filterMap (accepted keyServer) : List (PyVal WholeFloat)) := by
  have hone : (strangerThenHolder.filterMap (accepted (φ := WholeFloat) keyServer)).length = 1 := by
    decide +kernel
  have hnone : (handleClient (φ := WholeFloat) keyServer
      (bytes (stream (connection (φ := WholeFloat) keyServer) strangerThenHolder))).length = 0 := by
    decide +kernel
  refine ⟨by decide +kernel, hone, fun h => ?_⟩
  have hsame := congrArg List.length (h _ (cut_bytes strangerThenHolder))
  rw [hnone, hone] at hsame
  cases hsame

end ShugoCore
