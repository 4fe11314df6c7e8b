import ShugoCore.Security
import ShugoCore.Lib.JsonSize
import ShugoCore.Lib.JsonTorn

/-!
# Requests to a peer

The parts of `agent_runtime.py` that every request to a peer goes through.  A request has
one reply, which is any JSON value, or none when the peer cannot be reached or what it
sent cannot be read.

A frame is a JSON text and a newline.  The text is ASCII, so its characters are its bytes
here.  The requester reads pieces of any size until it has a newline, or more than
`max_frame_bytes`.  A frame up to that size is read whatever the pieces are
(`encodeFrame_spec`), and one that is more than two bytes longer may not be
(`oneShotReply_of_oversized`).
-/

namespace ShugoCore

open Py

variable {φ : Type} [Builtins φ]

/-- What `_one_shot_request` returns. -/
abbrev Reply (φ : Type) := Option (PyVal φ)

/-- `_peer_error`: the reason of a reply that is no answer. -/
def peerError : PyVal φ → Option Str
  | .dict resp =>
      if isText (lit "error") (fetch (lit "type") resp) ||
          isText (lit "error") (fetch (lit "status") resp) then
        some ((strOf (orElse (fetch (lit "message") resp) (orElse (fetch (lit "reason") resp)
          (.str (lit "peer reported error"))))).take 200)
      else none
  | _ => some (lit "malformed peer reply")

/-- What a reply comes to, by `if not resp` and `_peer_error`. -/
inductive Answered (φ : Type) where
  | unreachable
  | refused (reason : Str)
  | answer (resp : Obj φ)

/-- The two checks that every request makes of its reply. -/
def answered : Reply φ → Answered φ
  | none => .unreachable
  | some resp =>
      if !truthy resp then .unreachable
      else
        match peerError resp, resp with
        | some reason, _ => .refused reason
        | none, .dict answer => .answer answer
        | none, _ => .unreachable

/-! ## Frames -/

/-- `_encode_frame`.  `none` is the `TypeError` of keys that do not compare. -/
def encodeFrame (message : Obj φ) : Option Str :=
  (dumps spaced (.dict message)).map fun text => text ++ [10]

/-- The receive loop of `_one_shot_request`, over what `recv` returns until the peer closes
the connection. -/
def receive (maxFrame : Nat) : Str → List Str → Str
  | buf, [] => buf
  | buf, chunk :: chunks =>
      if 10 ∈ buf then buf
      else if chunk.isEmpty then buf
      else if maxFrame < (buf ++ chunk).length then buf ++ chunk
      else receive maxFrame (buf ++ chunk) chunks

/-- The whitespace that `bytes.strip` removes. -/
def isByteSpace (c : CodePoint) : Bool := c = 32 || (9 ≤ c.val && c.val ≤ 13)

/-- The reply that is in a buffer: its first line. -/
def replyOf (buf : Str) : Reply φ :=
  let line := ((buf.takeWhile (· ≠ 10)).dropWhile isByteSpace).rdropWhile isByteSpace
  if line.isEmpty then none else loads line

/-- What `_one_shot_request` returns of the pieces it receives. -/
def oneShotReply (maxFrame : Nat) (chunks : List Str) : Reply φ :=
  replyOf (receive maxFrame [] chunks)

theorem receive_of_newline {maxFrame : Nat} {buf : Str} (h : 10 ∈ buf) (chunks : List Str) :
    receive maxFrame buf chunks = buf := by
  cases chunks with
  | nil => rfl
  | cons chunk chunks => rw [receive, if_pos h]

/-- A piece with the newline in it is the last one. -/
theorem whole_of_newline {body buf rest : Str} (hbody : 10 ∉ body) (hbuf : 10 ∈ buf)
    (h : buf ++ rest = body ++ [10]) : buf = body ++ [10] := by
  rcases List.eq_nil_or_concat rest with rfl | ⟨init, last, rfl⟩
  · rwa [List.append_nil] at h
  · rw [List.concat_eq_append, ← List.append_assoc] at h
    rw [← (List.append_inj' h rfl).1] at hbody
    exact absurd (List.mem_append_left _ hbuf) hbody

/-- A frame that fits is received whole, in whatever pieces it comes. -/
theorem receive_of_fits {maxFrame : Nat} {body buf : Str} {chunks : List Str}
    (hbody : 10 ∉ body) (hfits : (body ++ [10]).length ≤ maxFrame) (hbuf : 10 ∉ buf)
    (hpieces : ∀ chunk ∈ chunks, chunk ≠ []) (hframe : buf ++ chunks.flatten = body ++ [10]) :
    receive maxFrame buf chunks = body ++ [10] := by
  induction chunks generalizing buf with
  | nil =>
      rw [List.flatten_nil, List.append_nil] at hframe
      rw [hframe] at hbuf
      exact absurd (List.mem_append_right _ (List.mem_singleton_self _)) hbuf
  | cons chunk chunks ih =>
      rw [List.flatten_cons, ← List.append_assoc] at hframe
      have hpiece := hpieces chunk List.mem_cons_self
      have hlen : (buf ++ chunk).length ≤ maxFrame := by
        have hle := congrArg List.length hframe
        rw [List.length_append] at hle
        omega
      rw [receive, if_neg hbuf, if_neg (by simpa using hpiece), if_neg (not_lt.2 hlen)]
      by_cases hend : 10 ∈ buf ++ chunk
      · rw [receive_of_newline hend, whole_of_newline hbody hend hframe]
      · exact ih hend (fun c hc => hpieces c (List.mem_cons_of_mem _ hc)) hframe

/-- The characters of an ASCII text are its bytes. -/
theorem length_utf8_of_ascii {s : Str} (h : ∀ c ∈ s, c.val < 0x80) :
    (utf8 s).length = s.length := by
  have hone : (s.map fun _ => 1).sum = s.length := by simp
  rw [utf8, List.length_flatMap, ← hone]
  refine congrArg List.sum (List.map_congr_left fun c hc => ?_)
  rw [if_pos (h c hc)]
  rfl

theorem encodeFrame_eq {message : Obj φ} (h : textKeyed (.dict message) = true) :
    encodeFrame message = some (render spaced (doc (.dict message : PyVal φ)) ++ [10]) := by
  rw [encodeFrame, dumps, encode_eq_doc _ h]
  rfl

/-- The text of a frame has no newline in it, and one byte for each character. -/
theorem frame_bytes (j : Json φ) :
    10 ∉ render spaced j ∧ (utf8 (render spaced j ++ [10])).length = (render spaced j).length + 1 := by
  have hprint : Printable (render spaced j) := printable_spaced j
  refine ⟨fun hmem => absurd (hprint 10 hmem).1 (by decide), ?_⟩
  rw [length_utf8_of_ascii, List.length_append]
  · rfl
  · intro c hc
    rcases List.mem_append.1 hc with hc | hc
    · have hle := (hprint c hc).2
      omega
    · rw [List.mem_singleton.1 hc]
      decide

/-- A text in braces has nothing to strip. -/
theorem strip_braces (t : Str) :
    ((123 :: (t ++ [125])).dropWhile isByteSpace).rdropWhile isByteSpace = 123 :: (t ++ [125]) := by
  rw [List.dropWhile_cons_of_neg (by decide), ← List.cons_append,
    List.rdropWhile_concat_neg _ _ _ (by decide)]

/-- A frame holds the document that was written. -/
theorem replyOf_frame (ms : List (Str × Json φ)) :
    replyOf (render spaced (.obj ms) ++ [10]) = some (load (joinDoc (.obj ms))) := by
  have hline := (frame_bytes (.obj ms : Json φ)).1
  obtain ⟨t, ht⟩ := render_obj_ends spaced ms
  have htake : (render spaced (.obj ms : Json φ) ++ [10]).takeWhile (· ≠ 10) =
      render spaced (.obj ms) := by
    have hall : ∀ c ∈ render spaced (.obj ms : Json φ), decide (c ≠ 10) = true := by
      intro c hc
      refine decide_eq_true ?_
      rintro rfl
      exact hline hc
    rw [List.takeWhile_append_of_pos hall]
    exact List.append_nil _
  simp only [replyOf, htake]
  rw [ht, strip_braces, ← ht, loads, parse_render standard_spaced, ht]
  rfl

/-- A part of it holds nothing. -/
theorem replyOf_cut {ms : List (Str × Json φ)} {n : Nat}
    (h : n < (render spaced (.obj ms : Json φ)).length) :
    (replyOf ((render spaced (.obj ms : Json φ)).take n) : Reply φ) = none := by
  have hline := (frame_bytes (.obj ms : Json φ)).1
  have hwhole : ((render spaced (.obj ms : Json φ)).take n).takeWhile (· ≠ 10) =
      (render spaced (.obj ms : Json φ)).take n := by
    refine List.takeWhile_eq_self_iff.2 fun c hc => decide_eq_true ?_
    rintro rfl
    exact hline (List.mem_of_mem_take hc)
  have hhead : ((render spaced (.obj ms : Json φ)).take n).dropWhile isByteSpace =
      (render spaced (.obj ms : Json φ)).take n := by
    obtain ⟨t, ht⟩ := render_obj_ends spaced ms
    cases n with
    | zero => rfl
    | succ n => rw [ht, List.take_succ_cons, List.dropWhile_cons_of_neg (by decide)]
  simp only [replyOf, hwhole, hhead]
  generalize hpart : ((render spaced (.obj ms : Json φ)).take n).rdropWhile isByteSpace = part
  have hpre : part <+: (render spaced (.obj ms : Json φ)).take n :=
    hpart ▸ List.rdropWhile_prefix _ _
  split
  · rfl
  · rename_i hne
    have hcutoff : part ≠ render spaced (.obj ms : Json φ) := by
      intro heq
      have hle := hpre.length_le
      rw [heq, List.length_take] at hle
      omega
    have hparse := parse_cut standard_spaced tail_nil
      (hpre.trans (List.take_prefix _ _)) (by simpa using hne) (.inl hcutoff)
    rw [List.append_nil] at hparse
    rw [loads, hparse]
    rfl

/-- The frame of a message with text keys: its size, and that it is read back if it fits. -/
theorem encodeFrame_spec {message : Obj φ} (h : textKeyed (.dict message) = true) :
    ∃ frame, encodeFrame message = some frame ∧
      (utf8 frame).length = valueSize (.dict message : PyVal φ) + 1 ∧
      ∀ maxFrame chunks, (utf8 frame).length ≤ maxFrame → (∀ chunk ∈ chunks, chunk ≠ []) →
        chunks.flatten = frame →
        oneShotReply maxFrame chunks = some (readBack (.dict message : PyVal φ)) := by
  refine ⟨_, encodeFrame_eq h, ?_⟩
  rw [← length_render_doc]
  obtain ⟨hline, hbytes⟩ := frame_bytes (doc (.dict message : PyVal φ))
  refine ⟨hbytes, fun maxFrame chunks hfits hpieces hframe => ?_⟩
  rw [hbytes] at hfits
  rw [oneShotReply, receive_of_fits hline (by rwa [List.length_append]) List.not_mem_nil hpieces
    hframe]
  exact replyOf_frame _

/-! ## Frames that are too long -/

/-- Byte by byte, the requester stops after one byte too many. -/
theorem receive_bytes {maxFrame : Nat} {buf rest : Str} (hbuf : buf.length ≤ maxFrame)
    (hlong : maxFrame < (buf ++ rest).length) (hline : 10 ∉ (buf ++ rest).take (maxFrame + 1)) :
    receive maxFrame buf (rest.map fun c => [c]) = (buf ++ rest).take (maxFrame + 1) := by
  induction rest generalizing buf with
  | nil =>
      rw [List.append_nil] at hlong
      exact absurd hlong (not_lt.2 hbuf)
  | cons c rest ih =>
      rw [List.append_cons] at hlong hline ⊢
      have hfirst : buf ++ [c] = (buf ++ [c] ++ rest).take (buf.length + 1) :=
        (List.take_left' (by simp)).symm
      have hnone : 10 ∉ buf := by
        intro hmem
        refine hline (List.take_subset_take_left _ (Nat.succ_le_succ hbuf) ?_)
        rw [← hfirst]
        exact List.mem_append_left _ hmem
      rw [List.map_cons, receive, if_neg hnone, if_neg (by simp)]
      split
      · rename_i hover
        have heq : buf.length = maxFrame := by
          rw [List.length_append, List.length_singleton] at hover
          omega
        rw [← heq]
        exact hfirst
      · rename_i hfits
        exact ih (not_lt.1 hfits) hlong hline

/-- A frame that is more than two bytes too long can come in pieces of which the requester
makes nothing. -/
theorem oneShotReply_of_oversized {message : Obj φ} {maxFrame : Nat}
    (h : textKeyed (.dict message) = true)
    (hlong : maxFrame + 2 < valueSize (.dict message : PyVal φ) + 1) :
    ∃ frame chunks, encodeFrame message = some frame ∧ (∀ chunk ∈ chunks, chunk ≠ []) ∧
      chunks.flatten = frame ∧ (oneShotReply maxFrame chunks : Reply φ) = none := by
  have hflat : ∀ s : Str, (s.map fun c => [c]).flatten = s := by
    intro s
    induction s with
    | nil => rfl
    | cons c s ih => rw [List.map_cons, List.flatten_cons, ih, List.singleton_append]
  refine ⟨_, (render spaced (doc (.dict message : PyVal φ)) ++ [10]).map fun c => [c],
    encodeFrame_eq h, fun chunk hchunk => ?_, hflat _, ?_⟩
  · obtain ⟨c, -, rfl⟩ := List.mem_map.1 hchunk
    exact List.cons_ne_nil _ _
  · rw [← length_render_doc, doc] at hlong
    rw [doc]
    generalize sortMembers (docMembers message) = ms at hlong ⊢
    have hline := (frame_bytes (.obj ms : Json φ)).1
    have hcut : (render spaced (.obj ms : Json φ) ++ [10]).take (maxFrame + 1) =
        (render spaced (.obj ms : Json φ)).take (maxFrame + 1) :=
      List.take_append_of_le_length (by omega)
    have hbuf : receive maxFrame [] ((render spaced (.obj ms : Json φ) ++ [10]).map fun c => [c]) =
        (render spaced (.obj ms : Json φ)).take (maxFrame + 1) := by
      rw [← hcut]
      refine receive_bytes (Nat.zero_le _) ?_ ?_
      · rw [List.nil_append, List.length_append]
        omega
      · rw [List.nil_append, hcut]
        exact fun hmem => hline (List.mem_of_mem_take hmem)
    rw [oneShotReply, hbuf]
    exact replyOf_cut (by omega)

end ShugoCore
