import ShugoCore.Mesh.Merging

/-!
# The page of a sync reply on the wire

The reply of `_dispatch_message` to a `sync` request, from the fact table to the bytes.
A page has at most 200 facts, and the content of a fact at most 2000 characters.  Neither
bounds the frame: a character outside ASCII takes six or twelve bytes, and the metadata of
a fact has no bound.  So there are pages that no requester can read, and a requester that
cannot read a page asks for it again.

`syncFrameSize` is the size of the frame, as a sum over the facts of the page.
-/

namespace ShugoCore

open Py

/-- What the wire form of a row takes from the interpreter and the database. -/
structure WireForm (φ μ : Type) where
  /-- The text of a time stamp. -/
  iso : IsoSeconds → Str
  iso_plain : ∀ t, Plain (iso t)
  iso_ne_nil : ∀ t, iso t ≠ []
  /-- The float in the `salience` column. -/
  salience : ℚ → PyFloat φ
  /-- What `json.loads` makes of the `metadata` column. -/
  metadata : FactRow μ → { d : Obj φ // isJson (.dict d) = true }

variable {φ μ : Type} [Builtins φ]

/-- `facts_since`, for any value of `since`.  A text that SQLite cannot encode raises, and
`_memory_export` makes an empty page of that. -/
def exportedFacts (w : WireForm φ μ) (m : SemanticMemory μ) (since : PyVal φ) :
    List (FactRow μ) :=
  let newer (row : FactRow μ) : Bool := !truthy since || decide (strOf since < w.iso row.createdAt)
  if truthy since = true ∧ ¬ Plain (strOf since) then []
  else
    ((m.rows.filter newer).insertionSort SemanticMemory.Before).take (SemanticMemory.pageSize 200)

/-- `_shareable_fact`. -/
def wireFact (w : WireForm φ μ) (row : FactRow μ) : Obj φ :=
  obj [("content", .str row.content), ("kind", .str row.kind),
    ("salience", .float (w.salience row.salience)), ("created_at", .str (w.iso row.createdAt)),
    ("metadata", .dict (w.metadata row).1)]

/-- The reply to a `sync` request. -/
def syncResult (w : WireForm φ μ) (agentId : Str) (msgId since : PyVal φ)
    (facts : List (FactRow μ)) : Obj φ :=
  obj [("type", .str (lit "sync_result")), ("in_response_to", msgId), ("from", .str agentId),
    ("since", since), ("facts", .list (facts.map fun row => .dict (wireFact w row))),
    ("count", .int facts.length)]

/-! ## Sizes -/

/-- The bytes of a row on the wire. -/
def rowSize (w : WireForm φ μ) (row : FactRow μ) : Nat :=
  67 + textSize row.content + textSize row.kind + (floatText (w.salience row.salience)).length +
    textSize (w.iso row.createdAt) + valueSize (.dict (w.metadata row).1 : PyVal φ)

/-- The bytes of a reply. -/
def syncFrameSize (w : WireForm φ μ) (agentId : Str) (msgId since : PyVal φ)
    (facts : List (FactRow μ)) : Nat :=
  87 + valueSize msgId + textSize agentId + valueSize since +
    max 2 (facts.map fun row => rowSize w row + 2).sum + (Literal.ofInt facts.length).text.length

theorem valueSize_wireFact (w : WireForm φ μ) (row : FactRow μ) :
    valueSize (.dict (wireFact w row)) = rowSize w row := by
  have hkeys : itemsSize (wireFact w row) = rowSize w row := by
    simp only [wireFact, obj, List.map_cons, List.map_nil, itemsSize, Key.asStr, Option.getD_some,
      valueSize, rowSize]
    have h1 : textSize (lit "content") = 9 := by decide
    have h2 : textSize (lit "kind") = 6 := by decide
    have h3 : textSize (lit "salience") = 10 := by decide
    have h4 : textSize (lit "created_at") = 12 := by decide
    have h5 : textSize (lit "metadata") = 10 := by decide
    omega
  rw [valueSize, hkeys, rowSize]
  omega

theorem valueSize_syncResult (w : WireForm φ μ) (agentId : Str) (msgId since : PyVal φ)
    (facts : List (FactRow μ)) :
    valueSize (.dict (syncResult w agentId msgId since facts)) + 1 =
      syncFrameSize w agentId msgId since facts := by
  have hfacts : elemsSize (facts.map fun row => (.dict (wireFact w row) : PyVal φ)) =
      (facts.map fun row => rowSize w row + 2).sum := by
    induction facts with
    | nil => rfl
    | cons row facts ih =>
        rw [List.map_cons, elemsSize, ih, valueSize_wireFact, List.map_cons, List.sum_cons]
  have hkeys : itemsSize (syncResult w agentId msgId since facts) + 1 =
      syncFrameSize w agentId msgId since facts := by
    simp only [syncResult, obj, List.map_cons, List.map_nil, itemsSize, Key.asStr,
      Option.getD_some, valueSize, syncFrameSize, hfacts]
    have h1 : textSize (lit "type") = 6 := by decide
    have h2 : textSize (lit "in_response_to") = 16 := by decide
    have h3 : textSize (lit "from") = 6 := by decide
    have h4 : textSize (lit "since") = 7 := by decide
    have h5 : textSize (lit "facts") = 7 := by decide
    have h6 : textSize (lit "count") = 7 := by decide
    have h7 : textSize (lit "sync_result") = 13 := by decide
    omega
  rw [valueSize, ← hkeys]
  have hlong : 2 ≤ itemsSize (syncResult w agentId msgId since facts) := by
    rw [syncFrameSize] at hkeys
    omega
  rw [max_eq_right hlong]

/-! ## What the requester makes of the reply -/

omit [Builtins φ] in
theorem textKeyed_syncResult (w : WireForm φ μ) (agentId : Str) {msgId since : PyVal φ}
    (hid : isJson msgId = true) (hsince : isJson since = true) (facts : List (FactRow μ)) :
    textKeyed (.dict (syncResult w agentId msgId since facts)) = true := by
  have hrow : ∀ row, textKeyed (.dict (wireFact w row)) = true := by
    intro row
    have hmeta := textKeyed_of_isJson _ (w.metadata row).2
    simp [wireFact, obj, textKeyed, textKeyedItems, Key.asStr] at hmeta ⊢
    exact hmeta
  have hfacts : textKeyedList (facts.map fun row => (.dict (wireFact w row) : PyVal φ)) = true := by
    induction facts with
    | nil => rfl
    | cons row facts ih =>
        rw [List.map_cons, textKeyedList, hrow, ih]
        rfl
  simp [syncResult, obj, textKeyed, textKeyedItems, Key.asStr, hfacts,
    textKeyed_of_isJson _ hid, textKeyed_of_isJson _ hsince]

/-- The time of a fact that was read back. -/
theorem newest_wireFact (w : WireForm φ μ) (row : FactRow μ) :
    newest (readBack (.dict (wireFact w row))) = some (.str (w.iso row.createdAt)) := by
  obtain ⟨d, hd, hget⟩ : ∃ d, readBack (.dict (wireFact w row)) = .dict d ∧
      ∀ k, getKey (lit k) d = (getKey (lit k) (wireFact w row)).map readBack :=
    readBack_obj (by simp)
  have htime : fetch (lit "created_at") d = .str (w.iso row.createdAt) := by
    have hplain := join_of_joined (joined_of_plain (w.iso_plain row.createdAt))
    rw [fetch, hget, wireFact]
    simp [readBack_str hplain]
  rw [hd, newest, createdAt, htime, if_pos]
  simpa [truthy] using w.iso_ne_nil row.createdAt

/-- The reply that was read back is an answer with the facts of the page. -/
theorem replyEntries_syncResult (w : WireForm φ μ) (agentId : Str) (msgId since : PyVal φ)
    (facts : List (FactRow μ)) :
    replyEntries (some (readBack (.dict (syncResult w agentId msgId since facts)))) =
      facts.map fun row => readBack (.dict (wireFact w row)) := by
  obtain ⟨d, hd, hget⟩ : ∃ d, readBack (.dict (syncResult w agentId msgId since facts)) = .dict d ∧
      ∀ k, getKey (lit k) d =
        (getKey (lit k) (syncResult w agentId msgId since facts)).map readBack :=
    readBack_obj (by simp)
  have htype : fetch (lit "type") d = .str (lit "sync_result") := by
    rw [fetch, hget, syncResult]
    simp [readBack_str]
  have hstatus : fetch (lit "status") d = .none := by
    rw [fetch, hget, syncResult]
    simp
  have hfacts : fetch (lit "facts") d =
      .list (facts.map fun row => readBack (.dict (wireFact w row))) := by
    rw [fetch, hget, syncResult]
    simp [readBack_list]
  have hanswer : answered (some (.dict d)) = .answer d := by
    have hne : d ≠ [] := by
      rintro rfl
      cases htype
    have herror : peerError (.dict d) = none := by
      simp [peerError, htype, hstatus, isText]
    simp [answered, truthy, hne, herror]
  rw [hd, replyEntries, hanswer]
  dsimp only
  generalize facts.map (fun row => readBack (.dict (wireFact w row))) = entries at hfacts
  rw [replyFacts, hfacts]
  cases entries with
  | nil => rfl
  | cons entry entries => rfl

/-- The requester's watermark moves to the last fact of the page. -/
theorem movesTo_syncResult (w : WireForm φ μ) (agentId : Str) (msgId since : PyVal φ)
    (facts : List (FactRow μ)) :
    movesTo (some (readBack (.dict (syncResult w agentId msgId since facts)))) =
      facts.getLast?.map fun row => .str (w.iso row.createdAt) := by
  rw [movesTo, replyEntries_syncResult, List.getLast?_map]
  cases facts.getLast? with
  | none => rfl
  | some row => rw [Option.map_some, Option.bind_some, Option.map_some, newest_wireFact]

/-- A reply can be read, if and only if its facts fit into a frame. -/
theorem sync_reply_readable_iff (w : WireForm φ μ) (maxFrame : Nat) (agentId : Str)
    (msgId since : { v : PyVal φ // isJson v = true }) (m : SemanticMemory μ) :
    let page := exportedFacts w m since.1
    (∃ frame, encodeFrame (syncResult w agentId msgId.1 since.1 page) = some frame ∧
        (utf8 frame).length ≤ maxFrame ∧
        ∀ chunks, (∀ chunk ∈ chunks, chunk ≠ []) → chunks.flatten = frame →
          ∃ reply : PyVal φ, oneShotReply maxFrame chunks = some reply ∧
            movesTo (some reply) = page.getLast?.map fun row => .str (w.iso row.createdAt)) ↔
      syncFrameSize w agentId msgId.1 since.1 page ≤ maxFrame := by
  intro page
  obtain ⟨frame, hframe, hsize, hread⟩ :=
    encodeFrame_spec (textKeyed_syncResult w agentId msgId.2 since.2 page)
  rw [valueSize_syncResult] at hsize
  rw [← hsize]
  constructor
  · rintro ⟨frame', hframe', hfits, -⟩
    rw [hframe] at hframe'
    rwa [Option.some.inj hframe']
  · intro hfits
    refine ⟨frame, hframe, hfits, fun chunks hpieces hflat => ?_⟩
    exact ⟨_, hread maxFrame chunks hfits hpieces hflat, movesTo_syncResult w agentId _ _ page⟩

/-- A page that is more than two bytes too long can be lost on the way, each time it is sent. -/
theorem oversized_page_lost (w : WireForm φ μ) {maxFrame : Nat} {agentId : Str}
    {msgId since : PyVal φ} (hid : isJson msgId = true) (hsince : isJson since = true)
    {page : List (FactRow μ)} (hlong : maxFrame + 2 < syncFrameSize w agentId msgId since page) :
    ∃ frame chunks, encodeFrame (syncResult w agentId msgId since page) = some frame ∧
      (∀ chunk ∈ chunks, chunk ≠ []) ∧ chunks.flatten = frame ∧
      (oneShotReply maxFrame chunks : Reply φ) = none := by
  refine oneShotReply_of_oversized (textKeyed_syncResult w agentId hid hsince page) ?_
  rwa [valueSize_syncResult]

/-- Metadata with one text of `n` letters. -/
def longMetadata (n : Nat) : { d : Obj WholeFloat // isJson (.dict d) = true } :=
  ⟨obj [("k", .str (List.replicate n 97))], by
    have hplain : Plain (List.replicate n 97) := by
      intro c hc
      rw [List.eq_of_mem_replicate hc]
      decide
    simp [obj, isJson, isJsonItems, Key.isJson, join_of_joined (joined_of_plain hplain)]⟩

/-- A wire form for closed terms, right for the first second and whole saliences. -/
def plainForm : WireForm WholeFloat { d : Obj WholeFloat // isJson (.dict d) = true } where
  iso _ := lit "1970-01-01T00:00:00+00:00"
  iso_plain _ := plain_lit _
  iso_ne_nil _ := by decide
  salience q := .finite ⟨⌊q⌋⟩
  metadata row := row.metadata

/-- A table with one fact. -/
def longFact (n : Nat) : SemanticMemory { d : Obj WholeFloat // isJson (.dict d) = true } :=
  SemanticMemory.empty.storeFact 0 (lit "a") (lit "fact") 1 (longMetadata n) none

/-- The frame of its page is longer than the text. -/
theorem longFact_frame (n : Nat) :
    ∃ frame, encodeFrame (syncResult plainForm (lit "b") (.str (lit "1")) .none
        (exportedFacts plainForm (longFact n) .none)) = some frame ∧
      n < (utf8 frame).length := by
  have htext : textKeyed (.dict (syncResult plainForm (lit "b") (.str (lit "1")) .none
      (exportedFacts plainForm (longFact n) .none))) = true :=
    textKeyed_syncResult _ _ (by decide) rfl _
  obtain ⟨frame, hframe, hsize, -⟩ := encodeFrame_spec htext
  refine ⟨frame, hframe, ?_⟩
  obtain ⟨row, hpage, hmeta⟩ : ∃ row, exportedFacts plainForm (longFact n) .none = [row] ∧
      row.metadata = longMetadata n := ⟨_, rfl, rfl⟩
  have hlong : n ≤ valueSize (.dict (longMetadata n).1) := by
    show n ≤ max 2 (itemsSize (obj [("k", .str (List.replicate n 97))]))
    simp only [obj, List.map_cons, List.map_nil, itemsSize, valueSize, textSize_replicate]
    have hletter : charSize 97 = 1 := by decide
    rw [hletter]
    omega
  rw [valueSize_syncResult, hpage, syncFrameSize] at hsize
  simp only [List.map_cons, List.map_nil, List.sum_cons, rowSize, plainForm, hmeta] at hsize
  omega

/-- One fact with a long text in its metadata does not fit into a frame of one megabyte. -/
theorem long_metadata_does_not_fit :
    ∃ frame, encodeFrame (syncResult plainForm (lit "b") (.str (lit "1")) .none
        (exportedFacts plainForm (longFact 1048576) .none)) = some frame ∧
      ¬ (utf8 frame).length ≤ 1048576 := by
  obtain ⟨frame, hframe, hlong⟩ := longFact_frame 1048576
  exact ⟨frame, hframe, not_le.2 hlong⟩

end ShugoCore
