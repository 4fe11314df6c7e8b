import ShugoCore.Mesh.Framing

/-!
# The mesh secret

`_stamp` of `agent_runtime.py` on one side of a connection, and the check of the token on the
other.  A holder of the secret stamps its messages; anybody may put any line on the wire.

What is dispatched always presents the secret.  That every frame of a holder is dispatched is
another matter: the comparison raises on a text that is not ASCII and takes the connection
with it, and a frame over the cap is not read.  `secret_admits_holders_iff` says what has to
be true of the frames up to the last one that is to get through.
-/

namespace ShugoCore

open Py LineStream

variable {φ : Type} [Builtins φ]

/-! ## What is on the wire -/

/-- `_stamp`. -/
def stamp (authToken : Option Str) (msg : Obj φ) : Obj φ :=
  match authToken with
  | some token => if token.isEmpty then msg else setKey (lit "token") (.str token) msg
  | none => msg

/-- A JSON message with a type. -/
structure TypedMessage (φ : Type) [Builtins φ] where
  fields : Obj φ
  json : isJson (.dict fields) = true
  hasType : typed fields = true

/-- A line on the wire: of a holder of the secret, or of anybody. -/
inductive Sent (φ : Type) [Builtins φ] where
  | stamped (msg : TypedMessage φ)
  | raw (line : Str) (whole : 10 ∉ line)

/-- The line, without the newline that `_encode_frame` puts at its end. -/
def Sent.line (token : Str) : Sent φ → Str
  | .stamped msg => (dumps spaced (.dict (stamp (some token) msg.fields))).getD []
  | .raw line _ => line

/-- The message presents the secret. -/
def presents (token : Str) : PyVal φ → Bool
  | .dict msg =>
      typed msg && truthy (fetch (lit "token") msg) && strOf (fetch (lit "token") msg) = token
  | _ => false

/-- The message that is to be dispatched of a line: every message of a holder, and what else
presents the secret. -/
def wanted (token : Str) : Sent φ → Option (PyVal φ)
  | .stamped msg => some (readBack (.dict (stamp (some token) msg.fields)))
  | .raw line _ => (loadsBytes (stripBytes line)).filter (presents token)

/-- Up to the last line that is to be dispatched, every line is within the cap and none makes
the comparison raise. -/
def Unobstructed (server : PeerServer) (token : Str) (items : List (Sent φ)) : Prop :=
  ∀ item rest, item :: rest <:+ items → (∃ later ∈ item :: rest, wanted token later ≠ none) →
    (item.line token).length ≤ server.maxFrameBytes ∧ ¬ Chokes φ server (item.line token)

/-! ## The check -/

/-- A frame is accepted if it presents the secret, and the secret is ASCII. -/
theorem acceptsReason_none_iff (maxFrame : Nat) {token : Str} (htoken : token ≠ []) (msg : PyVal φ) :
    acceptsReason ⟨maxFrame, some token⟩ msg = .ok none ↔
      presents token msg = true ∧ isAscii token = true := by
  have hsome : token.isEmpty = false := by simpa using htoken
  cases msg with
  | dict fields =>
      simp only [acceptsReason, presents, hsome, tokenReason, compareDigest, bind, Except.bind]
      cases htyped : typed fields with
      | false => simp
      | true =>
          cases htruthy : truthy (fetch (lit "token") fields) with
          | false => simp
          | true =>
              by_cases hsame : strOf (fetch (lit "token") fields) = token
              · rw [hsame]
                cases isAscii token <;> simp
              · cases isAscii (strOf (fetch (lit "token") fields)) && isAscii token <;> simp [hsame]
  | none | bool _ | int _ | float _ | str _ | list _ => simp [acceptsReason, presents]

theorem accepted_eq_some_iff {maxFrame : Nat} {token : Str} (htoken : token ≠ []) {line : Str}
    {msg : PyVal φ} :
    accepted ⟨maxFrame, some token⟩ line = some msg ↔
      loadsBytes (stripBytes line) = some msg ∧ presents token msg = true ∧ isAscii token = true := by
  rw [accepted, Option.filter_eq_some_iff, ← acceptsReason_none_iff maxFrame htoken]
  refine and_congr_right fun _ => ?_
  split
  · rename_i h
    simp [h]
  · rename_i h
    simp only [Bool.false_eq_true, false_iff]
    exact fun h' => h h'

/-! ## The lines of holders -/

/-- ASCII bytes are the characters of a text. -/
theorem decodeUtf8_ascii {s : Str} (h : ∀ c ∈ s, c.val < 0x80) : decodeUtf8 s = some s := by
  induction s with
  | nil => rfl
  | cons c s ih =>
      rw [List.forall_mem_cons] at h
      unfold decodeUtf8
      rw [if_pos h.1, ih h.2]
      rfl

/-- A JSON text is read from its bytes. -/
theorem loadsBytes_render (ms : List (Str × Json φ)) :
    loadsBytes (stripBytes (render spaced (.obj ms))) = some (load (joinDoc (.obj ms))) := by
  obtain ⟨t, ht⟩ := render_obj_ends spaced ms
  have hascii : ∀ c ∈ render spaced (.obj ms : Json φ), c.val < 0x80 := fun c hc =>
    Nat.lt_succ_of_le (Nat.le_succ_of_le (printable_spaced (.obj ms : Json φ) c hc).2)
  rw [ht, stripBytes, strip_braces, ← ht, loadsBytes, decodeUtf8_ascii hascii, Option.bind_some,
    loads, parse_render standard_spaced]
  rfl

section Stamped

variable {token : Str}

omit [Builtins φ] in
theorem stamp_eq (htoken : token ≠ []) (fields : Obj φ) :
    stamp (some token) fields = setKey (lit "token") (.str token) fields := by
  have hsome : token.isEmpty = false := by simpa using htoken
  simp only [stamp, hsome]
  rfl

/-- The line of a message is its document. -/
theorem line_stamped (htoken : token ≠ []) (msg : TypedMessage φ) :
    (Sent.stamped msg).line token =
      render spaced (doc (.dict (stamp (some token) msg.fields) : PyVal φ)) := by
  have hkeyed : textKeyed (.dict (stamp (some token) msg.fields) : PyVal φ) = true := by
    rw [stamp_eq htoken]
    exact textKeyedItems_setKey rfl (textKeyed_of_isJson _ msg.json)
  rw [Sent.line, dumps, encode_eq_doc _ hkeyed]
  rfl

theorem loadsBytes_stamped (htoken : token ≠ []) (msg : TypedMessage φ) :
    loadsBytes (stripBytes ((Sent.stamped msg).line token)) =
      some (readBack (.dict (stamp (some token) msg.fields) : PyVal φ)) := by
  rw [line_stamped htoken, doc, loadsBytes_render]
  rfl

/-- A message of a holder, read from the wire: it has its type, and the token up to surrogates. -/
theorem readBack_stamped (htoken : token ≠ []) (msg : TypedMessage φ) :
    ∃ read, readBack (.dict (stamp (some token) msg.fields)) = .dict read ∧ typed read = true ∧
      fetch (lit "token") read = .str (join token) := by
  obtain ⟨hitems, hnodup⟩ := isJson_dict.1 msg.json
  have hkeys : ∀ i ∈ setKey (lit "token") (.str token) msg.fields, i.1.isJson = true :=
    isJson_keys_setKey (join_lit _) fun i hi => (isJsonItems_iff.1 hitems i hi).1
  obtain ⟨read, hread, hget⟩ := readBack_dict hkeys (nodup_keys_setKey hitems hnodup)
  refine ⟨read, by rw [stamp_eq htoken, hread], ?_, ?_⟩
  · have htype := msg.hasType
    have hne : lit "token" ≠ lit "type" := by decide
    simp only [typed, fetch] at htype ⊢
    rw [hget, getKey_setKey_of_ne hne]
    cases hold : getKey (lit "type") msg.fields with
    | none =>
        rw [hold] at htype
        cases htype
    | some v =>
        rw [hold, Option.getD_some] at htype
        rw [Option.map_some, Option.getD_some]
        cases v with
        | str t =>
            have hjson := (isJsonItems_iff.1 hitems _ (mem_of_getKey hold)).2
            rw [readBack_str (of_decide_eq_true hjson)]
            exact htype
        | none | bool _ | int _ | float _ | list _ | dict _ => cases htype
  · simp only [fetch]
    rw [hget, getKey_setKey_self, Option.map_some, Option.getD_some, readBack, doc, joinDoc, load]

theorem truthy_join (htoken : token ≠ []) : truthy (.str (join token) : PyVal φ) = true := by
  simpa [truthy] using join_ne_nil htoken

omit [Builtins φ] in
theorem join_of_isAscii (h : isAscii token = true) : join token = token := by
  refine join_of_joined (joined_of_plain fun c hc => ?_)
  have hlt : c.val < 0x80 := by simpa using List.all_eq_true.1 h c hc
  simp only [isSurrogate, Bool.and_eq_false_iff, decide_eq_false_iff_not]
  exact .inl (by omega)

end Stamped

/-! ## The connection -/

section Connection

variable (maxFrame : Nat) {token : Str}

theorem whole_lines (htoken : token ≠ []) (items : List (Sent φ)) :
    Whole (connection (φ := φ) ⟨maxFrame, some token⟩) (items.map (Sent.line token)) := by
  intro line hline
  obtain ⟨item, -, rfl⟩ := List.mem_map.1 hline
  cases item with
  | stamped msg =>
      rw [line_stamped htoken]
      exact (frame_bytes _).1
  | raw line whole => exact whole

/-- With an ASCII secret, what is wanted is what the server accepts. -/
theorem wanted_eq_accepted (htoken : token ≠ []) (hascii : isAscii token = true)
    (item : Sent φ) : wanted token item = accepted ⟨maxFrame, some token⟩ (item.line token) := by
  have haccepted (line : Str) : accepted ⟨maxFrame, some token⟩ line =
      (loadsBytes (stripBytes line) : Option (PyVal φ)).filter (presents token) := by
    ext msg
    rw [accepted_eq_some_iff htoken, Option.filter_eq_some_iff, hascii]
    simp
  cases item with
  | raw line whole => exact (haccepted line).symm
  | stamped msg =>
      obtain ⟨read, hread, htyped, hpresented⟩ := readBack_stamped htoken msg
      have hpresents : presents token (.dict read : PyVal φ) = true := by
        rw [presents, htyped, hpresented, truthy_join htoken, strOf, join_of_isAscii hascii]
        simp
      rw [haccepted, loadsBytes_stamped htoken, wanted, hread, Option.filter_some, hpresents]
      rfl

/-- A secret that is not ASCII raises on whatever is to be dispatched. -/
theorem chokes_of_wanted (htoken : token ≠ []) (hascii : isAscii token = false) {item : Sent φ}
    (h : wanted token item ≠ none) : Chokes φ ⟨maxFrame, some token⟩ (item.line token) := by
  cases item with
  | raw line whole =>
      obtain ⟨msg, hmsg⟩ := Option.ne_none_iff_exists'.1 h
      obtain ⟨hload, hpresents⟩ := Option.filter_eq_some_iff.1 hmsg
      cases msg with
      | dict fields =>
          simp only [presents, Bool.and_eq_true] at hpresents
          exact ⟨fields, token, hload, hpresents.1.1, rfl, htoken, hpresents.1.2, by simp [hascii]⟩
      | none | bool _ | int _ | float _ | str _ | list _ => cases hpresents
  | stamped msg =>
      obtain ⟨read, hread, htyped, hpresented⟩ := readBack_stamped htoken msg
      refine ⟨read, token, by rw [loadsBytes_stamped htoken, hread], htyped, rfl, htoken, ?_,
        by simp [hascii]⟩
      rw [hpresented]
      exact truthy_join htoken

/-- Nothing is in the way of the lines exactly if nothing is in the way of what was sent. -/
theorem clear_iff_unobstructed (htoken : token ≠ []) (hascii : isAscii token = true)
    (items : List (Sent φ)) :
    Clear (connection ⟨maxFrame, some token⟩) (accepted (φ := φ) ⟨maxFrame, some token⟩)
        (items.map (Sent.line token)) ↔
      Unobstructed ⟨maxFrame, some token⟩ token items := by
  have hgoes {line : Str} (hcap : line.length ≤ maxFrame) :
      (connection (φ := φ) ⟨maxFrame, some token⟩).handle line ≠ .stopped ↔
        ¬ Chokes φ ⟨maxFrame, some token⟩ line :=
    not_congr ⟨fun h => (chokes_of_stopped h).1, fun h => h.stopped hcap⟩
  have hwanted (item : Sent φ) (rest : List (Sent φ)) :
      (∃ later ∈ (item :: rest).map (Sent.line token),
        accepted (φ := φ) ⟨maxFrame, some token⟩ later ≠ none) ↔
        ∃ later ∈ item :: rest, wanted token later ≠ none := by
    simp only [List.mem_map, exists_exists_and_eq_and]
    refine exists_congr fun later => and_congr_right fun _ => ?_
    rw [wanted_eq_accepted maxFrame htoken hascii]
  constructor
  · intro h item rest hsuffix hlater
    obtain ⟨hcap, hgo⟩ := h _ _ (hsuffix.map (Sent.line token)) ((hwanted item rest).2 hlater)
    exact ⟨hcap, (hgoes hcap).1 hgo⟩
  · rintro h line rest ⟨before, hsplit⟩ hlater
    obtain ⟨items₁, items₂, rfl, -, hmap⟩ := List.map_eq_append_iff.1 hsplit.symm
    obtain ⟨item, items₃, rfl, rfl, rfl⟩ := List.map_eq_cons_iff.1 hmap
    obtain ⟨hcap, hgo⟩ := h item items₃ (List.suffix_append _ _) ((hwanted item items₃).1 hlater)
    exact ⟨hcap, (hgoes hcap).2 hgo⟩

end Connection

/-- What is dispatched presents the secret, whatever is sent and however it is cut.  And every
frame of a holder is dispatched, with whatever else presents the secret, in order and for every
cut, exactly if nothing obstructs it. -/
theorem secret_admits_holders_iff (maxFrame : Nat) (token : Str) (htoken : token ≠ [])
    (items : List (Sent φ)) :
    (∀ pieces, LineStream.Cut (connection (φ := φ) ⟨maxFrame, some token⟩)
        (items.map (Sent.line token)) pieces →
        ∀ msg ∈ (handleClient ⟨maxFrame, some token⟩ pieces : List (PyVal φ)),
          presents token msg = true) ∧
      ((∀ pieces, LineStream.Cut (connection (φ := φ) ⟨maxFrame, some token⟩)
          (items.map (Sent.line token)) pieces →
          handleClient ⟨maxFrame, some token⟩ pieces = items.filterMap (wanted token)) ↔
        Unobstructed ⟨maxFrame, some token⟩ token items) := by
  have hwhole := whole_lines maxFrame htoken items
  have hserved := serve_eq_filterMap_iff (r := connection ⟨maxFrame, some token⟩)
    (fun _ _ => accepted_of_emitted (φ := φ)) (fun _ hle => accepted_of_skipped hle) hwhole
  refine ⟨fun pieces hcut msg hmsg => ?_, ?_⟩
  · obtain ⟨line, -, hline⟩ := (serve_reading hwhole hcut).exists_line hmsg
    exact ((accepted_eq_some_iff htoken).1 (accepted_of_emitted hline)).2.1
  · cases hascii : isAscii token with
    | true =>
        have hmessages : (items.map (Sent.line token)).filterMap
            (accepted (φ := φ) ⟨maxFrame, some token⟩) = items.filterMap (wanted token) := by
          rw [List.filterMap_map]
          exact List.filterMap_congr fun item _ => (wanted_eq_accepted maxFrame htoken hascii item).symm
        rw [hmessages] at hserved
        exact hserved.trans (clear_iff_unobstructed maxFrame htoken hascii items)
    | false =>
        have hnone : (items.map (Sent.line token)).filterMap
            (accepted (φ := φ) ⟨maxFrame, some token⟩) = [] := by
          refine List.filterMap_eq_nil_iff.2 fun line _ => ?_
          by_contra hne
          obtain ⟨msg, hmsg⟩ := Option.ne_none_iff_exists'.1 hne
          have htrue := ((accepted_eq_some_iff htoken).1 hmsg).2.2
          rw [hascii] at htrue
          cases htrue
        have hsilent := hserved.2 (clear_of_unwanted hnone)
        rw [hnone] at hsilent
        constructor
        · intro h item rest hsuffix hlater
          have hunwanted := (hsilent _ (cut_bytes _)).symm.trans (h _ (cut_bytes _))
          obtain ⟨later, hmem, hne⟩ := hlater
          exact absurd (List.filterMap_eq_nil_iff.1 hunwanted.symm later (hsuffix.subset hmem)) hne
        · intro h pieces hcut
          refine (hsilent pieces hcut).trans (List.filterMap_eq_nil_iff.2 fun item hitem => ?_).symm
          by_contra hne
          obtain ⟨before, rest, rfl⟩ := List.append_of_mem hitem
          have hclear := h item rest (List.suffix_append _ _) ⟨item, List.mem_cons_self, hne⟩
          exact hclear.2 (chokes_of_wanted maxFrame htoken hascii hne)

/-- A message of a holder. -/
def ping : TypedMessage WholeFloat where
  fields := obj [("type", .str (lit "ping"))]
  json := by decide +kernel
  hasType := by decide +kernel

/-- A message without a token, and then one of a holder. -/
def strangerThenPing : List (Sent WholeFloat) :=
  [.raw (lit "\x7b\"type\": \"a\"\x7d") (by decide +kernel), .stamped ping]

/-- The message of the holder gets through. -/
theorem ping_dispatched :
    lit "key" ≠ [] ∧ ∀ pieces,
      LineStream.Cut (connection (φ := WholeFloat) keyServer)
          (strangerThenPing.map (Sent.line (lit "key"))) pieces →
        handleClient keyServer pieces = strangerThenPing.filterMap (wanted (lit "key")) := by
  have htoken : lit "key" ≠ [] := by decide
  refine ⟨htoken, (secret_admits_holders_iff 1024 (lit "key") htoken strangerThenPing).2.2 ?_⟩
  have hgoes : ∀ item ∈ strangerThenPing, (item.line (lit "key")).length ≤ 1024 ∧
      (match handleLine (φ := WholeFloat) keyServer (item.line (lit "key")) with
        | .stopped => false
        | _ => true) = true := by
    simp only [strangerThenPing, List.forall_mem_cons]
    exact ⟨by decide +kernel, by decide +kernel, nofun⟩
  intro item rest hsuffix _
  obtain ⟨hcap, hgo⟩ := hgoes item (hsuffix.subset List.mem_cons_self)
  refine ⟨hcap, fun hchokes => ?_⟩
  have hstop : handleLine keyServer (item.line (lit "key")) = .stopped := hchokes.stopped hcap
  rw [hstop] at hgo
  cases hgo

/-- A secret with an accent admits nobody. -/
theorem ping_lost_with_accented_secret :
    lit "clé" ≠ [] ∧ ¬ ∀ pieces,
      LineStream.Cut (connection (φ := WholeFloat) ⟨1024, some (lit "clé")⟩)
          ([Sent.stamped ping].map (Sent.line (lit "clé"))) pieces →
        handleClient ⟨1024, some (lit "clé")⟩ pieces =
          [Sent.stamped ping].filterMap (wanted (lit "clé")) := by
  refine ⟨by decide, fun h => ?_⟩
  have hnone : (handleClient (φ := WholeFloat) ⟨1024, some (lit "clé")⟩
      (bytes (stream (connection (φ := WholeFloat) ⟨1024, some (lit "clé")⟩)
        ([Sent.stamped ping].map (Sent.line (lit "clé")))))).length = 0 := by decide +kernel
  have hsame := congrArg List.length (h _ (cut_bytes _))
  rw [hnone] at hsame
  cases hsame

end ShugoCore
