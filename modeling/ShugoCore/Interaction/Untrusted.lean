import ShugoCore.Interaction.Bus
import ShugoCore.Lib.Binary64
import ShugoCore.Lib.Interpreter
import ShugoCore.Security.Sanitised

/-!
# Observations from outside

`HumanObservation.from_dict` of `human_interaction.py` builds an observation of whatever a provider
sends.  The payload is flattened into at most twelve primitive values, and every text in it is cut.

Numbers are read by `float`, under a handler for `TypeError` and `ValueError`.  An integer that is too
large for a float raises `OverflowError`, which nothing handles.  Texts are made by `str`, under no
handler, and it raises where a value meets a limit of the interpreter.  Nothing else is raised, and all
that is accepted is bounded (`observation_returned_iff`).

`str.lower` is a parameter, and so are the limits and the reading of the clock.
-/

namespace ShugoCore

open Py

section

variable {φ : Type} [Builtins φ] [FloatReader] (L : Limits φ)

/-! ## Reading -/

/-- `_clean_float`. -/
def cleanFloat (value : PyVal φ) : Except Exn (Option ℚ) :=
  match toFloat value with
  | .ok (.finite q) => .ok (some q)
  | .ok .nan | .ok .posInf | .ok .negInf => .ok none
  | .error .typeError | .error .valueError => .ok none
  | .error e => .error e

/-- `_MAX_SOURCE_LEN`. -/
def maxSourceLen : Nat := 40

/-- `_MAX_PAYLOAD_VALUE_LEN`. -/
def maxPayloadValueLen : Nat := 160

/-- `_MAX_PAYLOAD_KEY_LEN`. -/
def maxPayloadKeyLen : Nat := 40

/-- `_MAX_PAYLOAD_KEYS`. -/
def maxPayloadKeys : Nat := 12

/-- The value that a payload keeps of a value, unless it is a number that is not finite. -/
def cleanValue (value : PyVal φ) : Except Exn (Option (PyVal φ)) :=
  match value with
  | .bool b => .ok (some (.bool b))
  | .int _ | .float _ => do return (← cleanFloat value).map fun _ => value
  | .str s => .ok (some (.str (sanitizeText s maxPayloadValueLen)))
  | value => do return some (.str (sanitizeText (← L.str value) maxPayloadKeyLen))

/-- A payload with what is kept of a value. -/
def keep (key : Str) (clean : Obj φ) : Option (PyVal φ) → Obj φ
  | some value => setKey key value clean
  | none => clean

/-- The loop of `_sanitize_payload`. -/
def sanitizeItems (clean : Obj φ) : Obj φ → Except Exn (Obj φ)
  | [] => .ok clean
  | (key, value) :: items => do
      let cleanKey := sanitizeText (← L.str key.toVal) maxPayloadKeyLen
      if cleanKey = [] then sanitizeItems clean items
      else sanitizeItems (keep cleanKey clean (← cleanValue L value)) items

/-- `_sanitize_payload`. -/
def sanitizePayload (payload : PyVal φ) : Except Exn (Obj φ) :=
  match payload with
  | .none => .ok []
  | .bool _ | .int _ | .float _ => do
      return ((← cleanFloat payload).map fun _ => obj [("value", payload)]).getD []
  | .dict items => sanitizeItems L [] (items.take maxPayloadKeys)
  | payload => do
      return obj [("text", .str (sanitizeText (← L.str payload) maxPayloadValueLen))]

/-- A `HumanObservation` with the id that its provider gave it. -/
structure ProvidedObservation (φ : Type) extends HumanObservation φ where
  observationId : Option Str

/-- `str(v or "")`. -/
def textOrEmpty (v : PyVal φ) : Except Exn Str := L.str (orElse v (.str []))

/-- A confidence as a float.  An absent one is `1.0`. -/
def confidenceOf : Option (PyVal φ) → Except Exn (Option ℚ)
  | some confidence => cleanFloat confidence
  | none => .ok (some 1)

/-- `timestamp if timestamp is not None else time.time()`, as a float. -/
def timestampOf (now : Seconds) : PyVal φ → Except Exn (Option ℚ)
  | .none => .ok (some now)
  | timestamp => cleanFloat timestamp

/-- `HumanObservation.__init__`. -/
def HumanObservation.init (lower : Str → Str) (now : Seconds) (type source : Str)
    (payload : PyVal φ) (confidence : Option (PyVal φ)) (timestamp : PyVal φ)
    (privacyScope : Str) (observationId : Option Str) : Except Exn (ProvidedObservation φ) := do
  let payload ← sanitizePayload L payload
  let confidence ← confidenceOf confidence
  let timestamp ← timestampOf now timestamp
  return {
    type := lower (strip type)
    source := sanitizeText source maxSourceLen
    payload := payload
    confidence := confidence
    timestamp := timestamp.getD now
    privacyScope := lower (strip privacyScope)
    observationId := observationId }

/-- The id that a provider gave, if there is one. -/
def observationIdOf (id : PyVal φ) : Except Exn (Option Str) :=
  if truthy id then (L.str id).map some else .ok none

/-- Why an input is not usable. -/
inductive Unusable where
  | notAnObject
  | rejected (reason : Rejection)
deriving DecidableEq, Repr

/-- `from_dict`. -/
def HumanObservation.fromDict (lower : Str → Str) (now : Seconds) (data : PyVal φ) :
    Except Exn (Except Unusable (ProvidedObservation φ)) :=
  match data with
  | .dict data => do
      let type ← textOrEmpty L (fetch (lit "type") data)
      let source ← textOrEmpty L (fetch (lit "source") data)
      let privacyScope ← L.str (orElse (fetch (lit "privacy_scope") data) (.str (lit "local")))
      let observationId ← observationIdOf L (fetch (lit "observation_id") data)
      let obs ← HumanObservation.init L lower now type source (fetch (lit "payload") data)
        (getKey (lit "confidence") data) (fetch (lit "timestamp") data) privacyScope observationId
      match obs.validate with
      | none => return .ok obs
      | some reason => return .error (.rejected reason)
  | _ => .ok (.error .notAnObject)

/-! ## Bounds -/

/-- A value that a payload may have. -/
def Primitive : PyVal φ → Prop
  | .bool _ | .int _ => True
  | .float x => ∃ y, x = .finite y
  | .str s => s.length ≤ maxPayloadValueLen
  | .none | .list _ | .dict _ => False

/-- An item that a payload may have. -/
structure BoundedItem (item : Key φ × PyVal φ) : Prop where
  key : ∃ k : Str, item.1 = .str k ∧ k.length ≤ maxPayloadKeyLen
  value : Primitive item.2

/-- An observation within its bounds. -/
structure ProvidedObservation.Bounded (obs : ProvidedObservation φ) : Prop where
  valid : obs.validate = none
  entries : obs.payload.length ≤ maxPayloadKeys
  items : ∀ item ∈ obs.payload, BoundedItem item
  source : obs.source.length ≤ maxSourceLen

/-! ## What is raised -/

theorem cleanFloat_returns_iff (value : PyVal φ) :
    (∃ x, cleanFloat value = .ok x) ↔ ¬ TooLarge value := by
  cases value with
  | int i =>
      rcases PyFloat.ofInt_cases i with ⟨x, hx⟩ | hlarge
      · have hok : ∃ y, cleanFloat (.int i : PyVal φ) = .ok y := by
          rw [cleanFloat, toFloat, hx]
          cases x with
          | finite q => exact ⟨_, rfl⟩
          | nan | posInf | negInf => exact ⟨_, rfl⟩
        refine iff_of_true hok ?_
        rintro ⟨j, hj, hlarge⟩
        cases hj
        cases hx.symm.trans hlarge
      · refine iff_of_false ?_ (not_not_intro ⟨i, rfl, hlarge⟩)
        rintro ⟨x, hx⟩
        rw [cleanFloat, toFloat, hlarge] at hx
        cases hx
  | str s =>
      refine iff_of_true ?_ (fun hlarge => nomatch hlarge)
      rw [cleanFloat, toFloat]
      cases FloatReader.floatOfText s with
      | none => exact ⟨_, rfl⟩
      | some x =>
          cases x with
          | finite q => exact ⟨_, rfl⟩
          | nan | posInf | negInf => exact ⟨_, rfl⟩
  | float x =>
      refine iff_of_true ?_ (fun hlarge => nomatch hlarge)
      cases x with
      | finite q => exact ⟨_, rfl⟩
      | nan | posInf | negInf => exact ⟨_, rfl⟩
  | none | bool b | list xs | dict d =>
      exact iff_of_true ⟨_, rfl⟩ (fun hlarge => nomatch hlarge)

/-- A value that is turned into a text by `str`. -/
def asText : PyVal φ → Bool
  | .none | .list _ | .dict _ => true
  | .bool _ | .int _ | .float _ | .str _ => false

/-- A value that a payload can keep: no number that is too large, and no value without a text. -/
structure Keepable (value : PyVal φ) : Prop where
  number : ¬ TooLarge value
  text : asText value = true → L.Shows value

variable {L} in
theorem kept_iff_of_number {value : PyVal φ} (h : asText value = false) :
    Keepable L value ↔ ∃ x, cleanFloat value = .ok x := by
  rw [cleanFloat_returns_iff]
  refine ⟨Keepable.number, fun hnumber => ⟨hnumber, fun htext => ?_⟩⟩
  cases h.symm.trans htext

variable {L} in
omit [FloatReader] in
theorem kept_iff_of_text {value : PyVal φ} (h : asText value = true) :
    Keepable L value ↔ ∃ s, L.str value = .ok s := by
  rw [Limits.str_returns_iff]
  refine ⟨fun hkept => hkept.text h, fun hshows => ⟨?_, fun _ => hshows⟩⟩
  rintro ⟨i, rfl, -⟩
  cases h

theorem cleanValue_of_text {value : PyVal φ} (h : asText value = true) :
    cleanValue L value = do
      return some (.str (sanitizeText (← L.str value) maxPayloadKeyLen)) := by
  cases value with
  | none | list xs | dict d => rfl
  | bool b | int i | float x | str s => cases h

theorem cleanValue_returns_iff (value : PyVal φ) :
    (∃ v, cleanValue L value = .ok v) ↔ Keepable L value := by
  cases htext : asText value with
  | true =>
      rw [kept_iff_of_text htext, cleanValue_of_text L htext]
      constructor
      · rintro ⟨v, hv⟩
        obtain ⟨text, hstr, -⟩ := ok_of_bind hv
        exact ⟨text, hstr⟩
      · rintro ⟨text, hstr⟩
        rw [hstr]
        exact ⟨_, rfl⟩
  | false =>
      rw [kept_iff_of_number htext]
      cases value with
      | int i | float x =>
          rw [cleanValue]
          constructor
          · rintro ⟨v, hv⟩
            obtain ⟨x, hx, -⟩ := ok_of_bind hv
            exact ⟨x, hx⟩
          · rintro ⟨x, hx⟩
            rw [hx]
            exact ⟨_, rfl⟩
      | bool b | str s =>
          refine iff_of_true ⟨_, rfl⟩ ?_
          exact (cleanFloat_returns_iff _).2 (fun hlarge => nomatch hlarge)
      | none | list xs | dict d => cases htext

/-- An item of a payload whose key is not blank. -/
def Named (item : Key φ × PyVal φ) : Bool :=
  sanitizeText (strOf item.1.toVal) maxPayloadKeyLen ≠ []

/-- An item of a payload that raises nothing. -/
structure ItemRead (item : Key φ × PyVal φ) : Prop where
  key : L.Shows item.1.toVal
  value : Named item = true → Keepable L item.2

theorem sanitizeItems_returns_iff (clean items : Obj φ) :
    (∃ payload, sanitizeItems L clean items = .ok payload) ↔ ∀ item ∈ items, ItemRead L item := by
  induction items generalizing clean with
  | nil => simp [sanitizeItems]
  | cons item items ih =>
      obtain ⟨key, value⟩ := item
      rw [List.forall_mem_cons, sanitizeItems]
      constructor
      · rintro ⟨payload, hread⟩
        obtain ⟨text, htext, hpayload⟩ := ok_of_bind hread
        clear hread
        obtain ⟨hkey, rfl⟩ := Limits.str_eq_ok_iff.1 htext
        dsimp only at hpayload
        split at hpayload
        · rename_i hblank
          refine ⟨⟨hkey, fun hnamed => ?_⟩, (ih _).1 ⟨payload, hpayload⟩⟩
          exact absurd hblank (by simpa [Named] using hnamed)
        · obtain ⟨v, hv, hpayload⟩ := ok_of_bind hpayload
          exact ⟨⟨hkey, fun _ => (cleanValue_returns_iff L value).1 ⟨v, hv⟩⟩,
            (ih _).1 ⟨payload, hpayload⟩⟩
      · rintro ⟨hitem, hitems⟩
        rw [Limits.str_of_shows hitem.key]
        dsimp only [bind, Except.bind]
        split
        · exact (ih _).2 hitems
        · rename_i hnamed
          obtain ⟨v, hv⟩ := (cleanValue_returns_iff L value).2
            (hitem.value (by simpa [Named] using hnamed))
          rw [hv]
          exact (ih _).2 hitems

/-- A payload that raises nothing. -/
def PayloadRead : PyVal φ → Prop
  | .dict items => ∀ item ∈ items.take maxPayloadKeys, ItemRead L item
  | payload => Keepable L payload

theorem sanitizePayload_returns_iff (payload : PyVal φ) :
    (∃ clean, sanitizePayload L payload = .ok clean) ↔ PayloadRead L payload := by
  cases payload with
  | dict items => exact sanitizeItems_returns_iff L [] (items.take maxPayloadKeys)
  | bool b | int i | float x =>
      show _ ↔ Keepable L _
      rw [kept_iff_of_number rfl, sanitizePayload]
      constructor
      · rintro ⟨clean, hclean⟩
        obtain ⟨x, hx, -⟩ := ok_of_bind hclean
        exact ⟨x, hx⟩
      · rintro ⟨x, hx⟩
        rw [hx]
        exact ⟨_, rfl⟩
  | none =>
      exact iff_of_true ⟨_, rfl⟩ ((kept_iff_of_text rfl).2 ⟨_, Limits.str_of_shows Limits.shows_none⟩)
  | str s =>
      refine iff_of_true ⟨obj [("text", .str (sanitizeText s maxPayloadValueLen))], ?_⟩ ?_
      · show (do return obj [("text", .str (sanitizeText (← L.str (.str s)) maxPayloadValueLen))]) = _
        rw [Limits.str_str]
        rfl
      · exact (kept_iff_of_number rfl).2
          ((cleanFloat_returns_iff _).2 (fun hlarge => nomatch hlarge))
  | list xs =>
      show (∃ clean, (do
        return obj [("text", .str (sanitizeText (← L.str (.list xs)) maxPayloadValueLen))]) =
          .ok clean) ↔ Keepable L _
      rw [kept_iff_of_text rfl]
      constructor
      · rintro ⟨clean, hclean⟩
        obtain ⟨text, htext, -⟩ := ok_of_bind hclean
        exact ⟨text, htext⟩
      · rintro ⟨text, htext⟩
        rw [htext]
        exact ⟨_, rfl⟩

/-! ## What is kept -/

omit [Builtins φ] [FloatReader] in
theorem length_setKey_le (key : Str) (value : PyVal φ) (d : Obj φ) :
    (setKey key value d).length ≤ d.length + 1 := by
  induction d with
  | nil => exact le_rfl
  | cons item d ih =>
      obtain ⟨k, v⟩ := item
      cases k with
      | str k =>
          rw [setKey]
          split
          · simp
          · simpa using ih
      | none | bool b | int i | float x => simpa [setKey] using ih

omit [Builtins φ] [FloatReader] in
theorem mem_setKey {key : Str} {value : PyVal φ} {d : Obj φ} {item : Key φ × PyVal φ}
    (h : item ∈ setKey key value d) : item = (.str key, value) ∨ item ∈ d := by
  induction d with
  | nil => exact .inl (List.mem_singleton.1 h)
  | cons first d ih =>
      obtain ⟨k, v⟩ := first
      cases k with
      | str k =>
          rw [setKey] at h
          split at h
          · rename_i hk
            rcases List.mem_cons.1 h with rfl | h
            · exact .inl (by rw [hk])
            · exact .inr (List.mem_cons_of_mem _ h)
          · rcases List.mem_cons.1 h with rfl | h
            · exact .inr List.mem_cons_self
            · exact (ih h).imp_right (List.mem_cons_of_mem _)
      | none | bool b | int i | float x =>
          rcases List.mem_cons.1 h with rfl | h
          · exact .inr List.mem_cons_self
          · exact (ih h).imp_right (List.mem_cons_of_mem _)

/-- A float that is read is finite. -/
theorem finite_of_cleanFloat {x : PyFloat φ} {q : ℚ} (h : cleanFloat (.float x) = .ok (some q)) :
    ∃ y, x = .finite y := by
  cases x with
  | finite y => exact ⟨y, rfl⟩
  | nan | posInf | negInf => cases h

variable {L}

theorem primitive_cleanValue {value kept : PyVal φ} (h : cleanValue L value = .ok (some kept)) :
    Primitive kept := by
  cases value with
  | bool b =>
      cases h
      exact trivial
  | int i =>
      obtain ⟨x, -, h⟩ := ok_of_bind h
      cases x with
      | none => cases h
      | some q =>
          cases h
          exact trivial
  | float y =>
      obtain ⟨x, hx, h⟩ := ok_of_bind h
      cases x with
      | none => cases h
      | some q =>
          cases h
          exact finite_of_cleanFloat hx
  | str s =>
      cases h
      exact length_sanitizeText s _
  | none | list xs | dict d =>
      rw [cleanValue_of_text L rfl] at h
      obtain ⟨text, -, h⟩ := ok_of_bind h
      cases h
      exact (length_sanitizeText _ maxPayloadKeyLen).trans (by decide)

/-- A payload of a number of entries at most, within their bounds. -/
structure BoundedPayload (n : Nat) (payload : Obj φ) : Prop where
  entries : payload.length ≤ n
  items : ∀ item ∈ payload, BoundedItem item

omit [Builtins φ] [FloatReader] in
theorem boundedPayload_setKey {n : Nat} {clean : Obj φ} (h : BoundedPayload n clean) {key : Str}
    (hkey : key.length ≤ maxPayloadKeyLen) {value : PyVal φ} (hvalue : Primitive value) :
    BoundedPayload (n + 1) (setKey key value clean) where
  entries := (length_setKey_le key value clean).trans (Nat.succ_le_succ h.entries)
  items := by
    intro item hitem
    rcases mem_setKey hitem with rfl | hitem
    · exact ⟨⟨key, rfl, hkey⟩, hvalue⟩
    · exact h.items item hitem

omit [Builtins φ] [FloatReader] in
theorem BoundedPayload.mono {n m : Nat} {clean : Obj φ} (h : BoundedPayload n clean) (hle : n ≤ m) :
    BoundedPayload m clean := ⟨h.entries.trans hle, h.items⟩

theorem boundedPayload_sanitizeItems {n : Nat} {clean items payload : Obj φ}
    (h : BoundedPayload n clean) (hpayload : sanitizeItems L clean items = .ok payload) :
    BoundedPayload (n + items.length) payload := by
  induction items generalizing n clean with
  | nil =>
      cases hpayload
      exact h
  | cons item items ih =>
      obtain ⟨key, value⟩ := item
      rw [List.length_cons, Nat.add_comm items.length, ← Nat.add_assoc]
      rw [sanitizeItems] at hpayload
      obtain ⟨text, -, hpayload⟩ := ok_of_bind hpayload
      dsimp only at hpayload
      split at hpayload
      · exact ih (h.mono (Nat.le_succ n)) hpayload
      · obtain ⟨kept, hkept, hpayload⟩ := ok_of_bind hpayload
        cases kept with
        | none => exact ih (h.mono (Nat.le_succ n)) hpayload
        | some kept =>
            exact ih (boundedPayload_setKey h (length_sanitizeText _ _)
              (primitive_cleanValue hkept)) hpayload

omit [Builtins φ] [FloatReader] in
theorem boundedPayload_nil : BoundedPayload 0 ([] : Obj φ) := ⟨le_rfl, fun _ h => nomatch h⟩

omit [Builtins φ] [FloatReader] in
theorem boundedPayload_singleton {key : Str} (hkey : key.length ≤ maxPayloadKeyLen)
    {value : PyVal φ} (hvalue : Primitive value) :
    BoundedPayload maxPayloadKeys [(.str key, value)] :=
  (boundedPayload_setKey boundedPayload_nil hkey hvalue).mono (by decide)

theorem boundedPayload_sanitizePayload {payload : PyVal φ} {clean : Obj φ}
    (h : sanitizePayload L payload = .ok clean) : BoundedPayload maxPayloadKeys clean := by
  cases payload with
  | none =>
      cases h
      exact boundedPayload_nil.mono (Nat.zero_le _)
  | bool b =>
      cases h
      exact boundedPayload_singleton (show (lit "value").length ≤ maxPayloadKeyLen by decide) trivial
  | int i =>
      obtain ⟨x, -, h⟩ := ok_of_bind h
      cases h
      cases x with
      | none => exact boundedPayload_nil.mono (Nat.zero_le _)
      | some q => exact boundedPayload_singleton (show (lit "value").length ≤ maxPayloadKeyLen by decide) trivial
  | float y =>
      obtain ⟨x, hx, h⟩ := ok_of_bind h
      cases h
      cases x with
      | none => exact boundedPayload_nil.mono (Nat.zero_le _)
      | some q =>
          exact boundedPayload_singleton (show (lit "value").length ≤ maxPayloadKeyLen by decide)
            (finite_of_cleanFloat hx)
  | dict items =>
      refine (boundedPayload_sanitizeItems boundedPayload_nil h).mono ?_
      rw [List.length_take]
      omega
  | str s | list xs =>
      obtain ⟨text, -, h⟩ := ok_of_bind h
      cases h
      exact boundedPayload_singleton (show (lit "text").length ≤ maxPayloadKeyLen by decide)
        (length_sanitizeText _ _)

/-! ## Observations -/

/-- An input that raises nothing: each of its texts is made, its payload is read, and neither its
confidence nor its timestamp is too large. -/
structure InputRead (L : Limits φ) (data : Obj φ) : Prop where
  type : L.Shows (orElse (fetch (lit "type") data) (.str []))
  source : L.Shows (orElse (fetch (lit "source") data) (.str []))
  privacyScope : L.Shows (orElse (fetch (lit "privacy_scope") data) (.str (lit "local")))
  observationId : truthy (fetch (lit "observation_id") data) = true →
    L.Shows (fetch (lit "observation_id") data)
  payload : PayloadRead L (fetch (lit "payload") data)
  confidence : ¬ TooLarge (fetch (lit "confidence") data)
  timestamp : ¬ TooLarge (fetch (lit "timestamp") data)

omit [Builtins φ] [FloatReader] in
theorem not_tooLarge_none : ¬ TooLarge (.none : PyVal φ) := fun hlarge => nomatch hlarge

theorem confidenceOf_returns_iff (confidence : Option (PyVal φ)) :
    (∃ x, confidenceOf confidence = .ok x) ↔ ¬ TooLarge (confidence.getD .none) := by
  cases confidence with
  | none => exact iff_of_true ⟨_, rfl⟩ not_tooLarge_none
  | some value => exact cleanFloat_returns_iff value

theorem timestampOf_returns_iff (now : Seconds) (timestamp : PyVal φ) :
    (∃ x, timestampOf now timestamp = .ok x) ↔ ¬ TooLarge timestamp := by
  cases timestamp with
  | none => exact iff_of_true ⟨_, rfl⟩ not_tooLarge_none
  | bool b | int i | float y | str s | list xs | dict d =>
      rw [timestampOf]
      · exact cleanFloat_returns_iff _
      · exact fun h => nomatch h

theorem init_returns_iff (lower : Str → Str) (now : Seconds) (type source : Str)
    (payload : PyVal φ) (confidence : Option (PyVal φ)) (timestamp : PyVal φ) (privacyScope : Str)
    (observationId : Option Str) :
    (∃ obs, HumanObservation.init L lower now type source payload confidence timestamp privacyScope
      observationId = .ok obs) ↔
      PayloadRead L payload ∧ ¬ TooLarge (confidence.getD .none) ∧ ¬ TooLarge timestamp := by
  rw [← sanitizePayload_returns_iff, ← confidenceOf_returns_iff, ← timestampOf_returns_iff now]
  constructor
  · rintro ⟨obs, hobs⟩
    obtain ⟨clean, hclean, hobs⟩ := ok_of_bind hobs
    obtain ⟨x, hx, hobs⟩ := ok_of_bind hobs
    obtain ⟨t, ht, -⟩ := ok_of_bind hobs
    exact ⟨⟨clean, hclean⟩, ⟨x, hx⟩, ⟨t, ht⟩⟩
  · rintro ⟨⟨clean, hclean⟩, ⟨x, hx⟩, ⟨t, ht⟩⟩
    rw [HumanObservation.init, hclean, hx, ht]
    exact ⟨_, rfl⟩

omit [FloatReader] in
theorem observationIdOf_returns_iff (id : PyVal φ) :
    (∃ s, observationIdOf L id = .ok s) ↔ (truthy id = true → L.Shows id) := by
  rw [observationIdOf]
  split
  · rename_i htruthy
    rw [← Limits.str_returns_iff]
    constructor
    · rintro ⟨s, hs⟩ -
      cases hstr : L.str id with
      | error e =>
          rw [hstr] at hs
          cases hs
      | ok text => exact ⟨text, rfl⟩
    · intro h
      obtain ⟨text, htext⟩ := h htruthy
      rw [htext]
      exact ⟨some text, rfl⟩
  · rename_i hfalsy
    exact iff_of_true ⟨none, rfl⟩ fun htruthy => absurd htruthy hfalsy

/-- An input is read if and only if it raises nothing. -/
theorem fromDict_returns_iff (lower : Str → Str) (now : Seconds) (data : Obj φ) :
    (∃ result, HumanObservation.fromDict L lower now (.dict data) = .ok result) ↔
      InputRead L data := by
  constructor
  · rintro ⟨result, hresult⟩
    obtain ⟨type, htype, hresult⟩ := ok_of_bind hresult
    obtain ⟨source, hsource, hresult⟩ := ok_of_bind hresult
    obtain ⟨privacyScope, hprivacyScope, hresult⟩ := ok_of_bind hresult
    obtain ⟨observationId, hobservationId, hresult⟩ := ok_of_bind hresult
    obtain ⟨obs, hobs, -⟩ := ok_of_bind hresult
    obtain ⟨hpayload, hconfidence, htimestamp⟩ := (init_returns_iff ..).1 ⟨obs, hobs⟩
    exact {
      type := (Limits.str_returns_iff _).1 ⟨type, htype⟩
      source := (Limits.str_returns_iff _).1 ⟨source, hsource⟩
      privacyScope := (Limits.str_returns_iff _).1 ⟨privacyScope, hprivacyScope⟩
      observationId := (observationIdOf_returns_iff _).1 ⟨observationId, hobservationId⟩
      payload := hpayload
      confidence := hconfidence
      timestamp := htimestamp }
  · intro h
    obtain ⟨observationId, hobservationId⟩ := (observationIdOf_returns_iff _).2 h.observationId
    obtain ⟨obs, hobs⟩ := (init_returns_iff (L := L) lower now
      (strOf (orElse (fetch (lit "type") data) (.str [])))
      (strOf (orElse (fetch (lit "source") data) (.str []))) (fetch (lit "payload") data)
      (getKey (lit "confidence") data) (fetch (lit "timestamp") data)
      (strOf (orElse (fetch (lit "privacy_scope") data) (.str (lit "local")))) observationId).2
      ⟨h.payload, h.confidence, h.timestamp⟩
    rw [HumanObservation.fromDict, textOrEmpty, textOrEmpty, Limits.str_of_shows h.type,
      Limits.str_of_shows h.source, Limits.str_of_shows h.privacyScope]
    dsimp only [bind, Except.bind]
    rw [hobservationId]
    dsimp only
    rw [hobs]
    dsimp only
    split
    · exact ⟨_, rfl⟩
    · exact ⟨_, rfl⟩

/-- What is accepted is bounded. -/
theorem bounded_of_fromDict {lower : Str → Str} {now : Seconds} {data : PyVal φ}
    {obs : ProvidedObservation φ}
    (h : HumanObservation.fromDict L lower now data = .ok (.ok obs)) : obs.Bounded := by
  cases data with
  | dict data =>
      obtain ⟨type, -, h⟩ := ok_of_bind h
      obtain ⟨source, -, h⟩ := ok_of_bind h
      obtain ⟨privacyScope, -, h⟩ := ok_of_bind h
      obtain ⟨observationId, -, h⟩ := ok_of_bind h
      obtain ⟨built, hbuilt, h⟩ := ok_of_bind h
      have hobs : built = obs ∧ built.validate = none := by
        split at h
        · rename_i hvalid
          cases h
          exact ⟨rfl, hvalid⟩
        · cases h
      obtain ⟨rfl, hvalid⟩ := hobs
      obtain ⟨clean, hclean, hbuilt⟩ := ok_of_bind hbuilt
      obtain ⟨x, -, hbuilt⟩ := ok_of_bind hbuilt
      obtain ⟨t, -, hbuilt⟩ := ok_of_bind hbuilt
      cases hbuilt
      have hpayload := boundedPayload_sanitizePayload hclean
      exact ⟨hvalid, hpayload.entries, hpayload.items, length_sanitizeText _ _⟩
  | none | bool b | int i | float x | str s | list xs => cases h

/-- For every interpreter, every value that a provider sends and any time: the reading returns, and
what it accepts is bounded, if and only if no number that it reads is too large for a float, and none
of the values that it turns into texts meets a limit. -/
theorem observation_returned_iff (L : Limits φ) (lower : Str → Str) (now : Seconds)
    (data : PyVal φ) :
    (∃ result, HumanObservation.fromDict L lower now data = .ok result ∧
      ∀ obs, result = .ok obs → obs.Bounded) ↔
      ∀ items, data = .dict items → InputRead L items := by
  have hreturns : (∃ result, HumanObservation.fromDict L lower now data = .ok result) ↔
      ∀ items, data = .dict items → InputRead L items := by
    cases data with
    | dict items =>
        rw [fromDict_returns_iff]
        simp only [PyVal.dict.injEq, forall_eq']
    | none | bool b | int i | float x | str s | list xs =>
        exact iff_of_true ⟨_, rfl⟩ (fun items hitems => nomatch hitems)
  rw [← hreturns]
  constructor
  · rintro ⟨result, hresult, -⟩
    exact ⟨result, hresult⟩
  · rintro ⟨result, hresult⟩
    refine ⟨result, hresult, ?_⟩
    rintro obs rfl
    exact bounded_of_fromDict hresult

end

/-- An observation with a payload of one number. -/
def measured (value : PyVal WholeFloat) : Obj WholeFloat :=
  obj [("type", .str (lit "interaction")), ("source", .str (lit "tablet")),
    ("payload", .dict (obj [("steps", value)]))]

/-- An integer that is too large for a float raises, whatever the limits. -/
theorem not_inputRead_measured [FloatReader] (L : Limits WholeFloat) {i : Int}
    (hlarge : PyFloat.ofInt i = .error .overflowError) :
    ¬ InputRead L (measured (.int i)) := by
  intro h
  have hitem : ItemRead L ((.str (lit "steps"), .int i) : Key WholeFloat × PyVal WholeFloat) := by
    have hpayload := h.payload
    have hfetch : fetch (lit "payload") (measured (.int i)) = .dict (obj [("steps", .int i)]) := by
      simp [measured, fetch]
    rw [hfetch] at hpayload
    exact hpayload _ List.mem_cons_self
  have hnamed : Named ((.str (lit "steps"), .int i) : Key WholeFloat × PyVal WholeFloat) = true :=
    show decide (sanitizeText (lit "steps") maxPayloadKeyLen ≠ []) = true by decide
  exact (hitem.value hnamed).number ⟨i, rfl, hlarge⟩

/-- `2 ** 1024` is too large for a float. -/
theorem measured_two_pow_raises :
    letI : FloatReader := ⟨fun _ => none⟩
    ¬ ∃ result, HumanObservation.fromDict (Limits.unlimited WholeFloat) lowerLetters 0
      (.dict (measured (.int (2 ^ 1024)))) = .ok result := by
  let _ : FloatReader := ⟨fun _ => none⟩
  show ¬ ∃ result, _
  rw [fromDict_returns_iff]
  exact not_inputRead_measured _ (PyFloat.ofInt_two_pow 1024)

end ShugoCore
