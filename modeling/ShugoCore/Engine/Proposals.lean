import Mathlib.Order.Interval.Set.ProjIcc
import ShugoCore.Engine.World
import ShugoCore.Lib.Binary64
import ShugoCore.Lib.JsonPlain
import ShugoCore.Lib.JsonTrim

/-!
# What a model proposes

`_parse_proposal` of `decision_engine.py` with `_proposal_json_candidates`.  The answer of a model is
any text.  Its candidates are the text from the first brace to the last, each region with balanced
braces, the text with its open braces closed, and its longest prefix that is a document.  Every
candidate that is an object with a known type is a proposal, the one with the greatest confidence is
returned, and an unknown type ends the search.

The regions are found in strings and inside of the object itself. So an object in the parameters of
a proposal is a candidate beside it, and may be returned in its place or have it rejected
(`proposal_read_iff`). And a candidate may raise: its type may be a list, which has no hash, and its
confidence an integer that is no float (`parseProposal_ok_iff`).
-/

namespace ShugoCore

namespace Engine

open Py

/-! ## Action types -/

/-- `_KNOWN_ACTION_TYPES`. -/
def knownActionTypes (f : Features) : List Str :=
  [lit "api_call", lit "database_update", lit "hardware_interaction", lit "news_api",
    lit "search_api", lit "multi_step_process", lit "record_observation", lit "speak",
    lit "ask_user"] ++
  (if f.robotics then
    roboticsActionTypes ++ [lit "robot_stop", lit "robot_query_state", lit "robot_scan"] else []) ++
  (if f.mobile then
    mobileActionTypes ++ [lit "mobile_list_nodes", lit "mobile_node_status"] else []) ++
  (if f.shugonet then
    networkActionTypes ++ [lit "network_list_agents", lit "network_status",
      lit "network_spatial_query", lit "network_fleet_map"] else []) ++
  (if f.fleet then fleetActionTypes ++ [lit "fleet_status"] else [])

/-! ## Candidates -/

/-- `_PROPOSAL_JSON_PATTERN.search`: from the first brace to the last. -/
def greedyCandidate (text : Str) : Option Str :=
  let rest := text.dropWhile (· ≠ 123)
  if 125 ∈ rest then some (rest.rdropWhile (· ≠ 125)) else none

/-- The candidate from the first brace to the last is the object itself. -/
theorem greedyCandidate_object {w₁ b w₂ : Str} (h₁ : Blank w₁) (h₂ : Blank w₂) :
    greedyCandidate (w₁ ++ (123 :: (b ++ [125]) ++ w₂)) = some (123 :: (b ++ [125])) := by
  have hbefore : ∀ c ∈ w₁, decide (c ≠ 123) = true := fun c hc =>
    decide_eq_true (ne_of_isJsonSpace (h₁ c hc) (by decide))
  have hbehind : ∀ c ∈ w₂, decide (c ≠ 125) = true := fun c hc =>
    decide_eq_true (ne_of_isJsonSpace (h₂ c hc) (by decide))
  have hrest : (w₁ ++ (123 :: (b ++ [125]) ++ w₂)).dropWhile (· ≠ 123) = 123 ::
      (b ++ [125]) ++ w₂ := by
    rw [List.dropWhile_append_of_pos hbefore]
    rfl
  have hlast : (123 :: (b ++ [125]) ++ w₂).rdropWhile (· ≠ 125) = 123 :: (b ++ [125]) := by
    rw [List.rdropWhile, List.reverse_append, List.dropWhile_append_of_pos (by simpa using hbehind),
      ← List.cons_append, List.reverse_append]
    simp
  simp only [greedyCandidate, hrest, hlast]
  rw [if_pos (by simp)]

/-- The text up to the brace that closes the first one. -/
def balanced : Nat → Str → Option Str
  | _, [] => none
  | depth, c :: s =>
      if c = 123 then (balanced (depth + 1) s).map (c :: ·)
      else if c = 125 then
        if depth = 1 then some [c] else (balanced (depth - 1) s).map (c :: ·)
      else (balanced depth s).map (c :: ·)

/-- The balanced region at each brace. -/
def balancedRegions (text : Str) : List Str :=
  text.tails.filterMap fun t => if t.head? = some 123 then balanced 0 t else none

/-- The braces that are open at the end. -/
def netBraces (text : Str) : Int := text.count 123 - text.count 125

/-- The text with its open braces closed, if it seems to be a proposal that was cut off. -/
def repairedCandidate (text : Str) : Option Str :=
  let stripped := text.dropWhile isSpace
  if stripped.head? = some 123 ∧ lit "action_type" <:+: stripped.take 96 ∧
    0 < netBraces stripped then
    some (stripped ++ List.replicate (netBraces stripped).toNat 125)
  else none

/-- `range(n, 0, -8)`. -/
def cuts (n : Nat) : List Nat := (List.range ((n + 7) / 8)).map fun i => n - 8 * i

/-- What `json.loads` does beyond the grammar: it gives up on some texts. -/
structure Interpreter where
  /-- The text nests deeper than the interpreter recurses. -/
  tooDeep : Str → Bool

variable {φ : Type}

section Reading

variable [FloatFormat φ] (py : Interpreter)

/-- `json.loads`.  `none` is the `ValueError` of a malformed text. -/
def Interpreter.loads (text : Str) : Except Raised (Option (PyVal φ)) :=
  if py.tooDeep text then .error (.other (lit "RecursionError")) else .ok (Py.loads text)

/-- The object that a text is, if `json.loads` returns one. -/
def Interpreter.objectOf (text : Str) : Option (Obj φ) :=
  match py.loads (φ := φ) text with
  | .ok (some (.dict data)) => some data
  | _ => none

/-- The longest prefix that is an object, of those that lack a multiple of eight characters. -/
def longestPrefix (text : Str) : Option Str :=
  ((cuts text.length).map text.take).find? fun t => (py.objectOf (φ := φ) t).isSome

/-- `_proposal_json_candidates`. -/
def candidates (text : Str) : List Str :=
  (greedyCandidate text).toList ++ balancedRegions text ++ (repairedCandidate text).toList ++
    (longestPrefix (φ := φ) py text).toList

end Reading

/-! ## What a candidate says -/

section Objects

variable (features : Features)

/-- The action type of an object, with the text `null` read as `None`. -/
def actionTypeOf (data : Obj φ) : PyVal φ :=
  match fetch (lit "action_type") data with
  | .str t => if lowerLetters t = lit "null" then .none else .str t
  | v => v

/-- The object says no action. -/
def actionless (data : Obj φ) : Bool :=
  match actionTypeOf data with
  | .none => true
  | _ => false

/-- The action type can be looked up in a set. -/
def hashable (data : Obj φ) : Bool :=
  match actionTypeOf data with
  | .list _ | .dict _ => false
  | _ => true

/-- The action type is a known one. -/
def hasKnownType (data : Obj φ) : Bool :=
  match actionTypeOf data with
  | .str t => decide (t ∈ knownActionTypes features)
  | _ => false

/-- The confidence is no integer that is too large for a float. -/
def Converts (data : Obj φ) : Prop :=
  ∀ i, getKey (lit "confidence") data = some (.int i) → ∃ x, PyFloat.ofInt i = .ok x

theorem hasKnownType_of_actionless {data : Obj φ} (h : actionless data = true) :
    hasKnownType features data = false ∧ hashable data = true := by
  rw [actionless] at h
  split at h
  · rename_i ht
    exact ⟨by simp [hasKnownType, ht], by simp [hashable, ht]⟩
  · cases h

theorem actionless_of_hasKnownType {data : Obj φ} (h : hasKnownType features data = true) :
    actionless data = false ∧ hashable data = true := by
  rw [hasKnownType] at h
  split at h
  · rename_i ht
    exact ⟨by simp [actionless, ht], by simp [hashable, ht]⟩
  · cases h

/-- No known type is `null`. -/
theorem actionTypeOf_known {data : Obj φ} {t : Str} (htype : fetch (lit "action_type") data = .str t)
    (hknown : t ∈ knownActionTypes features) : actionTypeOf data = .str t := by
  have hnull : ∀ f : Features, (knownActionTypes f).all
      (fun t => lowerLetters t != lit "null") = true := by
    rintro ⟨robotics, mobile, shugonet, fleet⟩
    cases robotics <;> cases mobile <;> cases shugonet <;> cases fleet <;> decide
  have ht := List.all_eq_true.1 (hnull features) t hknown
  rw [actionTypeOf, htype]
  exact if_neg (by simpa using ht)

end Objects

section Conditions

variable [Builtins φ] (py : Interpreter) (features : Features)

/-- A candidate that ends the search: its action type is not known. -/
def rejects (blob : Str) : Bool :=
  (py.objectOf (φ := φ) blob).any fun data =>
    !actionless data && hashable data && !hasKnownType features data

/-- A candidate that raises nothing, unless it is the first without an action. -/
structure Readable (φ : Type) [Builtins φ] (py : Interpreter) (features : Features) (blob : Str) :
    Prop where
  shallow : py.tooDeep blob = false
  hashable : ∀ data : Obj φ, py.objectOf blob = some data → hashable data = true
  converts : ∀ data : Obj φ, py.objectOf blob = some data →
    hasKnownType features data = true → Converts data

/-- The first candidate without an action. -/
def firstActionless (blobs : List Str) : Option (Obj φ) :=
  (blobs.filterMap py.objectOf).find? actionless

/-- No candidate raises, when one without an action was seen before or not. -/
structure NoneRaises (φ : Type) [Builtins φ] (py : Interpreter) (features : Features) (seen : Bool)
    (blobs : List Str) : Prop where
  readable : ∀ blob ∈ blobs, Readable φ py features blob
  stub : seen = false → ∀ data ∈ firstActionless (φ := φ) py blobs, Converts data

/-- The candidates before the one that ends the search. -/
def reached (φ : Type) [Builtins φ] (py : Interpreter) (features : Features) (blobs : List Str) :
    List Str :=
  blobs.takeWhile fun blob => !rejects (φ := φ) py features blob

variable {py features}

theorem objectOf_shallow {blob : Str} {data : Obj φ} (h : py.objectOf blob = some data) :
    py.tooDeep blob = false := by
  rw [Interpreter.objectOf, Interpreter.loads] at h
  rcases Bool.eq_false_or_eq_true (py.tooDeep blob) with hdeep | hdeep
  · rw [if_pos hdeep] at h
    cases h
  · exact hdeep

theorem objectOf_dict {blob : Str} {data : Obj φ} (hd : py.tooDeep blob = false)
    (h : Py.loads blob = some (.dict data)) : py.objectOf blob = some data := by
  simp [Interpreter.objectOf, Interpreter.loads, hd, h]

theorem rejects_object {blob : Str} {data : Obj φ} (h : py.objectOf blob = some data) :
    rejects (φ := φ) py features blob =
      (!actionless data && hashable data && !hasKnownType features data) := by
  rw [rejects, h, Option.any_some]

theorem rejects_none {blob : Str} (h : py.objectOf (φ := φ) blob = none) :
    rejects (φ := φ) py features blob = false := by
  rw [rejects, h, Option.any_none]

theorem objectOf_deep {blob : Str} (h : py.tooDeep blob = true) : py.objectOf (φ :=
  φ) blob = none := by
  rw [Interpreter.objectOf, Interpreter.loads, if_pos h]

theorem readable_none {blob : Str} (hd : py.tooDeep blob = false)
    (h : py.objectOf (φ := φ) blob = none) : Readable φ py features blob := by
  refine ⟨hd, fun data hdata => ?_, fun data hdata => ?_⟩
  · rw [h] at hdata
    cases hdata
  · rw [h] at hdata
    cases hdata

theorem readable_object {blob : Str} {data : Obj φ} (h : py.objectOf blob = some data) :
    Readable φ py features blob ↔
      hashable data = true ∧ (hasKnownType features data = true → Converts data) := by
  constructor
  · intro hr
    exact ⟨hr.hashable data h, hr.converts data h⟩
  · rintro ⟨hh, hc⟩
    refine ⟨objectOf_shallow h, fun data' h' => ?_, fun data' h' => ?_⟩
    · obtain rfl : data = data' := Option.some.inj (h.symm.trans h')
      exact hh
    · obtain rfl : data = data' := Option.some.inj (h.symm.trans h')
      exact hc

theorem firstActionless_none {blob : Str} (h : py.objectOf (φ := φ) blob = none) (blobs : List Str) :
    firstActionless (φ := φ) py (blob :: blobs) = firstActionless py blobs := by
  rw [firstActionless, List.filterMap_cons_none h, firstActionless]

theorem firstActionless_object {blob : Str} {data : Obj φ} (h : py.objectOf blob = some data)
    (blobs : List Str) : firstActionless py (blob :: blobs) =
      if actionless data then some data else firstActionless py blobs := by
  rw [firstActionless, List.filterMap_cons_some h, List.find?_cons, firstActionless]
  cases actionless data <;> rfl

theorem NoneRaises.tail {seen : Bool} {blob : Str} {blobs : List Str}
    (h : firstActionless (φ := φ) py (blob :: blobs) = firstActionless py blobs)
    (hr : Readable φ py features blob) :
    NoneRaises φ py features seen (blob :: blobs) ↔ NoneRaises φ py features seen blobs := by
  constructor
  · intro hq
    exact ⟨fun b hb => hq.readable b (List.mem_cons_of_mem _ hb), h ▸ hq.stub⟩
  · intro hq
    exact ⟨List.forall_mem_cons.2 ⟨hr, hq.readable⟩, h ▸ hq.stub⟩

theorem noneRaises_actionless {seen : Bool} {blob : Str} {data : Obj φ} {blobs : List Str}
    (h : py.objectOf blob = some data) (ha : actionless data = true) :
    NoneRaises φ py features seen (blob :: blobs) ↔
      (seen = false → Converts data) ∧ NoneRaises φ py features true blobs := by
  have hfirst := firstActionless_object h blobs
  rw [if_pos ha] at hfirst
  have hr : Readable φ py features blob := by
    obtain ⟨hk, hh⟩ := hasKnownType_of_actionless features ha
    exact (readable_object h).2 ⟨hh, fun hk' => absurd (hk.symm.trans hk') Bool.false_ne_true⟩
  constructor
  · intro hq
    refine ⟨fun hseen => hq.stub hseen data hfirst, ?_, fun htrue => by cases htrue⟩
    exact fun b hb => hq.readable b (List.mem_cons_of_mem _ hb)
  · rintro ⟨hc, hq⟩
    refine ⟨List.forall_mem_cons.2 ⟨hr, hq.readable⟩, fun hseen data' h' => ?_⟩
    rw [hfirst] at h'
    cases h'
    exact hc hseen

theorem rejects_unhashable {blob : Str} {data : Obj φ} (h : py.objectOf blob = some data)
    (ha : hashable data = false) : rejects (φ := φ) py features blob = false := by
  simp [rejects_object h, ha]

theorem rejects_actionless {blob : Str} {data : Obj φ} (h : py.objectOf blob = some data)
    (ha : actionless data = true) : rejects (φ := φ) py features blob = false := by
  simp [rejects_object h, ha]

theorem rejects_known {blob : Str} {data : Obj φ} (h : py.objectOf blob = some data)
    (hk : hasKnownType features data = true) : rejects (φ := φ) py features blob = false := by
  simp [rejects_object h, hk]

theorem not_readable_deep {blob : Str} (h : py.tooDeep blob = true) :
    ¬ Readable φ py features blob := by
  intro hr
  rw [hr.shallow] at h
  cases h

theorem not_readable_unhashable {blob : Str} {data : Obj φ} (h : py.objectOf blob = some data)
    (ha : hashable data = false) : ¬ Readable φ py features blob := by
  intro hr
  rw [hr.hashable data h] at ha
  cases ha

theorem not_readable_large {blob : Str} {data : Obj φ} (h : py.objectOf blob = some data)
    (hk : hasKnownType features data = true) (hc : ¬ Converts data) :
    ¬ Readable φ py features blob :=
  fun hr => hc (hr.converts data h hk)

theorem noneRaises_nil (seen : Bool) : NoneRaises φ py features seen [] := by
  refine ⟨fun b hb => ?_, fun _ data h => ?_⟩
  · cases hb
  · cases h

theorem noneRaises_none {seen : Bool} {blob : Str} {blobs : List Str} (hd : py.tooDeep blob = false)
    (h : py.objectOf (φ := φ) blob = none) :
    NoneRaises φ py features seen (blob :: blobs) ↔ NoneRaises φ py features seen blobs :=
  NoneRaises.tail (firstActionless_none h blobs) (readable_none hd h)

theorem noneRaises_known {seen : Bool} {blob : Str} {data : Obj φ} {blobs : List Str}
    (h : py.objectOf blob = some data) (hk : hasKnownType features data = true)
    (hc : Converts data) :
    NoneRaises φ py features seen (blob :: blobs) ↔ NoneRaises φ py features seen blobs := by
  obtain ⟨ha, hh⟩ := actionless_of_hasKnownType features hk
  have hfirst := firstActionless_object h blobs
  rw [ha, if_neg Bool.false_ne_true] at hfirst
  exact NoneRaises.tail hfirst ((readable_object h).2 ⟨hh, fun _ => hc⟩)

theorem not_noneRaises_head {seen : Bool} {blob : Str} {blobs : List Str}
    (h : ¬ Readable φ py features blob) : ¬ NoneRaises φ py features seen (blob :: blobs) :=
  fun hq => h (hq.readable blob List.mem_cons_self)

/-- The candidate that ends the search is not reached. -/
theorem reached_cons (blob : Str) (blobs : List Str) : reached φ py features (blob :: blobs) =
    if rejects (φ := φ) py features blob then [] else blob :: reached φ py features blobs := by
  rw [reached, List.takeWhile_cons, reached]
  cases rejects (φ := φ) py features blob <;> rfl

end Conditions

/-! ## Proposals -/

/-- A proposal. -/
structure ParsedProposal (φ : Type) where
  /-- A text or `None`. -/
  actionType : PyVal φ
  params : Obj φ
  confidence : Set.Icc (0 : ℚ) 1

/-- `all_valid.sort(key=…, reverse=True)`. -/
def ranked (valid : List (ParsedProposal φ)) : List (ParsedProposal φ) :=
  valid.insertionSort fun p q => q.confidence ≤ p.confidence

/-- The first proposal is the best one if no other has a greater confidence. -/
theorem ranked_head {p : ParsedProposal φ} {ps : List (ParsedProposal φ)}
    (h : ∀ q ∈ ps, q.confidence ≤ p.confidence) : (ranked (p :: ps)).head? = some p := by
  rw [ranked, List.insertionSort_cons_of_forall_rel _ h]
  rfl

theorem le_of_ranked {valid : List (ParsedProposal φ)} {p q : ParsedProposal φ}
    (h : (ranked valid).head? = some p) (hq : q ∈ valid) : q.confidence ≤ p.confidence := by
  have htotal : Std.Total fun p q : ParsedProposal φ => q.confidence ≤ p.confidence :=
    ⟨fun p q => le_total q.confidence p.confidence⟩
  have htrans : IsTrans (ParsedProposal φ) fun p q => q.confidence ≤ p.confidence :=
    ⟨fun _ _ _ hpq hqr => hqr.trans hpq⟩
  have hsorted :=
    List.pairwise_insertionSort (fun p q : ParsedProposal φ => q.confidence ≤ p.confidence) valid
  have hmem : q ∈ ranked valid := (List.mem_insertionSort _).2 hq
  obtain ⟨rest, hrest⟩ := List.head?_eq_some_iff.1 h
  rw [← ranked, hrest, List.pairwise_cons] at hsorted
  rw [hrest] at hmem
  rcases List.mem_cons.1 hmem with rfl | hmem
  · exact le_rfl
  · exact hsorted.1 q hmem

section

variable [Builtins φ] [FloatReader] (py : Interpreter) (features : Features)

/-- `max(0.0, min(1.0, x))`. -/
def clampUnit : PyFloat ℚ → Set.Icc (0 : ℚ) 1
  | .finite q => Set.projIcc 0 1 zero_le_one q
  | .negInf => ⟨0, le_rfl, zero_le_one⟩
  | .nan | .posInf => ⟨1, zero_le_one, le_rfl⟩

/-- The confidence of an object.  `except (TypeError, ValueError)` leaves one exception. -/
def confidenceOf (data : Obj φ) : Except Exn (Set.Icc (0 : ℚ) 1) :=
  match ((getKey (lit "confidence") data).elim (.ok (.finite 0)) toFloat :
    Except Exn (PyFloat ℚ)) with
  | .ok x => .ok (clampUnit x)
  | .error .typeError | .error .valueError => .ok (clampUnit (.finite 0))
  | .error e => .error e

/-- `_finish`. -/
def finish (data : Obj φ) (actionType : PyVal φ) : Except Exn (ParsedProposal φ) :=
  (confidenceOf data).map fun confidence =>
    { actionType, params := dictOrEmpty (fetch (lit "params") data), confidence }

/-- The utterance of a small model is in the top-level `text` field. -/
def withUtterance (data : Obj φ) (p : ParsedProposal φ) : ParsedProposal φ :=
  match fetch (lit "text") data with
  | .str said =>
      if isText (lit "speak") p.actionType ∧ truthy (fetch (lit "utterance") p.params) = false ∧
          strip said ≠ [] then
        { p with params := setKey (lit "utterance") (.str said) p.params }
      else p
  | _ => p

/-- What a candidate is. -/
inductive Candidate (φ : Type) where
  /-- No object. -/
  | ignored
  | actionless (data : Obj φ)
  | unknown
  | proposal (p : ParsedProposal φ)

/-- The body of the loop, up to what is kept of a candidate. -/
def readCandidate (blob : Str) : Except Raised (Candidate φ) := do
  match ← py.loads blob with
  | some (.dict data) =>
      match actionTypeOf data with
      | .none => return .actionless data
      | actionType =>
          let known ← (valueIn (knownActionTypes features) actionType).mapError .ofExn
          if known then
            let p ← (finish data actionType).mapError .ofExn
            return .proposal (withUtterance data p)
          else return .unknown
  | _ => return .ignored

/-- The loop over the candidates, with `null_stub` and `all_valid`. -/
def scan (stub : Option (ParsedProposal φ)) (valid : List (ParsedProposal φ)) :
    List Str → Except Raised (Option (ParsedProposal φ))
  | [] => return ((ranked valid).head?).or stub
  | blob :: blobs => do
      match ← readCandidate py features blob with
      | .ignored => scan stub valid blobs
      | .actionless data =>
          match stub with
          | some p => scan (some p) valid blobs
          | none =>
              let p ← (finish data .none).mapError .ofExn
              scan (some p) valid blobs
      | .unknown => return none
      | .proposal p => scan stub (valid ++ [p]) blobs

/-- `_parse_proposal` of a text. -/
def parseProposal (text : Str) : Except Raised (Option (ParsedProposal φ)) :=
  if strip text = [] then return none
  else scan py features none [] (candidates (φ := φ) py text)

/-- The only exception that `_finish` leaves is that of an integer. -/
theorem converts_iff {data : Obj φ} : Converts data ↔ ∃ c, confidenceOf data = .ok c := by
  rw [Converts, confidenceOf]
  cases hv : getKey (lit "confidence") data with
  | none => simp
  | some v =>
      cases v with
      | int i =>
          simp only [Option.some.injEq, PyVal.int.injEq, forall_eq', Option.elim_some, toFloat]
          rcases PyFloat.ofInt_cases i with ⟨x, hx⟩ | hx
          · simp [hx]
          · simp [hx]
      | str t =>
          simp only [Option.elim_some, toFloat]
          cases FloatReader.floatOfText t <;> simp
      | float x => cases x <;> simp [toFloat]
      | none | bool _ | list _ | dict _ => simp [toFloat]

/-- What the loop makes of a candidate. -/
inductive Reads (blob : Str) : Except Raised (Candidate φ) → Prop where
  | deep {e : Raised} (h : py.tooDeep blob = true) : Reads blob (.error e)
  | ignored (hd : py.tooDeep blob = false) (h : py.objectOf (φ := φ) blob = none) :
      Reads blob (.ok .ignored)
  | actionless {data : Obj φ} (h : py.objectOf blob = some data) (ha : actionless data = true) :
      Reads blob (.ok (.actionless data))
  | unhashable {data : Obj φ} {e : Raised} (h : py.objectOf blob = some data)
      (ha : hashable data = false) : Reads blob (.error e)
  | unknown {data : Obj φ} (h : py.objectOf blob = some data)
      (hr : rejects (φ := φ) py features blob = true) :
      Reads blob (.ok .unknown)
  | large {data : Obj φ} {e : Raised} (h : py.objectOf blob = some data)
      (hk : hasKnownType features data = true) (hc : ¬ Converts data) : Reads blob (.error e)
  | proposal {data : Obj φ} {p : ParsedProposal φ} (h : py.objectOf blob = some data)
      (hk : hasKnownType features data = true) (hc : confidenceOf data = .ok p.confidence)
      (hp : p = withUtterance data
        ⟨actionTypeOf data, dictOrEmpty (fetch (lit "params") data), p.confidence⟩) :
      Reads blob (.ok (.proposal p))

omit [FloatReader] in
@[simp] theorem withUtterance_confidence (data : Obj φ) (p : ParsedProposal φ) :
    (withUtterance data p).confidence = p.confidence := by
  rw [withUtterance]
  split
  · split <;> rfl
  · rfl

/-- An object with a type is proposed, rejected or raises. -/
theorem reads_object {blob : Str} {data : Obj φ} (h : py.objectOf blob = some data) :
    Reads (φ := φ) py features blob
      (match actionTypeOf data with
      | .none => .ok (.actionless data)
      | actionType => do
          let known ← (valueIn (knownActionTypes features) actionType).mapError .ofExn
          if known then
            let p ← (finish data actionType).mapError .ofExn
            return .proposal (withUtterance data p)
          else return .unknown) := by
  have hunknown : actionless data = false → hashable data = true →
      hasKnownType features data = false → rejects (φ := φ) py features blob = true := by
    intro ha hh hk
    simp [rejects, h, ha, hh, hk]
  cases ht : actionTypeOf data with
  | none => exact .actionless h (by simp [actionless, ht])
  | list xs => exact .unhashable h (by simp [hashable, ht])
  | dict items => exact .unhashable h (by simp [hashable, ht])
  | bool _ | int _ | float _ =>
      exact .unknown h
        (hunknown (by simp [actionless, ht]) (by simp [hashable, ht]) (by simp [hasKnownType, ht]))
  | str t =>
      by_cases hk : t ∈ knownActionTypes features
      · have hknown : hasKnownType features data = true := by simp [hasKnownType, ht, hk]
        simp only [valueIn, hk, decide_true]
        rw [finish]
        cases hc : confidenceOf data with
        | error e =>
            have hlarge : ¬ Converts data := by simp [converts_iff, hc]
            exact .large h hknown hlarge
        | ok c =>
            refine .proposal h hknown ?_ ?_
            · rw [withUtterance_confidence]
              exact hc
            · rw [withUtterance_confidence, ht]
      · simp only [valueIn, hk, decide_false]
        exact .unknown h
          (hunknown (by simp [actionless, ht]) (by simp [hashable, ht])
            (by simp [hasKnownType, ht, hk]))

theorem reads_readCandidate (blob : Str) :
    Reads (φ := φ) py features blob (readCandidate py features blob) := by
  rw [readCandidate, Interpreter.loads]
  rcases Bool.eq_false_or_eq_true (py.tooDeep blob) with hd | hd
  · rw [if_pos hd]
    exact .deep hd
  · rw [if_neg (Bool.eq_false_iff.1 hd)]
    cases hl : Py.loads (φ := φ) blob with
    | none => exact .ignored hd (by simp [Interpreter.objectOf, Interpreter.loads, hd, hl])
    | some v =>
        cases v with
        | dict data => exact reads_object py features (objectOf_dict hd hl)
        | none | bool _ | int _ | float _ | str _ | list _ =>
            exact .ignored hd (by simp [Interpreter.objectOf, Interpreter.loads, hd, hl])

/-! ## The loop -/

variable {py features}

/-- The loop goes through if and only if nothing that it reaches raises. -/
theorem scan_ok_iff (stub : Option (ParsedProposal φ)) (valid : List (ParsedProposal φ))
    (blobs : List Str) :
    (∃ r, scan py features stub valid blobs = .ok r) ↔
      NoneRaises φ py features stub.isSome (reached φ py features blobs) := by
  induction blobs generalizing stub valid with
  | nil =>
      exact ⟨fun _ => noneRaises_nil _, fun _ => ⟨_, rfl⟩⟩
  | cons blob blobs ih =>
      have hreads := reads_readCandidate (φ := φ) py features blob
      rw [scan, reached_cons]
      generalize readCandidate (φ := φ) py features blob = read at hreads ⊢
      cases hreads with
      | deep h =>
          rw [rejects_none (objectOf_deep h), if_neg Bool.false_ne_true]
          exact ⟨(by rintro ⟨_, ⟨⟩⟩), fun hq =>
            absurd hq (not_noneRaises_head (not_readable_deep h))⟩
      | ignored hd h =>
          rw [rejects_none h, if_neg Bool.false_ne_true, noneRaises_none hd h]
          exact ih stub valid
      | @actionless data h ha =>
          rw [rejects_actionless h ha, if_neg Bool.false_ne_true, noneRaises_actionless h ha]
          cases stub with
          | some p =>
              exact (ih (some p) valid).trans ⟨fun hq => ⟨(fun h => by cases h), hq⟩, And.right⟩
          | none =>
              cases hc : confidenceOf data with
              | error e =>
                  have hn : ¬ Converts data := by simp [converts_iff, hc]
                  simp [finish, hc, Except.map, Except.mapError, bind, Except.bind, hn]
              | ok c =>
                  have hy : Converts data := converts_iff.2 ⟨c, hc⟩
                  simp only [finish, hc, Except.map, Except.mapError, bind, Except.bind]
                  exact (ih _ valid).trans ⟨fun hq => ⟨fun _ => hy, hq⟩, And.right⟩
      | unhashable h ha =>
          have hn : ¬ Readable φ py features blob := not_readable_unhashable h ha
          rw [rejects_unhashable h ha, if_neg Bool.false_ne_true]
          exact ⟨(by rintro ⟨_, ⟨⟩⟩), fun hq => absurd hq (not_noneRaises_head hn)⟩
      | unknown h hr =>
          rw [hr, if_pos rfl]
          exact ⟨fun _ => noneRaises_nil _, fun _ => ⟨_, rfl⟩⟩
      | large h hk hc =>
          have hn : ¬ Readable φ py features blob := not_readable_large h hk hc
          rw [rejects_known h hk, if_neg Bool.false_ne_true]
          exact ⟨(by rintro ⟨_, ⟨⟩⟩), fun hq => absurd hq (not_noneRaises_head hn)⟩
      | @proposal data p h hk hc hp =>
          have hconverts : Converts data := converts_iff.2 ⟨_, hc⟩
          rw [rejects_known h hk, if_neg Bool.false_ne_true, noneRaises_known h hk hconverts]
          exact ih stub (valid ++ [p])

/-- An answer is parsed without an exception if and only if nothing that is reached raises. -/
theorem parseProposal_ok_iff (text : Str) : (∃ r, parseProposal (φ := φ) py features text = .ok r) ↔
    (strip text ≠ [] →
      NoneRaises φ py features false (reached φ py features (candidates (φ := φ) py text))) := by
  rw [parseProposal]
  split
  · rename_i hblank
    exact ⟨fun _ h => absurd hblank h, fun _ => ⟨none, rfl⟩⟩
  · rename_i htext
    exact (scan_ok_iff none [] _).trans ⟨fun hq _ => hq, fun hq => hq htext⟩

/-! ## The best proposal -/

/-- No candidate raises or ends the search, and none has a greater confidence. -/
structure Undisturbed (φ : Type) [Builtins φ] [FloatReader] (py : Interpreter) (features : Features)
    (seen : Bool) (best : Set.Icc (0 : ℚ) 1) (blobs : List Str) : Prop where
  noneRaises : NoneRaises φ py features seen blobs
  accepted : ∀ blob ∈ blobs, rejects (φ := φ) py features blob = false
  weaker : ∀ blob ∈ blobs, ∀ data : Obj φ, py.objectOf blob = some data →
    hasKnownType features data = true → ∀ c, confidenceOf data = .ok c → c ≤ best

/-- What the loop returns has at least the confidence of what it had. -/
theorem le_of_scan {stub : Option (ParsedProposal φ)} {valid : List (ParsedProposal φ)}
    {blobs : List Str} {p q : ParsedProposal φ}
    (h : scan py features stub valid blobs = .ok (some p)) (hq : q ∈ valid) :
    q.confidence ≤ p.confidence := by
  induction blobs generalizing stub valid with
  | nil =>
      have hhead : ((ranked valid).head?).or stub = some p := Except.ok.inj h
      cases hr : (ranked valid).head? with
      | none =>
          have hempty : ranked valid = [] := List.head?_eq_none_iff.1 hr
          have hmem : q ∈ ranked valid := (List.mem_insertionSort _).2 hq
          rw [hempty] at hmem
          cases hmem
      | some p' =>
          rw [hr] at hhead
          cases hhead
          exact le_of_ranked hr hq
  | cons blob blobs ih =>
      rw [scan] at h
      obtain ⟨read, -, h⟩ := ok_of_bind h
      cases read with
      | ignored => exact ih h hq
      | unknown => cases h
      | proposal p' => exact ih h (List.mem_append_left _ hq)
      | actionless data =>
          cases stub with
          | some p' => exact ih h hq
          | none =>
              obtain ⟨p', -, h⟩ := ok_of_bind h
              exact ih h hq

theorem Undisturbed.cons {seen seen' : Bool} {best : Set.Icc (0 : ℚ) 1} {blob : Str}
    {blobs : List Str} {asked : Prop}
    (hnone : NoneRaises φ py features seen (blob :: blobs) ↔ asked ∧
      NoneRaises φ py features seen' blobs)
    (haccepted : rejects (φ := φ) py features blob = false)
    (hweaker : ∀ data : Obj φ, py.objectOf blob = some data → hasKnownType features data = true →
            ∀ c, confidenceOf data = .ok c → c ≤ best) :
    Undisturbed φ py features seen best (blob :: blobs) ↔
      asked ∧ Undisturbed φ py features seen' best blobs := by
  constructor
  · intro h
    obtain ⟨hasked, hq⟩ := hnone.1 h.noneRaises
    exact ⟨hasked, hq, (List.forall_mem_cons.1 h.accepted).2, (List.forall_mem_cons.1 h.weaker).2⟩
  · rintro ⟨hasked, h⟩
    exact ⟨hnone.2 ⟨hasked, h.noneRaises⟩, List.forall_mem_cons.2 ⟨haccepted, h.accepted⟩,
      List.forall_mem_cons.2 ⟨hweaker, h.weaker⟩⟩

theorem Undisturbed.cons_none {seen : Bool} {best : Set.Icc (0 : ℚ) 1} {blob : Str}
    {blobs : List Str} (hd : py.tooDeep blob = false) (h : py.objectOf (φ := φ) blob = none) :
    Undisturbed φ py features seen best (blob :: blobs) ↔
      Undisturbed φ py features seen best blobs := by
  have hweaker : ∀ data : Obj φ, py.objectOf blob = some data →
      hasKnownType features data = true → ∀ c, confidenceOf data = .ok c → c ≤ best :=
    fun data hdata => absurd (h.symm.trans hdata) (Option.some_ne_none data).symm
  have hnone :=
    (noneRaises_none hd h).trans (iff_of_eq (true_and (NoneRaises φ py features seen blobs)).symm)
  rw [Undisturbed.cons hnone (rejects_none h) hweaker, true_and]

theorem Undisturbed.cons_actionless {seen : Bool} {best : Set.Icc (0 : ℚ) 1} {blob : Str}
    {blobs : List Str} {data : Obj φ} (h : py.objectOf blob = some data)
    (ha : actionless data = true) :
    Undisturbed φ py features seen best (blob :: blobs) ↔
      (seen = false → Converts data) ∧ Undisturbed φ py features true best blobs := by
  refine Undisturbed.cons (noneRaises_actionless h ha)
    (rejects_actionless h ha) fun data' hdata hk => ?_
  obtain rfl : data = data' := Option.some.inj (h.symm.trans hdata)
  rw [(hasKnownType_of_actionless features ha).1] at hk
  cases hk

theorem Undisturbed.cons_known {seen : Bool} {best c : Set.Icc (0 : ℚ) 1} {blob : Str}
    {blobs : List Str} {data : Obj φ} (h : py.objectOf blob = some data)
    (hk : hasKnownType features data = true) (hc : confidenceOf data = .ok c) (hle : c ≤ best) :
    Undisturbed φ py features seen best (blob :: blobs) ↔
      Undisturbed φ py features seen best blobs := by
  have hweaker : ∀ data' : Obj φ, py.objectOf blob = some data' →
      hasKnownType features data' = true → ∀ c', confidenceOf data' = .ok c' → c' ≤ best := by
    intro data' hdata _ c' hc'
    obtain rfl : data = data' := Option.some.inj (h.symm.trans hdata)
    obtain rfl : c = c' := Except.ok.inj (hc.symm.trans hc')
    exact hle
  have hnone := (noneRaises_known h hk (converts_iff.2 ⟨c, hc⟩)).trans
    (iff_of_eq (true_and (NoneRaises φ py features seen blobs)).symm)
  rw [Undisturbed.cons hnone (rejects_known h hk) hweaker, true_and]

/-- The first proposal is returned if and only if nothing behind it disturbs. -/
theorem scan_best_iff (stub : Option (ParsedProposal φ)) (p : ParsedProposal φ)
    (ps : List (ParsedProposal φ)) (hps : ∀ q ∈ ps, q.confidence ≤ p.confidence)
    (blobs : List Str) :
    scan py features stub (p :: ps) blobs = .ok (some p) ↔
      Undisturbed φ py features stub.isSome p.confidence blobs := by
  induction blobs generalizing stub ps with
  | nil =>
      have hreturn : scan py features stub (p :: ps) [] = .ok (some p) := by
        rw [scan, ranked_head hps]
        rfl
      refine ⟨fun _ => ⟨noneRaises_nil _, fun b hb => ?_, fun b hb => ?_⟩, fun _ => hreturn⟩
      · cases hb
      · cases hb
  | cons blob blobs ih =>
      have hreads := reads_readCandidate (φ := φ) py features blob
      rw [scan]
      generalize readCandidate (φ := φ) py features blob = read at hreads ⊢
      cases hreads with
      | deep h =>
          refine ⟨(fun h => by cases h), fun hu => ?_⟩
          exact absurd hu.noneRaises (not_noneRaises_head (not_readable_deep h))
      | ignored hd h =>
          rw [Undisturbed.cons_none hd h]
          exact ih stub ps hps
      | @actionless data h ha =>
          rw [Undisturbed.cons_actionless h ha]
          cases stub with
          | some p' =>
              exact (ih (some p') ps hps).trans ⟨fun hu => ⟨(fun h => by cases h), hu⟩, And.right⟩
          | none =>
              cases hc : confidenceOf data with
              | error e =>
                  have hn : ¬ Converts data := by simp [converts_iff, hc]
                  simp [finish, hc, Except.map, Except.mapError, bind, Except.bind, hn]
              | ok c =>
                  have hy : Converts data := converts_iff.2 ⟨c, hc⟩
                  simp only [finish, hc, Except.map, Except.mapError, bind, Except.bind]
                  exact (ih _ ps hps).trans ⟨fun hu => ⟨fun _ => hy, hu⟩, And.right⟩
      | unhashable h ha =>
          refine ⟨(fun h => by cases h), fun hu => ?_⟩
          exact absurd hu.noneRaises (not_noneRaises_head (not_readable_unhashable h ha))
      | unknown h hr =>
          refine ⟨(fun h => by cases h), fun hu => ?_⟩
          rw [hu.accepted blob List.mem_cons_self] at hr
          cases hr
      | large h hk hc =>
          refine ⟨(fun h => by cases h), fun hu => ?_⟩
          exact absurd hu.noneRaises (not_noneRaises_head (not_readable_large h hk hc))
      | @proposal data q h hk hc hp =>
          by_cases hle : q.confidence ≤ p.confidence
          · rw [Undisturbed.cons_known h hk hc hle]
            refine ih stub (ps ++ [q]) fun q' hq' => ?_
            rcases List.mem_append.1 hq' with hq' | hq'
            · exact hps q' hq'
            · rw [List.mem_singleton.1 hq']
              exact hle
          · constructor
            · intro hscan
              have hmem : q ∈ p :: ps ++ [q] := List.mem_append_right _ List.mem_cons_self
              exact absurd (le_of_scan hscan hmem) hle
            · intro hu
              exact absurd (hu.weaker blob List.mem_cons_self data h hk _ hc) hle

/-! ## An object and what is nested in it -/

/-- The confidence of an object, cut off at zero and one whatever it is. -/
def saidConfidence (data : Obj φ) : Set.Icc (0 : ℚ) 1 :=
  match confidenceOf data, getKey (lit "confidence") data with
  | .ok c, _ => c
  | .error _, some (.int i) => clampUnit (.finite i)
  | .error _, _ => clampUnit (.finite 0)

/-- What an object proposes. -/
def said (data : Obj φ) : ParsedProposal φ :=
  withUtterance data
    { actionType := fetch (lit "action_type") data
      params := dictOrEmpty (fetch (lit "params") data)
      confidence := saidConfidence data }

/-- An object with a known type is proposed, unless its confidence is too large. -/
theorem readCandidate_known {blob : Str} {data : Obj φ} {t : Str} (hd : py.tooDeep blob = false)
    (hread : Py.loads blob = some (.dict data)) (htype : fetch (lit "action_type") data = .str t)
    (hknown : t ∈ knownActionTypes features) :
    readCandidate py features blob =
      ((finish data (.str t)).mapError .ofExn).map fun p => .proposal (withUtterance data p) := by
  have ht := actionTypeOf_known features htype hknown
  have hmember : valueIn (knownActionTypes features) (.str t : PyVal φ) = .ok true := by
    simp [valueIn, hknown]
  have hloads : py.loads (φ := φ) blob = .ok (some (.dict data)) := by
    simp [Interpreter.loads, hd, hread]
  rw [readCandidate, hloads]
  simp only [bind, Except.bind, ht, hmember, Except.mapError]
  cases finish data (.str t) <;> rfl

/-- A text that is a JSON object with a known type is read as what it says if and only if no
candidate in it raises, ends the search or has a greater confidence. -/
theorem proposal_read_iff (py : Interpreter) (features : Features) {text : Str} {data : Obj φ}
    {t : Str} (hread : Py.loads text = some (.dict data))
    (htype : fetch (lit "action_type") data = .str t) (hknown : t ∈ knownActionTypes features) :
    parseProposal py features text = .ok (some (said data)) ↔
      Undisturbed φ py features false (saidConfidence data) (candidates (φ := φ) py text) := by
  have hdict : ∃ ms, parse text = some (.obj ms) ∧ load (.obj ms : Json φ) = .dict data := by
    rw [Py.loads, Option.map_eq_some_iff] at hread
    obtain ⟨j, hj, hload⟩ := hread
    cases j with
    | obj ms => exact ⟨ms, hj, hload⟩
    | null | bool _ | int _ | float _ | str _ | arr _ => cases hload
  obtain ⟨ms, hparse, hload⟩ := hdict
  obtain ⟨w₁, b, w₂, h₁, h₂, rfl, htrim⟩ := parse_obj_trim hparse
  have hblob : Py.loads (123 :: (b ++ [125])) = some (.dict data) := by
    rw [Py.loads, htrim, ← hload]; rfl
  have hcandidates : candidates (φ := φ) py (w₁ ++ (123 :: (b ++ [125]) ++ w₂)) =
      (123 :: (b ++ [125])) ::
      (candidates (φ := φ) py (w₁ ++ (123 :: (b ++ [125]) ++ w₂))).tail := by
    rw [candidates, greedyCandidate_object h₁ h₂]
    rfl
  have hnonblank : strip (w₁ ++ (123 :: (b ++ [125]) ++ w₂)) ≠ [] :=
    strip_ne_nil (c := 123) (by simp) (by decide)
  rw [parseProposal, if_neg hnonblank, hcandidates]
  generalize (candidates (φ := φ) py (w₁ ++ (123 :: (b ++ [125]) ++ w₂))).tail = rest
  generalize (123 :: (b ++ [125])) = blob at hblob
  have hktype : hasKnownType features data = true := by
    simp [hasKnownType, actionTypeOf_known features htype hknown, hknown]
  rcases Bool.eq_false_or_eq_true (py.tooDeep blob) with hd | hd
  · rw [scan, readCandidate, Interpreter.loads, if_pos hd]
    refine ⟨(fun h => by cases h), fun hu => ?_⟩
    exact absurd hu.noneRaises (not_noneRaises_head (not_readable_deep hd))
  · have hobject := objectOf_dict hd hblob
    rw [scan, readCandidate_known hd hblob htype hknown, finish]
    cases hc : confidenceOf data with
    | error e =>
        have hn : ¬ Converts data := by simp [converts_iff, hc]
        refine ⟨(fun h => by cases h), fun hu => ?_⟩
        exact absurd hu.noneRaises (not_noneRaises_head (not_readable_large hobject hktype hn))
    | ok c =>
        have hsaid : saidConfidence data = c := by simp only [saidConfidence, hc]
        rw [Undisturbed.cons_known hobject hktype hc hsaid.ge]
        have hnext : said data =
            withUtterance data ⟨.str t, dictOrEmpty (fetch (lit "params") data), c⟩ := by
          rw [said, htype, hsaid]
        have hconfidence : (said data).confidence = saidConfidence data := by
          rw [said, withUtterance_confidence]
        rw [← hconfidence]
        have hbest : scan py features none [said data] rest = .ok (some (said data)) ↔
            Undisturbed φ py features false (said data).confidence rest :=
          scan_best_iff none (said data) [] (fun q hq => by cases hq) rest
        rw [hnext] at hbest ⊢
        exact hbest

end

/-! ## A greeting and a dance -/

/-- The object of a greeting. -/
def greeting : Obj WholeFloat :=
  obj [("action_type", .str (lit "speak")), ("text", .str (lit "hello"))]

theorem reread_greeting : reread (.dict greeting) = .dict greeting := by
  simp [reread, greeting, obj, plain, plainMembers, joinDoc, joinMembers, load, loadMembers,
    Dict.ofPairs, Dict.set, Key.text]

/-- A plan with a dance for its only step. -/
def dancePlan : Obj WholeFloat :=
  obj [("action_type", .str (lit "multi_step_process")),
    ("params", .dict (obj [("steps", .list [.dict (obj [("action_type", .str (lit "dance"))])])]))]

theorem reread_dancePlan : reread (.dict dancePlan) = .dict dancePlan := by
  simp [reread, dancePlan, obj, plain, plainMembers, plainElems, joinDoc, joinMembers, joinElems,
    load, loadMembers, loadList, Dict.ofPairs, Dict.set, Key.text]

/-- Nothing was proposed. -/
def proposesNothing : Except Raised (Option (ParsedProposal φ)) → Bool
  | .ok none => true
  | _ => false

theorem eq_of_proposesNothing {r : Except Raised (Option (ParsedProposal φ))}
    (h : proposesNothing r = true) :
    r = .ok none := by
  cases r with
  | error e => cases h
  | ok p =>
      cases p with
      | none => rfl
      | some p => cases h

section

local instance noFloatText : FloatReader := ⟨fun _ => none⟩

/-- A greeting is read as what it says if nothing in it disturbs. -/
theorem proposal_read_greeting :
    parseProposal ⟨fun _ => false⟩ ⟨false, false, false, false⟩ (dumpsPlain (.dict greeting)) =
        .ok (some (said greeting)) ↔
      Undisturbed WholeFloat ⟨fun _ => false⟩ ⟨false, false, false, false⟩ false
        (saidConfidence greeting)
        (candidates (φ := WholeFloat) ⟨fun _ => false⟩ (dumpsPlain (.dict greeting))) := by
  have hread : Py.loads (dumpsPlain (.dict greeting)) = some (.dict greeting) := by
    rw [loads_dumpsPlain, reread_greeting]
  exact proposal_read_iff _ _ hread (t := lit "speak") (by simp [fetch, greeting]) (by decide)

/-- The plan is rejected for its step. -/
theorem dance_rejects_plan :
    Py.loads (dumpsPlain (.dict dancePlan)) = some (.dict dancePlan) ∧
      lit "multi_step_process" ∈ knownActionTypes ⟨true, true, true, true⟩ ∧
      parseProposal ⟨fun _ => false⟩ ⟨true, true, true, true⟩ (dumpsPlain (.dict dancePlan)) ≠
        .ok (some (said dancePlan)) := by
  have hnone := eq_of_proposesNothing (φ := WholeFloat)
    (r := parseProposal ⟨fun _ => false⟩ ⟨true, true, true, true⟩
    (dumpsPlain (.dict dancePlan))) (by decide +kernel)
  refine ⟨by rw [loads_dumpsPlain, reread_dancePlan], by decide, fun h => ?_⟩
  cases hnone.symm.trans h

end

end Engine

end ShugoCore
