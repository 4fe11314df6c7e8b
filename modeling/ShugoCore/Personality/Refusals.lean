import ShugoCore.Lib.Faults
import ShugoCore.Lib.JsonReading
import ShugoCore.Personality.Limited

/-!
# Refusals of packs

`from_dict` of `personality/persona_pack.py` is to raise nothing but `PersonaError`, and `birth`
nothing at all.  Most fields are checked at the door.  The counts of a trait are converted there with
no check, and so is a number that is too large for a float.  The phrases and boundaries of a pack are
iterated at its birth, when only the blocks they stand in were checked.  And wherever a value is turned
into a text, it can meet a limit of the interpreter.

A pack is refused by `PersonaError` only, and born on every profile, if and only if no such field
that is reached is of another kind or meets a limit (`refused_only_by_persona_error_iff`).
-/

namespace ShugoCore

open Py Faults

section

variable {φ : Type} [Builtins φ] {L : Limits φ}

/-! ## What is raised -/

/-- A reading raises an exception that is no `PersonaError`. -/
def Escapes {α : Type} (x : Except PackFault α) : Prop := ∃ e, x = .error (.raised e)

theorem escapes_bind {α β : Type} {x : Except PackFault α} {f : α → Except PackFault β} :
    Escapes (x >>= f) ↔ Escapes x ∨ ∃ a, x = .ok a ∧ Escapes (f a) := by
  cases x with
  | ok a => simp [Escapes, bind, Except.bind]
  | error fault => simp [Escapes, bind, Except.bind]

@[simp] theorem not_escapes_ok {α : Type} (a : α) : ¬ Escapes (.ok a : Except PackFault α) :=
  fun ⟨_, h⟩ => nomatch h

@[simp] theorem not_escapes_pure {α : Type} (a : α) : ¬ Escapes (pure a : Except PackFault α) :=
  fun ⟨_, h⟩ => nomatch h

theorem escapes_raising {α : Type} {x : Except Exn α} : Escapes (raising x) ↔ ¬ Succeeds x := by
  cases x with
  | ok a => exact iff_of_false (fun ⟨_, h⟩ => nomatch h) (not_not_intro ⟨a, rfl⟩)
  | error e => exact iff_of_true ⟨e, rfl⟩ (fun ⟨_, h⟩ => nomatch h)

theorem succeeds_raising {α : Type} {x : Except Exn α} : Succeeds (raising x) ↔ Succeeds x := by
  cases x with
  | ok a => exact iff_of_true ⟨a, rfl⟩ ⟨a, rfl⟩
  | error e => exact iff_of_false (fun ⟨_, h⟩ => nomatch h) (fun ⟨_, h⟩ => nomatch h)

theorem succeeds_text {v : PyVal φ} : Succeeds (L.str v) ↔ L.Shows v := Limits.str_returns_iff v

/-- What is done with a text is done with the text of a value that has one. -/
theorem exists_text {v : PyVal φ} {P : Str → Prop} :
    (∃ text, raising (L.str v) = .ok text ∧ P text) ↔ L.Shows v ∧ P (strOf v) := by
  constructor
  · rintro ⟨text, htext, h⟩
    cases hstr : L.str v with
    | error e =>
        rw [hstr] at htext
        cases htext
    | ok text' =>
        rw [hstr] at htext
        cases htext
        obtain ⟨hshows, rfl⟩ := Limits.str_eq_ok_iff.1 hstr
        exact ⟨hshows, h⟩
  · rintro ⟨hshows, h⟩
    refine ⟨strOf v, ?_, h⟩
    rw [Limits.str_of_shows hshows]
    rfl

theorem escapes_text {v : PyVal φ} : Escapes (raising (L.str v)) ↔ ¬ L.Shows v := by
  rw [escapes_raising, succeeds_text]

/-! ## Numbers and counts -/

/-- A number from zero to one, as a trait has it. -/
def UnitNumber (value : PyVal φ) : Prop := Succeeds (unitFloat value [])

/-- A count that is absent, falsy or convertible. -/
def Countable (value : PyVal φ) : Prop := Succeeds (intOf (orElse value (.int 0)))

/-- The check of a number that could be converted. -/
def unitChecked (number : PyFloat ℚ) (place : Str) : Except PackFault (PyFloat ℚ) :=
  if PyFloat.le (.finite 0) number && PyFloat.le number (.finite 1) then .ok (roundSix number)
  else .error (.trait place (.outside number))

theorem not_escapes_unitChecked (number : PyFloat ℚ) (place : Str) :
    ¬ Escapes (unitChecked number place) := by
  rintro ⟨e, he⟩
  rw [unitChecked] at he
  split at he <;> cases he

/-- Where a number stands matters to the text of its refusal only. -/
theorem succeeds_unitChecked (number : PyFloat ℚ) (place place' : Str) :
    Succeeds (unitChecked number place) ↔ Succeeds (unitChecked number place') := by
  rw [unitChecked, unitChecked]
  split
  · exact iff_of_true ⟨_, rfl⟩ ⟨_, rfl⟩
  · exact iff_of_false (fun ⟨_, h⟩ => nomatch h) (fun ⟨_, h⟩ => nomatch h)

theorem unitFloat_int (i : Int) (place : Str) :
    unitFloat (.int i : PyVal φ) place =
      raising (PyFloat.ofInt i) >>= fun number => unitChecked number place := rfl

theorem escapes_unitFloat (value : PyVal φ) (place : Str) :
    Escapes (unitFloat value place) ↔ TooLarge value := by
  cases value with
  | int i =>
      rw [unitFloat_int, escapes_bind, escapes_raising]
      constructor
      · rintro (hraises | ⟨number, -, hraises⟩)
        · rcases PyFloat.ofInt_cases i with hok | hlarge
          · exact absurd hok hraises
          · exact ⟨i, rfl, hlarge⟩
        · exact absurd hraises (not_escapes_unitChecked number place)
      · rintro ⟨j, hj, hlarge⟩
        cases hj
        rw [hlarge]
        exact .inl fun ⟨_, h⟩ => nomatch h
  | float x =>
      exact iff_of_false (not_escapes_unitChecked _ place) (fun hlarge => nomatch hlarge)
  | none | bool b | str s | list xs | dict d =>
      exact iff_of_false (fun ⟨_, h⟩ => nomatch h) (fun hlarge => nomatch hlarge)

theorem succeeds_unitFloat (value : PyVal φ) (place : Str) :
    Succeeds (unitFloat value place) ↔ UnitNumber value := by
  rw [UnitNumber]
  cases value with
  | int i =>
      rw [unitFloat_int, unitFloat_int, succeeds_bind, succeeds_bind]
      exact exists_congr fun number => and_congr_right fun _ => succeeds_unitChecked number _ _
  | float x => exact succeeds_unitChecked _ _ _
  | none | bool b | str s | list xs | dict d =>
      exact iff_of_false (fun ⟨_, h⟩ => nomatch h) (fun ⟨_, h⟩ => nomatch h)

variable (L) in
/-- A value that raises where a number is read: an integer too large for a float, or a container that
the refusal cannot show. -/
def Unconvertible (value : PyVal φ) : Prop :=
  TooLarge value ∨ value.isContainer = true ∧ ¬ L.Shows value

theorem unitFloat_container {value : PyVal φ} (h : value.isContainer = true) (place : Str) :
    unitFloat value place = .error (.trait place .notNumber) := by
  cases value with
  | list xs | dict d => rfl
  | none | bool b | int i | float x | str s => cases h

omit [Builtins φ] in
theorem not_tooLarge_container {value : PyVal φ} (h : value.isContainer = true) :
    ¬ TooLarge value := by
  rintro ⟨i, rfl, -⟩
  cases h

theorem escapes_unitFloatWithin (value : PyVal φ) (place : Str) :
    Escapes (unitFloatWithin L value place) ↔ Unconvertible L value := by
  rw [unitFloatWithin, Unconvertible]
  split
  · rename_i hcontainer
    rw [escapes_bind, escapes_text, unitFloat_container hcontainer]
    simp only [hcontainer, true_and, not_tooLarge_container hcontainer, false_or]
    refine or_iff_left ?_
    rintro ⟨text, -, e, he⟩
    cases he
  · rename_i hplain
    rw [escapes_unitFloat]
    exact (or_iff_left fun h => hplain h.1).symm

theorem succeeds_unitFloatWithin (value : PyVal φ) (place : Str) :
    Succeeds (unitFloatWithin L value place) ↔ UnitNumber value := by
  rw [unitFloatWithin]
  split
  · rename_i hcontainer
    rw [UnitNumber, unitFloat_container hcontainer, unitFloat_container hcontainer]
    refine iff_of_false ?_ (not_succeeds_error _)
    intro h
    obtain ⟨text, -, number, hnumber⟩ := succeeds_bind.1 h
    cases hnumber
  · exact succeeds_unitFloat value place

/-! ## Traits -/

/-- A trait that is read. -/
def GoodTrait : PyVal φ → Prop
  | .dict spec =>
      UnitNumber (fetch (lit "value") spec) ∧
      (∀ v ∈ getKey (lit "confidence") spec, UnitNumber v) ∧
      Countable (fetch (lit "evidence_count") spec) ∧ Countable (fetch (lit "last_gen") spec)
  | spec => UnitNumber spec

variable (L) in
/-- A trait whose reading raises: the first of its fields that is not taken cannot be converted. -/
def BreakingTrait : PyVal φ → Prop
  | .dict spec =>
      Unconvertible L (fetch (lit "value") spec) ∨
      UnitNumber (fetch (lit "value") spec) ∧
        ((∃ v ∈ getKey (lit "confidence") spec, Unconvertible L v) ∨
        (∀ v ∈ getKey (lit "confidence") spec, UnitNumber v) ∧
          (¬ Countable (fetch (lit "evidence_count") spec) ∨
            ¬ Countable (fetch (lit "last_gen") spec)))
  | spec => Unconvertible L spec

variable (L) in
/-- The confidence of a trait.  An absent one is zero. -/
def traitConfidence (place : Str) : Option (PyVal φ) → Except PackFault (PyFloat ℚ)
  | some v => unitFloatWithin L v (place ++ lit ".confidence")
  | none => .ok (.finite 0)

theorem escapes_traitConfidence (place : Str) (confidence : Option (PyVal φ)) :
    Escapes (traitConfidence L place confidence) ↔ ∃ v ∈ confidence, Unconvertible L v := by
  cases confidence with
  | none => simp [traitConfidence]
  | some v => simp [traitConfidence, escapes_unitFloatWithin]

theorem succeeds_traitConfidence (place : Str) (confidence : Option (PyVal φ)) :
    Succeeds (traitConfidence L place confidence) ↔ ∀ v ∈ confidence, UnitNumber v := by
  cases confidence with
  | none => exact iff_of_true ⟨_, rfl⟩ (fun v hv => nomatch hv)
  | some v => simp [traitConfidence, succeeds_unitFloatWithin]

/-- A trait with evidence, field by field. -/
theorem traitOf_dict (place : Str) (spec : Obj φ) :
    traitOfWithin L place (.dict spec) = (do
      let value ← unitFloatWithin L (fetch (lit "value") spec) (place ++ lit ".value")
      let confidence ← traitConfidence L place (getKey (lit "confidence") spec)
      let evidenceCount ← raising (intOf (orElse (fetch (lit "evidence_count") spec) (.int 0)))
      let lastGen ← raising (intOf (orElse (fetch (lit "last_gen") spec) (.int 0)))
      return .new value confidence (max 0 evidenceCount) (max 0 lastGen)) := by
  rw [traitOfWithin]
  cases getKey (lit "confidence") spec <;> rfl

theorem escapes_traitOf (place : Str) (spec : PyVal φ) :
    Escapes (traitOfWithin L place spec) ↔ BreakingTrait L spec := by
  cases spec with
  | dict spec =>
      simp only [traitOf_dict, escapes_bind, escapes_unitFloatWithin, escapes_traitConfidence,
        escapes_raising, not_escapes_pure, and_false, exists_false, or_false, exists_ok_and,
        succeeds_unitFloatWithin, succeeds_traitConfidence, succeeds_raising, BreakingTrait, Countable]
      refine or_congr_right (and_congr_right fun _ => or_congr_right (and_congr_right fun _ => ?_))
      tauto
  | none | bool b | int i | float x | str s | list xs =>
      simp only [traitOfWithin, escapes_bind, escapes_unitFloatWithin, not_escapes_pure, and_false,
        exists_false, or_false, BreakingTrait]

theorem succeeds_traitOf (place : Str) (spec : PyVal φ) :
    Succeeds (traitOfWithin L place spec) ↔ GoodTrait spec := by
  cases spec with
  | dict spec =>
      simp only [traitOf_dict, succeeds_bind, succeeds_pure, and_true, exists_ok_and,
        succeeds_unitFloatWithin, succeeds_traitConfidence, succeeds_raising, GoodTrait, Countable,
        exists_ok]
  | none | bool b | int i | float x | str s | list xs =>
      simp only [traitOfWithin, succeeds_bind, succeeds_pure, and_true, exists_ok,
        succeeds_unitFloatWithin, GoodTrait]

/-- A name that a trait may have. -/
def Nameable (name : Key φ) : Prop := isTraitName (strOf name.toVal) = true

variable (L) in
/-- A trait that is read, with its name. -/
structure ReadItem (item : Key φ × PyVal φ) : Prop where
  shows : L.Shows item.1.toVal
  name : Nameable item.1
  trait : GoodTrait item.2

variable (L) in
/-- A trait that raises, or whose name does. -/
def BreakingItem (item : Key φ × PyVal φ) : Prop :=
  ¬ L.Shows item.1.toVal ∨ Nameable item.1 ∧ BreakingTrait L item.2

variable (L) in
/-- The reading of the traits raises: there is a first trait that is not read, and it raises. -/
def BreakingTraits (raw : Obj φ) : Prop :=
  ∃ before item after, raw = before ++ item :: after ∧
    (∀ earlier ∈ before, ReadItem L earlier) ∧ BreakingItem L item

theorem breakingTraits_cons (item : Key φ × PyVal φ) (raw : Obj φ) :
    BreakingTraits L (item :: raw) ↔
      BreakingItem L item ∨ ReadItem L item ∧ BreakingTraits L raw := by
  constructor
  · rintro ⟨before, first, after, hsplit, hbefore, hbreaks⟩
    cases before with
    | nil =>
        cases hsplit
        exact .inl hbreaks
    | cons d before =>
        cases hsplit
        obtain ⟨hd, hbefore⟩ := List.forall_mem_cons.1 hbefore
        exact .inr ⟨hd, before, first, after, rfl, hbefore, hbreaks⟩
  · rintro (hbreaks | ⟨hread, before, first, after, rfl, hbefore, hbreaks⟩)
    · exact ⟨[], item, raw, rfl, List.forall_mem_nil _, hbreaks⟩
    · exact ⟨item :: before, first, after, rfl, List.forall_mem_cons.2 ⟨hread, hbefore⟩, hbreaks⟩

theorem readTraits_cons (place : Str) (traits : Dict Str TraitState) (item : Key φ × PyVal φ)
    (raw : Obj φ) :
    readTraitsWithin L place traits (item :: raw) =
      raising (L.str item.1.toVal) >>= fun key =>
        if isTraitName key then
          traitOfWithin L (place ++ [46] ++ key) item.2 >>= fun state =>
            readTraitsWithin L place (Dict.set traits key state) raw
        else .error (.traitName place key) := rfl

theorem succeeds_readTraits (place : Str) (traits : Dict Str TraitState) (raw : Obj φ) :
    Succeeds (readTraitsWithin L place traits raw) ↔ ∀ item ∈ raw, ReadItem L item := by
  induction raw generalizing traits with
  | nil => exact iff_of_true ⟨_, rfl⟩ (fun item hitem => nomatch hitem)
  | cons item raw ih =>
      have hitem : ReadItem L item ↔ L.Shows item.1.toVal ∧ Nameable item.1 ∧ GoodTrait item.2 :=
        ⟨fun h => ⟨h.shows, h.name, h.trait⟩, fun h => ⟨h.1, h.2.1, h.2.2⟩⟩
      rw [readTraits_cons, List.forall_mem_cons, succeeds_bind, exists_text, hitem, and_assoc]
      refine and_congr_right fun _ => ?_
      split
      · rename_i hname
        simp only [succeeds_bind, ih, exists_ok_and, succeeds_traitOf]
        simp only [Nameable, hname, true_and]
      · rename_i hname
        exact iff_of_false (fun ⟨_, h⟩ => nomatch h) (fun h => hname h.1.1)

theorem escapes_readTraits (place : Str) (traits : Dict Str TraitState) (raw : Obj φ) :
    Escapes (readTraitsWithin L place traits raw) ↔ BreakingTraits L raw := by
  induction raw generalizing traits with
  | nil =>
      refine iff_of_false (not_escapes_ok traits) ?_
      rintro ⟨before, item, after, hsplit, -⟩
      cases before <;> cases hsplit
  | cons item raw ih =>
      rw [readTraits_cons, breakingTraits_cons, escapes_bind, escapes_text, exists_text, BreakingItem]
      have hrest : Escapes (if isTraitName (strOf item.1.toVal) then
          traitOfWithin L (place ++ [46] ++ strOf item.1.toVal) item.2 >>= fun state =>
            readTraitsWithin L place (Dict.set traits (strOf item.1.toVal) state) raw
          else .error (.traitName place (strOf item.1.toVal))) ↔
          Nameable item.1 ∧ (BreakingTrait L item.2 ∨ GoodTrait item.2 ∧ BreakingTraits L raw) := by
        split
        · rename_i hname
          simp only [escapes_bind, ih, exists_ok_and, escapes_traitOf, succeeds_traitOf]
          simp only [Nameable, hname, true_and]
        · rename_i hname
          refine iff_of_false ?_ (fun h => hname h.1)
          rintro ⟨e, he⟩
          cases he
      rw [hrest]
      constructor
      · rintro (hshows | ⟨hshows, hname, hbreaks | ⟨hgood, hrest⟩⟩)
        · exact .inl (.inl hshows)
        · exact .inl (.inr ⟨hname, hbreaks⟩)
        · exact .inr ⟨⟨hshows, hname, hgood⟩, hrest⟩
      · rintro ((hshows | ⟨hname, hbreaks⟩) | ⟨hread, hrest⟩)
        · exact .inl hshows
        · by_cases hshows : L.Shows item.1.toVal
          · exact .inr ⟨hshows, hname, .inl hbreaks⟩
          · exact .inl hshows
        · exact .inr ⟨hread.shows, hread.name, .inr ⟨hread.trait, hrest⟩⟩

variable (L) in
/-- The traits of a pack raise. -/
def TraitsBreak (d : Obj φ) : Prop :=
  ∃ raw, fetch (lit "traits") d = .dict raw ∧ BreakingTraits L raw

variable (L) in
/-- The traits of a pack are read. -/
def TraitsRead (d : Obj φ) : Prop :=
  fetch (lit "traits") d = .none ∨
    ∃ raw, fetch (lit "traits") d = .dict raw ∧ ∀ item ∈ raw, ReadItem L item

theorem escapes_traitsFromRaw (d : Obj φ) (place : Str) :
    Escapes (traitsFromRawWithin L (fetch (lit "traits") d) place) ↔ TraitsBreak L d := by
  rw [TraitsBreak]
  cases fetch (lit "traits") d with
  | dict raw => simp [traitsFromRawWithin, escapes_readTraits]
  | none => exact iff_of_false (not_escapes_ok _) (fun ⟨_, h, _⟩ => nomatch h)
  | bool b | int i | float x | str s | list xs =>
      exact iff_of_false (fun ⟨_, h⟩ => nomatch h) (fun ⟨_, h, _⟩ => nomatch h)

theorem succeeds_traitsFromRaw (d : Obj φ) (place : Str) :
    Succeeds (traitsFromRawWithin L (fetch (lit "traits") d) place) ↔ TraitsRead L d := by
  rw [TraitsRead]
  cases fetch (lit "traits") d with
  | dict raw => simp [traitsFromRawWithin, succeeds_readTraits]
  | none => exact iff_of_true ⟨_, rfl⟩ (.inl rfl)
  | bool b | int i | float x | str s | list xs =>
      refine iff_of_false (fun ⟨_, h⟩ => nomatch h) ?_
      rintro (h | ⟨raw, h, -⟩) <;> cases h

/-! ## The door -/

/-- A field that is read as a text. -/
def packText (k : String) (d : Obj φ) : PyVal φ := orElse (fetch (lit k) d) (.str [])

/-- A pack that gets to its blocks, and has them. -/
structure Framed (d : Obj φ) : Prop where
  schema : textOr (fetch (lit "schema") d) = personaSchema
  personaId : isPackId (textOr (fetch (lit "persona_id") d)) = true
  version : ¬ (strip (textOr (fetch (lit "version") d)) = [] ∨
    64 < (strip (textOr (fetch (lit "version") d))).length)
  blocks : ∀ key ∈ blockKeys, isBlock (fetch key d) = true

/-- A pack that gets to its hash. -/
structure Located (d : Obj φ) : Prop extends Framed d where
  uri : ∀ voiceModel, fetch (lit "voice_model") d = .dict voiceModel →
    strip (textOr (fetch (lit "uri") voiceModel)) ≠ []

/-- A pack that gets to its name and its traits. -/
structure Admitted (hashes : Hashlib) (d : Obj φ) : Prop extends Located d where
  hash : fetch (lit "hash") d = .none ∨ computeDigest hashes d = .ok (strOf (fetch (lit "hash") d))

/-- No limit is met at the door, as far as the pack gets. -/
structure MeetsNoLimit (L : Limits φ) (hashes : Hashlib) (d : Obj φ) : Prop where
  schema : L.Shows (packText "schema" d)
  personaId : textOr (fetch (lit "schema") d) = personaSchema → L.Shows (packText "persona_id" d)
  version : textOr (fetch (lit "schema") d) = personaSchema →
    isPackId (textOr (fetch (lit "persona_id") d)) = true → L.Shows (packText "version" d)
  uri : Framed d → ∀ voiceModel, fetch (lit "voice_model") d = .dict voiceModel →
    L.Shows (packText "uri" voiceModel)
  body : Located d → L.Writes (digestBody d)
  hash : Located d → L.Shows (fetch (lit "hash") d)
  name : Admitted hashes d → L.Shows (packText "name" d)

/-- The digest of a dictionary that was read. -/
theorem computeDigest_loadDict (hashes : Hashlib) (ms : List (Str × Json φ)) :
    ∃ digest, computeDigest hashes (loadDict ms) = .ok digest := by
  rw [computeDigest, canonicalHash, canonicalJson, dumps, filter_loadDict (keyNotIn [lit "hash"]),
    encode_loadDict]
  exact ⟨_, rfl⟩

/-! ### The checks, one by one -/

theorem escapes_textOr {v : PyVal φ} :
    Escapes (textOrWithin L v) ↔ ¬ L.Shows (orElse v (.str [])) := escapes_text

theorem exists_textOr {v : PyVal φ} {P : Str → Prop} :
    (∃ text, textOrWithin L v = .ok text ∧ P text) ↔ L.Shows (orElse v (.str [])) ∧ P (textOr v) :=
  exists_text

theorem succeeds_textOr {v : PyVal φ} :
    Succeeds (textOrWithin L v) ↔ L.Shows (orElse v (.str [])) :=
  succeeds_raising.trans succeeds_text

/-- A refusal is no other exception. -/
def PackFault.isRefusal : PackFault → Prop
  | .raised _ => False
  | _ => True

theorem not_escapes_refuseIf {reason : Prop} [Decidable reason] {fault : PackFault}
    (h : fault.isRefusal) : ¬ Escapes (refuseIf reason fault) := by
  rintro ⟨e, he⟩
  rw [refuseIf] at he
  split at he
  · cases he
    exact h
  · cases he

theorem succeeds_refuseIf {reason : Prop} [Decidable reason] {fault : PackFault} :
    Succeeds (refuseIf reason fault) ↔ ¬ reason := by
  rw [refuseIf]
  split
  · rename_i h
    exact iff_of_false (not_succeeds_error fault) (not_not_intro h)
  · rename_i h
    exact iff_of_true ⟨_, rfl⟩ h

omit [Builtins φ] in
theorem not_escapes_checkBlocks (d : Obj φ) : ¬ Escapes (checkBlocks d) := by
  rintro ⟨e, he⟩
  rw [checkBlocks] at he
  split at he <;> cases he

omit [Builtins φ] in
theorem succeeds_checkBlocks (d : Obj φ) :
    Succeeds (checkBlocks d) ↔ ∀ key ∈ blockKeys, isBlock (fetch key d) = true := by
  rw [checkBlocks]
  cases hfind : blockKeys.find? fun key => !isBlock (fetch key d) with
  | none =>
      refine iff_of_true ⟨(), rfl⟩ fun key hkey => ?_
      simpa using List.find?_eq_none.1 hfind key hkey
  | some key =>
      refine iff_of_false (not_succeeds_error _) fun hblocks => ?_
      have hnot := List.find?_some hfind
      rw [hblocks key (List.mem_of_find?_eq_some hfind)] at hnot
      cases hnot

theorem escapes_voiceModelOf (d : Obj φ) :
    Escapes (voiceModelOfWithin L d) ↔ ¬ ∀ voiceModel, fetch (lit "voice_model") d = .dict voiceModel →
      L.Shows (packText "uri" voiceModel) := by
  rw [voiceModelOfWithin]
  cases fetch (lit "voice_model") d with
  | dict voiceModel =>
      simp only [escapes_bind, escapes_textOr, exists_textOr, not_escapes_pure, and_false, exists_false,
        or_false, PyVal.dict.injEq, forall_eq', packText]
      refine or_iff_left ?_
      rintro ⟨-, hrefused⟩
      exact not_escapes_refuseIf (show PackFault.uri.isRefusal from trivial) hrefused
  | none | bool b | int i | float x | str s | list xs =>
      refine iff_of_false (not_escapes_ok _) (not_not_intro ?_)
      intro voiceModel h
      cases h

theorem succeeds_voiceModelOf (d : Obj φ) :
    Succeeds (voiceModelOfWithin L d) ↔
      (∀ voiceModel, fetch (lit "voice_model") d = .dict voiceModel →
        L.Shows (packText "uri" voiceModel)) ∧
      ∀ voiceModel, fetch (lit "voice_model") d = .dict voiceModel →
        strip (textOr (fetch (lit "uri") voiceModel)) ≠ [] := by
  rw [voiceModelOfWithin]
  cases fetch (lit "voice_model") d with
  | dict voiceModel =>
      simp only [succeeds_bind, exists_textOr, exists_ok, succeeds_refuseIf, succeeds_pure, and_true,
        PyVal.dict.injEq, forall_eq', packText, ne_eq]
  | none | bool b | int i | float x | str s | list xs =>
      refine iff_of_true ⟨_, rfl⟩ ⟨?_, ?_⟩
      · intro voiceModel h
        cases h
      · intro voiceModel h
        cases h

/-- The digest within the limits is the digest, if no limit is met. -/
theorem computeDigestWithin_eq_ok_iff {hashes : Hashlib} {d : Obj φ} {digest : Str} :
    computeDigestWithin L hashes d = .ok digest ↔
      L.Writes (digestBody d) ∧ computeDigest hashes d = .ok digest := by
  have hdigest : computeDigest hashes d = (match encode (digestBody d) with
      | some document => .ok (hashes.sha256 (render compact document))
      | none => .error .typeError) := by
    rw [computeDigest, canonicalHash, canonicalJson, dumps, ← digestBody]
    cases encode (digestBody d) <;> rfl
  rw [hdigest]
  constructor
  · intro h
    obtain ⟨document, hdocument, h⟩ := ok_of_bind h
    obtain ⟨hwrites, hencode⟩ := Limits.encode_eq_ok_iff.1 hdocument
    rw [hencode]
    exact ⟨hwrites, h⟩
  · rintro ⟨hwrites, h⟩
    cases hencode : encode (digestBody d) with
    | none =>
        rw [hencode] at h
        cases h
    | some document =>
        rw [hencode] at h
        rw [computeDigestWithin, Limits.encode_eq_ok_iff.2 ⟨hwrites, hencode⟩]
        exact h

theorem escapes_digest {hashes : Hashlib} {d : Obj φ} {digest : Str}
    (hdigest : computeDigest hashes d = .ok digest) :
    Escapes (raising (computeDigestWithin L hashes d)) ↔ ¬ L.Writes (digestBody d) := by
  rw [escapes_raising]
  refine not_congr ⟨?_, fun hwrites => ⟨digest, computeDigestWithin_eq_ok_iff.2 ⟨hwrites, hdigest⟩⟩⟩
  rintro ⟨digest', h⟩
  exact (computeDigestWithin_eq_ok_iff.1 h).1

theorem exists_digest {hashes : Hashlib} {d : Obj φ} {digest : Str} {P : Str → Prop}
    (hdigest : computeDigest hashes d = .ok digest) :
    (∃ digest', raising (computeDigestWithin L hashes d) = .ok digest' ∧ P digest') ↔
      L.Writes (digestBody d) ∧ P digest := by
  constructor
  · rintro ⟨digest', h, hp⟩
    cases hwithin : computeDigestWithin L hashes d with
    | error e =>
        rw [hwithin] at h
        cases h
    | ok digest'' =>
        rw [hwithin] at h
        cases h
        obtain ⟨hwrites, hdigest'⟩ := computeDigestWithin_eq_ok_iff.1 hwithin
        cases hdigest.symm.trans hdigest'
        exact ⟨hwrites, hp⟩
  · rintro ⟨hwrites, hp⟩
    refine ⟨digest, ?_, hp⟩
    rw [computeDigestWithin_eq_ok_iff.2 ⟨hwrites, hdigest⟩]
    rfl

/-- A hash that is declared, step by step. -/
theorem declaredHashOf_declared {d : Obj φ} (h : fetch (lit "hash") d ≠ .none) (digest : Str) :
    declaredHashOfWithin L d digest = (do
      let text ← raising (L.str (fetch (lit "hash") d))
      refuseIf (text ≠ digest) (.hash text digest)
      return some text) := by
  rw [declaredHashOfWithin]
  cases hhash : fetch (lit "hash") d with
  | none => exact absurd hhash h
  | bool b | int i | float x | str s | list xs | dict e => rfl

theorem declaredHashOf_absent {d : Obj φ} (h : fetch (lit "hash") d = .none) (digest : Str) :
    declaredHashOfWithin L d digest = .ok none := by
  rw [declaredHashOfWithin, h]

theorem escapes_declaredHashOf (d : Obj φ) (digest : Str) :
    Escapes (declaredHashOfWithin L d digest) ↔ ¬ L.Shows (fetch (lit "hash") d) := by
  by_cases hnone : fetch (lit "hash") d = .none
  · rw [declaredHashOf_absent hnone, hnone]
    exact iff_of_false (not_escapes_ok _) (not_not_intro Limits.shows_none)
  · simp only [declaredHashOf_declared hnone, escapes_bind, escapes_text, exists_text, not_escapes_pure,
      and_false, exists_false, or_false]
    refine or_iff_left ?_
    rintro ⟨-, hrefused⟩
    exact not_escapes_refuseIf
      (show (PackFault.hash (strOf (fetch (lit "hash") d)) digest).isRefusal from trivial) hrefused

theorem succeeds_declaredHashOf {hashes : Hashlib} {d : Obj φ} {digest : Str}
    (hdigest : computeDigest hashes d = .ok digest) :
    Succeeds (declaredHashOfWithin L d digest) ↔ L.Shows (fetch (lit "hash") d) ∧
      (fetch (lit "hash") d = .none ∨ computeDigest hashes d = .ok (strOf (fetch (lit "hash") d))) := by
  rw [hdigest, Except.ok.injEq]
  by_cases hnone : fetch (lit "hash") d = .none
  · rw [declaredHashOf_absent hnone, hnone]
    exact iff_of_true ⟨_, rfl⟩ ⟨Limits.shows_none, .inl rfl⟩
  · simp only [declaredHashOf_declared hnone, succeeds_bind, exists_text, exists_ok, succeeds_refuseIf,
      succeeds_pure, and_true, ne_eq, not_not, hnone, false_or]
    exact and_congr_right fun _ => ⟨Eq.symm, Eq.symm⟩

/-! ### The door as a whole -/

/-- A step that raises, or what comes after it does. -/
theorem not_not_or_and {a b : Prop} : ¬ (¬ a ∨ a ∧ b) ↔ a ∧ ¬ b := by tauto

/-- A pack raises if it meets a limit, or if it is admitted and one of its traits raises. -/
theorem not_escapes_fromDict_iff {hashes : Hashlib} {d : Obj φ} {digest : Str} (source : Str)
    (hdigest : computeDigest hashes d = .ok digest) :
    ¬ Escapes (fromDictWithin L hashes (.dict d) source) ↔
      MeetsNoLimit L hashes d ∧ (Admitted hashes d → ¬ TraitsBreak L d) := by
  simp only [fromDictWithin, escapes_bind, escapes_textOr, exists_textOr, succeeds_textOr,
    exists_ok_and, succeeds_refuseIf, not_escapes_checkBlocks, succeeds_checkBlocks,
    escapes_voiceModelOf, succeeds_voiceModelOf, escapes_digest hdigest, exists_digest hdigest,
    escapes_declaredHashOf, succeeds_declaredHashOf hdigest, escapes_traitsFromRaw, not_escapes_pure,
    not_escapes_refuseIf (show (PackFault.schema _).isRefusal from trivial),
    not_escapes_refuseIf (show (PackFault.personaId _).isRefusal from trivial),
    not_escapes_refuseIf (show PackFault.version.isRefusal from trivial), exists_false, and_false,
    or_false, false_or, and_assoc, not_not_or_and, not_and, not_not, Bool.not_eq_false, ne_eq]
  constructor
  · rintro ⟨hschema, h⟩
    have hversion := fun hs hi => (h hs).2 hi
    have huri := fun framed : Framed d =>
      (hversion framed.schema framed.personaId).2 framed.version framed.blocks
    have hbody := fun located : Located d => (huri located.toFramed).2 located.uri
    have hname := fun admitted : Admitted hashes d => (hbody admitted.toLocated).2.2 admitted.hash
    exact ⟨⟨hschema, fun hs => (h hs).1, fun hs hi => (hversion hs hi).1, fun framed => (huri framed).1,
      fun located => (hbody located).1, fun located => (hbody located).2.1,
      fun admitted => (hname admitted).1⟩, fun admitted => (hname admitted).2⟩
  · rintro ⟨hno, htraits⟩
    refine ⟨hno.schema, fun hs => ⟨hno.personaId hs, fun hi => ⟨hno.version hs hi, fun hv hb => ?_⟩⟩⟩
    have framed : Framed d := ⟨hs, hi, hv, hb⟩
    refine ⟨hno.uri framed, fun hu => ?_⟩
    have located : Located d := ⟨framed, hu⟩
    refine ⟨hno.body located, hno.hash located, fun hhash => ?_⟩
    have admitted : Admitted hashes d := ⟨located, hhash⟩
    exact ⟨hno.name admitted, htraits admitted⟩

/-- A pack is accepted if it meets no limit, is admitted and has traits that are read. -/
theorem accepted_iff {hashes : Hashlib} {d : Obj φ} {digest : Str} (source : Str)
    (hdigest : computeDigest hashes d = .ok digest) :
    Succeeds (fromDictWithin L hashes (.dict d) source) ↔
      MeetsNoLimit L hashes d ∧ Admitted hashes d ∧ TraitsRead L d := by
  simp only [fromDictWithin, succeeds_bind, exists_textOr, succeeds_textOr, exists_ok_and, exists_ok,
    succeeds_refuseIf, succeeds_checkBlocks, succeeds_voiceModelOf, exists_digest hdigest,
    succeeds_declaredHashOf hdigest, succeeds_traitsFromRaw, succeeds_pure, and_true, and_assoc,
    not_not, Bool.not_eq_false, ne_eq]
  constructor
  · rintro ⟨hschema, hs, hid, hi, hversion, hv, hb, huri, hu, hbody, hhash, hh, hname, hread⟩
    exact ⟨⟨hschema, fun _ => hid, fun _ _ => hversion, fun _ => huri, fun _ => hbody, fun _ => hhash,
      fun _ => hname⟩, ⟨⟨⟨hs, hi, hv, hb⟩, hu⟩, hh⟩, hread⟩
  · rintro ⟨hno, a, hread⟩
    exact ⟨hno.schema, a.schema, hno.personaId a.schema, a.personaId,
      hno.version a.schema a.personaId, a.version, a.blocks, hno.uri a.toFramed, a.uri,
      hno.body a.toLocated, hno.hash a.toLocated, a.hash, hno.name a, hread⟩

/-- The blocks of a pack that is accepted. -/
theorem blocks_of_fromDict {hashes : Hashlib} {d : Obj φ} {source : Str} {pack : PersonaPack φ}
    (h : fromDictWithin L hashes (.dict d) source = .ok pack) :
    pack.speech = dictOrEmpty (fetch (lit "speech") d) ∧
      pack.policy = dictOrEmpty (fetch (lit "policy") d) := by
  rw [fromDictWithin] at h
  obtain ⟨schema, -, h⟩ := ok_of_bind h
  obtain ⟨-, -, h⟩ := ok_of_bind h
  obtain ⟨personaId, -, h⟩ := ok_of_bind h
  obtain ⟨-, -, h⟩ := ok_of_bind h
  obtain ⟨version, -, h⟩ := ok_of_bind h
  obtain ⟨-, -, h⟩ := ok_of_bind h
  obtain ⟨-, -, h⟩ := ok_of_bind h
  obtain ⟨voiceModel, -, h⟩ := ok_of_bind h
  obtain ⟨digest, -, h⟩ := ok_of_bind h
  obtain ⟨declaredHash, -, h⟩ := ok_of_bind h
  obtain ⟨name, -, h⟩ := ok_of_bind h
  obtain ⟨traits, -, h⟩ := ok_of_bind h
  cases h
  exact ⟨rfl, rfl⟩

/-! ## Births -/

/-- Phrases that are falsy, or that can be iterated. -/
def PhraseList (v : PyVal φ) : Prop := truthy v = true → Succeeds (iterate v)

theorem succeeds_iterate_orElse (v : PyVal φ) :
    Succeeds (iterate (orElse v (.list []))) ↔ PhraseList v := by
  rw [PhraseList, orElse]
  cases truthy v with
  | true => simp
  | false =>
      refine iff_of_true ⟨[], rfl⟩ ?_
      intro h
      cases h

/-- The phrases that are never said, as they are iterated. -/
def neverOf (v : PyVal φ) : List (PyVal φ) := ((iterate (orElse v (.list []))).toOption).getD []

theorem iterate_eq_ok_iff {v : PyVal φ} {phrases : List (PyVal φ)} :
    iterate (orElse v (.list [])) = .ok phrases ↔ PhraseList v ∧ neverOf v = phrases := by
  rw [← succeeds_iterate_orElse, neverOf]
  cases hphrases : iterate (orElse v (.list [])) with
  | ok phrases' => simp [Succeeds, Except.toOption]
  | error e => simp [Succeeds]

variable (L) in
/-- A profile that a model can be made of. -/
structure Adoptable (profile : PersonalityProfile φ) : Prop where
  neverSay : PhraseList (fetch (lit "never_say") profile.speech)
  greeting : L.Shows (orElse (fetch (lit "greeting") profile.speech) (.str defaultGreeting))
  offer : L.Shows (orElse (fetch (lit "offer") profile.speech) (.str defaultOffer))
  maxSentences : Succeeds (intOf (getOr "max_sentences" (.int 3) profile.speech))

theorem extractPolicy_of {profile : PersonalityProfile φ}
    (h : PhraseList (fetch (lit "never_say") profile.speech)) :
    ∃ policy, extractPolicy profile = .ok policy := by
  obtain ⟨neverSay, hnever⟩ := (succeeds_iterate_orElse _).2 h
  rw [extractPolicy, hnever]
  exact ⟨_, rfl⟩

theorem neverSay_of_genesis {profile : PersonalityProfile φ} {model : LivingModel φ}
    (h : LivingModel.genesis profile = .ok model) :
    model.policy.neverSay = neverOf (fetch (lit "never_say") profile.speech) := by
  obtain ⟨policy, hpolicy, h⟩ := ok_of_bind h
  obtain ⟨maxSentences, -, h⟩ := ok_of_bind h
  cases h
  obtain ⟨neverSay, hnever, hpolicy⟩ := ok_of_bind hpolicy
  cases hpolicy
  exact (iterate_eq_ok_iff.1 hnever).2.symm

theorem succeeds_genesis (profile : PersonalityProfile φ) :
    Succeeds (LivingModel.genesis profile) ↔ PhraseList (fetch (lit "never_say") profile.speech) ∧
      Succeeds (intOf (getOr "max_sentences" (.int 3) profile.speech)) := by
  simp only [LivingModel.genesis, succeeds_bind, succeeds_pure, and_true, exists_ok]
  constructor
  · rintro ⟨policy, hpolicy, hmax⟩
    obtain ⟨neverSay, hnever, -⟩ := ok_of_bind hpolicy
    exact ⟨(iterate_eq_ok_iff.1 hnever).1, hmax⟩
  · rintro ⟨hnever, hmax⟩
    obtain ⟨policy, hpolicy⟩ := extractPolicy_of hnever
    exact ⟨policy, hpolicy, hmax⟩

theorem genesisWithin_eq_ok_iff {profile : PersonalityProfile φ} {model : LivingModel φ} :
    LivingModel.genesisWithin L profile = .ok model ↔
      Adoptable L profile ∧ LivingModel.genesis profile = .ok model := by
  rw [LivingModel.genesisWithin]
  constructor
  · intro h
    obtain ⟨policy, hpolicy, h⟩ := ok_of_bind h
    obtain ⟨greeting, hgreeting, h⟩ := ok_of_bind h
    obtain ⟨offer, hoffer, h⟩ := ok_of_bind h
    obtain ⟨hnever, hmax⟩ := (succeeds_genesis profile).1 ⟨model, h⟩
    exact ⟨⟨hnever, (Limits.str_eq_ok_iff.1 hgreeting).1, (Limits.str_eq_ok_iff.1 hoffer).1, hmax⟩, h⟩
  · rintro ⟨hadoptable, h⟩
    obtain ⟨policy, hpolicy⟩ := extractPolicy_of hadoptable.neverSay
    rw [hpolicy, Limits.str_of_shows hadoptable.greeting, Limits.str_of_shows hadoptable.offer]
    exact h

variable (L) in
/-- Phrases of the two blocks that can be compared. -/
structure Comparable (speech policy : Obj φ) : Prop where
  spoken : PhraseList (fetch (lit "never_say") speech)
  forbidden : PhraseList (fetch (lit "never_say") policy)
  shallow : ∀ p ∈ neverOf (fetch (lit "never_say") policy),
    (p.isContainer && L.inTooDeep p (neverOf (fetch (lit "never_say") speech))) = false

/-- The phrases of the two blocks, each once. -/
def declaredPhrases (speech policy : Obj φ) : List (PyVal φ) :=
  neverOf (fetch (lit "never_say") speech) ++
    (neverOf (fetch (lit "never_say") policy)).filter fun p =>
      !(neverOf (fetch (lit "never_say") speech)).any fun q => sameValue p q

theorem newPhrases_eq_ok_iff {known phrases rest : List (PyVal φ)} :
    newPhrases L known phrases = .ok rest ↔
      (∀ p ∈ phrases, (p.isContainer && L.inTooDeep p known) = false) ∧
        (phrases.filter fun p => !known.any fun q => sameValue p q) = rest := by
  induction phrases generalizing rest with
  | nil => simp [newPhrases]
  | cons p phrases ih =>
      rw [newPhrases, memberWithin, List.forall_mem_cons]
      split
      · rename_i hdeep
        refine iff_of_false ?_ ?_
        · intro h
          cases h
        · rintro ⟨⟨hshallow, -⟩, -⟩
          rw [hdeep] at hshallow
          cases hshallow
      · rename_i hshallow
        rw [Bool.not_eq_true] at hshallow
        constructor
        · intro h
          obtain ⟨rest', hrest', h⟩ := ok_of_bind (show newPhrases L known phrases >>= _ = _ from h)
          obtain ⟨hphrases, rfl⟩ := ih.1 hrest'
          refine ⟨⟨hshallow, hphrases⟩, ?_⟩
          rw [List.filter_cons]
          cases hknown : known.any fun q => sameValue p q <;>
            simpa [hknown, pure, Except.pure] using h
        · rintro ⟨⟨-, hphrases⟩, rfl⟩
          rw [ih.2 ⟨hphrases, rfl⟩, List.filter_cons]
          cases known.any fun q => sameValue p q <;> rfl

theorem declaredNeverWithin_eq_ok_iff {pack : PersonaPack φ} {declared : List (PyVal φ)} :
    pack.declaredNeverWithin L = .ok declared ↔
      Comparable L pack.speech pack.policy ∧ declaredPhrases pack.speech pack.policy = declared := by
  rw [PersonaPack.declaredNeverWithin]
  constructor
  · intro h
    obtain ⟨speech, hspeech, h⟩ := ok_of_bind h
    obtain ⟨policy, hpolicy, h⟩ := ok_of_bind h
    obtain ⟨rest, hrest, h⟩ := ok_of_bind h
    cases h
    obtain ⟨hspoken, rfl⟩ := iterate_eq_ok_iff.1 hspeech
    obtain ⟨hforbidden, rfl⟩ := iterate_eq_ok_iff.1 hpolicy
    obtain ⟨hshallow, rfl⟩ := newPhrases_eq_ok_iff.1 hrest
    exact ⟨⟨hspoken, hforbidden, hshallow⟩, rfl⟩
  · rintro ⟨h, rfl⟩
    rw [iterate_eq_ok_iff.2 ⟨h.spoken, rfl⟩, iterate_eq_ok_iff.2 ⟨h.forbidden, rfl⟩]
    simp only [bind, Except.bind, newPhrases_eq_ok_iff.2 ⟨h.shallow, rfl⟩]
    rfl

variable (L) in
/-- Blocks of a pack that can be merged into a model. -/
structure Mergeable (profile : PersonalityProfile φ) (speech policy : Obj φ) : Prop
    extends Comparable L speech policy where
  shown : truthy (fetch (lit "never_say") speech) = true ∨
    truthy (fetch (lit "never_say") policy) = true →
      ∀ p ∈ neverOf (fetch (lit "never_say") profile.speech) ++ declaredPhrases speech policy,
        L.Shows p
  boundaries : truthy (fetch (lit "boundaries") policy) = true →
    ∃ declared, fetch (lit "boundaries") policy = .dict declared ∧ ∀ item ∈ declared, L.Shows item.2

theorem succeeds_neverSayWithin (pack : PersonaPack φ) (own : List (PyVal φ)) :
    Succeeds (pack.neverSayWithin L own) ↔ Comparable L pack.speech pack.policy ∧
      (truthy (fetch (lit "never_say") pack.speech) = true ∨
        truthy (fetch (lit "never_say") pack.policy) = true →
          ∀ p ∈ own ++ declaredPhrases pack.speech pack.policy, L.Shows p) := by
  have hdeclares : pack.declaresNever = true ↔ truthy (fetch (lit "never_say") pack.speech) = true ∨
      truthy (fetch (lit "never_say") pack.policy) = true := by
    rw [PersonaPack.declaresNever, Bool.or_eq_true]
  have htexts : ∀ declared : List (PyVal φ), Succeeds (if pack.declaresNever then (do
      let _ ← own.mapM L.str
      let _ ← declared.mapM L.str
      return ((mergeNeverSay own declared).1.map .str, (mergeNeverSay own declared).2) :
        Except Exn (List (PyVal φ) × List Str)) else pure (own, [])) ↔
      (pack.declaresNever = true → ∀ p ∈ own ++ declared, L.Shows p) := by
    intro declared
    split
    · rename_i hdeclares
      simp only [succeeds_bind, exists_ok_and, exists_ok, succeeds_pure, and_true, succeeds_mapM,
        succeeds_text, hdeclares, true_imp_iff, List.forall_mem_append]
    · rename_i hdeclares
      exact iff_of_true (succeeds_pure _) (fun h => absurd h hdeclares)
  rw [PersonaPack.neverSayWithin, succeeds_bind, ← hdeclares]
  constructor
  · rintro ⟨declared, hdeclared, hrest⟩
    obtain ⟨hcomparable, rfl⟩ := declaredNeverWithin_eq_ok_iff.1 hdeclared
    exact ⟨hcomparable, (htexts _).1 hrest⟩
  · rintro ⟨hcomparable, hshown⟩
    exact ⟨_, declaredNeverWithin_eq_ok_iff.2 ⟨hcomparable, rfl⟩, (htexts _).2 hshown⟩

theorem succeeds_boundariesWithin (pack : PersonaPack φ) (own : Obj φ) :
    Succeeds (pack.boundariesWithin L own) ↔
      (truthy (fetch (lit "boundaries") pack.policy) = true →
        ∃ declared, fetch (lit "boundaries") pack.policy = .dict declared ∧
          ∀ item ∈ declared, L.Shows item.2) := by
  rw [PersonaPack.boundariesWithin]
  split
  · rename_i htruthy
    refine Iff.trans ?_ (forall_prop_of_true htruthy).symm
    cases fetch (lit "boundaries") pack.policy with
    | dict declared =>
        simp only [succeeds_bind, exists_ok, succeeds_pure, and_true, succeeds_mapM, succeeds_text,
          PyVal.dict.injEq, exists_eq_left']
    | none | bool b | int i | float x | str s | list xs =>
        refine iff_of_false (not_succeeds_error _) ?_
        rintro ⟨declared, h, -⟩
        cases h
  · rename_i hfalsy
    exact iff_of_true ⟨_, rfl⟩ (fun h => absurd h hfalsy)

/-- A model is born of a profile that it can be made of and blocks that can be merged, if no limit is
met. -/
theorem succeeds_birth_of {pack : PersonaPack φ} {profile : PersonalityProfile φ}
    {model : LivingModel φ} (hmodel : LivingModel.genesis profile = .ok model)
    (hnever : Comparable L pack.speech pack.policy)
    (hboundaries : truthy (fetch (lit "boundaries") pack.policy) = true →
      ∃ declared, fetch (lit "boundaries") pack.policy = .dict declared) :
    Succeeds (birth pack profile) := by
  have hdeclared : ∃ declared, pack.declaredNever = .ok declared := by
    obtain ⟨speech, hspeech⟩ := (succeeds_iterate_orElse _).2 hnever.spoken
    obtain ⟨policy, hpolicy⟩ := (succeeds_iterate_orElse _).2 hnever.forbidden
    rw [PersonaPack.declaredNever, hspeech, hpolicy]
    exact ⟨_, rfl⟩
  have hsaid : ∃ said, pack.neverSay model.policy.neverSay = .ok said := by
    obtain ⟨declared, hdeclared⟩ := hdeclared
    simp only [PersonaPack.neverSay, hdeclared, bind, Except.bind]
    split
    · exact ⟨_, rfl⟩
    · exact ⟨_, rfl⟩
  have hmerged : ∃ merged, pack.boundaries model.policy.boundaries = .ok merged := by
    rw [PersonaPack.boundaries]
    split
    · rename_i htruthy
      obtain ⟨declared, hdeclared⟩ := hboundaries htruthy
      rw [hdeclared]
      exact ⟨_, rfl⟩
    · exact ⟨_, rfl⟩
  obtain ⟨said, hsaid⟩ := hsaid
  obtain ⟨merged, hmerged⟩ := hmerged
  simp only [birth, succeeds_bind]
  exact ⟨model, hmodel, said, hsaid, merged, hmerged, succeeds_pure _⟩

theorem succeeds_birthWithin (pack : PersonaPack φ) (profile : PersonalityProfile φ) :
    Succeeds (birthWithin L pack profile) ↔
      Adoptable L profile ∧ Mergeable L profile pack.speech pack.policy := by
  simp only [birthWithin, succeeds_bind, exists_ok_and, succeeds_neverSayWithin,
    succeeds_boundariesWithin, genesisWithin_eq_ok_iff]
  constructor
  · rintro ⟨model, ⟨hadoptable, hmodel⟩, ⟨hcomparable, hshown⟩, hboundaries, -⟩
    rw [neverSay_of_genesis hmodel] at hshown
    exact ⟨hadoptable, hcomparable, hshown, hboundaries⟩
  · rintro ⟨hadoptable, h⟩
    obtain ⟨model, hmodel⟩ :=
      (succeeds_genesis profile).2 ⟨hadoptable.neverSay, hadoptable.maxSentences⟩
    refine ⟨model, ⟨hadoptable, hmodel⟩, ⟨h.toComparable, ?_⟩, h.boundaries, ?_⟩
    · rw [neverSay_of_genesis hmodel]
      exact h.shown
    · refine succeeds_birth_of hmodel h.toComparable fun htruthy => ?_
      obtain ⟨declared, hdeclared, -⟩ := h.boundaries htruthy
      exact ⟨declared, hdeclared⟩

/-! ## Packs -/

variable (L) in
/-- A pack is refused by `PersonaError` only, and what is accepted is born on a profile. -/
def RefusedProperly (hashes : Hashlib) (data : PyVal φ) (source : Str)
    (profile : PersonalityProfile φ) : Prop :=
  ¬ Escapes (fromDictWithin L hashes data source) ∧
    ∀ pack, fromDictWithin L hashes data source = .ok pack → Succeeds (birthWithin L pack profile)

variable (L) in
/-- A pack meets no limit at the door.  One that gets to its traits has none that breaks; and if they
are read, the profile and the blocks of the pack can be merged. -/
def Unbroken (hashes : Hashlib) (data : PyVal φ) (profile : PersonalityProfile φ) : Prop :=
  ∀ d, data = .dict d → MeetsNoLimit L hashes d ∧ (Admitted hashes d →
    ¬ TraitsBreak L d ∧ (TraitsRead L d → Adoptable L profile ∧
      Mergeable L profile (dictOrEmpty (fetch (lit "speech") d))
        (dictOrEmpty (fetch (lit "policy") d))))

/-- For every JSON document, digest and profile, and any limits of the interpreter: a pack is refused
by `PersonaError` only, and born on the profile if it is accepted, if and only if no field that is
reached meets a limit, or is of a kind that is converted or iterated with no check. -/
theorem refused_only_by_persona_error_iff (L : Limits φ) (hashes : Hashlib) (j : Json φ) (source : Str)
    (profile : PersonalityProfile φ) :
    RefusedProperly L hashes (load j) source profile ↔ Unbroken L hashes (load j) profile := by
  cases j with
  | obj ms =>
      rw [load_obj]
      obtain ⟨digest, hdigest⟩ := computeDigest_loadDict hashes (Dict.ofPairs ms)
      generalize loadDict (Dict.ofPairs ms) = d at hdigest ⊢
      have hbirth : ∀ pack, fromDictWithin L hashes (.dict d) source = .ok pack →
          (Succeeds (birthWithin L pack profile) ↔ Adoptable L profile ∧
            Mergeable L profile (dictOrEmpty (fetch (lit "speech") d))
              (dictOrEmpty (fetch (lit "policy") d))) := by
        intro pack hpack
        rw [succeeds_birthWithin, (blocks_of_fromDict hpack).1, (blocks_of_fromDict hpack).2]
      rw [RefusedProperly, not_escapes_fromDict_iff source hdigest]
      constructor
      · rintro ⟨⟨hno, hbreak⟩, hborn⟩ d' hd'
        cases hd'
        refine ⟨hno, fun hin => ⟨hbreak hin, fun hread => ?_⟩⟩
        obtain ⟨pack, hpack⟩ := (accepted_iff source hdigest).2 ⟨hno, hin, hread⟩
        exact (hbirth pack hpack).1 (hborn pack hpack)
      · intro h
        obtain ⟨hno, hrest⟩ := h d rfl
        refine ⟨⟨hno, fun hin => (hrest hin).1⟩, fun pack hpack => ?_⟩
        obtain ⟨-, hin, hread⟩ := (accepted_iff source hdigest).1 ⟨pack, hpack⟩
        exact (hbirth pack hpack).2 ((hrest hin).2 hread)
  | null | bool b | int i | float x | str s | arr xs =>
      refine iff_of_true ⟨?_, ?_⟩ ?_
      · rintro ⟨e, h⟩
        cases h
      · intro pack hpack
        cases hpack
      · intro d hd
        cases hd

end

/-- A pack of one trait, whose evidence is a word. -/
def wordyPack : Json WholeFloat :=
  .obj [(lit "schema", .str personaSchema), (lit "persona_id", .str (lit "mellow")),
    (lit "version", .str (lit "1.0")),
    (lit "traits", .obj [(lit "warmth", .obj [(lit "value", .int 1),
      (lit "evidence_count", .str (lit "lots"))])])]

/-- A profile that sets nothing. -/
def plainProfile : PersonalityProfile WholeFloat := ⟨[], [], .none⟩

/-- `int("lots")` raises. -/
theorem wordyPack_raises :
    ¬ RefusedProperly (.unlimited WholeFloat) hashlib (load wordyPack) [] plainProfile := by
  have hfault : faultOf (fromDictWithin (.unlimited WholeFloat) hashlib (load wordyPack) []) =
      some (.raised .valueError) := by
    decide +kernel
  rintro ⟨hraises, -⟩
  cases hread : fromDictWithin (.unlimited WholeFloat) hashlib (load wordyPack) [] with
  | ok pack =>
      rw [hread] at hfault
      cases hfault
  | error fault =>
      rw [hread] at hfault
      cases hfault
      exact hraises ⟨.valueError, hread⟩

end ShugoCore
