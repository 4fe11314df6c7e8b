import ShugoCore.Lib.PyBuiltins

/-!
# The limits of an interpreter

An interpreter converts no integer of more than a number of decimal digits, to a text or from one,
and it recurses no deeper than its stack allows.  `str`, `json.loads` and `json.dumps` meet both
limits, and a comparison meets the second one.  They raise a `ValueError` for the first and a `RecursionError` for the second.

The conversions of `PyBuiltins` and `Json` have no limits.  With limits they return the same, when
they return (`Limits.str_eq_ok_iff`, `Limits.loads_eq_ok_iff`, `Limits.encode_eq_ok_iff`), and they
are those of `Limits.unlimited`.

How deep is too deep depends on the build and on the frames that are already on the stack, so that is
left open.
-/

namespace Py

/-- The limits of an interpreter. -/
structure Limits (φ : Type) where
  /-- `sys.get_int_max_str_digits()`, unless it is zero. -/
  maxDigits : Option Nat
  /-- `repr` of the container recurses too deep. -/
  reprTooDeep : PyVal φ → Bool
  /-- `json.dumps` of the container recurses too deep. -/
  dumpsTooDeep : PyVal φ → Bool
  /-- `json.loads` of the text recurses too deep. -/
  loadsTooDeep : Str → Bool
  /-- `v in xs` of a list recurses too deep in one of its comparisons. -/
  inTooDeep : PyVal φ → List (PyVal φ) → Bool

variable {φ : Type}

/-! ## Integers in values -/

/-- The key is an integer of a kind. -/
def Key.isInt (p : Int → Bool) : Key φ → Bool
  | .int i => p i
  | _ => false

mutual

/-- An integer of a kind is in the value. -/
def PyVal.hasInt (p : Int → Bool) : PyVal φ → Bool
  | .int i => p i
  | .list xs => hasIntList p xs
  | .dict items => hasIntItems p items
  | .none | .bool _ | .float _ | .str _ => false

/-- Element by element. -/
def hasIntList (p : Int → Bool) : List (PyVal φ) → Bool
  | [] => false
  | x :: xs => x.hasInt p || hasIntList p xs

/-- Item by item. -/
def hasIntItems (p : Int → Bool) : List (Key φ × PyVal φ) → Bool
  | [] => false
  | (k, x) :: items => k.isInt p || x.hasInt p || hasIntItems p items

end

mutual

/-- An integer of a kind is in the document. -/
def Json.hasInt (p : Int → Bool) : Json φ → Bool
  | .int i => p i
  | .arr xs => hasIntElems p xs
  | .obj ms => hasIntMembers p ms
  | .null | .bool _ | .float _ | .str _ => false

/-- Element by element. -/
def hasIntElems (p : Int → Bool) : List (Json φ) → Bool
  | [] => false
  | x :: xs => x.hasInt p || hasIntElems p xs

/-- Member by member. -/
def hasIntMembers (p : Int → Bool) : List (Str × Json φ) → Bool
  | [] => false
  | (_, x) :: ms => x.hasInt p || hasIntMembers p ms

end

/-- The value is a container. -/
def PyVal.isContainer : PyVal φ → Bool
  | .list _ | .dict _ => true
  | .none | .bool _ | .int _ | .float _ | .str _ => false

namespace Limits

variable (L : Limits φ)

/-- An interpreter that gives up on nothing. -/
def unlimited (φ : Type) : Limits φ where
  maxDigits := none
  reprTooDeep _ := false
  dumpsTooDeep _ := false
  loadsTooDeep _ := false
  inTooDeep _ _ := false

/-- An integer of too many digits. -/
def tooLong (i : Int) : Bool := L.maxDigits.any fun n => 10 ^ n ≤ i.natAbs

/-! ## Texts of values -/

/-- `str(v)`. -/
def str [Builtins φ] (v : PyVal φ) : Except Exn Str :=
  if v.isContainer && L.reprTooDeep v then .error .recursionError
  else if v.hasInt L.tooLong then .error .valueError
  else .ok (strOf v)

/-- A value that has a text. -/
structure Shows (v : PyVal φ) : Prop where
  shallow : (v.isContainer && L.reprTooDeep v) = false
  short : v.hasInt L.tooLong = false

instance (v : PyVal φ) : Decidable (L.Shows v) :=
  decidable_of_iff ((v.isContainer && L.reprTooDeep v) = false ∧ v.hasInt L.tooLong = false)
    ⟨fun h => ⟨h.1, h.2⟩, fun h => ⟨h.shallow, h.short⟩⟩

variable {L}

theorem str_eq_ok_iff [Builtins φ] {v : PyVal φ} {s : Str} :
    L.str v = .ok s ↔ L.Shows v ∧ strOf v = s := by
  rw [str]
  constructor
  · intro h
    split at h
    · cases h
    · rename_i hshallow
      split at h
      · cases h
      · rename_i hshort
        cases h
        exact ⟨⟨Bool.eq_false_iff.2 hshallow, Bool.eq_false_iff.2 hshort⟩, rfl⟩
  · rintro ⟨hshows, rfl⟩
    rw [hshows.shallow, hshows.short]
    rfl

theorem str_of_shows [Builtins φ] {v : PyVal φ} (h : L.Shows v) : L.str v = .ok (strOf v) :=
  str_eq_ok_iff.2 ⟨h, rfl⟩

theorem str_returns_iff [Builtins φ] (v : PyVal φ) : (∃ s, L.str v = .ok s) ↔ L.Shows v := by
  constructor
  · rintro ⟨s, hs⟩
    exact (str_eq_ok_iff.1 hs).1
  · intro h
    exact ⟨strOf v, str_of_shows h⟩

/-- A text is its own text. -/
theorem shows_str (s : Str) : L.Shows (.str s) := ⟨rfl, rfl⟩

theorem shows_none : L.Shows .none := ⟨rfl, rfl⟩

@[simp] theorem str_str [Builtins φ] (s : Str) : L.str (.str s) = .ok s :=
  str_of_shows (shows_str s)

end Limits

/-! ## Reading and writing -/

namespace Limits

variable (L : Limits φ)

/-- `json.loads`.  A malformed text and one with an integer of too many digits raise the same. -/
def loads [FloatFormat φ] (text : Str) : Except Exn (PyVal φ) :=
  if L.loadsTooDeep text then .error .recursionError
  else match parse text with
    | none => .error .valueError
    | some document =>
        if document.hasInt L.tooLong then .error .valueError else .ok (load document)

/-- A text that `json.loads` reads without meeting a limit. -/
structure Reads [FloatFormat φ] (text : Str) : Prop where
  shallow : L.loadsTooDeep text = false
  short : ∀ document : Json φ, parse text = some document → document.hasInt L.tooLong = false

/-- `json.dumps(v, sort_keys=True)`, as a document.  Keys of several types raise a `TypeError`. -/
def encode [FloatFormat φ] (v : PyVal φ) : Except Exn (Json φ) :=
  if v.isContainer && L.dumpsTooDeep v then .error .recursionError
  else if v.hasInt L.tooLong then .error .valueError
  else match Py.encode v with
    | none => .error .typeError
    | some document => .ok document

/-- A value that `json.dumps` writes without meeting a limit. -/
structure Writes (v : PyVal φ) : Prop where
  shallow : (v.isContainer && L.dumpsTooDeep v) = false
  short : v.hasInt L.tooLong = false

variable {L}

theorem loads_eq_ok_iff [FloatFormat φ] {text : Str} {v : PyVal φ} :
    L.loads text = .ok v ↔ L.Reads text ∧ Py.loads text = some v := by
  rw [loads, Py.loads]
  constructor
  · intro h
    split at h
    · cases h
    · rename_i hshallow
      split at h
      · cases h
      · rename_i document hdocument
        split at h
        · cases h
        · rename_i hshort
          cases h
          refine ⟨⟨Bool.eq_false_iff.2 hshallow, ?_⟩, by rw [hdocument]; rfl⟩
          intro document' hdocument'
          cases hdocument.symm.trans hdocument'
          exact Bool.eq_false_iff.2 hshort
  · rintro ⟨hreads, hloads⟩
    obtain ⟨document, hdocument, rfl⟩ := Option.map_eq_some_iff.1 hloads
    rw [hreads.shallow, hdocument]
    simp [hreads.short document hdocument]

/-- What is raised is a `ValueError` or a `RecursionError`. -/
theorem loads_error [FloatFormat φ] {text : Str} {e : Exn} (h : L.loads text = .error e) :
    e = .valueError ∨ e = .recursionError ∧ L.loadsTooDeep text = true := by
  rw [loads] at h
  split at h
  · rename_i hdeep
    cases h
    exact .inr ⟨rfl, hdeep⟩
  · split at h
    · cases h
      exact .inl rfl
    · split at h
      · cases h
        exact .inl rfl
      · cases h

theorem encode_eq_ok_iff [FloatFormat φ] {v : PyVal φ} {document : Json φ} :
    L.encode v = .ok document ↔ L.Writes v ∧ Py.encode v = some document := by
  rw [encode]
  constructor
  · intro h
    split at h
    · cases h
    · rename_i hshallow
      split at h
      · cases h
      · rename_i hshort
        split at h
        · cases h
        · rename_i document' hdocument
          cases h
          exact ⟨⟨Bool.eq_false_iff.2 hshallow, Bool.eq_false_iff.2 hshort⟩, hdocument⟩
  · rintro ⟨hwrites, hdocument⟩
    rw [hwrites.shallow, hwrites.short, hdocument]
    rfl

end Limits

/-! ## No limits -/

mutual

theorem hasInt_none : ∀ v : PyVal φ, v.hasInt (fun _ => false) = false
  | .none | .bool _ | .int _ | .float _ | .str _ => rfl
  | .list xs => hasIntList_none xs
  | .dict items => hasIntItems_none items

theorem hasIntList_none : ∀ xs : List (PyVal φ), hasIntList (fun _ => false) xs = false
  | [] => rfl
  | x :: xs => by
      rw [hasIntList, hasInt_none x, hasIntList_none xs]
      rfl

theorem hasIntItems_none : ∀ items : List (Key φ × PyVal φ),
    hasIntItems (fun _ => false) items = false
  | [] => rfl
  | (k, x) :: items => by
      have hkey : k.isInt (fun _ => false) = false := by cases k <;> rfl
      rw [hasIntItems, hkey, hasInt_none x, hasIntItems_none items]
      rfl

end

mutual

theorem Json.hasInt_none : ∀ j : Json φ, j.hasInt (fun _ => false) = false
  | .null | .bool _ | .int _ | .float _ | .str _ => rfl
  | .arr xs => hasIntElems_none xs
  | .obj ms => hasIntMembers_none ms

theorem hasIntElems_none : ∀ xs : List (Json φ), hasIntElems (fun _ => false) xs = false
  | [] => rfl
  | x :: xs => by
      rw [hasIntElems, Json.hasInt_none x, hasIntElems_none xs]
      rfl

theorem hasIntMembers_none : ∀ ms : List (Str × Json φ),
    hasIntMembers (fun _ => false) ms = false
  | [] => rfl
  | (_, x) :: ms => by
      rw [hasIntMembers, Json.hasInt_none x, hasIntMembers_none ms]
      rfl

end

namespace Limits

theorem shows_unlimited (v : PyVal φ) : (unlimited φ).Shows v :=
  ⟨Bool.and_false _, hasInt_none v⟩

theorem writes_unlimited (v : PyVal φ) : (unlimited φ).Writes v :=
  ⟨Bool.and_false _, hasInt_none v⟩

theorem reads_unlimited [FloatFormat φ] (text : Str) : (unlimited φ).Reads text :=
  ⟨rfl, fun document _ => document.hasInt_none⟩

theorem str_unlimited [Builtins φ] (v : PyVal φ) : (unlimited φ).str v = .ok (strOf v) :=
  str_of_shows (shows_unlimited v)

theorem loads_unlimited [FloatFormat φ] (text : Str) :
    (unlimited φ).loads text = (Py.loads text).elim (.error .valueError) .ok := by
  cases hloads : (Py.loads text : Option (PyVal φ)) with
  | some v => exact loads_eq_ok_iff.2 ⟨reads_unlimited text, hloads⟩
  | none =>
      have hparse : (parse text : Option (Json φ)) = none := Option.map_eq_none_iff.1 hloads
      rw [loads, hparse]
      rfl

theorem encode_unlimited [FloatFormat φ] (v : PyVal φ) :
    (unlimited φ).encode v = (Py.encode v).elim (.error .typeError) .ok := by
  cases hencode : Py.encode v with
  | some document => exact encode_eq_ok_iff.2 ⟨writes_unlimited v, hencode⟩
  | none =>
      have hwrites := writes_unlimited v
      rw [encode, hwrites.shallow, hwrites.short, hencode]
      rfl

end Limits

/-! ## Integers that were read -/

theorem hasIntItems_eq_false {p : Int → Bool} {d : List (Str × PyVal φ)}
    (h : ∀ i ∈ d, i.2.hasInt p = false) :
    hasIntItems p (d.map fun i => ((.str i.1, i.2) : Key φ × PyVal φ)) = false := by
  induction d with
  | nil => rfl
  | cons i d ih =>
      rw [List.map_cons, hasIntItems, h i List.mem_cons_self,
        ih fun i' hi' => h i' (List.mem_cons_of_mem i hi')]
      rfl

mutual

/-- A value that was read has the integers of its document, less those of keys that are repeated. -/
theorem hasInt_load {p : Int → Bool} : ∀ {j : Json φ}, j.hasInt p = false →
    (load j).hasInt p = false
  | .null, _ | .bool _, _ | .float _, _ | .str _, _ => rfl
  | .int _, h => h
  | .arr _, h => hasIntList_loadList h
  | .obj ms, h => by
      rw [load, PyVal.hasInt]
      refine hasIntItems_eq_false fun i hi => ?_
      exact hasInt_of_mem_loadMembers h i (Dict.mem_ofPairs hi)

theorem hasIntList_loadList {p : Int → Bool} : ∀ {xs : List (Json φ)}, hasIntElems p xs = false →
    hasIntList p (loadList xs) = false
  | [], _ => rfl
  | x :: xs, h => by
      rw [hasIntElems, Bool.or_eq_false_iff] at h
      rw [loadList, hasIntList, hasInt_load h.1, hasIntList_loadList h.2]
      rfl

theorem hasInt_of_mem_loadMembers {p : Int → Bool} : ∀ {ms : List (Str × Json φ)},
    hasIntMembers p ms = false → ∀ i ∈ loadMembers ms, i.2.hasInt p = false
  | [], _, _, hi => by cases hi
  | (k, x) :: ms, h, i, hi => by
      rw [hasIntMembers, Bool.or_eq_false_iff] at h
      rcases List.mem_cons.1 hi with rfl | hi
      · exact hasInt_load h.1
      · exact hasInt_of_mem_loadMembers h.2 i hi

end

end Py
