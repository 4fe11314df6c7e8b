import Mathlib.Data.Rat.Floor
import ShugoCore.Lib.JsonKeys

/-!
# Built-in conversions of values

`str(v)`, `int(v)`, truth, membership, iteration and the operations of
dictionaries, for the values that `json.loads` returns, with the exceptions they
raise.  Two conversions are left open: the `repr` of a container, and the reading
of an integer from a text.
-/

namespace Py

/-- An exception, by its class.  `UnicodeEncodeError` and `JSONDecodeError` are
`ValueError`s. -/
inductive Exn where
  | attributeError | typeError | valueError | overflowError | recursionError
deriving DecidableEq, Repr

/-- `type(exc).__name__`. -/
def Exn.name : Exn → Str
  | .attributeError => lit "AttributeError"
  | .typeError => lit "TypeError"
  | .valueError => lit "ValueError"
  | .overflowError => lit "OverflowError"
  | .recursionError => lit "RecursionError"

/-- Both parts of a computation that goes well go well. -/
theorem ok_of_bind {ε α β : Type} {x : Except ε α} {f : α → Except ε β} {b : β}
    (h : (x >>= f) = .ok b) : ∃ a, x = .ok a ∧ f a = .ok b := by
  cases x with
  | error e => cases h
  | ok a => exact ⟨a, rfl, h⟩

/-- What a loop collects it has from the elements. -/
theorem mem_of_mapM {ε α β : Type} {f : α → Except ε β} {xs : List α} {ys : List β}
    (h : xs.mapM f = .ok ys) {y : β} (hy : y ∈ ys) : ∃ x ∈ xs, f x = .ok y := by
  induction xs generalizing ys with
  | nil =>
      cases h
      cases hy
  | cons x xs ih =>
      rw [List.mapM_cons] at h
      obtain ⟨z, hz, hrest⟩ := ok_of_bind h
      obtain ⟨zs, hzs, hys⟩ := ok_of_bind hrest
      cases hys
      rcases List.mem_cons.1 hy with rfl | hy
      · exact ⟨x, List.mem_cons_self, hz⟩
      · obtain ⟨x', hx', hfx'⟩ := ih hzs hy
        exact ⟨x', List.mem_cons_of_mem x hx', hfx'⟩

/-- The conversions that are left open. -/
class Builtins (φ : Type) extends FloatFormat φ where
  /-- `repr` of a list or a dictionary. -/
  reprContainer : PyVal φ → Str
  /-- `int` of a text. -/
  intOfText : Str → Option Int

variable {φ : Type}

/-- `str(v)`. -/
def strOf [Builtins φ] : PyVal φ → Str
  | .none => lit "None"
  | .bool b => if b then lit "True" else lit "False"
  | .int i => (Literal.ofInt i).text
  | .float .nan => lit "nan"
  | .float .posInf => lit "inf"
  | .float .negInf => lit "-inf"
  | .float (.finite x) => (FloatFormat.repr x).text
  | .str s => s
  | v => Builtins.reprContainer v

/-- `int(v)`.  A float is cut off towards zero. -/
def intOf [Builtins φ] : PyVal φ → Except Exn Int
  | .bool b => .ok (if b then 1 else 0)
  | .int i => .ok i
  | .float .nan => .error .valueError
  | .float .posInf | .float .negInf => .error .overflowError
  | .float (.finite x) =>
      let q := FloatFormat.value x
      .ok (if q < 0 then ⌈q⌉ else ⌊q⌋)
  | .str s => match Builtins.intOfText φ s with
      | some i => .ok i
      | none => .error .valueError
  | .none | .list _ | .dict _ => .error .typeError

/-- `bool(v)`. -/
def truthy [FloatFormat φ] : PyVal φ → Bool
  | .none => false
  | .bool b => b
  | .int i => i ≠ 0
  | .float (.finite x) => FloatFormat.value x ≠ 0
  | .float _ => true
  | .str s => !s.isEmpty
  | .list xs => !xs.isEmpty
  | .dict items => !items.isEmpty

/-- `v == s` for a text `s`. -/
def isText (s : Str) : PyVal φ → Bool
  | .str t => t = s
  | _ => false

/-- `d.get(k)` for a text `k`. -/
def getKey (k : Str) : List (Key φ × PyVal φ) → Option (PyVal φ)
  | [] => none
  | (.str k', v) :: items => if k' = k then some v else getKey k items
  | _ :: items => getKey k items

/-- `k not in ks` for the keys of a dictionary. -/
def keyNotIn (ks : List Str) : Key φ → Bool
  | .str k => k ∉ ks
  | _ => true

/-! ## Dictionaries with text keys

A dictionary is the list of its items.  Only its text keys are looked up and set. -/

/-- The items of a dictionary. -/
abbrev Obj (φ : Type) := List (Key φ × PyVal φ)

/-- `d.get(k)`, with `None` for an absent key. -/
def fetch (k : Str) (d : Obj φ) : PyVal φ := (getKey k d).getD .none

/-- `d.get(k, default)`. -/
def getOr (k : String) (default : PyVal φ) (d : Obj φ) : PyVal φ := (getKey (lit k) d).getD default

/-- `d[k] = v`. -/
def setKey (k : Str) (v : PyVal φ) : Obj φ → Obj φ
  | [] => [(.str k, v)]
  | (.str k', v') :: d => if k' = k then (.str k', v) :: d else (.str k', v') :: setKey k v d
  | i :: d => i :: setKey k v d

/-- `d.setdefault(k, v)`. -/
def setDefault (k : Str) (v : PyVal φ) (d : Obj φ) : Obj φ :=
  match getKey k d with
  | some _ => d
  | none => setKey k v d

/-- A dictionary display with text keys. -/
def obj (items : List (String × PyVal φ)) : Obj φ := items.map fun i => (.str (lit i.1), i.2)

/-- `v or w`. -/
def orElse [FloatFormat φ] (v w : PyVal φ) : PyVal φ := if truthy v then v else w

/-- `v.get(k)`, for any value. -/
def methodGet (k : Str) : PyVal φ → Except Exn (PyVal φ)
  | .dict d => .ok (fetch k d)
  | _ => .error .attributeError

/-- `v if isinstance(v, dict) else {}`. -/
def dictOrEmpty : PyVal φ → Obj φ
  | .dict d => d
  | _ => []

/-- `v in s` for a set of texts.  A list or a dictionary has no hash. -/
def valueIn (s : List Str) : PyVal φ → Except Exn Bool
  | .str t => .ok (decide (t ∈ s))
  | .list _ | .dict _ => .error .typeError
  | _ => .ok false

/-- The value that a key is. -/
def Key.toVal : Key φ → PyVal φ
  | .none => .none
  | .bool b => .bool b
  | .int i => .int i
  | .float x => .float x
  | .str s => .str s

/-- The values that `for x in v` goes through. -/
def iterate : PyVal φ → Except Exn (List (PyVal φ))
  | .list xs => .ok xs
  | .dict d => .ok (d.map fun i => i.1.toVal)
  | .str s => .ok (s.map fun c => .str [c])
  | _ => .error .typeError

@[simp] theorem getKey_setKey_self (k : Str) (v : PyVal φ) (d : Obj φ) :
    getKey k (setKey k v d) = some v := by
  induction d with
  | nil => simp [setKey, getKey]
  | cons i d ih =>
      obtain ⟨key, x⟩ := i
      cases key with
      | str k' =>
          by_cases h : k' = k
          · simp [setKey, getKey, h]
          · simp [setKey, getKey, h, ih]
      | none | bool _ | int _ | float _ => exact ih

theorem getKey_setKey_of_ne {k k' : Str} (h : k' ≠ k) (v : PyVal φ) (d : Obj φ) :
    getKey k (setKey k' v d) = getKey k d := by
  induction d with
  | nil => simp [setKey, getKey, h]
  | cons i d ih =>
      obtain ⟨key, x⟩ := i
      cases key with
      | str k₀ =>
          by_cases h₀ : k₀ = k'
          · subst h₀
            simp [setKey, getKey, h]
          · simp only [setKey, if_neg h₀, getKey, ih]
      | none | bool _ | int _ | float _ => exact ih

@[simp] theorem getKey_obj_nil (k : Str) : getKey k (obj [] : Obj φ) = none := rfl

@[simp] theorem getKey_obj_cons (k k' : String) (v : PyVal φ) (items : List (String × PyVal φ)) :
    getKey (lit k) (obj ((k', v) :: items)) =
      if k' = k then some v else getKey (lit k) (obj items) := by
  simp only [obj, List.map_cons, getKey, lit_inj]

/-- A new key comes last. -/
theorem setKey_obj {k : String} {items : List (String × PyVal φ)} (h : k ∉ items.map Prod.fst)
    (v : PyVal φ) : setKey (lit k) v (obj items) = obj (items ++ [(k, v)]) := by
  induction items with
  | nil => rfl
  | cons i items ih =>
      rw [List.map_cons, List.mem_cons, not_or] at h
      have hne : ¬ lit i.1 = lit k := fun heq => h.1 (lit_inj.1 heq).symm
      have hrest := ih h.2
      simp only [obj, List.cons_append, List.map_cons, setKey, if_neg hne] at hrest ⊢
      rw [hrest]

/-- `s or ""`. -/
theorem orElse_str [FloatFormat φ] (s : Str) : orElse (.str s) (.str []) = (.str s : PyVal φ) := by
  cases s with
  | nil => rfl
  | cons c s => rfl

/-- `i or 0`. -/
theorem orElse_int [FloatFormat φ] (i : Int) : orElse (.int i) (.int 0) = (.int i : PyVal φ) := by
  rw [orElse]
  split
  · rfl
  · rename_i hzero
    have hi : i = 0 := by simpa [truthy] using hzero
    rw [hi]

/-- A filter on the keys leaves the values of the keys it keeps. -/
theorem getKey_filter {p : Key φ → Bool} {k : Str} (h : p (.str k) = true) (d : Obj φ) :
    getKey k (d.filter fun i => p i.1) = getKey k d := by
  induction d with
  | nil => rfl
  | cons i d ih =>
      obtain ⟨key, x⟩ := i
      by_cases hp : p key = true
      · rw [List.filter_cons_of_pos (by exact hp)]
        cases key with
        | str k' => simp only [getKey, ih]
        | none | bool _ | int _ | float _ => exact ih
      · rw [List.filter_cons_of_neg (by exact hp), ih]
        cases key with
        | str k' =>
            have hk : k' ≠ k := fun hk => hp (by rw [hk, h])
            rw [getKey, if_neg hk]
        | none | bool _ | int _ | float _ => rfl

/-! ## Values that are written -/

section

variable [FloatFormat φ]

/-- `json.dumps` writes the value. -/
def Writable (v : PyVal φ) : Prop := ∃ j, encode v = some j

theorem writable_of_encodeItems {d : Obj φ} {ys : List (Key φ × Json φ)}
    (h : encodeItems d = some ys) : ∀ i ∈ d, Writable i.2 := by
  induction d generalizing ys with
  | nil => exact fun i hi => absurd hi List.not_mem_nil
  | cons i d ih =>
      obtain ⟨k, x⟩ := i
      rw [encodeItems] at h
      cases hx : encode x with
      | none => simp [hx] at h
      | some y =>
          cases hd : encodeItems d with
          | none => simp [hx, hd] at h
          | some zs => exact List.forall_mem_cons.2 ⟨⟨y, hx⟩, ih hd⟩

theorem writable_of_encodeList {xs : List (PyVal φ)} {ys : List (Json φ)}
    (h : encodeList xs = some ys) : ∀ x ∈ xs, Writable x := by
  induction xs generalizing ys with
  | nil => exact fun x hx => absurd hx List.not_mem_nil
  | cons x xs ih =>
      rw [encodeList] at h
      cases hx : encode x with
      | none => simp [hx] at h
      | some y =>
          cases hxs : encodeList xs with
          | none => simp [hx, hxs] at h
          | some zs => exact List.forall_mem_cons.2 ⟨⟨y, hx⟩, ih hxs⟩

omit [FloatFormat φ] in
theorem mem_of_getKey {k : Str} {v : PyVal φ} {d : Obj φ} (h : getKey k d = some v) :
    (Key.str k, v) ∈ d := by
  induction d with
  | nil => cases h
  | cons i d ih =>
      obtain ⟨key, x⟩ := i
      cases key with
      | str k' =>
          rw [getKey] at h
          split at h
          · rename_i hk
            cases h
            rw [hk]
            exact List.mem_cons_self
          · exact List.mem_cons_of_mem _ (ih h)
      | none | bool _ | int _ | float _ => exact List.mem_cons_of_mem _ (ih h)

/-- The values of a dictionary that is written are. -/
theorem Writable.getD {d : Obj φ} {w : PyVal φ} (h : Writable (.dict d)) (hw : Writable w)
    (k : Str) : Writable ((getKey k d).getD w) := by
  obtain ⟨j, hj⟩ := h
  obtain ⟨encoded, _, he, _, _⟩ := encode_dict_cases hj
  cases hk : getKey k d with
  | none => exact hw
  | some v => exact writable_of_encodeItems he _ (mem_of_getKey hk)

theorem Writable.fetch {d : Obj φ} (h : Writable (.dict d)) (k : Str) : Writable (fetch k d) :=
  h.getD ⟨_, rfl⟩ k

theorem Writable.orElse {v w : PyVal φ} (hv : Writable v) (hw : Writable w) :
    Writable (orElse v w) := by
  simp only [Py.orElse]
  split
  · exact hv
  · exact hw

/-- So is everything that a loop over a value that is written goes through. -/
theorem Writable.iterate {v : PyVal φ} {xs : List (PyVal φ)} (h : Writable v)
    (hi : iterate v = .ok xs) : ∀ x ∈ xs, Writable x := by
  cases v with
  | none | bool _ | int _ | float _ => cases hi
  | list ys =>
      cases hi
      obtain ⟨j, hj⟩ := h
      rw [encode, Option.map_eq_some_iff] at hj
      obtain ⟨js, hjs, -⟩ := hj
      exact writable_of_encodeList hjs
  | str s =>
      cases hi
      intro x hx
      obtain ⟨c, -, rfl⟩ := List.mem_map.1 hx
      exact ⟨_, rfl⟩
  | dict d =>
      cases hi
      intro x hx
      obtain ⟨i, -, rfl⟩ := List.mem_map.1 hx
      cases i.1 <;> exact ⟨_, rfl⟩

/-- A dictionary display with text keys is written if its values are. -/
theorem writable_obj {items : List (String × PyVal φ)} (h : ∀ i ∈ items, Writable i.2) :
    Writable (.dict (obj items)) := by
  have hitems : ∃ ms : List (Str × Json φ),
      encodeItems (obj items) = some (ms.map fun m => (Key.str m.1, m.2)) := by
    induction items with
    | nil => exact ⟨[], rfl⟩
    | cons i items ih =>
        obtain ⟨j, hj⟩ := h i List.mem_cons_self
        obtain ⟨ms, hms⟩ := ih fun i hi => h i (List.mem_cons_of_mem _ hi)
        exact ⟨(lit i.1, j) :: ms, encodeItems_cons hj hms⟩
  obtain ⟨ms, hms⟩ := hitems
  exact ⟨_, encode_dict_str ms hms⟩

end

/-! ## Floats for closed terms -/

/-- The floats that are whole numbers, written with a fraction of zero. -/
structure WholeFloat where
  val : Int
deriving DecidableEq, Repr

instance : Builtins WholeFloat where
  repr x := { Literal.ofInt x.val with frac := [0] }
  read l := .finite ⟨l.toInt⟩
  value x := x.val
  sortNaN items := items
  sortNaN_map _ _ := rfl
  sortNaN_perm _ := .refl _
  repr_wf x := { Literal.wf_ofInt x.val with frac_digits := by simp }
  repr_isFloat _ := rfl
  read_repr x := congrArg (fun i => PyFloat.finite (WholeFloat.mk i)) (Literal.toInt_ofInt x.val)
  reprContainer _ := []
  intOfText _ := none

end Py
