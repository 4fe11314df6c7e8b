import ShugoCore.Lib.JsonKeys

/-!
# Documents in the order of their keys

`json.dumps` without `sort_keys` writes the items of a dictionary as they come, and reading
gives them back in that order.
-/

namespace Py

variable {φ : Type} [FloatFormat φ]

mutual

/-- The document of an object. -/
def plain : PyVal φ → Json φ
  | .none => .null
  | .bool b => .bool b
  | .int i => .int i
  | .float x => .float x
  | .str s => .str s
  | .list xs => .arr (plainElems xs)
  | .dict items => .obj (plainMembers items)

/-- Element by element. -/
def plainElems : List (PyVal φ) → List (Json φ)
  | [] => []
  | x :: xs => plain x :: plainElems xs

/-- Item by item. -/
def plainMembers : List (Key φ × PyVal φ) → List (Str × Json φ)
  | [] => []
  | (k, x) :: items => (k.text, plain x) :: plainMembers items

end

/-- `json.dumps(v)`. -/
def dumpsPlain (v : PyVal φ) : Str := render spaced (plain v)

/-- What `json.loads` makes of `json.dumps(v)`. -/
def reread (v : PyVal φ) : PyVal φ := load (joinDoc (plain v))

theorem loads_dumpsPlain (v : PyVal φ) : loads (dumpsPlain v) = some (reread v) := by
  rw [loads, dumpsPlain, parse_render standard_spaced]
  rfl

@[simp] theorem reread_float (x : PyFloat φ) : reread (.float x : PyVal φ) = .float x := rfl

@[simp] theorem reread_str (s : Str) : reread (.str s : PyVal φ) = .str (join s) := rfl

theorem plainMembers_eq_map (items : List (Key φ × PyVal φ)) :
    plainMembers items = items.map fun i => (i.1.text, plain i.2) := by
  induction items with
  | nil => rfl
  | cons i items ih => rw [plainMembers, ih]; rfl

/-- A dictionary with different text keys keeps its items. -/
theorem reread_dict {items : List (Str × PyVal φ)} (hjoin : ∀ i ∈ items, join i.1 = i.1)
    (h : (items.map Prod.fst).Nodup) :
    reread (.dict (items.map fun i => (.str i.1, i.2))) =
      .dict (items.map fun i => (.str i.1, reread i.2)) := by
  have hread : loadMembers (joinMembers (plainMembers (items.map fun i => (Key.str i.1, i.2)))) =
      items.map fun i => (i.1, reread i.2) := by
    rw [loadMembers_eq_map, joinMembers_eq_map, plainMembers_eq_map, List.map_map, List.map_map,
      List.map_map]
    refine List.map_congr_left fun i hi => ?_
    simp only [Function.comp_apply, Key.text, hjoin i hi, reread]
  have hnodup : ((items.map fun i => (i.1, reread i.2)).map Prod.fst).Nodup := by
    simpa [Function.comp_def] using h
  rw [reread, plain, joinDoc, load, hread, Dict.ofPairs_eq_self hnodup, List.map_map]
  rfl

end Py
