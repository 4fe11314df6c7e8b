import ShugoCore.Lib.PyBuiltins

/-!
# The text of a JSON value

A JSON value is what `json.loads` returns: the keys of a dictionary are strings and
all different, and no text holds a surrogate pair in halves.  `dumps` with sorted keys
gives two such values the same text exactly when they are equal (`dumps_eq_iff`), where
dictionaries are compared as Python compares them, without regard to their order.

The text of a value is the rendering of its document `doc`, and a document is determined
by its text (`render_eq_iff`).  What remains is that documents are equal exactly when the
values are, and the one case with an argument in it is the dictionary: two lists of
members sort alike exactly when they are permutations of each other.
-/

namespace Py

variable {φ : Type}

/-! ## Values and their equality -/

/-- A key that can be a key of a JSON value. -/
def Key.isJson : Key φ → Bool
  | .str s => join s = s
  | _ => false

mutual

/-- A value that `json.loads` can return. -/
def isJson : PyVal φ → Bool
  | .none | .bool _ | .int _ | .float _ => true
  | .str s => join s = s
  | .list xs => isJsonList xs
  | .dict items => isJsonItems items && decide (items.map fun i => i.1.asStr).Nodup

/-- Element by element. -/
def isJsonList : List (PyVal φ) → Bool
  | [] => true
  | x :: xs => isJson x && isJsonList xs

/-- Item by item. -/
def isJsonItems : List (Key φ × PyVal φ) → Bool
  | [] => true
  | (k, x) :: items => k.isJson && isJson x && isJsonItems items

end

mutual

/-- Equality of JSON values.  A number equals a number of the same type only. -/
def SameJson : PyVal φ → PyVal φ → Prop
  | .none, v => v = .none
  | .bool b, v => v = .bool b
  | .int i, v => v = .int i
  | .float x, v => v = .float x
  | .str s, v => v = .str s
  | .list xs, v => ∃ ys, v = .list ys ∧ SameList xs ys
  | .dict items, v => ∃ others, v = .dict others ∧ items.length = others.length ∧
      SameItems items others

/-- Element by element. -/
def SameList : List (PyVal φ) → List (PyVal φ) → Prop
  | [], vs => vs = []
  | x :: xs, vs => ∃ y ys, vs = y :: ys ∧ SameJson x y ∧ SameList xs ys

/-- Each item is found, under its key, in the other dictionary. -/
def SameItems : List (Key φ × PyVal φ) → List (Key φ × PyVal φ) → Prop
  | [], _ => True
  | (k, x) :: items, others => (∃ y, (k, y) ∈ others ∧ SameJson x y) ∧ SameItems items others

end

/-! ## The document of a value -/

mutual

/-- What `encode` makes of a JSON value. -/
def doc : PyVal φ → Json φ
  | .none => .null
  | .bool b => .bool b
  | .int i => .int i
  | .float x => .float x
  | .str s => .str s
  | .list xs => .arr (docElems xs)
  | .dict items => .obj (sortMembers (docMembers items))

/-- Element by element. -/
def docElems : List (PyVal φ) → List (Json φ)
  | [] => []
  | x :: xs => doc x :: docElems xs

/-- Item by item. -/
def docMembers : List (Key φ × PyVal φ) → List (Str × Json φ)
  | [] => []
  | (k, x) :: items => (k.asStr.getD [], doc x) :: docMembers items

end

theorem docMembers_eq_map (items : List (Key φ × PyVal φ)) :
    docMembers items = items.map fun i => (i.1.asStr.getD [], doc i.2) := by
  induction items with
  | nil => rfl
  | cons i items ih => rw [docMembers, ih]; rfl

theorem Key.isJson_iff {k : Key φ} : k.isJson = true ↔ ∃ s, k = .str s ∧ join s = s := by
  cases k <;> simp [Key.isJson]

theorem isJsonItems_iff {items : List (Key φ × PyVal φ)} :
    isJsonItems items = true ↔ ∀ i ∈ items, i.1.isJson = true ∧ isJson i.2 = true := by
  induction items with
  | nil => simp [isJsonItems]
  | cons i items ih => rw [isJsonItems, Bool.and_eq_true, Bool.and_eq_true, ih,
      List.forall_mem_cons]

theorem isJson_dict {items : List (Key φ × PyVal φ)} :
    isJson (.dict items) = true ↔
      isJsonItems items = true ∧ (items.map fun i => i.1.asStr).Nodup := by
  rw [isJson, Bool.and_eq_true, decide_eq_true_iff]

/-! ## Keys of a JSON value -/

theorem isJson_fetch {d : Obj φ} (h : isJson (.dict d) = true) (k : Str) :
    isJson (fetch k d) = true := by
  simp only [fetch]
  cases hk : getKey k d with
  | none => rfl
  | some v => exact (isJsonItems_iff.1 (isJson_dict.1 h).1 _ (mem_of_getKey hk)).2

theorem isJsonItems_setKey {k : Str} {v : PyVal φ} {d : Obj φ} (hk : join k = k)
    (hv : isJson v = true) (hd : isJsonItems d = true) : isJsonItems (setKey k v d) = true := by
  induction d with
  | nil => simp [setKey, isJsonItems, Key.isJson, hk, hv]
  | cons i d ih =>
      obtain ⟨key, x⟩ := i
      rw [isJsonItems, Bool.and_eq_true, Bool.and_eq_true] at hd
      obtain ⟨s, rfl, hs⟩ := Key.isJson_iff.1 hd.1.1
      rw [setKey]
      split
      · simp [isJsonItems, Key.isJson, hs, hv, hd.2]
      · simp [isJsonItems, Key.isJson, hs, hd.1.2, ih hd.2]

theorem mem_keys_setKey {k : Str} {v : PyVal φ} {d : Obj φ} {x : Option Str}
    (h : x ∈ (setKey k v d).map fun i => i.1.asStr) :
    x = some k ∨ x ∈ d.map fun i => i.1.asStr := by
  fun_induction setKey k v d with
  | case1 => exact .inl (List.mem_singleton.1 h)
  | case2 => exact .inr h
  | case3 k' v' d hne ih =>
      rcases List.mem_cons.1 h with rfl | h
      · exact .inr List.mem_cons_self
      · exact (ih h).imp id (List.mem_cons_of_mem _)
  | case4 i d hi ih =>
      rcases List.mem_cons.1 h with rfl | h
      · exact .inr List.mem_cons_self
      · exact (ih h).imp id (List.mem_cons_of_mem _)

theorem nodup_keys_setKey {k : Str} {v : PyVal φ} {d : Obj φ} (hd : isJsonItems d = true)
    (h : (d.map fun i => i.1.asStr).Nodup) : ((setKey k v d).map fun i => i.1.asStr).Nodup := by
  induction d with
  | nil => exact List.nodup_singleton _
  | cons i d ih =>
      obtain ⟨key, x⟩ := i
      rw [isJsonItems, Bool.and_eq_true, Bool.and_eq_true] at hd
      obtain ⟨s, rfl, -⟩ := Key.isJson_iff.1 hd.1.1
      rw [setKey]
      split
      · exact h
      · rename_i hne
        obtain ⟨hnot, hnodup⟩ := List.nodup_cons.1 h
        refine List.nodup_cons.2 ⟨fun hmem => ?_, ih hd.2 hnodup⟩
        rcases mem_keys_setKey hmem with heq | hmem
        · exact hne (Option.some.inj heq)
        · exact hnot hmem

theorem isJson_setKey {k : Str} {v : PyVal φ} {d : Obj φ} (hk : join k = k)
    (hv : isJson v = true) (h : isJson (.dict d) = true) : isJson (.dict (setKey k v d)) = true := by
  obtain ⟨hd, hkeys⟩ := isJson_dict.1 h
  exact isJson_dict.2 ⟨isJsonItems_setKey hk hv hd, nodup_keys_setKey hd hkeys⟩

mutual

theorem joinDoc_doc : ∀ v : PyVal φ, isJson v = true → joinDoc (doc v) = doc v
  | .none, _ | .bool _, _ | .int _, _ | .float _, _ => rfl
  | .str s, h => by
      rw [isJson, decide_eq_true_iff] at h
      rw [doc, joinDoc, h]
  | .list xs, h => by rw [doc, joinDoc, joinElems_docElems xs h]
  | .dict items, h => by
      have hmem := joinMembers_docMembers items (isJson_dict.1 h).1
      rw [doc, joinDoc, joinMembers_eq_self_iff.2]
      intro m hm
      exact hmem m ((List.perm_insertionSort _ _).mem_iff.1 hm)

theorem joinElems_docElems :
    ∀ xs : List (PyVal φ), isJsonList xs = true → joinElems (docElems xs) = docElems xs
  | [], _ => rfl
  | x :: xs, h => by
      rw [isJsonList, Bool.and_eq_true] at h
      rw [docElems, joinElems, joinDoc_doc x h.1, joinElems_docElems xs h.2]

theorem joinMembers_docMembers :
    ∀ items : List (Key φ × PyVal φ), isJsonItems items = true →
      ∀ m ∈ docMembers items, join m.1 = m.1 ∧ joinDoc m.2 = m.2
  | [], _, m, hm => by cases hm
  | (k, x) :: items, h, m, hm => by
      rw [isJsonItems, Bool.and_eq_true, Bool.and_eq_true] at h
      rw [docMembers, List.mem_cons] at hm
      rcases hm with rfl | hm
      · obtain ⟨s, rfl, hs⟩ := Key.isJson_iff.1 h.1.1
        exact ⟨hs, joinDoc_doc x h.1.2⟩
      · exact joinMembers_docMembers items h.2 m hm

end

mutual

/-- The keys of every dictionary are texts. -/
def textKeyed : PyVal φ → Bool
  | .none | .bool _ | .int _ | .float _ | .str _ => true
  | .list xs => textKeyedList xs
  | .dict items => textKeyedItems items

/-- Element by element. -/
def textKeyedList : List (PyVal φ) → Bool
  | [] => true
  | x :: xs => textKeyed x && textKeyedList xs

/-- Item by item. -/
def textKeyedItems : List (Key φ × PyVal φ) → Bool
  | [] => true
  | (k, x) :: items => k.asStr.isSome && textKeyed x && textKeyedItems items

end

/-- A key that is set is a text. -/
theorem textKeyedItems_setKey {k : Str} {v : PyVal φ} {d : Obj φ} (hv : textKeyed v = true)
    (hd : textKeyedItems d = true) : textKeyedItems (setKey k v d) = true := by
  fun_induction setKey k v d with
  | case1 => simp [textKeyedItems, Key.asStr, hv]
  | case2 v' d =>
      rw [textKeyedItems, Bool.and_eq_true, Bool.and_eq_true] at hd
      simp [textKeyedItems, Key.asStr, hv, hd.2]
  | case3 k' v' d hne ih =>
      rw [textKeyedItems, Bool.and_eq_true, Bool.and_eq_true] at hd
      simp [textKeyedItems, Key.asStr, hd.1.2, ih hd.2]
  | case4 i d hi ih =>
      obtain ⟨key, x⟩ := i
      rw [textKeyedItems, Bool.and_eq_true, Bool.and_eq_true] at hd
      simp [textKeyedItems, hd.1.1, hd.1.2, ih hd.2]

theorem isJson_keys_setKey {k : Str} {v : PyVal φ} {d : Obj φ} (hk : join k = k)
    (hd : ∀ i ∈ d, i.1.isJson = true) : ∀ i ∈ setKey k v d, i.1.isJson = true := by
  fun_induction setKey k v d with
  | case1 => simpa [Key.isJson] using hk
  | case2 v' d =>
      rw [List.forall_mem_cons] at hd ⊢
      exact hd
  | case3 k' v' d hne ih =>
      rw [List.forall_mem_cons] at hd ⊢
      exact ⟨hd.1, ih hd.2⟩
  | case4 i d hi ih =>
      rw [List.forall_mem_cons] at hd ⊢
      exact ⟨hd.1, ih hd.2⟩

mutual

theorem textKeyed_of_isJson : ∀ v : PyVal φ, isJson v = true → textKeyed v = true
  | .none, _ | .bool _, _ | .int _, _ | .float _, _ | .str _, _ => rfl
  | .list xs, h => textKeyedList_of_isJson xs h
  | .dict items, h => textKeyedItems_of_isJson items (isJson_dict.1 h).1

theorem textKeyedList_of_isJson :
    ∀ xs : List (PyVal φ), isJsonList xs = true → textKeyedList xs = true
  | [], _ => rfl
  | x :: xs, h => by
      rw [isJsonList, Bool.and_eq_true] at h
      rw [textKeyedList, textKeyed_of_isJson x h.1, textKeyedList_of_isJson xs h.2]
      rfl

theorem textKeyedItems_of_isJson :
    ∀ items : List (Key φ × PyVal φ), isJsonItems items = true → textKeyedItems items = true
  | [], _ => rfl
  | (k, x) :: items, h => by
      rw [isJsonItems, Bool.and_eq_true, Bool.and_eq_true] at h
      obtain ⟨s, rfl, -⟩ := Key.isJson_iff.1 h.1.1
      rw [textKeyedItems, textKeyed_of_isJson x h.1.2, textKeyedItems_of_isJson items h.2]
      rfl

end

section

variable [FloatFormat φ]

mutual

/-- A value with text keys is always written. -/
theorem encode_eq_doc : ∀ v : PyVal φ, textKeyed v = true → encode v = some (doc v)
  | .none, _ | .bool _, _ | .int _, _ | .float _, _ | .str _, _ => rfl
  | .list xs, h => by
      rw [encode, encodeList_eq_docElems xs h]
      rfl
  | .dict items, h => encode_dict_str _ (encodeItems_eq_docMembers items h)

theorem encodeList_eq_docElems :
    ∀ xs : List (PyVal φ), textKeyedList xs = true → encodeList xs = some (docElems xs)
  | [], _ => rfl
  | x :: xs, h => by
      rw [textKeyedList, Bool.and_eq_true] at h
      rw [encodeList, encode_eq_doc x h.1, encodeList_eq_docElems xs h.2]
      rfl

theorem encodeItems_eq_docMembers :
    ∀ items : List (Key φ × PyVal φ), textKeyedItems items = true →
      encodeItems items = some ((docMembers items).map fun m => (Key.str m.1, m.2))
  | [], _ => rfl
  | (k, x) :: items, h => by
      rw [textKeyedItems, Bool.and_eq_true, Bool.and_eq_true] at h
      cases k with
      | str s => exact encodeItems_cons (encode_eq_doc x h.1.2) (encodeItems_eq_docMembers items h.2)
      | none | bool _ | int _ | float _ => cases h.1.1

end

end

/-! ## Equal documents -/

theorem nodup_docMembers {items : List (Key φ × PyVal φ)} (h : isJson (.dict items) = true) :
    ((docMembers items).map Prod.fst).Nodup := by
  obtain ⟨hitems, hkeys⟩ := isJson_dict.1 h
  have hstr : (items.map fun i => i.1.asStr) = ((docMembers items).map Prod.fst).map some := by
    rw [docMembers_eq_map, List.map_map, List.map_map]
    refine List.map_congr_left fun i hi => ?_
    obtain ⟨s, hs, -⟩ := Key.isJson_iff.1 (isJsonItems_iff.1 hitems i hi).1
    rw [Function.comp_apply, Function.comp_apply, hs]
    rfl
  rw [hstr] at hkeys
  exact hkeys.of_map _

/-- Members with different keys sort alike exactly if they are the same up to order. -/
theorem sortMembers_eq_iff {ms ns : List (Str × Json φ)} (hm : (ms.map Prod.fst).Nodup) :
    sortMembers ms = sortMembers ns ↔ ms.Perm ns := by
  have hms : (sortMembers ms).Perm ms := List.perm_insertionSort _ _
  have hns : (sortMembers ns).Perm ns := List.perm_insertionSort _ _
  refine ⟨fun h => hms.symm.trans (h ▸ hns), fun h => ?_⟩
  have hperm : (sortMembers ms).Perm (sortMembers ns) := hms.trans (h.trans hns.symm)
  have hnodup : ((sortMembers ms).map Prod.fst).Nodup := (hms.map Prod.fst).nodup_iff.2 hm
  refine hperm.eq_of_pairwise (fun a b ha hb hab hba => ?_)
    (List.pairwise_insertionSort _ _) (List.pairwise_insertionSort _ _)
  exact List.inj_on_of_nodup_map hnodup ha (hperm.mem_iff.2 hb) (le_antisymm hab hba)

/-- Lists without repetition are the same up to order exactly if they are equally long
and one holds the other. -/
theorem perm_iff_length_and_subset {α : Type} {l m : List α} (h : l.Nodup) :
    l.Perm m ↔ l.length = m.length ∧ l ⊆ m := by
  constructor
  · exact fun hp => ⟨hp.length_eq, hp.subset⟩
  · rintro ⟨hlen, hsub⟩
    exact (List.subperm_of_subset h hsub).perm_of_length_le hlen.ge

mutual

/-- Two JSON values have the same document exactly when they are equal. -/
theorem doc_eq_iff :
    ∀ u v : PyVal φ, isJson u = true → isJson v = true → (doc u = doc v ↔ SameJson u v)
  | .none, v, _, _ | .bool _, v, _, _ | .int _, v, _, _ | .float _, v, _, _ | .str _, v, _, _ => by
      cases v <;> simp [doc, SameJson, eq_comm]
  | .list xs, v, hu, hv => by
      cases v with
      | list ys =>
          rw [doc, doc, Json.arr.injEq, docElems_eq_iff xs ys hu hv, SameJson]
          simp
      | _ => simp [doc, SameJson]
  | .dict items, v, hu, hv => by
      cases v with
      | dict others =>
          have hkeys := nodup_docMembers hu
          have hsub := docMembers_subset_iff items others (isJson_dict.1 hu).1 (isJson_dict.1 hv).1
          rw [doc, doc, Json.obj.injEq, sortMembers_eq_iff hkeys,
            perm_iff_length_and_subset hkeys.of_map, hsub, SameJson]
          simp [docMembers_eq_map]
      | _ => simp [doc, SameJson]

theorem docElems_eq_iff :
    ∀ xs ys : List (PyVal φ), isJsonList xs = true → isJsonList ys = true →
      (docElems xs = docElems ys ↔ SameList xs ys)
  | [], ys, _, _ => by
      cases ys <;> simp [docElems, SameList]
  | x :: xs, ys, hu, hv => by
      cases ys with
      | nil => simp [docElems, SameList]
      | cons y ys =>
          rw [isJsonList, Bool.and_eq_true] at hu hv
          rw [docElems, docElems, List.cons.injEq, doc_eq_iff x y hu.1 hv.1,
            docElems_eq_iff xs ys hu.2 hv.2, SameList]
          simp

theorem docMembers_subset_iff :
    ∀ items others : List (Key φ × PyVal φ), isJsonItems items = true →
      isJsonItems others = true → (docMembers items ⊆ docMembers others ↔ SameItems items others)
  | [], others, _, _ => by simp [docMembers, SameItems]
  | (k, x) :: items, others, hu, hv => by
      rw [isJsonItems, Bool.and_eq_true, Bool.and_eq_true] at hu
      rw [docMembers, List.cons_subset, docMembers_subset_iff items others hu.2 hv, SameItems]
      refine and_congr_left fun _ => ?_
      obtain ⟨s, rfl, -⟩ := Key.isJson_iff.1 hu.1.1
      rw [docMembers_eq_map, List.mem_map]
      constructor
      · rintro ⟨⟨k', y⟩, hmem, heq⟩
        obtain ⟨hk', hy⟩ := isJsonItems_iff.1 hv _ hmem
        obtain ⟨t, rfl, -⟩ := Key.isJson_iff.1 hk'
        obtain ⟨rfl, hdoc⟩ := Prod.mk.inj heq
        exact ⟨y, hmem, (doc_eq_iff x y hu.1.2 hy).1 hdoc.symm⟩
      · rintro ⟨y, hmem, hsame⟩
        have hy := (isJsonItems_iff.1 hv _ hmem).2
        exact ⟨_, hmem, Prod.ext rfl ((doc_eq_iff x y hu.1.2 hy).2 hsame).symm⟩

end

/-- Two JSON values are written alike exactly when they are equal. -/
theorem dumps_eq_iff [FloatFormat φ] {sep : Separators} (h : sep.Standard) {u v : PyVal φ}
    (hu : isJson u = true) (hv : isJson v = true) : dumps sep u = dumps sep v ↔ SameJson u v := by
  rw [dumps, dumps, encode_eq_doc u (textKeyed_of_isJson u hu),
    encode_eq_doc v (textKeyed_of_isJson v hv), Option.map_some, Option.map_some,
    Option.some.injEq, render_eq_iff h, joinDoc_doc u hu, joinDoc_doc v hv, doc_eq_iff u v hu hv]

/-! ## Reading a dictionary display back -/

/-- What `json.loads` makes of the text of a value. -/
def readBack (v : PyVal φ) : PyVal φ := load (joinDoc (doc v))

theorem readBack_str {s : Str} (h : join s = s) : readBack (.str s : PyVal φ) = .str s := by
  rw [readBack, doc, joinDoc, load, h]

theorem readBack_list (xs : List (PyVal φ)) : readBack (.list xs) = .list (xs.map readBack) := by
  have helems : loadList (joinElems (docElems xs)) = xs.map readBack := by
    induction xs with
    | nil => rfl
    | cons x xs ih => rw [docElems, joinElems, loadList, ih, List.map_cons, readBack]
  rw [readBack, doc, joinDoc, load, helems]

theorem getKey_map_str (k : Str) (d : Dict Str (PyVal φ)) :
    getKey k (d.map fun m => (Key.str m.1, m.2)) = d.get? k := by
  induction d with
  | nil => rfl
  | cons m d ih => rw [List.map_cons, getKey, ih, Dict.get?]

/-- The members of a dictionary after reading, in the order of their keys. -/
theorem readBack_dict_perm {d : Obj φ} (hkeys : ∀ i ∈ d, i.1.isJson = true)
    (hnodup : (d.map fun i => i.1.asStr).Nodup) :
    ∃ read : Dict Str (PyVal φ), readBack (.dict d) = .dict (read.map fun m => (.str m.1, m.2)) ∧
      read.Perm (d.map fun i => (i.1.asStr.getD [], readBack i.2)) ∧
      (read.map Prod.fst).Nodup := by
  have hjoin {i : Key φ × PyVal φ} (hi : i ∈ d) :
      join (i.1.asStr.getD []) = i.1.asStr.getD [] ∧ i.1.asStr = some (i.1.asStr.getD []) := by
    obtain ⟨s, hs, hjoin⟩ := Key.isJson_iff.1 (hkeys i hi)
    rw [hs]
    exact ⟨hjoin, rfl⟩
  have hread : (loadMembers (joinMembers (sortMembers (docMembers d)))).Perm
      (d.map fun i => (i.1.asStr.getD [], readBack i.2)) := by
    rw [loadMembers_eq_map, joinMembers_eq_map, List.map_map]
    refine ((List.perm_insertionSort _ _).map _).trans (.of_eq ?_)
    rw [docMembers_eq_map, List.map_map]
    refine List.map_congr_left fun i hi => ?_
    simp only [Function.comp_apply, (hjoin hi).1, readBack]
  have hunique : ((loadMembers (joinMembers (sortMembers (docMembers d)))).map Prod.fst).Nodup := by
    have hsome : (d.map fun i => i.1.asStr) =
        ((d.map fun i => (i.1.asStr.getD [], readBack i.2)).map Prod.fst).map some := by
      rw [List.map_map, List.map_map]
      exact List.map_congr_left fun i hi => (hjoin hi).2
    rw [hsome] at hnodup
    exact (hread.map Prod.fst).nodup_iff.2 hnodup.of_map
  refine ⟨_, ?_, hread, hunique⟩
  rw [readBack, doc, joinDoc, load, Dict.ofPairs_eq_self hunique]

/-- A dictionary is read back key by key. -/
theorem readBack_dict {d : Obj φ} (hkeys : ∀ i ∈ d, i.1.isJson = true)
    (hnodup : (d.map fun i => i.1.asStr).Nodup) :
    ∃ read, readBack (.dict d) = .dict read ∧ ∀ k, getKey k read = (getKey k d).map readBack := by
  obtain ⟨read, hread, hperm, hunique⟩ := readBack_dict_perm hkeys hnodup
  refine ⟨_, hread, fun k => ?_⟩
  rw [getKey_map_str, Dict.get?_perm hperm hunique]
  clear hread hperm hunique hnodup
  induction d with
  | nil => rfl
  | cons i d ih =>
      obtain ⟨key, v⟩ := i
      obtain ⟨s, hs, -⟩ := Key.isJson_iff.1 (hkeys _ List.mem_cons_self)
      cases hs
      change Dict.get? ((s, readBack v) :: d.map fun i => (i.1.asStr.getD [], readBack i.2)) k = _
      rw [Dict.get?, ih fun i hi => hkeys i (List.mem_cons_of_mem _ hi), getKey]
      by_cases hk : s = k
      · rw [if_pos hk, if_pos hk]
        rfl
      · rw [if_neg hk, if_neg hk]

/-- A display with different keys is read back key by key. -/
theorem readBack_obj {items : List (String × PyVal φ)} (h : (items.map Prod.fst).Nodup) :
    ∃ d, readBack (.dict (obj items)) = .dict d ∧
      ∀ k, getKey (lit k) d = (getKey (lit k) (obj items)).map readBack := by
  have hkeys : ∀ i ∈ (obj items : Obj φ), i.1.isJson = true := by
    intro i hi
    obtain ⟨item, -, rfl⟩ := List.mem_map.1 hi
    exact decide_eq_true (join_lit item.1)
  have hnodup : ((obj items : Obj φ).map fun i => i.1.asStr).Nodup := by
    have hlit : ((obj items : Obj φ).map fun i => i.1.asStr) =
        (items.map Prod.fst).map fun k => some (lit k) := by
      rw [obj, List.map_map, List.map_map]
      rfl
    rw [hlit]
    exact h.map fun a b hab => lit_inj.1 (Option.some.inj hab)
  obtain ⟨d, hd, hget⟩ := readBack_dict hkeys hnodup
  exact ⟨d, hd, fun k => hget (lit k)⟩

end Py
