import ShugoCore.Lib.JsonRoundTrip

/-!
# Keys before and after a round trip

`dumps` sorts the keys of a dictionary as objects and then writes them.  Reading
the text back gives string keys, and another `dumps` sorts those.  The two orders
agree for some keys and not for others: `2` comes before `10`, `"10"` before
`"2"`.

`canon` is the document of what is read back.  `Sorted` documents are the ones it
leaves alone.  `keyStable` says the same of an object before it is written.
-/

namespace Py

variable {φ : Type}

/-! ## The document of what is read back -/

/-- Members by key. -/
def sortMembers (ms : List (Str × Json φ)) : List (Str × Json φ) :=
  ms.insertionSort fun a b => a.1 ≤ b.1

mutual

/-- What `dumps` makes of the object that a document is read as. -/
def canon : Json φ → Json φ
  | .null => .null
  | .bool b => .bool b
  | .int i => .int i
  | .float x => .float x
  | .str s => .str s
  | .arr xs => .arr (canonElems xs)
  | .obj ms => .obj (sortMembers (Dict.ofPairs (canonMembers ms)))

/-- Element by element. -/
def canonElems : List (Json φ) → List (Json φ)
  | [] => []
  | x :: xs => canon x :: canonElems xs

/-- Value by value. -/
def canonMembers : List (Str × Json φ) → List (Str × Json φ)
  | [] => []
  | (k, x) :: ms => (k, canon x) :: canonMembers ms

end

theorem canonMembers_eq_map (ms : List (Str × Json φ)) :
    canonMembers ms = ms.map fun m => (m.1, canon m.2) := by
  induction ms with
  | nil => rfl
  | cons m ms ih => rw [canonMembers, ih]; rfl

theorem loadMembers_eq_map (ms : List (Str × Json φ)) :
    loadMembers ms = ms.map fun m => (m.1, load m.2) := by
  induction ms with
  | nil => rfl
  | cons m ms ih => rw [loadMembers, ih]; rfl

theorem sortMembers_of_length {ms : List (Str × Json φ)} (h : ms.length ≤ 1) :
    sortMembers ms = ms := by
  match ms, h with
  | [], _ => rfl
  | [m], _ => rfl

section

variable [FloatFormat φ]

/-- String keys always sort. -/
theorem sortItems_str (ms : List (Str × Json φ)) :
    sortItems (ms.map fun m => ((Key.str m.1 : Key φ), m.2)) =
      some ((sortMembers ms).map fun m => (Key.str m.1, m.2)) := by
  have hall : (ms.map fun m => ((Key.str m.1 : Key φ), m.2)).all fun i => i.1.asStr.isSome := by
    simp [Key.asStr]
  have hsort : (sortMembers ms).map (fun m => ((Key.str m.1 : Key φ), m.2)) =
      (ms.map fun m => ((Key.str m.1 : Key φ), m.2)).insertionSort strLe :=
    List.map_insertionSort _ _ _ _ (fun a _ b _ => Iff.rfl)
  by_cases hlen : ms.length ≤ 1
  · rw [sortItems, if_pos (by simpa using hlen), sortMembers_of_length hlen]
  · rw [sortItems, if_neg (by simpa using hlen), if_pos hall, hsort]

theorem encodeItems_str (ms : List (Str × Json φ))
    (h : ∀ m ∈ ms, encode (load m.2) = some (canon m.2)) :
    encodeItems (ms.map fun m => ((Key.str m.1 : Key φ), load m.2)) =
      some (ms.map fun m => (Key.str m.1, canon m.2)) := by
  induction ms with
  | nil => rfl
  | cons m ms ih =>
      rw [List.map_cons, encodeItems, h m List.mem_cons_self,
        ih fun m hm => h m (List.mem_cons_of_mem _ hm)]
      rfl

theorem encodeItems_cons {k : Key φ} {x : PyVal φ} {y : Json φ} {items : List (Key φ × PyVal φ)}
    {ys : List (Key φ × Json φ)} (hx : encode x = some y) (hs : encodeItems items = some ys) :
    encodeItems ((k, x) :: items) = some ((k, y) :: ys) := by
  rw [encodeItems, hx, hs]
  rfl

/-- A dictionary with string keys is written with its keys in order. -/
theorem encode_dict_str {items : List (Key φ × PyVal φ)} (ms : List (Str × Json φ))
    (h : encodeItems items = some (ms.map fun m => (Key.str m.1, m.2))) :
    encode (.dict items) = some (.obj (sortMembers ms)) := by
  rw [encode, h]
  simp only [Option.bind_eq_bind, Option.bind_some, sortItems_str, Option.pure_def, List.map_map]
  congr 2
  exact List.map_id _

/-- A dictionary that was read is written with its keys in order. -/
theorem encode_load_obj {ms : List (Str × Json φ)}
    (h : ∀ m ∈ ms, encode (load m.2) = some (canon m.2)) :
    encode (load (.obj ms)) = some (canon (.obj ms)) := by
  have hload : (Dict.ofPairs (loadMembers ms)).map (fun m => ((Key.str m.1 : Key φ), m.2)) =
      (Dict.ofPairs ms).map fun m => (Key.str m.1, load m.2) := by
    rw [loadMembers_eq_map, ← Dict.map_ofPairs, List.map_map]
    rfl
  have hitems := encodeItems_str (Dict.ofPairs ms) fun m hm => h m (Dict.mem_ofPairs hm)
  have hcanon : (Dict.ofPairs ms).map (fun m => ((Key.str m.1 : Key φ), canon m.2)) =
      (Dict.ofPairs (canonMembers ms)).map fun m => (Key.str m.1, m.2) := by
    rw [canonMembers_eq_map, ← Dict.map_ofPairs, List.map_map]
    rfl
  rw [load, hload, canon]
  exact encode_dict_str (Dict.ofPairs (canonMembers ms)) (hitems.trans (congrArg some hcanon))

mutual

/-- Writing what was read never fails and gives the canonical document. -/
theorem encode_load : ∀ j : Json φ, encode (load j) = some (canon j)
  | .null | .bool _ | .int _ | .float _ | .str _ => rfl
  | .arr xs => by rw [load, encode, encodeList_load xs]; rfl
  | .obj ms => encode_load_obj (encode_load_members ms)

theorem encodeList_load : ∀ xs : List (Json φ), encodeList (loadList xs) = some (canonElems xs)
  | [] => rfl
  | x :: xs => by
      rw [loadList, encodeList, encode_load x, encodeList_load xs]
      rfl

theorem encode_load_members :
    ∀ ms : List (Str × Json φ), ∀ m ∈ ms, encode (load m.2) = some (canon m.2)
  | [], _, hm => by cases hm
  | (k, x) :: ms, m, hm => by
      rcases List.mem_cons.1 hm with rfl | hm
      · exact encode_load x
      · exact encode_load_members ms m hm

end

end

/-! ## Sorted documents -/

/-- Each key is below the next. -/
def StrictKeys (ms : List (Str × Json φ)) : Prop := (ms.map Prod.fst).Pairwise (· < ·)

mutual

/-- Every dictionary of the document has its keys in order, each once. -/
def Sorted : Json φ → Prop
  | .null | .bool _ | .int _ | .float _ | .str _ => True
  | .arr xs => SortedElems xs
  | .obj ms => StrictKeys ms ∧ SortedMembers ms

/-- Element by element. -/
def SortedElems : List (Json φ) → Prop
  | [] => True
  | x :: xs => Sorted x ∧ SortedElems xs

/-- Value by value. -/
def SortedMembers : List (Str × Json φ) → Prop
  | [] => True
  | (_, x) :: ms => Sorted x ∧ SortedMembers ms

end

theorem strictKeys_sortMembers (ms : List (Str × Json φ)) :
    StrictKeys (sortMembers (Dict.ofPairs ms)) := by
  have hsorted : (sortMembers (Dict.ofPairs ms)).Pairwise fun a b => a.1 ≤ b.1 :=
    List.pairwise_insertionSort _ _
  have hperm : ((sortMembers (Dict.ofPairs ms)).map Prod.fst).Perm
      ((Dict.ofPairs ms).map Prod.fst) := (List.perm_insertionSort _ _).map _
  have hnodup := hperm.nodup_iff.2 (Dict.nodup_ofPairs ms)
  exact ((List.pairwise_map.2 hsorted).and hnodup).imp fun h => lt_of_le_of_ne h.1 h.2

/-- A dictionary in order is left alone. -/
theorem sortMembers_of_strictKeys {ms : List (Str × Json φ)} (h : StrictKeys ms) :
    sortMembers (Dict.ofPairs ms) = ms := by
  have hnodup : (ms.map Prod.fst).Nodup := h.imp fun hlt => ne_of_lt hlt
  rw [Dict.ofPairs_eq_self hnodup, sortMembers]
  apply List.Pairwise.insertionSort_eq
  exact (List.pairwise_map.1 h).imp fun hlt => le_of_lt hlt

theorem keys_canonMembers (ms : List (Str × Json φ)) :
    (canonMembers ms).map Prod.fst = ms.map Prod.fst := by
  rw [canonMembers_eq_map, List.map_map]
  rfl

theorem strictKeys_canonMembers {ms : List (Str × Json φ)} :
    StrictKeys (canonMembers ms) ↔ StrictKeys ms := by
  rw [StrictKeys, StrictKeys, keys_canonMembers]

mutual

/-- The documents that a round trip leaves alone. -/
theorem canon_eq_self_iff : ∀ j : Json φ, canon j = j ↔ Sorted j
  | .null | .bool _ | .int _ | .float _ | .str _ => ⟨fun _ => trivial, fun _ => rfl⟩
  | .arr xs => by
      rw [canon, Sorted, ← canonElems_eq_self_iff xs, Json.arr.injEq]
  | .obj ms => by
      rw [canon, Sorted, ← canonMembers_eq_self_iff ms, Json.obj.injEq]
      constructor
      · intro h
        have hstrict : StrictKeys ms := h ▸ strictKeys_sortMembers (canonMembers ms)
        refine ⟨hstrict, ?_⟩
        rwa [sortMembers_of_strictKeys (strictKeys_canonMembers.2 hstrict)] at h
      · rintro ⟨hstrict, h⟩
        rw [h, sortMembers_of_strictKeys hstrict]

theorem canonElems_eq_self_iff : ∀ xs : List (Json φ), canonElems xs = xs ↔ SortedElems xs
  | [] => ⟨fun _ => trivial, fun _ => rfl⟩
  | x :: xs => by
      rw [canonElems, SortedElems, ← canon_eq_self_iff x, ← canonElems_eq_self_iff xs,
        List.cons.injEq]

theorem canonMembers_eq_self_iff :
    ∀ ms : List (Str × Json φ), canonMembers ms = ms ↔ SortedMembers ms
  | [] => ⟨fun _ => trivial, fun _ => rfl⟩
  | (k, x) :: ms => by
      rw [canonMembers, SortedMembers, ← canon_eq_self_iff x, ← canonMembers_eq_self_iff ms,
        List.cons.injEq, Prod.mk.injEq]
      simp

end

theorem sortedMembers_iff (ms : List (Str × Json φ)) : SortedMembers ms ↔ ∀ m ∈ ms, Sorted m.2 := by
  induction ms with
  | nil => simp [SortedMembers]
  | cons m ms ih => rw [SortedMembers, ih, List.forall_mem_cons]

/-! ## Joined documents stay joined -/

theorem joinMembers_eq_map (ms : List (Str × Json φ)) :
    joinMembers ms = ms.map fun m => (join m.1, joinDoc m.2) := by
  induction ms with
  | nil => rfl
  | cons m ms ih => rw [joinMembers, ih]; rfl

theorem joinMembers_eq_self_iff {ms : List (Str × Json φ)} :
    joinMembers ms = ms ↔ ∀ m ∈ ms, join m.1 = m.1 ∧ joinDoc m.2 = m.2 := by
  induction ms with
  | nil => simp [joinMembers]
  | cons m ms ih =>
      rw [joinMembers, List.cons.injEq, ih, List.forall_mem_cons, Prod.ext_iff]

mutual

theorem joinDoc_joinDoc : ∀ j : Json φ, joinDoc (joinDoc j) = joinDoc j
  | .null | .bool _ | .int _ | .float _ => rfl
  | .str s => by rw [joinDoc, joinDoc, join_join]
  | .arr xs => by rw [joinDoc, joinDoc, joinElems_joinElems xs]
  | .obj ms => by rw [joinDoc, joinDoc, joinMembers_joinMembers ms]

theorem joinElems_joinElems : ∀ xs : List (Json φ), joinElems (joinElems xs) = joinElems xs
  | [] => rfl
  | x :: xs => by rw [joinElems, joinElems, joinDoc_joinDoc x, joinElems_joinElems xs]

theorem joinMembers_joinMembers :
    ∀ ms : List (Str × Json φ), joinMembers (joinMembers ms) = joinMembers ms
  | [] => rfl
  | (k, x) :: ms => by
      rw [joinMembers, joinMembers, join_join, joinDoc_joinDoc x, joinMembers_joinMembers ms]

end

mutual

theorem joinDoc_canon : ∀ j : Json φ, joinDoc j = j → joinDoc (canon j) = canon j
  | .null, _ | .bool _, _ | .int _, _ | .float _, _ => rfl
  | .str s, h => h
  | .arr xs, h => by
      rw [canon, joinDoc, joinElems_canonElems xs (Json.arr.inj h)]
  | .obj ms, h => by
      rw [canon, joinDoc, Json.obj.injEq, joinMembers_eq_self_iff]
      intro m hm
      have hmem := Dict.mem_ofPairs ((List.mem_insertionSort _).1 hm)
      exact joinMembers_canonMembers ms (Json.obj.inj h) m hmem

theorem joinElems_canonElems :
    ∀ xs : List (Json φ), joinElems xs = xs → joinElems (canonElems xs) = canonElems xs
  | [], _ => rfl
  | x :: xs, h => by
      rw [joinElems, List.cons.injEq] at h
      rw [canonElems, joinElems, joinDoc_canon x h.1, joinElems_canonElems xs h.2]

theorem joinMembers_canonMembers :
    ∀ ms : List (Str × Json φ), joinMembers ms = ms →
      ∀ m ∈ canonMembers ms, join m.1 = m.1 ∧ joinDoc m.2 = m.2
  | [], _, _, hm => by cases hm
  | (k, x) :: ms, h, m, hm => by
      rw [joinMembers, List.cons.injEq, Prod.mk.injEq] at h
      rw [canonMembers, List.mem_cons] at hm
      rcases hm with rfl | hm
      · exact ⟨h.1.1, joinDoc_canon x h.1.2⟩
      · exact joinMembers_canonMembers ms h.2 m hm

end

/-- A document is written alike before and after a round trip exactly when its
keys, once joined, are in order. -/
theorem render_canon_eq_iff [FloatFormat φ] {sep : Separators} (h : sep.Standard) (j : Json φ) :
    render sep (canon (joinDoc j)) = render sep j ↔ Sorted (joinDoc j) := by
  rw [render_eq_iff h, joinDoc_canon _ (joinDoc_joinDoc j), canon_eq_self_iff]

/-! ## Objects whose keys keep their order -/

section

variable [FloatFormat φ]

mutual

/-- In every dictionary of the object the keys, in the order `sorted` puts them,
are in order as text too: written, read back, and each below the next. -/
def keyStable : PyVal φ → Bool
  | .none | .bool _ | .int _ | .float _ | .str _ => true
  | .list xs => keyStableList xs
  | .dict items =>
      keyStableItems items &&
        match sortItems items with
        | none => true
        | some sorted => decide ((sorted.map fun i => join i.1.text).Pairwise (· < ·))

/-- Element by element. -/
def keyStableList : List (PyVal φ) → Bool
  | [] => true
  | x :: xs => keyStable x && keyStableList xs

/-- Value by value. -/
def keyStableItems : List (Key φ × PyVal φ) → Bool
  | [] => true
  | (_, x) :: items => keyStable x && keyStableItems items

end

/-- Sorting looks at the keys only. -/
theorem sortItems_map {α β : Type} (f : α → β) (items : List (Key φ × α)) :
    sortItems (items.map fun i => (i.1, f i.2)) =
      (sortItems items).map fun l => l.map fun i => (i.1, f i.2) := by
  have hstr : (items.insertionSort strLe).map (fun i => (i.1, f i.2)) =
      (items.map fun i => (i.1, f i.2)).insertionSort strLe :=
    List.map_insertionSort _ _ _ _ (fun a _ b _ => Iff.rfl)
  have hnum : (items.insertionSort numLe).map (fun i => (i.1, f i.2)) =
      (items.map fun i => (i.1, f i.2)).insertionSort numLe :=
    List.map_insertionSort _ _ _ _ (fun a _ b _ => Iff.rfl)
  simp only [sortItems, List.length_map, List.all_map, List.any_map, Function.comp_def, ← hstr,
    ← hnum, FloatFormat.sortNaN_map]
  split_ifs <;> rfl

theorem perm_sortItems {α : Type} {items sorted : List (Key φ × α)}
    (h : sortItems items = some sorted) : sorted.Perm items := by
  unfold sortItems at h
  split_ifs at h <;> cases h
  · exact List.Perm.refl _
  · exact List.perm_insertionSort _ _
  · exact FloatFormat.sortNaN_perm _
  · exact List.perm_insertionSort _ _

/-- When every value is written, the items are the values' documents under the
same keys. -/
theorem encodeItems_eq_map {items : List (Key φ × PyVal φ)} {encoded : List (Key φ × Json φ)}
    (h : encodeItems items = some encoded) :
    encoded = items.map fun i => (i.1, (encode i.2).getD .null) := by
  induction items generalizing encoded with
  | nil =>
      cases h
      rfl
  | cons i items ih =>
      obtain ⟨k, x⟩ := i
      rw [encodeItems] at h
      cases hx : encode x with
      | none => simp [hx] at h
      | some y =>
          cases hys : encodeItems items with
          | none => simp [hx, hys] at h
          | some ys =>
              simp only [hx, hys, Option.bind_eq_bind, Option.bind_some, Option.pure_def,
                Option.some.injEq] at h
              subst h
              rw [List.map_cons, ← ih hys, hx]
              rfl

/-- What `encode` does to a dictionary, when it succeeds. -/
theorem encode_dict_cases {items : List (Key φ × PyVal φ)} {j : Json φ}
    (h : encode (.dict items) = some j) :
    ∃ encoded sorted, encodeItems items = some encoded ∧ sortItems items = some sorted ∧
      j = .obj (sorted.map fun i => (i.1.text, (encode i.2).getD .null)) := by
  rw [encode] at h
  cases he : encodeItems items with
  | none => simp [he] at h
  | some encoded =>
      have hmap := encodeItems_eq_map he
      have hsort := sortItems_map (fun x => (encode x).getD .null) items
      rw [← hmap] at hsort
      cases hs : sortItems items with
      | none => simp [he, hsort, hs] at h
      | some sorted =>
          refine ⟨encoded, sorted, rfl, rfl, ?_⟩
          simp only [he, hsort, hs, Option.bind_eq_bind, Option.bind_some, Option.map_some,
            Option.pure_def, Option.some.injEq, List.map_map] at h
          rw [← h]
          rfl

mutual

/-- Stable objects are those whose document is sorted. -/
theorem keyStable_iff :
    ∀ (v : PyVal φ) {j : Json φ}, encode v = some j → (keyStable v = true ↔ Sorted (joinDoc j))
  | .none, _, h | .bool _, _, h | .int _, _, h | .float _, _, h | .str _, _, h => by
      cases h
      exact ⟨fun _ => trivial, fun _ => rfl⟩
  | .list xs, j, h => by
      rw [encode] at h
      cases hxs : encodeList xs with
      | none => simp [hxs] at h
      | some ys =>
          rw [hxs] at h
          cases h
          exact keyStableList_iff xs hxs
  | .dict items, j, h => by
      obtain ⟨encoded, sorted, he, hs, rfl⟩ := encode_dict_cases h
      have hitems := keyStableItems_iff items he
      have hperm := perm_sortItems hs
      have hkeys : StrictKeys (joinMembers (sorted.map fun i => (i.1.text, (encode i.2).getD .null)))
          ↔ (sorted.map fun i => join i.1.text).Pairwise (· < ·) := by
        rw [StrictKeys, joinMembers_eq_map, List.map_map, List.map_map]
        rfl
      rw [keyStable, hs, Bool.and_eq_true, hitems, decide_eq_true_eq, joinDoc, Sorted, hkeys,
        sortedMembers_iff, joinMembers_eq_map, and_comm]
      refine and_congr_right fun _ => ?_
      simp only [List.mem_map, forall_exists_index, and_imp, forall_apply_eq_imp_iff₂, hperm.mem_iff]

theorem keyStableList_iff :
    ∀ (xs : List (PyVal φ)) {ys : List (Json φ)}, encodeList xs = some ys →
      (keyStableList xs = true ↔ SortedElems (joinElems ys))
  | [], _, h => by
      cases h
      exact ⟨fun _ => trivial, fun _ => rfl⟩
  | x :: xs, ys, h => by
      rw [encodeList] at h
      cases hx : encode x with
      | none => simp [hx] at h
      | some y =>
          cases hxs : encodeList xs with
          | none => simp [hx, hxs] at h
          | some zs =>
              simp only [hx, hxs, Option.bind_eq_bind, Option.bind_some, Option.pure_def,
                Option.some.injEq] at h
              subst h
              rw [keyStableList, Bool.and_eq_true, keyStable_iff x hx, keyStableList_iff xs hxs]
              rfl

theorem keyStableItems_iff :
    ∀ (items : List (Key φ × PyVal φ)) {encoded : List (Key φ × Json φ)},
      encodeItems items = some encoded →
      (keyStableItems items = true ↔
        ∀ i ∈ items, Sorted (joinDoc ((encode i.2).getD .null)))
  | [], _, _ => by simp [keyStableItems]
  | (k, x) :: items, encoded, h => by
      rw [encodeItems] at h
      cases hx : encode x with
      | none => simp [hx] at h
      | some y =>
          cases hxs : encodeItems items with
          | none => simp [hx, hxs] at h
          | some zs =>
              rw [keyStableItems, Bool.and_eq_true, keyStable_iff x hx,
                keyStableItems_iff items hxs, List.forall_mem_cons, hx]
              rfl

end

end

end Py
