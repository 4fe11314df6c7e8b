import Mathlib.Algebra.Ring.Int.Defs
import Mathlib.Data.List.Basic
import Mathlib.Data.List.Induction

/-!
# Insertion-ordered dictionaries

A dictionary is the list of its items in insertion order, keys pairwise
distinct.  Setting a present key keeps its place, setting a new key appends it,
as in Python.
-/

/-- The items of a dictionary, oldest first. -/
abbrev Dict (κ ν : Type) := List (κ × ν)

namespace Dict

variable {κ ν : Type} [DecidableEq κ]

/-- The value of a key. -/
def get? : Dict κ ν → κ → Option ν
  | [], _ => none
  | (k', v) :: d, k => if k' = k then some v else get? d k

/-- Bind a key to a value. -/
def set : Dict κ ν → κ → ν → Dict κ ν
  | [], k, v => [(k, v)]
  | (k', v') :: d, k, v => if k' = k then (k', v) :: d else (k', v') :: set d k v

/-- Bind keys one after the other, so that the last value of a key stays. -/
def ofPairs (items : List (κ × ν)) : Dict κ ν := items.foldl (fun d i => set d i.1 i.2) []

/-- Drop a key. -/
def remove (d : Dict κ ν) (k : κ) : Dict κ ν := d.filter fun item => item.1 ≠ k

@[simp] theorem get?_nil (k : κ) : get? ([] : Dict κ ν) k = none := rfl

@[simp] theorem get?_set_self (d : Dict κ ν) (k : κ) (v : ν) : get? (set d k v) k = some v := by
  induction d with
  | nil => simp [set, get?]
  | cons item d ih =>
      obtain ⟨k', v'⟩ := item
      by_cases h : k' = k
      · simp [set, get?, h]
      · simp [set, get?, h, ih]

@[simp] theorem get?_set_of_ne (d : Dict κ ν) {k k' : κ} (h : k ≠ k') (v : ν) :
    get? (set d k v) k' = get? d k' := by
  induction d with
  | nil => simp [set, get?, h]
  | cons item d ih =>
      obtain ⟨k₀, v₀⟩ := item
      by_cases h₀ : k₀ = k
      · subst h₀
        simp [set, get?, h]
      · simp only [set, if_neg h₀, get?, ih]

@[simp] theorem get?_remove_self (d : Dict κ ν) (k : κ) : get? (remove d k) k = none := by
  induction d with
  | nil => rfl
  | cons item d ih =>
      obtain ⟨k₀, v₀⟩ := item
      by_cases h : k₀ = k
      · simpa [remove, h] using ih
      · simpa [remove, get?, h] using ih

@[simp] theorem get?_remove_of_ne (d : Dict κ ν) {k k' : κ} (h : k ≠ k') :
    get? (remove d k) k' = get? d k' := by
  induction d with
  | nil => rfl
  | cons item d ih =>
      obtain ⟨k₀, v₀⟩ := item
      by_cases hk : k₀ = k
      · subst hk
        simpa [remove, get?, h] using ih
      · by_cases hk' : k₀ = k'
        · subst hk'
          simp [remove, get?, hk]
        · simpa [remove, get?, hk, hk'] using ih

theorem mem_set {d : Dict κ ν} {k : κ} {v : ν} {i : κ × ν} (h : i ∈ set d k v) :
    i ∈ d ∨ i = (k, v) := by
  induction d with
  | nil => exact .inr (List.mem_singleton.1 h)
  | cons item d ih =>
      obtain ⟨k', v'⟩ := item
      rw [set] at h
      split at h
      · rename_i hk
        subst hk
        rcases List.mem_cons.1 h with h | h
        · exact .inr h
        · exact .inl (List.mem_cons_of_mem _ h)
      · rcases List.mem_cons.1 h with h | h
        · exact .inl (h ▸ List.mem_cons_self)
        · exact (ih h).imp_left (List.mem_cons_of_mem _)

/-- Setting a key adds it at the end unless it is there. -/
theorem keys_set (d : Dict κ ν) (k : κ) (v : ν) :
    (set d k v).map Prod.fst =
      if k ∈ d.map Prod.fst then d.map Prod.fst else d.map Prod.fst ++ [k] := by
  induction d with
  | nil => rfl
  | cons item d ih =>
      obtain ⟨k', v'⟩ := item
      by_cases h : k' = k
      · subst h
        simp [set]
      · have h' : ¬ k = k' := fun he => h he.symm
        simp only [set, if_neg h, List.map_cons, ih, List.mem_cons, h', false_or]
        split <;> rfl

theorem nodup_set {d : Dict κ ν} (h : (d.map Prod.fst).Nodup) {k : κ} {v : ν} :
    ((set d k v).map Prod.fst).Nodup := by
  rw [keys_set]
  split
  · exact h
  · rename_i hk
    rw [List.nodup_append]
    refine ⟨h, by simp, ?_⟩
    intro a ha b hb hab
    rw [List.mem_singleton.1 hb] at hab
    exact hk (hab ▸ ha)

theorem get?_of_mem_keys {d : Dict κ ν} {k : κ} (h : k ∈ d.map Prod.fst) : ∃ v, get? d k = some v := by
  induction d with
  | nil => cases h
  | cons item d ih =>
      obtain ⟨k', v⟩ := item
      by_cases hk : k' = k
      · exact ⟨v, by rw [get?, if_pos hk]⟩
      · rw [get?, if_neg hk]
        exact ih ((List.mem_cons.1 h).resolve_left fun he => hk he.symm)

theorem nodup_remove {d : Dict κ ν} (h : (d.map Prod.fst).Nodup) (k : κ) :
    ((remove d k).map Prod.fst).Nodup :=
  h.sublist (List.filter_sublist.map Prod.fst)

/-- Dropping a key that is there drops one item. -/
theorem length_remove {d : Dict κ ν} (h : (d.map Prod.fst).Nodup) {k : κ} (hk : k ∈ d.map Prod.fst) :
    (remove d k).length + 1 = d.length := by
  induction d with
  | nil => cases hk
  | cons item d ih =>
      rw [List.map_cons, List.nodup_cons] at h
      by_cases he : item.1 = k
      · have hrest : remove d k = d := by
          refine List.filter_eq_self.2 fun i hi => ?_
          have hne : i.1 ≠ k := fun hik => h.1 (he ▸ hik ▸ List.mem_map_of_mem hi)
          simpa using hne
        have hhead : remove (item :: d) k = d := by
          rw [remove, List.filter_cons_of_neg (by simpa using he)]
          exact hrest
        rw [hhead, List.length_cons]
      · have hmem : k ∈ d.map Prod.fst := (List.mem_cons.1 hk).resolve_left fun hki => he hki.symm
        have hhead : remove (item :: d) k = item :: remove d k :=
          List.filter_cons_of_pos (by simpa using he)
        rw [hhead, List.length_cons, List.length_cons, ih h.2 hmem]

theorem set_of_not_mem {d : Dict κ ν} {k : κ} (h : k ∉ d.map Prod.fst) (v : ν) :
    set d k v = d ++ [(k, v)] := by
  induction d with
  | nil => rfl
  | cons item d ih =>
      obtain ⟨k', v'⟩ := item
      simp only [List.map_cons, List.mem_cons, not_or] at h
      rw [set, if_neg (fun he => h.1 he.symm), ih h.2]
      rfl

theorem map_set {ν' : Type} (f : ν → ν') (d : Dict κ ν) (k : κ) (v : ν) :
    (set d k v).map (fun i => (i.1, f i.2)) = set (d.map fun i => (i.1, f i.2)) k (f v) := by
  induction d with
  | nil => rfl
  | cons item d ih =>
      obtain ⟨k', v'⟩ := item
      by_cases h : k' = k
      · simp [set, h]
      · simp only [set, if_neg h, List.map_cons, ih]

/-- Setting a key changes a sum over the values by the difference it makes. -/
theorem sum_map_set (f : ν → Int) (d : Dict κ ν) (k : κ) (v : ν) :
    ((set d k v).map fun i => f i.2).sum =
      (d.map fun i => f i.2).sum - ((get? d k).map f).getD 0 + f v := by
  induction d with
  | nil => simp [set]
  | cons item d ih =>
      obtain ⟨k', v'⟩ := item
      by_cases h : k' = k
      · simp only [set, get?, if_pos h, List.map_cons, List.sum_cons, Option.map_some,
          Option.getD_some]
        omega
      · simp only [set, get?, if_neg h, List.map_cons, List.sum_cons, ih]
        omega

/-- The dictionary of a list built onto a dictionary. -/
theorem foldl_set_mem {items : List (κ × ν)} {d : Dict κ ν} {i : κ × ν}
    (h : i ∈ items.foldl (fun d i => set d i.1 i.2) d) : i ∈ d ∨ i ∈ items := by
  induction items generalizing d with
  | nil => exact .inl h
  | cons j items ih =>
      rcases ih h with h | h
      · rcases mem_set h with h | h
        · exact .inl h
        · exact .inr (h ▸ List.mem_cons_self)
      · exact .inr (List.mem_cons_of_mem _ h)

theorem mem_ofPairs {items : List (κ × ν)} {i : κ × ν} (h : i ∈ ofPairs items) : i ∈ items :=
  (foldl_set_mem h).resolve_left (by simp)

theorem nodup_foldl_set {items : List (κ × ν)} {d : Dict κ ν} (h : (d.map Prod.fst).Nodup) :
    ((items.foldl (fun d i => set d i.1 i.2) d).map Prod.fst).Nodup := by
  induction items generalizing d with
  | nil => exact h
  | cons j items ih => exact ih (nodup_set h)

/-- A dictionary has each key once. -/
theorem nodup_ofPairs (items : List (κ × ν)) : ((ofPairs items).map Prod.fst).Nodup :=
  nodup_foldl_set (by simp)

theorem foldl_set_append {items : List (κ × ν)} {d : Dict κ ν}
    (h : ((d ++ items).map Prod.fst).Nodup) :
    items.foldl (fun d i => set d i.1 i.2) d = d ++ items := by
  induction items generalizing d with
  | nil => simp
  | cons j items ih =>
      have hk : j.1 ∉ d.map Prod.fst := by
        rw [List.map_append, List.nodup_append] at h
        intro hd
        exact h.2.2 _ hd _ (by simp) rfl
      rw [List.foldl_cons, set_of_not_mem hk, ih (by simpa using h)]
      simp

/-- Setting keys that are there adds none. -/
theorem keys_foldl_set {items : List (κ × ν)} {d : Dict κ ν}
    (h : ∀ i ∈ items, i.1 ∈ d.map Prod.fst) :
    (items.foldl (fun d i => set d i.1 i.2) d).map Prod.fst = d.map Prod.fst := by
  induction items generalizing d with
  | nil => rfl
  | cons i items ih =>
      have hkeys : (set d i.1 i.2).map Prod.fst = d.map Prod.fst := by
        rw [keys_set, if_pos (h i List.mem_cons_self)]
      rw [List.foldl_cons, ih fun j hj => hkeys ▸ h j (List.mem_cons_of_mem _ hj), hkeys]

/-- The keys that are bound are those that were, and those of the items. -/
theorem mem_keys_foldl_set {items : List (κ × ν)} {d : Dict κ ν} {k : κ} :
    k ∈ (items.foldl (fun d i => set d i.1 i.2) d).map Prod.fst ↔
      k ∈ d.map Prod.fst ∨ k ∈ items.map Prod.fst := by
  induction items generalizing d with
  | nil => simp
  | cons i items ih =>
      rw [List.foldl_cons, ih, keys_set, List.map_cons, List.mem_cons]
      split
      · rename_i hmem
        constructor
        · rintro (h | h)
          · exact .inl h
          · exact .inr (.inr h)
        · rintro (h | rfl | h)
          · exact .inl h
          · exact .inl hmem
          · exact .inr h
      · rw [List.mem_append, List.mem_singleton, or_assoc]

theorem mem_keys_ofPairs {items : List (κ × ν)} {k : κ} :
    k ∈ (ofPairs items).map Prod.fst ↔ k ∈ items.map Prod.fst := by
  rw [ofPairs, mem_keys_foldl_set]
  simp

/-- Pairs with distinct keys are their own dictionary. -/
theorem ofPairs_eq_self {items : List (κ × ν)} (h : (items.map Prod.fst).Nodup) :
    ofPairs items = items :=
  foldl_set_append (d := []) h

theorem map_foldl_set {ν' : Type} (f : ν → ν') (items : List (κ × ν)) (d : Dict κ ν) :
    (items.foldl (fun d i => set d i.1 i.2) d).map (fun i => (i.1, f i.2)) =
      (items.map fun i => (i.1, f i.2)).foldl (fun d i => set d i.1 i.2)
        (d.map fun i => (i.1, f i.2)) := by
  induction items generalizing d with
  | nil => rfl
  | cons j items ih => rw [List.foldl_cons, ih, map_set]; rfl

/-- Mapping the values of a dictionary. -/
theorem map_ofPairs {ν' : Type} (f : ν → ν') (items : List (κ × ν)) :
    (ofPairs items).map (fun i => (i.1, f i.2)) = ofPairs (items.map fun i => (i.1, f i.2)) :=
  map_foldl_set f items []

theorem get?_map {ν' : Type} (f : ν → ν') (d : Dict κ ν) (k : κ) :
    get? (d.map fun i => (i.1, f i.2)) k = (get? d k).map f := by
  induction d with
  | nil => rfl
  | cons item d ih =>
      obtain ⟨k', v⟩ := item
      by_cases h : k' = k
      · simp [get?, h]
      · simp only [List.map_cons, get?, if_neg h, ih]

theorem mem_of_get? {d : Dict κ ν} {k : κ} {v : ν} (h : get? d k = some v) : (k, v) ∈ d := by
  induction d with
  | nil => cases h
  | cons item d ih =>
      obtain ⟨k', v'⟩ := item
      rw [get?] at h
      split at h
      · rename_i hk
        cases h
        exact hk ▸ List.mem_cons_self
      · exact List.mem_cons_of_mem _ (ih h)

theorem get?_eq_none {d : Dict κ ν} {k : κ} (h : k ∉ d.map Prod.fst) : get? d k = none := by
  cases hk : get? d k with
  | none => rfl
  | some v => exact absurd (List.mem_map_of_mem (mem_of_get? hk)) h

/-- Items that are bound one after the other are looked up first. -/
theorem get?_foldl_set {items : List (κ × ν)} (h : (items.map Prod.fst).Nodup) (d : Dict κ ν) (k : κ) :
    get? (items.foldl (fun d i => set d i.1 i.2) d) k = (get? items k).or (get? d k) := by
  induction items generalizing d with
  | nil => rfl
  | cons i items ih =>
      obtain ⟨k', v⟩ := i
      rw [List.map_cons, List.nodup_cons] at h
      rw [List.foldl_cons, ih h.2]
      by_cases hk : k' = k
      · subst hk
        rw [get?_eq_none h.1, get?_set_self, get?, if_pos rfl]
        rfl
      · rw [get?_set_of_ne d hk, get?, if_neg hk]

/-- When each key is there once, a key is looked up by its item. -/
theorem get?_eq_some_iff {d : Dict κ ν} (h : (d.map Prod.fst).Nodup) {k : κ} {v : ν} :
    get? d k = some v ↔ (k, v) ∈ d := by
  refine ⟨mem_of_get?, fun hmem => ?_⟩
  induction d with
  | nil => cases hmem
  | cons item d ih =>
      obtain ⟨k', v'⟩ := item
      rw [List.map_cons, List.nodup_cons] at h
      rcases List.mem_cons.1 hmem with heq | hmem
      · cases heq
        simp [get?]
      · have hne : k' ≠ k := by
          rintro rfl
          exact h.1 (List.mem_map.2 ⟨_, hmem, rfl⟩)
        rw [get?, if_neg hne]
        exact ih h.2 hmem

/-- The order of the items does not matter. -/
theorem get?_perm {d d' : Dict κ ν} (hp : d.Perm d') (h : (d.map Prod.fst).Nodup) (k : κ) :
    get? d k = get? d' k := by
  have h' : (d'.map Prod.fst).Nodup := (hp.map Prod.fst).nodup_iff.1 h
  apply Option.ext
  intro v
  rw [get?_eq_some_iff h, get?_eq_some_iff h', hp.mem_iff]

/-- The value of a key is the last one it was paired with. -/
theorem mem_ofPairs_iff {items : List (κ × ν)} {k : κ} {v : ν} :
    (k, v) ∈ ofPairs items ↔
      ∃ before after, items = before ++ (k, v) :: after ∧ ∀ i ∈ after, i.1 ≠ k := by
  rw [← get?_eq_some_iff (nodup_ofPairs items)]
  induction items using List.reverseRecOn with
  | nil =>
      constructor
      · rintro ⟨⟩
      · rintro ⟨before, after, h, -⟩
        simp at h
  | append_singleton items i ih =>
      have hset : ofPairs (items ++ [i]) = set (ofPairs items) i.1 i.2 := List.foldl_append ..
      obtain ⟨k', v'⟩ := i
      rw [hset]
      by_cases hk : k' = k
      · subst hk
        rw [get?_set_self]
        constructor
        · rintro ⟨⟩
          exact ⟨items, [], rfl, by simp⟩
        · rintro ⟨before, after, h, hlast⟩
          rcases List.eq_nil_or_concat after with rfl | ⟨after, j, rfl⟩
          · cases (List.append_inj' h rfl).2
            rfl
          · rw [List.concat_eq_append, ← List.cons_append, ← List.append_assoc] at h
            cases (List.append_inj' h rfl).2
            exact absurd rfl (hlast (k', v') (by simp))
      · rw [get?_set_of_ne _ hk, ih]
        constructor
        · rintro ⟨before, after, rfl, hlast⟩
          refine ⟨before, after ++ [(k', v')], by simp, fun i hi => ?_⟩
          rcases List.mem_append.1 hi with hi | hi
          · exact hlast i hi
          · rw [List.mem_singleton.1 hi]
            exact hk
        · rintro ⟨before, after, h, hlast⟩
          rcases List.eq_nil_or_concat after with rfl | ⟨after, j, rfl⟩
          · cases (List.append_inj' h rfl).2
            exact absurd rfl hk
          · rw [List.concat_eq_append, ← List.cons_append, ← List.append_assoc] at h
            exact ⟨before, after, (List.append_inj' h rfl).1, fun i hi => hlast i (by simp [hi])⟩

/-! ## Up to order -/

theorem remove_of_not_mem {d : Dict κ ν} {k : κ} (h : k ∉ d.map Prod.fst) : remove d k = d := by
  refine List.filter_eq_self.2 fun i hi => ?_
  have hne : i.1 ≠ k := fun he => h (he ▸ List.mem_map_of_mem hi)
  simpa using hne

/-- Up to order, setting a key puts its item before the other items. -/
theorem set_perm {d : Dict κ ν} (h : (d.map Prod.fst).Nodup) (k : κ) (v : ν) :
    (set d k v).Perm ((k, v) :: remove d k) := by
  induction d with
  | nil => exact .refl _
  | cons item d ih =>
      obtain ⟨k', v'⟩ := item
      rw [List.map_cons, List.nodup_cons] at h
      by_cases he : k' = k
      · subst he
        have hrest : remove ((k', v') :: d) k' = d := by
          rw [remove, List.filter_cons_of_neg (by simp)]
          exact remove_of_not_mem h.1
        rw [set, if_pos rfl, hrest]
      · have hrest : remove ((k', v') :: d) k = (k', v') :: remove d k :=
          List.filter_cons_of_pos (by simpa using he)
        rw [set, if_neg he, hrest]
        exact ((ih h.2).cons _).trans (.swap _ _ _)

/-- Setting a key to the value it has changes nothing. -/
theorem set_of_get? {d : Dict κ ν} {k : κ} {v : ν} (hv : get? d k = some v) : set d k v = d := by
  induction d with
  | nil => cases hv
  | cons item d ih =>
      obtain ⟨k', v'⟩ := item
      by_cases he : k' = k
      · rw [get?, if_pos he] at hv
        cases hv
        rw [set, if_pos he]
      · rw [get?, if_neg he] at hv
        rw [set, if_neg he, ih hv]

/-- Up to order, the item of a key comes before the other items. -/
theorem perm_cons_remove {d : Dict κ ν} (h : (d.map Prod.fst).Nodup) {k : κ} {v : ν}
    (hv : get? d k = some v) : d.Perm ((k, v) :: remove d k) := by
  have hset := set_perm h k v
  rwa [set_of_get? hv] at hset

theorem not_mem_keys_iff {d : Dict κ ν} {k : κ} : k ∉ d.map Prod.fst ↔ get? d k = none := by
  refine ⟨get?_eq_none, fun h hk => ?_⟩
  obtain ⟨v, hv⟩ := get?_of_mem_keys hk
  rw [hv] at h
  cases h

end Dict
