import ShugoCore.Mesh.Routing
import ShugoCore.Mobile.ComputeBroker
import ShugoCore.Security.Sanitised

/-!
# Pairing manifests

What `mobile_nodes.py` keeps of the manifest that a device is paired with.  `_sanitize_manifest` bounds
the manifest, and `_sanitize_caps_block` the block of it that says what the device can compute;
`_sanitize_compute_caps` then derives the capabilities from the bounded copy.  The three loops go
through the items in order and write each value under its sanitised key, so of the items whose keys
are sanitised to one name the last one counts.

A device is routed a workload if its kept manifest has the name of the workload in its capabilities.
That is so exactly if the device declares it (`nodeSupportsWorkload_pairedManifest`), whatever else
the manifest holds.
-/

namespace ShugoCore

open Py

variable {φ : Type} [Builtins φ]

/-! ## Bounding -/

/-- `0.0`. -/
def zeroFloat : PyVal φ := .float (FloatFormat.read ⟨false, [0], [0], none⟩)

/-- `x < q`. -/
def lessThan (q : ℚ) : PyFloat ℚ → Bool
  | .nan | .posInf => false
  | .negInf => true
  | .finite x => x < q

/-- `value if -1e15 < float(value) < 1e15 else 0.0`, for a number.  An integer that is rounded is too
large either way. -/
def boundedNumber (value : PyVal φ) : Except Exn (PyVal φ) := do
  let x ← floatOf value
  return if moreThan (-10 ^ 15) x && lessThan (10 ^ 15) x then value else zeroFloat

/-- `sanitize_text(str(v), n)` of a value. -/
def boundedText (n : Int) (v : PyVal φ) : PyVal φ := .str (sanitizeText (strOf v) n)

/-- `sanitize_text(str(key), 48)` of a key. -/
def keyName (key : Key φ) : Str := sanitizeText (strOf key.toVal) 48

/-- A loop over the items of a dictionary: each value is written under its sanitised key, and an item
with no key left is skipped. -/
def boundedItems (value : Str → PyVal φ → Except Exn (PyVal φ)) (items : Obj φ) : Except Exn (Obj φ) :=
  items.foldlM (fun out item =>
    if keyName item.1 = [] then .ok out
    else do
      let v ← value (keyName item.1) item.2
      return setKey (keyName item.1) v out) []

/-- What all three loops do with a value that they do not go into: a flag is kept, a number is bounded,
and the rest becomes text. -/
def boundedScalar : PyVal φ → Except Exn (PyVal φ)
  | .bool b => .ok (.bool b)
  | .int i => boundedNumber (.int i)
  | .float x => boundedNumber (.float x)
  | value => .ok (boundedText 256 value)

/-- A value of the capabilities. -/
def capsValue : PyVal φ → Except Exn (PyVal φ)
  | .list xs => .ok (.list ((xs.take 8).map (boundedText 64)))
  | value => boundedScalar value

/-- `_sanitize_caps_block`. -/
def sanitizeCapsBlock (caps : Obj φ) : Except Exn (Obj φ) :=
  boundedItems (fun _ => capsValue) (caps.take 16)

/-- A value of a manifest, under its name. -/
def manifestValue (name : Str) : PyVal φ → Except Exn (PyVal φ)
  | .list xs => .ok (.list ((xs.take 16).map (boundedText 256)))
  | .dict d =>
      if name = lit "compute_caps" then (sanitizeCapsBlock d).map .dict
      else (boundedItems (fun _ => boundedScalar) (d.take 16)).map .dict
  | value => boundedScalar value

/-- `_sanitize_manifest`. -/
def sanitizeManifest (manifest : Obj φ) : Except Exn (Obj φ) :=
  boundedItems manifestValue (manifest.take 32)

/-! ## Capabilities -/

/-- A flag of the capabilities, if it is one. -/
def flagOf (name : String) (caps : Obj φ) : Obj φ :=
  match fetch (lit name) caps with
  | .bool b => [(.str (lit name), .bool b)]
  | _ => []

/-- The memory of the device, if the number is sane. -/
def vramOf (caps : Obj φ) : Obj φ :=
  match numberOf (fetch (lit "vram_mb") caps) with
  | some (.finite q) => if 0 < q ∧ q < 10 ^ 6 then [(.str (lit "vram_mb"), .int ⌊q⌋)] else []
  | _ => []

/-- The known workloads among the first eight. -/
def knownAmong (workloads : List (PyVal φ)) : List Str :=
  ((workloads.take 8).map fun w => sanitizeText (strOf w) 32).filter (· ∈ knownWorkloads)

/-- The workloads, if any is known. -/
def workloadsOf (caps : Obj φ) : Obj φ :=
  match fetch (lit "workloads") caps with
  | .list workloads =>
      match knownAmong workloads with
      | [] => []
      | clean => [(.str (lit "workloads"), .list (clean.map .str))]
  | _ => []

/-- `_sanitize_compute_caps`. -/
def sanitizeComputeCaps (manifest : Obj φ) : Obj φ :=
  match fetch (lit "compute_caps") manifest with
  | .dict caps => flagOf "fp16" caps ++ flagOf "int8" caps ++ vramOf caps ++ workloadsOf caps
  | _ => []

/-- The manifest that `pair` keeps. -/
def pairedManifest (manifest : Obj φ) : Except Exn (Obj φ) := do
  let safe ← sanitizeManifest manifest
  return setKey (lit "compute_caps") (.dict (sanitizeComputeCaps safe)) safe

/-! ## What a device declares -/

/-- The value that counts for a name: that of the last of the first `n` items whose key is sanitised
to it. -/
def lastNamed (n : Nat) (name : String) (d : Obj φ) : Option (PyVal φ) :=
  ((d.take n).reverse.find? fun item => keyName item.1 = lit name).map Prod.snd

/-- A manifest declares a workload: one of the first eight workloads of the capabilities that count is
its name, up to control characters and to what comes behind the cut. -/
def Declares (manifest : Obj φ) (workload : Str) : Prop :=
  ∃ caps workloads, lastNamed 32 "compute_caps" manifest = some (.dict caps) ∧
    lastNamed 16 "workloads" caps = some (.list workloads) ∧
    ∃ w ∈ workloads.take 8, strip ((cleanedText (strOf w)).take 64) = workload

/-! ## The loop -/

/-- The body of the loop. -/
theorem boundedItems_concat (value : Str → PyVal φ → Except Exn (PyVal φ)) (items : Obj φ)
    (item : Key φ × PyVal φ) :
    boundedItems value (items ++ [item]) = do
      let out ← boundedItems value items
      if keyName item.1 = [] then .ok out
      else do
        let v ← value (keyName item.1) item.2
        return setKey (keyName item.1) v out := by
  rw [boundedItems, List.foldlM_append]
  simp only [List.foldlM_cons, List.foldlM_nil, bind_pure]
  rfl

/-- Under a name stands the value of the last item of that name. -/
theorem getKey_boundedItems {value : Str → PyVal φ → Except Exn (PyVal φ)} {items out : Obj φ}
    {name : Str} (hname : name ≠ []) (h : boundedItems value items = .ok out) :
    match items.reverse.find? (fun item => keyName item.1 = name) with
    | none => getKey name out = none
    | some item => ∃ v, value name item.2 = .ok v ∧ getKey name out = some v := by
  induction items using List.reverseRecOn generalizing out with
  | nil =>
      cases h
      rfl
  | append_singleton items item ih =>
      rw [boundedItems_concat] at h
      obtain ⟨before, hbefore, hitem⟩ := ok_of_bind h
      have ih := ih hbefore
      rw [List.reverse_concat, List.find?_cons]
      split at hitem
      · rename_i hempty
        cases hitem
        rw [decide_eq_false (by rw [hempty]; exact fun he => hname he.symm)]
        exact ih
      · obtain ⟨v, hv, hout⟩ := ok_of_bind hitem
        cases hout
        by_cases hsame : keyName item.1 = name
        · rw [decide_eq_true hsame]
          subst hsame
          exact ⟨v, hv, getKey_setKey_self _ _ _⟩
        · rw [decide_eq_false hsame]
          simp only [getKey_setKey_of_ne hsame]
          exact ih

/-- The same for the names of the code. -/
theorem getKey_boundedItems_take {value : Str → PyVal φ → Except Exn (PyVal φ)} {d out : Obj φ}
    {n : Nat} (name : String) (hname : lit name ≠ []) (h : boundedItems value (d.take n) = .ok out) :
    match lastNamed n name d with
    | none => getKey (lit name) out = none
    | some x => ∃ v, value (lit name) x = .ok v ∧ getKey (lit name) out = some v := by
  have hkey := getKey_boundedItems hname h
  rw [lastNamed]
  cases hfind : (d.take n).reverse.find? fun item => keyName item.1 = lit name with
  | none =>
      rw [hfind] at hkey
      exact hkey
  | some item =>
      rw [hfind] at hkey
      exact hkey

/-! ## The capabilities that are kept -/

/-- The value is no list and no dictionary. -/
def isFlat : PyVal φ → Bool
  | .list _ | .dict _ => false
  | _ => true

theorem boundedNumber_flat {v w : PyVal φ} (hv : isFlat v = true) (h : boundedNumber v = .ok w) :
    isFlat w = true := by
  rw [boundedNumber] at h
  obtain ⟨x, -, h⟩ := ok_of_bind h
  cases h
  split
  · exact hv
  · rfl

/-- A value that is not gone into stays one. -/
theorem boundedScalar_flat {v w : PyVal φ} (hv : isFlat v = true) (h : boundedScalar v = .ok w) :
    isFlat w = true := by
  cases v with
  | int i => exact boundedNumber_flat hv h
  | float x => exact boundedNumber_flat hv h
  | list xs => cases hv
  | dict d => cases hv
  | none | bool b | str s =>
      cases h
      rfl

theorem capsValue_of_flat {v : PyVal φ} (hv : isFlat v = true) : capsValue v = boundedScalar v := by
  cases v with
  | list xs => cases hv
  | none | bool b | int i | float x | str s | dict d => rfl

theorem manifestValue_of_flat (name : Str) {v : PyVal φ} (hv : isFlat v = true) :
    manifestValue name v = boundedScalar v := by
  cases v with
  | list xs => cases hv
  | dict d => cases hv
  | none | bool b | int i | float x | str s => rfl

theorem capsValue_list {x : PyVal φ} {kept : List (PyVal φ)} :
    capsValue x = .ok (.list kept) ↔
      ∃ xs, x = .list xs ∧ kept = (xs.take 8).map (boundedText 64) := by
  constructor
  · intro h
    cases hx : isFlat x with
    | true =>
        rw [capsValue_of_flat hx] at h
        cases boundedScalar_flat hx h
    | false =>
        cases x with
        | list xs =>
            cases h
            exact ⟨xs, rfl, rfl⟩
        | dict d => cases h
        | none | bool b | int i | float y | str s => cases hx
  · rintro ⟨xs, rfl, rfl⟩
    rfl

theorem manifestValue_caps {x : PyVal φ} {kept : Obj φ} :
    manifestValue (lit "compute_caps") x = .ok (.dict kept) ↔
      ∃ caps, x = .dict caps ∧ sanitizeCapsBlock caps = .ok kept := by
  constructor
  · intro h
    cases hx : isFlat x with
    | true =>
        rw [manifestValue_of_flat _ hx] at h
        cases boundedScalar_flat hx h
    | false =>
        cases x with
        | list xs => cases h
        | dict d =>
            rw [manifestValue, if_pos rfl] at h
            cases hcaps : sanitizeCapsBlock d with
            | error e =>
                rw [hcaps] at h
                cases h
            | ok out =>
                rw [hcaps] at h
                cases h
                exact ⟨d, rfl, hcaps⟩
        | none | bool b | int i | float y | str s => cases hx
  · rintro ⟨caps, rfl, hcaps⟩
    rw [manifestValue, if_pos rfl, hcaps]
    rfl

/-- What is found under a name of a bounded dictionary is the copy of the value that counts. -/
theorem fetch_boundedItems {value : Str → PyVal φ → Except Exn (PyVal φ)} {d out : Obj φ} {n : Nat}
    {name : String} {w : PyVal φ} (hname : lit name ≠ []) (hw : w ≠ .none)
    (h : boundedItems value (d.take n) = .ok out) :
    fetch (lit name) out = w ↔ ∃ x, lastNamed n name d = some x ∧ value (lit name) x = .ok w := by
  have hkey := getKey_boundedItems_take name hname h
  rw [fetch]
  cases hlast : lastNamed n name d with
  | none =>
      rw [hlast] at hkey
      rw [hkey]
      simp [Ne.symm hw]
  | some x =>
      rw [hlast] at hkey
      obtain ⟨v, hv, hget⟩ := hkey
      rw [hget, Option.getD_some]
      constructor
      · rintro rfl
        exact ⟨x, rfl, hv⟩
      · rintro ⟨y, hy, hvalue⟩
        cases hy
        rw [hv] at hvalue
        exact Except.ok.inj hvalue

/-- The kept capabilities are a dictionary if those that count are one. -/
theorem fetch_compute_caps {manifest safe kept : Obj φ} (h : sanitizeManifest manifest = .ok safe) :
    fetch (lit "compute_caps") safe = .dict kept ↔
      ∃ caps, lastNamed 32 "compute_caps" manifest = some (.dict caps) ∧
        sanitizeCapsBlock caps = .ok kept := by
  rw [fetch_boundedItems (by decide) (by simp) h]
  simp only [manifestValue_caps]
  constructor
  · rintro ⟨x, hx, caps, rfl, hcaps⟩
    exact ⟨caps, hx, hcaps⟩
  · rintro ⟨caps, hx, hcaps⟩
    exact ⟨_, hx, caps, rfl, hcaps⟩

/-- A manifest is not bounded without its capabilities. -/
theorem sanitizeCapsBlock_ok {manifest safe caps : Obj φ} (h : sanitizeManifest manifest = .ok safe)
    (hcaps : lastNamed 32 "compute_caps" manifest = some (.dict caps)) :
    ∃ kept, sanitizeCapsBlock caps = .ok kept := by
  have hkey := getKey_boundedItems_take "compute_caps" (by decide) h
  rw [hcaps] at hkey
  obtain ⟨v, hv, -⟩ := hkey
  rw [manifestValue, if_pos rfl] at hv
  cases hblock : sanitizeCapsBlock caps with
  | error e =>
      rw [hblock] at hv
      cases hv
  | ok kept => exact ⟨kept, rfl⟩

/-- The kept workloads are a list if those that count are one. -/
theorem fetch_workloads {caps out : Obj φ} {kept : List (PyVal φ)}
    (h : sanitizeCapsBlock caps = .ok out) :
    fetch (lit "workloads") out = .list kept ↔
      ∃ xs, lastNamed 16 "workloads" caps = some (.list xs) ∧
        kept = (xs.take 8).map (boundedText 64) := by
  rw [fetch_boundedItems (by decide) (by simp) h]
  simp only [capsValue_list]
  constructor
  · rintro ⟨x, hx, xs, rfl, hkept⟩
    exact ⟨xs, hx, hkept⟩
  · rintro ⟨xs, hx, hkept⟩
    exact ⟨_, hx, xs, rfl, hkept⟩

/-! ## Names under two bounds -/

theorem length_knownWorkload {name : Str} (h : name ∈ knownWorkloads) : name.length < 32 := by
  rcases List.mem_cons.1 h with rfl | h
  · decide
  · rw [List.mem_singleton.1 h]
    decide

/-- A short name is found behind both bounds if it stands before the first. -/
theorem sanitizeText_bounds {text name : Str} (h : name.length < 32) :
    sanitizeText (sanitizeText text 64) 32 = name ↔ strip ((cleanedText text).take 64) = name := by
  have hfirst : sanitizeText text 64 = (cleanedText text).take 64 := sanitizeText_eq text 64
  have htidy : Tidy (sanitizeText text 64) := by
    rw [hfirst]
    exact (tidy_cleanedText text).of_isInfix (List.take_prefix _ _).isInfix
  rw [sanitizeText_eq, cleanedText_of_tidy htidy, hfirst]
  generalize strip ((cleanedText text).take 64) = found
  constructor
  · rintro rfl
    rw [List.length_take] at h
    exact (List.take_of_length_le (by omega)).symm
  · rintro rfl
    exact List.take_of_length_le (by omega)

theorem sanitizeText_knownWorkload {name : Str} (h : name ∈ knownWorkloads) :
    sanitizeText name 32 = name := by
  rcases List.mem_cons.1 h with rfl | h
  · decide
  · rw [List.mem_singleton.1 h]
    decide

/-! ## What is kept and what is declared -/

omit [Builtins φ] in
theorem getKey_append {k : Str} {d : Obj φ} (h : getKey k d = none) (e : Obj φ) :
    getKey k (d ++ e) = getKey k e := by
  induction d with
  | nil => rfl
  | cons i d ih =>
      obtain ⟨key, x⟩ := i
      cases key with
      | str k' =>
          rw [getKey] at h
          split at h
          · cases h
          · rename_i hne
            rw [List.cons_append, getKey, if_neg hne]
            exact ih h
      | none | bool _ | int _ | float _ => exact ih h

omit [Builtins φ] in
theorem getKey_flagOf {name : String} (h : name ≠ "workloads") (caps : Obj φ) :
    getKey (lit "workloads") (flagOf name caps) = none := by
  rw [flagOf]
  split
  · rw [getKey, if_neg fun he => h (lit_inj.1 he)]
    rfl
  · rfl

theorem getKey_vramOf (caps : Obj φ) : getKey (lit "workloads") (vramOf caps) = none := by
  rw [vramOf]
  split
  · split
    · rw [getKey, if_neg fun he => absurd (lit_inj.1 he) (by decide)]
      rfl
    · rfl
  · rfl

/-- The value is a list with a name in it. -/
def listsName (name : Str) : PyVal φ → Bool
  | .list workloads => workloads.any fun w =>
      match w with
      | .str s => s = name
      | _ => false
  | _ => false

omit [Builtins φ] in
theorem listsName_names {names : List Str} {name : Str} :
    listsName name (.list (names.map PyVal.str) : PyVal φ) = true ↔ name ∈ names := by
  rw [listsName, List.any_map, List.any_eq_true]
  constructor
  · rintro ⟨s, hs, heq⟩
    exact of_decide_eq_true heq ▸ hs
  · intro h
    exact ⟨name, h, decide_eq_true rfl⟩

omit [Builtins φ] in
theorem nodeSupportsWorkload_eq (manifest : Obj φ) (workload : Str) :
    nodeSupportsWorkload manifest workload =
      match fetch (lit "compute_caps") manifest with
      | .dict caps => listsName (sanitizeText workload 32) (fetch (lit "workloads") caps)
      | _ => false := rfl

/-- The workloads that are kept of the capabilities. -/
theorem listsName_workloadsOf (caps : Obj φ) (name : Str) :
    listsName name (fetch (lit "workloads") (workloadsOf caps)) = true ↔
      ∃ workloads, fetch (lit "workloads") caps = .list workloads ∧ name ∈ knownAmong workloads := by
  rw [workloadsOf]
  cases hlist : fetch (lit "workloads") caps with
  | list workloads =>
      simp only [PyVal.list.injEq, exists_eq_left']
      split
      · rename_i hnone
        rw [hnone]
        simp [fetch, getKey, listsName]
      · rw [fetch, getKey, if_pos rfl, Option.getD_some, listsName_names]
  | none | bool _ | int _ | float _ | str _ | dict _ => simp [fetch, getKey, listsName]

theorem fetch_sanitizeComputeCaps {safe caps : Obj φ}
    (h : fetch (lit "compute_caps") safe = .dict caps) :
    fetch (lit "workloads") (sanitizeComputeCaps safe) = fetch (lit "workloads") (workloadsOf caps) := by
  rw [sanitizeComputeCaps, h]
  simp only [fetch]
  rw [List.append_assoc, List.append_assoc, getKey_append (getKey_flagOf (by decide) caps),
    getKey_append (getKey_flagOf (by decide) caps), getKey_append (getKey_vramOf caps)]

/-- What a kept manifest supports are the known names among the kept workloads. -/
theorem nodeSupportsWorkload_iff {safe : Obj φ} {name : Str} (hname : name ∈ knownWorkloads) :
    nodeSupportsWorkload (setKey (lit "compute_caps") (.dict (sanitizeComputeCaps safe)) safe) name =
        true ↔
      ∃ caps workloads, fetch (lit "compute_caps") safe = .dict caps ∧
        fetch (lit "workloads") caps = .list workloads ∧ name ∈ knownAmong workloads := by
  have hcaps : fetch (lit "compute_caps")
      (setKey (lit "compute_caps") (.dict (sanitizeComputeCaps safe)) safe) =
        .dict (sanitizeComputeCaps safe) := by
    rw [fetch, getKey_setKey_self, Option.getD_some]
  rw [nodeSupportsWorkload_eq, hcaps, sanitizeText_knownWorkload hname]
  simp only
  cases hfetch : fetch (lit "compute_caps") safe with
  | dict caps =>
      rw [fetch_sanitizeComputeCaps hfetch, listsName_workloadsOf]
      simp only [PyVal.dict.injEq, exists_and_left, exists_eq_left']
  | none | bool _ | int _ | float _ | str _ | list _ =>
      have hnone : sanitizeComputeCaps safe = [] := by rw [sanitizeComputeCaps, hfetch]
      rw [hnone]
      constructor
      · intro h
        cases h
      · rintro ⟨caps, workloads, h, -⟩
        cases h

theorem mem_knownAmong {workloads : List (PyVal φ)} {name : Str} (hname : name ∈ knownWorkloads) :
    name ∈ knownAmong ((workloads.take 8).map (boundedText 64)) ↔
      ∃ w ∈ workloads.take 8, strip ((cleanedText (strOf w)).take 64) = name := by
  have hshort := length_knownWorkload hname
  have hall : (((workloads.take 8).map (boundedText 64 : PyVal φ → PyVal φ)).take 8) =
      (workloads.take 8).map (boundedText 64) :=
    List.take_of_length_le (by simp)
  rw [knownAmong, hall, List.mem_filter]
  simp only [hname, decide_true, and_true, List.map_map, List.mem_map, Function.comp_apply,
    boundedText, strOf]
  constructor
  · rintro ⟨w, hw, heq⟩
    exact ⟨w, hw, (sanitizeText_bounds hshort).1 heq⟩
  · rintro ⟨w, hw, heq⟩
    exact ⟨w, hw, (sanitizeText_bounds hshort).2 heq⟩

/-- A kept manifest supports a known workload exactly if the manifest declares it. -/
theorem nodeSupportsWorkload_pairedManifest {manifest safe : Obj φ} {name : Str}
    (h : pairedManifest manifest = .ok safe) (hname : name ∈ knownWorkloads) :
    nodeSupportsWorkload safe name = true ↔ Declares manifest name := by
  rw [pairedManifest] at h
  obtain ⟨bounded, hbounded, hsafe⟩ := ok_of_bind h
  cases hsafe
  rw [nodeSupportsWorkload_iff hname]
  constructor
  · rintro ⟨kept, workloads, hkept, hworkloads, hmem⟩
    obtain ⟨caps, hcaps, hblock⟩ := (fetch_compute_caps hbounded).1 hkept
    obtain ⟨xs, hxs, rfl⟩ := (fetch_workloads hblock).1 hworkloads
    exact ⟨caps, xs, hcaps, hxs, (mem_knownAmong hname).1 hmem⟩
  · rintro ⟨caps, xs, hcaps, hxs, hw⟩
    obtain ⟨kept, hblock⟩ := sanitizeCapsBlock_ok hbounded hcaps
    exact ⟨kept, _, (fetch_compute_caps hbounded).2 ⟨caps, hcaps, hblock⟩,
      (fetch_workloads hblock).2 ⟨xs, hxs, rfl⟩, (mem_knownAmong hname).2 hw⟩

end ShugoCore
