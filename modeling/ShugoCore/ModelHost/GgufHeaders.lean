import ShugoCore.ModelHost.GgufWalk

/-!
# What is reported of a GGUF header

What `read_metadata` returns for a header that it walks through in step: the architecture, and the
wanted values behind it.  Of an array nothing is kept and the key is reported all the same, and a
float of eight bytes is reported as the number in its bytes.  So what is reported is what the file
stores if and only if no such value stands under a wanted key (`read_correctly_iff`).

Where an array has an array in it, the reader is out of step behind it, and may report what the file
does not store at all (`misread_headers`).
-/

namespace ShugoCore.Gguf

open Py

/-- The key of the file that a key of the report stands for. -/
def fileKey (arch k : Str) : Str := if k = lit "architecture" then archKey else arch ++ 46 :: k

/-- Every key of a report has the value that the file stores under it. -/
def Header.Faithful (h : Header) (report : Dict Str (Option Scalar)) : Prop :=
  ∀ item ∈ report, ∃ arch x, (lit "architecture", some (.text arch)) ∈ report ∧
    item.2 = some x ∧ h.Stores (fileKey arch item.1) x

/-- A value that is kept as it is stored: no array, no float of eight bytes and no long text. -/
def Value.kept : {k : Kind} → Value k → Bool
  | _, .string t => t.size ≤ maxText
  | _, .array _ _ => false
  | _, .float64 _ => false
  | _, _ => true

theorem kept_iff {k : Kind} (v : Value k) :
    v.kept = true ↔ ∃ x, v.read = some x ∧ v.datum = .scalar x := by
  cases v with
  | string t =>
      rw [Value.kept, decide_eq_true_eq, Value.read]
      split
      · rename_i hshort
        exact ⟨fun _ => ⟨_, rfl, rfl⟩, fun _ => hshort⟩
      · rename_i hlong
        refine ⟨fun h => absurd h hlong, ?_⟩
        rintro ⟨x, ⟨⟩, -⟩
  | array items hn =>
      refine ⟨fun h => absurd h (by simp [Value.kept]), ?_⟩
      rintro ⟨x, ⟨⟩, -⟩
  | float64 bits =>
      refine ⟨fun h => absurd h (by simp [Value.kept]), ?_⟩
      rintro ⟨x, hread, hdatum⟩
      cases hread
      cases hdatum
  | _ => exact ⟨fun _ => ⟨_, rfl, rfl⟩, fun _ => rfl⟩

/-! ## Names -/

/-- What stands behind the first dot of a name, from what stands behind the architecture. -/
theorem afterDot_append (arch r : Str) :
    afterDot (arch ++ 46 :: r) = afterDot (arch ++ [46]) ++ r := by
  induction arch with
  | nil => rfl
  | cons c arch ih =>
      by_cases hc : c = 46
      · subst hc
        simp [afterDot]
      · have hskip : ∀ s, afterDot (c :: s) = afterDot s := by
          intro s
          rw [afterDot, List.dropWhile_cons_of_pos (by simpa using hc), afterDot]
        rw [List.cons_append, List.cons_append, hskip, hskip, ih]

/-- An architecture without a dot is what stands in front of the first dot. -/
theorem afterDot_plain {arch : Str} (h : 46 ∉ arch) : afterDot (arch ++ [46]) = [] := by
  induction arch with
  | nil => rfl
  | cons c arch ih =>
      rw [List.mem_cons, not_or] at h
      rw [List.cons_append, afterDot, List.dropWhile_cons_of_pos (by simpa using Ne.symm h.1)]
      exact ih h.2

theorem wanted_iff {arch name : Str} :
    wanted arch name = true ↔
      arch ≠ [] ∧ (∃ r, name = arch ++ 46 :: r) ∧ afterDot name ∈ wantedSuffixes := by
  simp only [wanted, Bool.and_eq_true, decide_eq_true_eq, List.isPrefixOf_iff_prefix, and_assoc]
  refine and_congr_right fun _ => and_congr_left fun _ => ?_
  constructor
  · rintro ⟨r, rfl⟩
    exact ⟨r, by simp⟩
  · rintro ⟨r, rfl⟩
    exact ⟨r, by simp⟩

/-- What is wanted tells the name. -/
theorem wanted_inj {arch name name' : Str} (h : wanted arch name = true)
    (h' : wanted arch name' = true) (heq : afterDot name = afterDot name') : name = name' := by
  obtain ⟨-, ⟨r, rfl⟩, -⟩ := wanted_iff.1 h
  obtain ⟨-, ⟨r', rfl⟩, -⟩ := wanted_iff.1 h'
  rw [afterDot_append, afterDot_append arch r', List.append_cancel_left_eq] at heq
  rw [heq]

/-- Behind an architecture without a dot stands what is wanted. -/
theorem wanted_plain {arch name : Str} (h : wanted arch name = true) (hdot : 46 ∉ arch) :
    arch ++ 46 :: afterDot name = name := by
  obtain ⟨-, ⟨r, rfl⟩, -⟩ := wanted_iff.1 h
  rw [afterDot_append, afterDot_plain hdot, List.nil_append]

/-- The architecture is reported under a key that nothing else has. -/
theorem wanted_ne_architecture {arch name : Str} (h : wanted arch name = true) :
    afterDot name ≠ lit "architecture" := by
  have hmem := (wanted_iff.1 h).2.2
  rintro heq
  rw [heq] at hmem
  simp [wantedSuffixes] at hmem

theorem wanted_nil (name : Str) : wanted [] name = false := rfl

/-! ## Pairs of a header -/

variable {h : Header}

/-- Keys are distinct, so a key has one pair. -/
theorem Header.pair_eq (h : Header) {p q : Pair} (hp : p ∈ h.pairs) (hq : q ∈ h.pairs)
    (heq : p.key.text = q.key.text) : p = q :=
  List.inj_on_of_nodup_map h.keys_nodup hp hq heq

theorem Header.stores_iff (h : Header) {p : Pair} (hp : p ∈ h.pairs) {x : Scalar} :
    h.Stores p.key.text x ↔ p.value.datum = .scalar x := by
  constructor
  · rintro ⟨q, hq, hkey, hdatum⟩
    obtain rfl := h.pair_eq hq hp hkey
    exact hdatum
  · intro hdatum
    exact ⟨p, hp, rfl, hdatum⟩

/-- The wanted values of some pairs. -/
def wantedValues (arch : Str) (ps : List Pair) : Dict Str (Option Scalar) :=
  (ps.filter fun p => wanted arch p.key.text).map fun p => (afterDot p.key.text, p.value.read)

theorem wantedValues_nil (ps : List Pair) : wantedValues [] ps = [] := by
  rw [wantedValues, List.filter_eq_nil_iff.2 (by simp [wanted_nil])]
  rfl

/-- Distinct pairs have distinct wanted keys. -/
theorem nodup_wantedValues (arch : Str) {ps : List Pair}
    (hnodup : (ps.map fun p => p.key.text).Nodup) :
    ((wantedValues arch ps).map Prod.fst).Nodup := by
  rw [wantedValues, List.map_map]
  refine List.Nodup.map_on ?_ (hnodup.of_map.filter _)
  intro p hp q hq heq
  obtain ⟨hp, hwp⟩ := List.mem_filter.1 hp
  obtain ⟨hq, hwq⟩ := List.mem_filter.1 hq
  exact List.inj_on_of_nodup_map hnodup hp hq (wanted_inj hwp hwq heq)

theorem mem_wantedValues {arch : Str} {ps : List Pair} {item : Str × Option Scalar} :
    item ∈ wantedValues arch ps ↔
      ∃ p ∈ ps, wanted arch p.key.text = true ∧ (afterDot p.key.text, p.value.read) = item := by
  simp [wantedValues, and_assoc]

/-- What is kept of a pair is what the file stores.  Where the architecture has a dot, the key of the
report may stand for another key. -/
def Header.Told (h : Header) (arch : Str) (p : Pair) : Prop :=
  if 46 ∈ arch then
    ∃ x, p.value.read = some x ∧ h.Stores (arch ++ 46 :: afterDot p.key.text) x
  else p.value.kept = true

/-- What is kept of a wanted pair is what the file stores under its key. -/
theorem told_iff {arch : Str} {p : Pair} (hmem : p ∈ h.pairs) (hw : wanted arch p.key.text = true) :
    h.Told arch p ↔
      ∃ x, p.value.read = some x ∧ h.Stores (fileKey arch (afterDot p.key.text)) x := by
  rw [Header.Told, fileKey, if_neg (wanted_ne_architecture hw)]
  split
  · exact Iff.rfl
  · rename_i hdot
    rw [wanted_plain hw hdot, kept_iff]
    simp only [h.stores_iff hmem]

/-- A report that names one architecture has the values of its keys. -/
theorem Header.Faithful.stores {report : Dict Str (Option Scalar)} (hf : h.Faithful report)
    (hnodup : (report.map Prod.fst).Nodup) {arch k : Str} {x : Scalar}
    (harch : (lit "architecture", some (.text arch)) ∈ report) (hk : (k, some x) ∈ report) :
    h.Stores (fileKey arch k) x := by
  obtain ⟨arch', x', harch', hx, hstores⟩ := hf _ hk
  rw [← Dict.get?_eq_some_iff hnodup] at harch harch'
  cases harch.symm.trans harch'
  cases hx
  exact hstores

/-! ## What the scan keeps -/

section

variable [FloatWriter]

theorem reached_prefix (maxBytes : Int) (ps : List Pair) (s : Scan) :
    reached maxBytes ps s <+: ps := by
  induction ps generalizing s with
  | nil => exact List.prefix_rfl
  | cons p ps ih =>
      rw [reached]
      split_ifs
      · exact List.nil_prefix
      · exact ⟨ps, rfl⟩
      · exact (List.prefix_cons_inj p).2 (ih _)

/-- The scan before the first pair. -/
def start : Scan := ⟨[], [], 0⟩

/-- The pairs of a header whose values are read. -/
def Header.read (h : Header) (maxBytes maxPairs : Int) : List Pair :=
  if h.pairs = [] ∨ maxPairs < h.pairs.length then [] else reached maxBytes h.pairs start

/-- The header is not looked at, or walked through in step. -/
def Header.InStep (h : Header) (maxBytes maxPairs : Int) : Prop :=
  maxPairs < h.pairs.length ∨ Gguf.InStep maxBytes h.pairs start

theorem Header.read_prefix (h : Header) (maxBytes maxPairs : Int) :
    h.read maxBytes maxPairs <+: h.pairs := by
  rw [Header.read]
  split
  · exact List.nil_prefix
  · exact reached_prefix maxBytes h.pairs start

/-- What is returned for a header is what the scan over its pairs keeps. -/
theorem readMetadata_encode {maxBytes maxPairs : Int} (hstep : h.InStep maxBytes maxPairs)
    (tail : List Nat) :
    readMetadata maxBytes maxPairs (some (h.encode ++ tail)) =
      ((h.read maxBytes maxPairs).foldl Scan.take start).report := by
  have hversion : h.version < 2 ^ 32 := by
    rcases h.version_known with hv | hv <;> rw [hv] <;> decide
  rw [readMetadata, parse, Header.encode]
  simp only [List.append_assoc]
  rw [bind_read (show magic.length = 4 from rfl), if_neg (by simp),
    bind_read (length_toBytes 4 h.version), u32_toBytes hversion,
    if_neg (by rcases h.version_known with hv | hv <;> simp [hv]),
    bind_read (length_toBytes 8 h.tensorCount), bind_read (length_toBytes 8 h.pairs.length),
    u64_toBytes h.count_lt, Header.read]
  by_cases hcount : h.pairs = [] ∨ maxPairs < h.pairs.length
  · rw [if_pos hcount, if_pos (by simpa using hcount)]
    rfl
  · rw [if_neg hcount, if_neg (by simpa using hcount)]
    rw [not_or] at hcount
    exact scan_encode maxBytes (hstep.resolve_left hcount.2) tail

/-- Behind the architecture the wanted values are kept. -/
theorem foldl_take {ps : List Pair} (hkeys : ∀ p ∈ ps, p.key.text ≠ archKey) (s : Scan) :
    (ps.foldl Scan.take s).arch = s.arch ∧
      (ps.foldl Scan.take s).out =
        (wantedValues s.arch ps).foldl (fun d i => Dict.set d i.1 i.2) s.out := by
  induction ps generalizing s with
  | nil => exact ⟨rfl, rfl⟩
  | cons p ps ih =>
      have hp : p.key.text ≠ archKey := hkeys p List.mem_cons_self
      obtain ⟨harch, hout⟩ := ih (fun q hq => hkeys q (List.mem_cons_of_mem p hq)) (s.take p)
      have htake : (s.take p).arch = s.arch ∧ (s.take p).out =
          if wanted s.arch p.key.text then Dict.set s.out (afterDot p.key.text) p.value.read
          else s.out := by
        rw [Scan.take, note_consume, note_consume, Scan.note, if_neg hp]
        split <;> exact ⟨rfl, rfl⟩
      rw [List.foldl_cons, harch, hout, htake.1, htake.2]
      refine ⟨rfl, ?_⟩
      cases hw : wanted s.arch p.key.text with
      | true =>
          have hcons : wantedValues s.arch (p :: ps) =
              (afterDot p.key.text, p.value.read) :: wantedValues s.arch ps := by
            rw [wantedValues, List.filter_cons_of_pos (by simpa using hw)]
            rfl
          rw [hcons, List.foldl_cons]
          rfl
      | false =>
          have hcons : wantedValues s.arch (p :: ps) = wantedValues s.arch ps := by
            rw [wantedValues, List.filter_cons_of_neg (by simp [hw])]
            rfl
          rw [hcons]
          rfl

/-- Without the architecture nothing is reported. -/
theorem report_none {ps : List Pair} (hkeys : ∀ p ∈ ps, p.key.text ≠ archKey) :
    (ps.foldl Scan.take start).report = [] := by
  obtain ⟨harch, hout⟩ := foldl_take hkeys start
  have hstart : start.arch = [] := rfl
  rw [hstart] at harch hout
  rw [Scan.report, if_neg (by simp [harch]), hout, wantedValues_nil]
  rfl

/-- With the architecture, it is reported with the wanted values behind it. -/
theorem report_split {before after : List Pair} {a : Pair} (ha : a.key.text = archKey)
    (hnodup : ((before ++ a :: after).map fun p => p.key.text).Nodup) :
    ((before ++ a :: after).foldl Scan.take start).report =
      if textOf a.value.read = [] then []
      else
        wantedValues (textOf a.value.read) after ++
          [(lit "architecture", some (.text (textOf a.value.read)))] := by
  rw [List.map_append, List.map_cons, List.nodup_append] at hnodup
  obtain ⟨-, hafter, hdisjoint⟩ := hnodup
  rw [List.nodup_cons] at hafter
  have hbefore : ∀ p ∈ before, p.key.text ≠ archKey := by
    intro p hp heq
    exact hdisjoint _ (List.mem_map_of_mem hp) _ List.mem_cons_self (heq.trans ha.symm)
  have hbehind : ∀ p ∈ after, p.key.text ≠ archKey := by
    intro p hp heq
    exact hafter.1 (List.mem_map.2 ⟨p, hp, heq.trans ha.symm⟩)
  obtain ⟨-, hempty⟩ := foldl_take hbefore start
  have hstart : (before.foldl Scan.take start).out = [] := by
    rw [hempty, show start.arch = [] from rfl, wantedValues_nil]
    rfl
  have htake : ((before.foldl Scan.take start).take a).arch = textOf a.value.read ∧
      ((before.foldl Scan.take start).take a).out = [] := by
    rw [Scan.take, note_consume, note_consume, Scan.note, if_pos ha]
    exact ⟨rfl, hstart⟩
  obtain ⟨harch, hout⟩ := foldl_take hbehind ((before.foldl Scan.take start).take a)
  rw [htake.1] at harch hout
  rw [htake.2] at hout
  have hvalues : (wantedValues (textOf a.value.read) after).foldl
      (fun d i => Dict.set d i.1 i.2) [] = wantedValues (textOf a.value.read) after :=
    Dict.foldl_set_append (d := []) (nodup_wantedValues _ hafter.2)
  have hlast : lit "architecture" ∉ (wantedValues (textOf a.value.read) after).map Prod.fst := by
    intro hmem
    obtain ⟨item, hitem, heq⟩ := List.mem_map.1 hmem
    obtain ⟨p, -, hw, rfl⟩ := mem_wantedValues.1 hitem
    exact wanted_ne_architecture hw heq
  rw [List.foldl_append, List.foldl_cons, Scan.report, harch, hout, hvalues]
  by_cases hnil : textOf a.value.read = []
  · rw [if_neg (not_not.2 hnil), if_pos hnil, hnil, wantedValues_nil]
  · rw [if_pos hnil, if_neg hnil, Dict.set_of_not_mem hlast]

/-- The architecture is a text, or falsy, and what is kept of the wanted values is what the file
stores. -/
def Header.Readable (h : Header) (maxBytes maxPairs : Int) : Prop :=
  ∀ before a after, h.read maxBytes maxPairs = before ++ a :: after → a.key.text = archKey →
    (textOf a.value.read = [] ∨ a.kind = .string) ∧
    ∀ p ∈ after, wanted (textOf a.value.read) p.key.text = true →
      h.Told (textOf a.value.read) p

/-! ## Faithful reports -/

/-- The architecture is reported as it is stored if it is a text. -/
theorem stores_arch_iff {a : Pair} (hmem : a ∈ h.pairs) (ha : a.key.text = archKey)
    (hne : textOf a.value.read ≠ []) :
    h.Stores archKey (.text (textOf a.value.read)) ↔ a.kind = .string := by
  rw [← ha, h.stores_iff hmem]
  obtain ⟨key, kind, value⟩ := a
  cases value with
  | string t =>
      refine ⟨fun _ => rfl, fun _ => ?_⟩
      dsimp only at hne ⊢
      rw [Value.read] at hne ⊢
      split at hne
      · rename_i hshort
        rw [if_pos hshort]
        rfl
      · exact absurd rfl hne
  | _ =>
      constructor
      · intro hdatum
        cases hdatum
      · intro hkind
        cases hkind

/-- The report of a header whose architecture is read. -/
theorem faithful_split_iff {before after : List Pair} {a : Pair}
    (hsub : ∀ p ∈ before ++ a :: after, p ∈ h.pairs) (ha : a.key.text = archKey)
    (hne : textOf a.value.read ≠ []) :
    h.Faithful (wantedValues (textOf a.value.read) after ++
        [(lit "architecture", some (.text (textOf a.value.read)))]) ↔
      a.kind = .string ∧ ∀ p ∈ after, wanted (textOf a.value.read) p.key.text = true →
        h.Told (textOf a.value.read) p := by
  have hmem : a ∈ h.pairs := hsub a (by simp)
  have hlast : ∀ arch, (lit "architecture", some (.text arch)) ∈
      wantedValues (textOf a.value.read) after ++
        [(lit "architecture", some (.text (textOf a.value.read)))] ↔
      arch = textOf a.value.read := by
    intro arch
    rw [List.mem_append, List.mem_singleton]
    constructor
    · rintro (hvalue | heq)
      · obtain ⟨p, -, hw, heq⟩ := mem_wantedValues.1 hvalue
        exact absurd (congrArg Prod.fst heq) (wanted_ne_architecture hw)
      · cases heq
        rfl
    · rintro rfl
      exact .inr rfl
  constructor
  · intro hfaithful
    constructor
    · obtain ⟨arch, x, -, hx, hstores⟩ := hfaithful _ ((hlast _).2 rfl)
      cases hx
      rw [fileKey, if_pos rfl] at hstores
      exact (stores_arch_iff hmem ha hne).1 hstores
    · intro p hp hw
      obtain ⟨arch, x, harch, hx, hstores⟩ := hfaithful (afterDot p.key.text, p.value.read)
        (List.mem_append_left _ (mem_wantedValues.2 ⟨p, hp, hw, rfl⟩))
      cases (hlast arch).1 harch
      exact (told_iff (hsub p (by simp [hp])) hw).2 ⟨x, hx, hstores⟩
  · rintro ⟨hkind, htold⟩ item hitem
    rcases List.mem_append.1 hitem with hvalue | harch
    · obtain ⟨p, hp, hw, rfl⟩ := mem_wantedValues.1 hvalue
      obtain ⟨x, hx, hstores⟩ := (told_iff (hsub p (by simp [hp])) hw).1 (htold p hp hw)
      exact ⟨_, x, (hlast _).2 rfl, hx, hstores⟩
    · rw [List.mem_singleton.1 harch]
      refine ⟨_, _, (hlast _).2 rfl, rfl, ?_⟩
      rw [fileKey, if_pos rfl]
      exact (stores_arch_iff hmem ha hne).2 hkind

/-- A file that begins with a header is read to its end and not behind it.  If the header is walked
through in step, every value that is reported is the one that the file stores if and only if the
architecture is a text, or falsy, and no array, float of eight bytes or long text is read under a
wanted key. -/
theorem read_correctly_iff (h : Header) {maxBytes maxPairs : Int}
    (hstep : h.InStep maxBytes maxPairs) (tail : List Nat) :
    ReadsOn (parse maxBytes maxPairs) ∧
      (h.Faithful (readMetadata maxBytes maxPairs (some (h.encode ++ tail))) ↔
        h.Readable maxBytes maxPairs) := by
  refine ⟨parse_readsOn maxBytes maxPairs, ?_⟩
  have hsub : ∀ p ∈ h.read maxBytes maxPairs, p ∈ h.pairs :=
    fun p hp => (h.read_prefix maxBytes maxPairs).subset hp
  have hnodup : ((h.read maxBytes maxPairs).map fun p => p.key.text).Nodup :=
    h.keys_nodup.sublist ((h.read_prefix maxBytes maxPairs).sublist.map _)
  have hnil : h.Faithful [] := fun item hitem => absurd hitem List.not_mem_nil
  rw [readMetadata_encode hstep]
  constructor
  · intro hfaithful before a after heq ha
    rw [heq] at hfaithful hsub hnodup
    rw [report_split ha hnodup] at hfaithful
    split at hfaithful
    · rename_i hfalsy
      refine ⟨.inl hfalsy, fun p _ hw => ?_⟩
      rw [hfalsy, wanted_nil] at hw
      cases hw
    · rename_i hne
      obtain ⟨hkind, htold⟩ := (faithful_split_iff hsub ha hne).1 hfaithful
      exact ⟨.inr hkind, htold⟩
  · intro hreadable
    by_cases harch : ∃ a ∈ h.read maxBytes maxPairs, a.key.text = archKey
    · obtain ⟨a, hmem, ha⟩ := harch
      obtain ⟨before, after, heq⟩ := List.append_of_mem hmem
      obtain ⟨hkind, htold⟩ := hreadable before a after heq ha
      rw [heq] at hsub hnodup
      rw [heq, report_split ha hnodup]
      split
      · exact hnil
      · rename_i hne
        exact (faithful_split_iff hsub ha hne).2 ⟨hkind.resolve_left hne, htold⟩
    · have hkeys : ∀ p ∈ h.read maxBytes maxPairs, p.key.text ≠ archKey :=
        fun p hp heq => harch ⟨p, hp, heq⟩
      rw [report_none hkeys]
      exact hnil

end

/-! ## Headers -/

/-- A writer for headers whose architecture is a text. -/
abbrev noFloats : FloatWriter := ⟨fun _ => []⟩

/-- The architecture. -/
def archPair : Pair := ⟨⟨archKey, by decide, by decide⟩, _, .string ⟨lit "a", by decide, by decide⟩⟩

/-- The number of blocks. -/
def blockCount {k : Kind} (value : Value k) : Pair :=
  ⟨⟨lit "a.block_count", by decide, by decide⟩, k, value⟩

/-- A pair that is not wanted. -/
def otherPair {k : Kind} (value : Value k) : Pair :=
  ⟨⟨lit "a.tags", by decide, by decide⟩, k, value⟩

/-- Seven blocks, behind an array of texts. -/
def tagged : Header where
  version := 3
  tensorCount := 0
  pairs :=
    [archPair,
      otherPair (.array (.cons (.string ⟨lit "x", by decide, by decide⟩) .nil) (by decide)),
      blockCount (.int (k := .uint32) 7)]
  version_known := .inr rfl
  count_lt := by decide
  keys_nodup := by decide

/-- One block, as a float of eight bytes. -/
def doubled : Header where
  version := 3
  tensorCount := 0
  pairs := [archPair, blockCount (.float64 0x3FF0000000000000)]
  version_known := .inr rfl
  count_lt := by decide
  keys_nodup := by decide

/-- The items of an array of bytes. -/
def byteItems : (bs : List Nat) → Items (.int .uint8) bs.length
  | [] => .nil
  | b :: bs => .cons (.int (k := .uint8) (BitVec.ofNat 8 b)) (byteItems bs)

/-- Three blocks, behind an array of an array of bytes.  The bytes are a pair of seven blocks. -/
def nested : Header where
  version := 3
  tensorCount := 0
  pairs :=
    [archPair,
      otherPair (.array (.cons
        (.array (byteItems (blockCount (.int (k := .uint32) 7)).encode) (by decide +kernel)) .nil)
        (by decide)),
      blockCount (.int (k := .uint32) 3)]
  version_known := .inr rfl
  count_lt := by decide
  keys_nodup := by decide

/-- Seven blocks are reported. -/
theorem tagged_faithful :
    tagged.Faithful (@readMetadata noFloats 4194304 4096 (some (tagged.encode ++ [0]))) := by
  let _ := noFloats
  refine (read_correctly_iff tagged (.inr (by decide +kernel)) [0]).2.2 ?_
  intro before a after heq ha
  obtain ⟨rest, hrest⟩ := tagged.read_prefix 4194304 4096
  rw [heq, List.append_assoc, List.cons_append] at hrest
  cases before with
  | nil =>
      obtain ⟨rfl, hafter⟩ := List.cons.inj hrest
      refine ⟨.inr rfl, fun p hp hw => ?_⟩
      have hmem := hafter ▸ List.mem_append_left rest hp
      rcases List.mem_cons.1 hmem with rfl | hmem
      · exact absurd hw (by decide)
      · rw [List.mem_singleton.1 hmem, Header.Told, if_neg (by decide)]
        rfl
  | cons b before =>
      have hmem : a ∈ tagged.pairs.tail := by
        rw [← hrest]
        simp
      rcases List.mem_cons.1 hmem with rfl | hmem
      · exact absurd ha (by decide)
      · rw [List.mem_singleton.1 hmem] at ha
        exact absurd ha (by decide)

/-- One block is reported as a large number, and three blocks as seven. -/
theorem misread_headers :
    ¬ doubled.Faithful (@readMetadata noFloats 4194304 4096 (some doubled.encode)) ∧
      ¬ nested.Faithful (@readMetadata noFloats 4194304 4096 (some nested.encode)) := by
  have hdoubled : @readMetadata noFloats 4194304 4096 (some doubled.encode) =
      [(lit "block_count", some (.int 0x3FF0000000000000)),
        (lit "architecture", some (.text (lit "a")))] := by
    decide +kernel
  have hnested : @readMetadata noFloats 4194304 4096 (some nested.encode) =
      [(lit "block_count", some (.int 7)), (lit "architecture", some (.text (lit "a")))] := by
    decide +kernel
  have hkey : ∀ {k : Kind} (value : Value k),
      fileKey (lit "a") (lit "block_count") = (blockCount value).key.text := by
    intro k value
    show fileKey (lit "a") (lit "block_count") = lit "a.block_count"
    decide
  rw [hdoubled, hnested]
  constructor
  · intro hf
    have hstores := hf.stores (by decide) (List.mem_cons_of_mem _ List.mem_cons_self)
      List.mem_cons_self
    rw [hkey (.float64 0x3FF0000000000000), doubled.stores_iff (by simp [doubled])] at hstores
    cases hstores
  · intro hf
    have hstores := hf.stores (by decide) (List.mem_cons_of_mem _ List.mem_cons_self)
      List.mem_cons_self
    rw [hkey (.int (k := .uint32) 3), nested.stores_iff (by simp [nested])] at hstores
    have hthree : (blockCount (.int (k := .uint32) 3)).value.datum = .scalar (.int 3) := rfl
    exact absurd (hthree.symm.trans hstores) (by simp)

end ShugoCore.Gguf
