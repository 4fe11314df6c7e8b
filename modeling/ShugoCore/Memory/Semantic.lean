import Mathlib.Data.List.Sort
import ShugoCore.Clock
import ShugoCore.Security.Sanitised

/-!
# Tier 2: the fact table and its exchange with peers

The part of `SemanticMemory` and `MemoryManager` in `memory_system.py` that
exchanges facts: storing a row, exporting the rows after a time stamp in pages,
and merging the rows of a peer.

A row's embedding, access count and entity links take no part in the exchange
and are left out.  Its metadata is a type variable, apart from the two entries
that an import adds, `shared_from` and `shared_at`.
-/

namespace ShugoCore

open Py

/-- A row of `facts`. -/
structure FactRow (μ : Type) where
  id : Nat
  content : Str
  kind : Str
  salience : ℚ
  createdAt : IsoSeconds
  metadata : μ
  /-- `shared_from` and `shared_at`, in a row that came from a peer. -/
  shared : Option (Str × IsoSeconds)
deriving DecidableEq

/-- A fact on the wire: a row without its id (`_shareable_fact`). -/
structure SharedFact (μ : Type) where
  content : Str
  kind : Str
  salience : ℚ
  createdAt : IsoSeconds
  metadata : μ
  shared : Option (Str × IsoSeconds)
deriving DecidableEq

/-- `_shareable_fact`. -/
def FactRow.shareable {μ : Type} (row : FactRow μ) : SharedFact μ :=
  { row with }

/-- The table, with the next value of its `AUTOINCREMENT` key. -/
structure SemanticMemory (μ : Type) where
  rows : List (FactRow μ)
  nextId : Nat
  below : ∀ row ∈ rows, row.id < nextId
  distinct : (rows.map FactRow.id).Nodup

namespace SemanticMemory

variable {μ : Type}

/-- An empty table. -/
def empty : SemanticMemory μ where
  rows := []
  nextId := 1
  below := by simp
  distinct := by simp

/-- `sanitize_text(kind, 32) or "fact"`. -/
def kindText (kind : Str) : Str :=
  let kind := sanitizeText kind 32
  if kind.isEmpty then lit "fact" else kind

/-- The row that `store_fact` inserts. -/
def rowOf (m : SemanticMemory μ) (now : Seconds) (content kind : Str) (salience : ℚ)
    (metadata : μ) (shared : Option (Str × IsoSeconds)) : FactRow μ where
  id := m.nextId
  content := sanitizeText content 2000
  kind := kindText kind
  salience := salience
  createdAt := utcNowIso now
  metadata := metadata
  shared := shared

theorem rowOf_content (m : SemanticMemory μ) (now : Seconds) (content kind : Str) (salience : ℚ)
    (metadata : μ) (shared : Option (Str × IsoSeconds)) :
    (m.rowOf now content kind salience metadata shared).content = sanitizeText content 2000 := rfl

/-- Insert a row under the next key. -/
def insert (m : SemanticMemory μ) (row : FactRow μ) (h : row.id = m.nextId) : SemanticMemory μ where
  rows := m.rows ++ [row]
  nextId := m.nextId + 1
  below := by
    intro r hr
    rcases List.mem_append.1 hr with hr | hr
    · exact Nat.lt_succ_of_lt (m.below r hr)
    · rw [List.mem_singleton.1 hr, h]
      exact Nat.lt_succ_self _
  distinct := by
    rw [List.map_append, List.nodup_append]
    refine ⟨m.distinct, by simp, ?_⟩
    intro a ha b hb hab
    obtain ⟨r, hr, rfl⟩ := List.mem_map.1 ha
    obtain ⟨q, hq, rfl⟩ := List.mem_map.1 hb
    rw [List.mem_singleton.1 hq, h] at hab
    exact absurd hab (Nat.ne_of_lt (m.below r hr))

/-- `store_fact`. -/
def storeFact (m : SemanticMemory μ) (now : Seconds) (content kind : Str) (salience : ℚ)
    (metadata : μ) (shared : Option (Str × IsoSeconds)) : SemanticMemory μ :=
  m.insert (m.rowOf now content kind salience metadata shared) rfl

/-- `content_exists`. -/
def contentExists (m : SemanticMemory μ) (content : Str) : Bool :=
  m.rows.any fun row => row.content = sanitizeText content 2000

/-- The contents of the rows, in order. -/
def contents (m : SemanticMemory μ) : List Str := m.rows.map FactRow.content

theorem contentExists_iff {m : SemanticMemory μ} {content : Str} :
    m.contentExists content = true ↔ sanitizeText content 2000 ∈ m.contents := by
  simp only [contentExists, contents, List.any_eq_true, decide_eq_true_eq, List.mem_map]

@[simp] theorem contents_storeFact (m : SemanticMemory μ) (now : Seconds) (content kind : Str)
    (salience : ℚ) (metadata : μ) (shared : Option (Str × IsoSeconds)) :
    (m.storeFact now content kind salience metadata shared).contents =
      m.contents ++ [sanitizeText content 2000] := by
  simp [contents, storeFact, insert, rowOf]

/-- What was stored is found again under its stored text, unless that was cut off behind a blank and
its next round is in no other row. -/
theorem found_again_iff (m : SemanticMemory μ) (now : Seconds) (content kind : Str) (salience : ℚ)
    (metadata : μ) (shared : Option (Str × IsoSeconds)) :
    (m.storeFact now content kind salience metadata shared).contentExists
        (sanitizeText content 2000) = true ↔
      ¬ BlankAtCut content 2000 ∨ sanitizeText (sanitizeText content 2000) 2000 ∈ m.contents := by
  rw [contentExists_iff, contents_storeFact, List.mem_append, List.mem_singleton, settled_iff, or_comm]

/-! ## Pages -/

/-- `ORDER BY created_at ASC, id ASC`. -/
def Before (a b : FactRow μ) : Prop :=
  a.createdAt < b.createdAt ∨ a.createdAt = b.createdAt ∧ a.id ≤ b.id

instance : DecidableRel (Before : FactRow μ → FactRow μ → Prop) :=
  fun _ _ => inferInstanceAs (Decidable (_ ∨ _))

/-- `created_at > ?`, where there is a time stamp to compare with. -/
def Newer (since : Option IsoSeconds) (row : FactRow μ) : Prop := ∀ w ∈ since, w < row.createdAt

instance (since : Option IsoSeconds) (row : FactRow μ) : Decidable (Newer since row) := by
  simp only [Newer]
  infer_instance

/-- The rows after a time stamp, in order. -/
def newer (m : SemanticMemory μ) (since : Option IsoSeconds) : List (FactRow μ) :=
  (m.rows.filter fun row => Newer since row).insertionSort Before

/-- `max(1, min(int(limit), 1000))`. -/
def pageSize (limit : Int) : Nat := (max 1 (min limit 1000)).toNat

/-- `facts_since`. -/
def factsSince (m : SemanticMemory μ) (since : Option IsoSeconds) (limit : Int) :
    List (FactRow μ) :=
  (m.newer since).take (pageSize limit)

theorem mem_newer {m : SemanticMemory μ} {since : Option IsoSeconds} {row : FactRow μ} :
    row ∈ m.newer since ↔ row ∈ m.rows ∧ Newer since row := by
  rw [newer, List.mem_insertionSort, List.mem_filter, decide_eq_true_eq]

instance : Std.Total (Before : FactRow μ → FactRow μ → Prop) where
  total a b := by
    rcases lt_trichotomy a.createdAt b.createdAt with h | h | h
    · exact .inl (.inl h)
    · exact (Nat.le_total a.id b.id).imp (fun hid => .inr ⟨h, hid⟩) (fun hid => .inr ⟨h.symm, hid⟩)
    · exact .inr (.inl h)

instance : IsTrans (FactRow μ) Before where
  trans a b c := by
    rintro (h | ⟨h, hid⟩) (h' | ⟨h', hid'⟩)
    · exact .inl (h.trans h')
    · exact .inl (h'.symm ▸ h)
    · exact .inl (h.symm ▸ h')
    · exact .inr ⟨h.trans h', hid.trans hid'⟩

theorem newer_pairwise (m : SemanticMemory μ) (since : Option IsoSeconds) :
    (m.newer since).Pairwise fun a b => a.createdAt ≤ b.createdAt := by
  refine (List.pairwise_insertionSort Before _).imp ?_
  rintro a b (h | ⟨h, -⟩)
  · exact h.le
  · exact h.le

theorem newer_nodup (m : SemanticMemory μ) (since : Option IsoSeconds) :
    ((m.newer since).map FactRow.id).Nodup := by
  have hp := (List.perm_insertionSort Before
    (m.rows.filter fun row => Newer since row)).map FactRow.id
  exact hp.nodup_iff.2 (m.distinct.sublist (List.filter_sublist.map _))

/-- No id of a page comes again after it. -/
theorem factsSince_disjoint {m : SemanticMemory μ} {since : Option IsoSeconds} {limit : Int}
    {a b : FactRow μ} (ha : a ∈ m.factsSince since limit)
    (hb : b ∈ (m.newer since).drop (pageSize limit)) : a.id ≠ b.id := by
  have h := m.newer_nodup since
  rw [← List.take_append_drop (pageSize limit) (m.newer since), List.map_append,
    List.nodup_append] at h
  exact h.2.2 _ (List.mem_map_of_mem ha) _ (List.mem_map_of_mem hb)

/-- Every row is at or before the time stamp, on the page, or after the page. -/
theorem row_cases (m : SemanticMemory μ) (since : Option IsoSeconds) (limit : Int)
    {row : FactRow μ} (h : row ∈ m.rows) :
    (∃ w ∈ since, row.createdAt ≤ w) ∨ row ∈ m.factsSince since limit ∨
      row ∈ (m.newer since).drop (pageSize limit) := by
  by_cases hn : Newer since row
  · right
    rw [← List.mem_append, factsSince, List.take_append_drop]
    exact mem_newer.2 ⟨h, hn⟩
  · left
    simpa [Newer] using hn

theorem mem_rows_of_mem_factsSince {m : SemanticMemory μ} {since : Option IsoSeconds} {limit : Int}
    {row : FactRow μ} (h : row ∈ m.factsSince since limit) : row ∈ m.rows :=
  (mem_newer.1 (List.mem_of_mem_take h)).1

end SemanticMemory

/-! ## Exchange -/

variable {μ : Type}

/-- `export_shared_facts`. -/
def exportSharedFacts (m : SemanticMemory μ) (since : Option IsoSeconds) (limit : Int) :
    List (SharedFact μ) :=
  (m.factsSince since limit).map FactRow.shareable

/-- What `import_shared_facts` counts. -/
structure ImportCounts where
  imported : Nat
  skipped : Nat
  duplicates : Nat
deriving DecidableEq, Repr

/-- One fact of `import_shared_facts`.  Known content is a duplicate, empty
content is skipped, and the rest is stored with its origin. -/
def importFact (origin : Str) (now : Seconds) (s : SemanticMemory μ × ImportCounts)
    (fact : SharedFact μ) : SemanticMemory μ × ImportCounts :=
  let content := sanitizeText fact.content 2000
  if content.isEmpty then (s.1, { s.2 with skipped := s.2.skipped + 1 })
  else if s.1.contentExists content then
    (s.1, { s.2 with duplicates := s.2.duplicates + 1 })
  else
    (s.1.storeFact now content (SemanticMemory.kindText fact.kind) (max 0 (min 10 fact.salience))
        fact.metadata (some (origin, utcNowIso now)),
      { s.2 with imported := s.2.imported + 1 })

/-- `import_shared_facts`, all at one reading of the clock. -/
def importSharedFacts (m : SemanticMemory μ) (facts : List (SharedFact μ)) (source : Str)
    (now : Seconds) : SemanticMemory μ × ImportCounts :=
  let origin := sanitizeText source 64
  let origin := if origin.isEmpty then lit "unknown" else origin
  facts.foldl (importFact origin now) (m, ⟨0, 0, 0⟩)

end ShugoCore
