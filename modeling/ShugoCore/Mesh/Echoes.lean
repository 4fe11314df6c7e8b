import ShugoCore.Mesh.Conflicts

/-!
# What comes back from a peer

A run of two honest runtimes, neither of which starts a call of `sync` while one of its
own is open.  Each row of the peer's table is then on at most one page that a runtime
merges, since the watermark passes the rows of a page.  A fact that a runtime took over
from the peer is behind its watermark, so the facts of a page that it holds are among those
that it started with, and each of them comes back at most once.

So two runtimes that start with fewer facts than their thresholds report no storm, however
their calls are interleaved.
-/

namespace ShugoCore

open Py Machine SemanticMemory

namespace Pair

variable {μ : Type}

/-! ## Pages that are still to be merged -/

/-- A page of the peer's table from beyond the watermark. -/
structure PageOf (p q : SyncPeer μ) (facts : List (FactRow μ)) : Prop where
  rest : ∃ rest, q.memory.rows.Perm (facts ++ rest)
  fresh : ∀ row ∈ facts, Newer p.watermark row
  sorted : facts.Pairwise fun a b => a.createdAt ≤ b.createdAt

theorem pageOf_factsSince (p q : SyncPeer μ) (limit : Int) :
    PageOf p q (q.memory.factsSince p.watermark limit) where
  rest := by
    let newer := q.memory.newer p.watermark
    let older := q.memory.rows.filter fun row => !decide (Newer p.watermark row)
    refine ⟨newer.drop (pageSize limit) ++ older, ?_⟩
    rw [factsSince, ← List.append_assoc, List.take_append_drop]
    refine (List.filter_append_perm (fun row => decide (Newer p.watermark row)) _).symm.trans ?_
    exact (List.perm_insertionSort Before _).symm.append_right _
  fresh row hrow := (mem_newer.1 (List.mem_of_mem_take hrow)).2
  sorted := (q.memory.newer_pairwise p.watermark).sublist (List.take_sublist _ _)

/-- A page stays one while the peer's table grows. -/
theorem PageOf.grow {p p' q q' : SyncPeer μ} {facts new : List (FactRow μ)} (h : PageOf p q facts)
    (hp : p'.watermark = p.watermark) (hq : q'.memory.rows = q.memory.rows ++ new) :
    PageOf p' q' facts where
  rest := by
    obtain ⟨rest, hrest⟩ := h.rest
    refine ⟨rest ++ new, ?_⟩
    rw [hq, ← List.append_assoc]
    exact hrest.append_right new
  fresh := by
    rw [hp]
    exact h.fresh
  sorted := h.sorted

theorem PageOf.mem_rows {p q : SyncPeer μ} {facts : List (FactRow μ)} (h : PageOf p q facts)
    {row : FactRow μ} (hrow : row ∈ facts) : row ∈ q.memory.rows := by
  obtain ⟨rest, hrest⟩ := h.rest
  exact hrest.mem_iff.2 (List.mem_append_left _ hrow)

/-- The contents of a page repeat nothing if those of the table do not. -/
theorem PageOf.nodup {p q : SyncPeer μ} {facts : List (FactRow μ)} (h : PageOf p q facts)
    (hq : q.memory.contents.Nodup) : (facts.map FactRow.content).Nodup := by
  obtain ⟨rest, hrest⟩ := h.rest
  have hall := (hrest.map FactRow.content).nodup_iff.1 hq
  rw [List.map_append] at hall
  exact (List.nodup_append.1 hall).1

/-! ## The tables -/

/-- A table that started with the contents `held` and took over some of `others`. -/
structure Grown (held others : List Str) (m : SemanticMemory μ) : Prop where
  nodup : m.contents.Nodup
  settled : ∀ c ∈ m.contents, sanitizeText c 2000 = c
  keeps : ∀ c ∈ held, c ∈ m.contents
  within : ∀ c ∈ m.contents, c ∈ held ∨ c ∈ others

/-- The facts of a page arrive as they were stored. -/
theorem pageTexts_settled {facts : List (FactRow μ)}
    (h : ∀ row ∈ facts, sanitizeText row.content 2000 = row.content) :
    pageTexts (facts.map FactRow.shareable) =
      (facts.map FactRow.content).filter fun c => c ≠ [] := by
  have hsame : (facts.map FactRow.shareable).map (fun fact => sanitizeText fact.content 2000) =
      facts.map FactRow.content := by
    rw [List.map_map]
    exact List.map_congr_left h
  rw [pageTexts, hsame]
  refine (List.map_congr_left fun c hc => ?_).trans (List.map_id _)
  obtain ⟨row, hrow, rfl⟩ := List.mem_map.1 (List.mem_filter.1 hc).1
  exact h row hrow

/-- The conflicts of a page are facts of it that the caller holds. -/
theorem knownFacts_le {held : List Str} {facts : List (FactRow μ)}
    (h : ∀ row ∈ facts, sanitizeText row.content 2000 = row.content)
    (hnodup : (facts.map FactRow.content).Nodup) :
    knownFacts held (facts.map FactRow.shareable) ≤ facts.countP fun row => row.content ∈ held := by
  have hnew : newTexts held (facts.map FactRow.shareable) =
      (pageTexts (facts.map FactRow.shareable)).filter fun c => c ∉ held := by
    rw [newTexts, pageTexts_settled h]
    exact ((hnodup.filter _).filter _).dedup
  have hsplit := List.length_eq_countP_add_countP (fun c : Str => decide (c ∈ held))
    (l := pageTexts (facts.map FactRow.shareable))
  have hcount : (newTexts held (facts.map FactRow.shareable)).length =
      (pageTexts (facts.map FactRow.shareable)).countP fun c => decide ¬decide (c ∈ held) = true := by
    rw [hnew, List.countP_eq_length_filter]
    simp only [decide_eq_true_eq]
  have hle : (pageTexts (facts.map FactRow.shareable)).countP (fun c => decide (c ∈ held)) ≤
      facts.countP fun row => row.content ∈ held := by
    rw [pageTexts_settled h]
    refine (List.filter_sublist.countP_le).trans_eq ?_
    rw [List.countP_map]
    rfl
  rw [knownFacts, hcount]
  omega

/-- A merge adds the facts of its page that the caller lacks. -/
theorem merge_memory (p : SyncPeer μ) {facts : List (FactRow μ)} (source : Str) (now mono : Seconds)
    (h : ∀ row ∈ facts, sanitizeText row.content 2000 = row.content) :
    ∃ rows, (p.merge facts source now mono).memory.rows = p.memory.rows ++ rows ∧
      (rows.map FactRow.content).Nodup ∧
      ∀ c ∈ rows.map FactRow.content, (∃ row ∈ facts, row.content = c) ∧ c ∉ p.memory.contents := by
  obtain ⟨rows, hrows, hnodup, hmem, -⟩ :=
    importSharedFacts_rows p.memory (facts.map FactRow.shareable) source now
  refine ⟨rows, hrows, hnodup, fun c hc => ?_⟩
  obtain ⟨hpage, hlacks⟩ := (hmem c).1 hc
  rw [pageTexts_settled h, List.mem_filter, List.mem_map] at hpage
  exact ⟨hpage.1, hlacks⟩

/-- A table that grows by facts of the peer's table. -/
theorem Grown.merge {held others : List Str} {p q : SyncPeer μ} {facts : List (FactRow μ)}
    {source : Str} {now mono : Seconds} (hp : Grown held others p.memory)
    (hq : Grown others held q.memory) (hpage : PageOf p q facts) :
    Grown held others (p.merge facts source now mono).memory := by
  have hmem : ∀ row ∈ facts, row.content ∈ q.memory.contents :=
    fun row hrow => List.mem_map_of_mem (hpage.mem_rows hrow)
  obtain ⟨rows, hrows, hnodup, hnew⟩ :=
    merge_memory p source now mono fun row hrow => hq.settled _ (hmem row hrow)
  have hcontents : (p.merge facts source now mono).memory.contents =
      p.memory.contents ++ rows.map FactRow.content := by
    rw [contents, hrows, List.map_append]
    rfl
  have hfrom : ∀ c ∈ rows.map FactRow.content, c ∈ q.memory.contents := by
    intro c hc
    obtain ⟨⟨row, hrow, rfl⟩, -⟩ := hnew c hc
    exact hmem row hrow
  refine ⟨?_, fun c hc => ?_, fun c hc => ?_, fun c hc => ?_⟩
  · rw [hcontents, List.nodup_append]
    refine ⟨hp.nodup, hnodup, fun c hc d hd hcd => ?_⟩
    exact (hnew d hd).2 (hcd ▸ hc)
  · rw [hcontents, List.mem_append] at hc
    exact hc.elim (hp.settled c) fun hc => hq.settled c (hfrom c hc)
  · rw [hcontents, List.mem_append]
    exact .inl (hp.keeps c hc)
  · rw [hcontents, List.mem_append] at hc
    rcases hc with hc | hc
    · exact hp.within c hc
    · exact (hq.within c (hfrom c hc)).symm

/-- The window never holds more than all conflicts so far. -/
theorem length_noteConflicts_le (p : SyncPeer μ) (duplicates : Nat) (mono : Seconds) :
    (p.noteConflicts duplicates mono).conflictEvents.length ≤
      p.conflictEvents.length + duplicates := by
  simp only [SyncPeer.noteConflicts]
  split
  · exact Nat.le_add_right _ _
  · refine (List.length_dropWhile_le _ _).trans_eq ?_
    rw [List.length_append, List.length_replicate]

/-! ## One runtime and the table of its peer -/

/-- The rows of the peer's table with contents among `held` that the watermark has passed. -/
def passed (held : List Str) (p q : SyncPeer μ) : Nat :=
  q.memory.rows.countP fun row => row.content ∈ held ∧ ¬ Newer p.watermark row

/-- What `p` took over from `q` is behind its watermark, and its conflicts are facts that
it started with. -/
structure Follows (held : List Str) (p q : SyncPeer μ) : Prop where
  taken : ∀ row ∈ q.memory.rows, row.content ∈ p.memory.contents → row.content ∉ held →
    ¬ Newer p.watermark row
  counted : p.conflictEvents.length ≤ passed held p q

/-- Each fact comes back at most once. -/
theorem passed_le {held : List Str} {p q : SyncPeer μ} (hq : q.memory.contents.Nodup) :
    passed held p q ≤ held.length := by
  have hnodup : ((q.memory.rows.filter fun row => decide (row.content ∈ held)).map
      FactRow.content).Nodup := hq.sublist (List.filter_sublist.map _)
  have hsub : (q.memory.rows.filter fun row => decide (row.content ∈ held)).map FactRow.content ⊆
      held := by
    intro c hc
    obtain ⟨row, hrow, rfl⟩ := List.mem_map.1 hc
    exact of_decide_eq_true (List.mem_filter.1 hrow).2
  calc passed held p q
      ≤ q.memory.rows.countP fun row => row.content ∈ held := by
        refine List.countP_mono_left fun row _ h => ?_
        exact decide_eq_true (of_decide_eq_true h).1
    _ = ((q.memory.rows.filter fun row => decide (row.content ∈ held)).map
          FactRow.content).length := by
        rw [List.countP_eq_length_filter, List.length_map]
    _ ≤ held.length := (hnodup.subperm hsub).length_le

/-- The peer's table grows by facts that it sends on, not by facts of its own. -/
theorem Follows.grow {held : List Str} {p q q' : SyncPeer μ} {new : List (FactRow μ)}
    (h : Follows held p q) (hq : q'.memory.rows = q.memory.rows ++ new)
    (hnew : ∀ row ∈ new, row.content ∈ held) : Follows held p q' where
  taken row hrow hheld hout := by
    rw [hq, List.mem_append] at hrow
    rcases hrow with hrow | hrow
    · exact h.taken row hrow hheld hout
    · exact absurd (hnew row hrow) hout
  counted := by
    rw [passed, hq, List.countP_append]
    exact h.counted.trans (Nat.le_add_right _ _)

/-- The watermark passes the rows of a page. -/
theorem merge_watermark {p q : SyncPeer μ} {facts : List (FactRow μ)} (h : PageOf p q facts)
    (source : Str) (now mono : Seconds) {row : FactRow μ}
    (hrow : row ∈ facts ∨ ¬ Newer p.watermark row) :
    ¬ Newer (p.merge facts source now mono).watermark row := by
  cases hlast : facts.getLast? with
  | none =>
      rw [List.getLast?_eq_none_iff] at hlast
      subst hlast
      have hsame : (p.merge [] source now mono).watermark = p.watermark := by
        simp only [SyncPeer.merge, SyncPeer.noteConflicts, List.getLast?_nil]
        split <;> rfl
      rw [hsame]
      exact hrow.resolve_left List.not_mem_nil
  | some last =>
      have hmark : (p.merge facts source now mono).watermark = some last.createdAt := by
        simp only [SyncPeer.merge, hlast]
      obtain ⟨others, rfl⟩ := List.getLast?_eq_some_iff.1 hlast
      rw [hmark]
      intro hnewer
      have hlt : last.createdAt < row.createdAt := hnewer _ rfl
      rcases hrow with hrow | hold
      · rcases List.mem_append.1 hrow with hrow | hrow
        · have hle := (List.pairwise_append.1 h.sorted).2.2 row hrow last (List.mem_singleton_self _)
          exact absurd hlt (not_lt.2 hle)
        · rw [List.mem_singleton.1 hrow] at hlt
          exact lt_irrefl _ hlt
      · -- The last row is beyond the old watermark, and so is a row after it.
        refine hold fun w hw => ?_
        exact (h.fresh last (by simp) w hw).trans hlt

/-- The facts of a page that the caller started with are passed by the merge. -/
theorem passed_merge {held : List Str} {p q : SyncPeer μ} {facts : List (FactRow μ)}
    (h : PageOf p q facts) (source : Str) (now mono : Seconds) :
    facts.countP (fun row => row.content ∈ held) + passed held p q ≤
      passed held (p.merge facts source now mono) q := by
  obtain ⟨rest, hrest⟩ := h.rest
  rw [passed, passed, hrest.countP_eq, hrest.countP_eq, List.countP_append, List.countP_append]
  have hnone : facts.countP (fun row => row.content ∈ held ∧ ¬ Newer p.watermark row) = 0 := by
    refine List.countP_eq_zero.2 fun row hrow hold => ?_
    exact (of_decide_eq_true hold).2 (h.fresh row hrow)
  have hall : facts.countP (fun row => row.content ∈ held) ≤ facts.countP fun row =>
      row.content ∈ held ∧ ¬ Newer (p.merge facts source now mono).watermark row := by
    refine List.countP_mono_left fun row hrow hheld => ?_
    exact decide_eq_true ⟨of_decide_eq_true hheld, merge_watermark h source now mono (.inl hrow)⟩
  have holder : rest.countP (fun row => row.content ∈ held ∧ ¬ Newer p.watermark row) ≤
      rest.countP fun row =>
        row.content ∈ held ∧ ¬ Newer (p.merge facts source now mono).watermark row := by
    refine List.countP_mono_left fun row _ hold => ?_
    obtain ⟨hheld, hpassed⟩ := of_decide_eq_true hold
    exact decide_eq_true ⟨hheld, merge_watermark h source now mono (.inr hpassed)⟩
  omega

/-- The conflicts of a page are among the facts that the caller started with. -/
theorem Follows.known_le {held others : List Str} {p q : SyncPeer μ} {facts : List (FactRow μ)}
    (h : Follows held p q) (hq : Grown others held q.memory) (hpage : PageOf p q facts) :
    knownFacts p.memory.contents (facts.map FactRow.shareable) ≤
      facts.countP fun row => row.content ∈ held := by
  refine (knownFacts_le (fun row hrow => ?_) (hpage.nodup hq.nodup)).trans ?_
  · exact hq.settled _ (List.mem_map_of_mem (hpage.mem_rows hrow))
  · refine List.countP_mono_left fun row hrow hknown => decide_eq_true ?_
    by_contra hout
    exact h.taken row (hpage.mem_rows hrow) (of_decide_eq_true hknown) hout (hpage.fresh row hrow)

/-- A merge keeps the relation to the peer. -/
theorem Follows.merge {held others : List Str} {p q : SyncPeer μ} {facts : List (FactRow μ)}
    {source : Str} {now mono : Seconds} (h : Follows held p q) (hq : Grown others held q.memory)
    (hpage : PageOf p q facts) : Follows held (p.merge facts source now mono) q where
  taken row hrow hheld hout := by
    refine merge_watermark hpage source now mono ?_
    have hsettled : ∀ row ∈ facts, sanitizeText row.content 2000 = row.content :=
      fun row hrow => hq.settled _ (List.mem_map_of_mem (hpage.mem_rows hrow))
    obtain ⟨rows, hrows, -, hnew⟩ := merge_memory p source now mono hsettled
    rw [contents, hrows, List.map_append, List.mem_append] at hheld
    rcases hheld with hheld | hheld
    · exact .inr (h.taken row hrow hheld hout)
    · -- The content came with the page, and only one row of the peer has it.
      obtain ⟨⟨row', hrow', hsame⟩, -⟩ := hnew _ hheld
      have heq : row' = row :=
        List.inj_on_of_nodup_map hq.nodup (hpage.mem_rows hrow') hrow hsame
      exact .inl (heq ▸ hrow')
  counted := by
    have hnoted : (p.merge facts source now mono).conflictEvents.length ≤
        p.conflictEvents.length + knownFacts p.memory.contents (facts.map FactRow.shareable) := by
      obtain ⟨-, -, -, -, hdup⟩ :=
        importSharedFacts_rows p.memory (facts.map FactRow.shareable) source now
      rw [← hdup]
      exact length_noteConflicts_le p _ mono
    have hknown := h.known_le hq hpage
    have hpassed : facts.countP (fun row => row.content ∈ held) + passed held p q ≤
        passed held (p.merge facts source now mono) q := passed_merge hpage source now mono
    have hcounted := h.counted
    omega

/-! ## The pair -/

/-- A call of a runtime that has not returned. -/
def OpenFor (side : Side) : PairCall μ → Prop
  | .requested caller _ => caller = side
  | .answered caller _ => caller = side
  | .returned _ => False

/-- A runtime starts no call while one of its own is open. -/
def Alone (s : Pair μ) : Op → Prop
  | .sync caller => ∀ call ∈ s.calls, ¬ OpenFor caller call
  | _ => True

/-- What an open call has read is still right. -/
def CallOk (s : Pair μ) : PairCall μ → Prop
  | .requested caller since => since = (s.node caller).watermark
  | .answered caller facts => PageOf (s.node caller) (s.node caller.other) facts
  | .returned _ => True

/-- No runtime has two open calls. -/
def Single (calls : List (PairCall μ)) : Prop :=
  ∀ (i j : Nat) call call' side, calls[i]? = some call → calls[j]? = some call' →
    OpenFor side call → OpenFor side call' → i = j

/-- The state of a run, by the contents that the two tables started with. -/
structure Honest (held : Side → List Str) (s : Pair μ) : Prop where
  grown : ∀ side, Grown (held side) (held side.other) (s.node side).memory
  follows : ∀ side, Follows (held side) (s.node side) (s.node side.other)
  calls : ∀ (i : Nat) call, s.calls[i]? = some call → CallOk s call
  single : Single s.calls

@[simp] theorem other_other (side : Side) : side.other.other = side := by cases side <;> rfl

theorem eq_or_eq_other (side caller : Side) : side = caller ∨ side = caller.other := by
  cases side <;> cases caller <;> decide

theorem other_ne (side : Side) : side.other ≠ side := by cases side <;> decide

/-! ### The list of calls -/

theorem getElem?_concat_cases {calls : List (PairCall μ)} {new call : PairCall μ} {j : Nat}
    (h : (calls ++ [new])[j]? = some call) :
    j = calls.length ∧ call = new ∨ j ≠ calls.length ∧ calls[j]? = some call := by
  by_cases hj : j = calls.length
  · rw [hj, List.getElem?_concat_length] at h
    exact .inl ⟨hj, (Option.some.inj h).symm⟩
  · rw [getElem?_concat_of_ne _ _ hj] at h
    exact .inr ⟨hj, h⟩

theorem getElem?_set_cases {calls : List (PairCall μ)} {new call : PairCall μ} {i j : Nat}
    (h : (calls.set i new)[j]? = some call) :
    j = i ∧ call = new ∨ j ≠ i ∧ calls[j]? = some call := by
  rw [List.getElem?_set] at h
  split at h
  · rename_i hij
    split at h
    · exact .inl ⟨hij.symm, (Option.some.inj h).symm⟩
    · cases h
  · rename_i hij
    exact .inr ⟨fun hji => hij hji.symm, h⟩

theorem Single.concat {calls : List (PairCall μ)} (h : Single calls) {new : PairCall μ}
    (hnew : ∀ side, OpenFor side new → ∀ call ∈ calls, ¬ OpenFor side call) :
    Single (calls ++ [new]) := by
  intro i j call call' side hi hj hopen hopen'
  rcases getElem?_concat_cases hi with ⟨rfl, rfl⟩ | ⟨-, hiold⟩
  · rcases getElem?_concat_cases hj with ⟨rfl, -⟩ | ⟨-, hj⟩
    · rfl
    · exact absurd hopen' (hnew side hopen call' (List.mem_of_getElem? hj))
  · rcases getElem?_concat_cases hj with ⟨-, rfl⟩ | ⟨-, hj⟩
    · exact absurd hopen (hnew side hopen' call (List.mem_of_getElem? hiold))
    · exact h i j call call' side hiold hj hopen hopen'

theorem Single.set {calls : List (PairCall μ)} (h : Single calls) {i : Nat} {old new : PairCall μ}
    (hold : calls[i]? = some old) (hnew : ∀ side, OpenFor side new → OpenFor side old) :
    Single (calls.set i new) := by
  intro j k call call' side hj hk hopen hopen'
  rcases getElem?_set_cases hj with ⟨rfl, rfl⟩ | ⟨-, hjold⟩
  · rcases getElem?_set_cases hk with ⟨rfl, -⟩ | ⟨-, hk⟩
    · rfl
    · exact h j k old call' side hold hk (hnew side hopen) hopen'
  · rcases getElem?_set_cases hk with ⟨rfl, rfl⟩ | ⟨-, hk⟩
    · exact h j k call old side hjold hold hopen (hnew side hopen')
    · exact h j k call call' side hjold hk hopen hopen'

/-! ### The steps -/

variable {held : Side → List Str}

theorem Honest.sync {s : Pair μ} (h : Honest held s) {caller : Side}
    (halone : s.Alone (.sync caller)) : Honest held (s.step (.sync caller)) where
  grown := h.grown
  follows := h.follows
  calls i call hcall := by
    rcases getElem?_concat_cases hcall with ⟨-, rfl⟩ | ⟨-, hcall⟩
    · exact rfl
    · have hok := h.calls i call hcall
      cases call <;> exact hok
  single := by
    refine h.single.concat fun side hopen => ?_
    obtain rfl : caller = side := hopen
    exact halone

theorem Honest.reply {s : Pair μ} (h : Honest held s) (i : Nat) :
    Honest held (s.step (.reply i)) := by
  rcases s.reply_cases i with he | ⟨caller, since, hcall, he⟩
  · rwa [he]
  · rw [he]
    obtain rfl : since = (s.node caller).watermark := h.calls i _ hcall
    refine ⟨h.grown, h.follows, fun j call hj => ?_, h.single.set hcall fun side hopen => hopen⟩
    rcases getElem?_set_cases hj with ⟨-, rfl⟩ | ⟨-, hj⟩
    · exact pageOf_factsSince _ _ _
    · have hok := h.calls j call hj
      cases call <;> exact hok

theorem Honest.merge {s : Pair μ} (h : Honest held s) (i : Nat) (now mono : Seconds) :
    Honest held (s.step (.merge i now mono)) := by
  rcases s.merge_cases i now mono with ⟨he, -⟩ | ⟨caller, facts, hcall, he⟩
  · rwa [he]
  · have hpage : PageOf (s.node caller) (s.node caller.other) facts := h.calls i _ hcall
    have hp := h.grown caller
    have hq := h.grown caller.other
    rw [other_other] at hq
    generalize s.step (.merge i now mono) = s' at he
    have hmine : s'.node caller =
        (s.node caller).merge facts (s.name caller.other) now mono := by
      rw [he]
      exact Function.update_self ..
    have htheirs : s'.node caller.other = s.node caller.other := by
      rw [he]
      exact Function.update_of_ne (other_ne caller) ..
    obtain ⟨new, hnew, hheld⟩ : ∃ new,
        (s'.node caller).memory.rows = (s.node caller).memory.rows ++ new ∧
          ∀ row ∈ new, row.content ∈ held caller.other := by
      obtain ⟨rows, hrows, -, hfrom⟩ := merge_memory (s.node caller) (s.name caller.other) now mono
        fun row hrow => hq.settled _ (List.mem_map_of_mem (hpage.mem_rows hrow))
      refine ⟨rows, hmine ▸ hrows, fun row hrow => ?_⟩
      -- What the caller lacks is none of its own, so it is one of the peer's.
      obtain ⟨⟨row', hrow', hsame⟩, hlacks⟩ := hfrom _ (List.mem_map_of_mem hrow)
      have hin := hq.within _ (List.mem_map_of_mem (hpage.mem_rows hrow'))
      rw [hsame] at hin
      exact hin.resolve_right fun hown => hlacks (hp.keeps _ hown)
    refine ⟨fun side => ?_, fun side => ?_, fun j call hj => ?_, ?_⟩
    · rcases eq_or_eq_other side caller with rfl | rfl
      · rw [hmine]
        exact hp.merge hq hpage
      · rw [htheirs]
        exact h.grown _
    · rcases eq_or_eq_other side caller with rfl | rfl
      · rw [hmine, htheirs]
        exact (h.follows side).merge hq hpage
      · have hback := h.follows caller.other
        rw [other_other] at hback ⊢
        rw [htheirs]
        exact hback.grow hnew hheld
    · rw [he] at hj
      rcases getElem?_set_cases hj with ⟨-, rfl⟩ | ⟨hji, hjold⟩
      · exact trivial
      · -- The caller has no other open call, and the peer's are not concerned.
        have hok := h.calls j call hjold
        have hother : ∀ side, OpenFor side call → side = caller.other := by
          intro side hopen
          refine (eq_or_eq_other side caller).resolve_left fun hside => ?_
          exact hji (h.single j i call _ side hjold hcall hopen hside.symm)
        cases call with
        | requested side since =>
            obtain rfl := hother side rfl
            rw [CallOk, htheirs]
            exact hok
        | answered side facts' =>
            obtain rfl := hother side rfl
            rw [CallOk, other_other] at hok ⊢
            rw [htheirs]
            exact hok.grow rfl hnew
        | returned side => exact trivial
    · rw [he]
      exact h.single.set hcall fun _ => False.elim

/-- A merge of a runtime that started with fewer facts than its threshold is calm. -/
theorem Honest.calm {s : Pair μ} (h : Honest held s)
    (hsmall : ∀ side, (s.node side).guard.controller = true →
      (held side).length < (s.node side).guard.threshold) (op : Op) : s.Calm op := by
  cases op with
  | sync caller => exact trivial
  | reply i => exact trivial
  | merge i now mono =>
      intro caller facts hcall
      refine .inr ?_
      cases hcontroller : (s.node caller).guard.controller with
      | false => exact .inl rfl
      | true =>
          refine .inr ?_
          have hpage : PageOf (s.node caller) (s.node caller.other) facts := h.calls i _ hcall
          have hq := h.grown caller.other
          rw [other_other] at hq
          have hknown := (h.follows caller).known_le hq hpage
          have hpassed : facts.countP (fun row => row.content ∈ held caller) +
              passed (held caller) (s.node caller) (s.node caller.other) ≤ _ :=
            passed_merge hpage [] now mono
          have hle : passed (held caller) ((s.node caller).merge facts [] now mono)
              (s.node caller.other) ≤ (held caller).length := passed_le hq.nodup
          have hrecent : ((s.node caller).recent mono).length ≤
              (s.node caller).conflictEvents.length := List.length_dropWhile_le _ _
          have hcounted := (h.follows caller).counted
          have hless := hsmall caller hcontroller
          omega

theorem Honest.step {s : Pair μ} (h : Honest held s) {op : Op} (halone : s.Alone op) :
    Honest held (s.step op) := by
  cases op with
  | sync caller => exact h.sync halone
  | reply i => exact h.reply i
  | merge i now mono => exact h.merge i now mono

theorem honest_start (name : Side → Str) (guard : Side → ConflictGuard)
    {store : Side → SemanticMemory μ} (hnodup : ∀ side, (store side).contents.Nodup)
    (hsettled : ∀ side, ∀ c ∈ (store side).contents, sanitizeText c 2000 = c) :
    Honest (fun side => (store side).contents) (start name guard store) where
  grown side := ⟨hnodup side, hsettled side, fun _ hc => hc, fun _ hc => .inl hc⟩
  follows side := ⟨fun row hrow hheld hout => absurd hheld hout, Nat.zero_le _⟩
  calls i call hcall := by cases hcall
  single i j call call' side hi := by cases hi

theorem guard_step (s : Pair μ) (op : Op) (side : Side) :
    ((s.step op).node side).guard = (s.node side).guard := by
  cases op with
  | sync caller => rfl
  | reply i =>
      rcases s.reply_cases i with he | ⟨caller, since, -, he⟩
      · rw [he]
      · rw [he]
  | merge i now mono =>
      rcases s.merge_cases i now mono with ⟨he, -⟩ | ⟨caller, facts, -, he⟩
      · rw [he]
      · rw [he]
        by_cases hside : side = caller
        · subst hside
          simp only [Function.update_self, SyncPeer.merge, SyncPeer.noteConflicts]
          split <;> rfl
        · simp only [Function.update_of_ne hside]

/-- Runtimes that start with fewer facts than their thresholds report no storm, in every run
in which neither has two calls open. -/
theorem storm_free_of_small (name : Side → Str) (guard : Side → ConflictGuard)
    {store : Side → SemanticMemory μ} (hnodup : ∀ side, (store side).contents.Nodup)
    (hsettled : ∀ side, ∀ c ∈ (store side).contents, sanitizeText c 2000 = c)
    (hsmall : ∀ side, (guard side).controller = true →
      (store side).contents.length < (guard side).threshold)
    {ops : List Op} (halone : Meets step Alone (start name guard store) ops) :
    Always step NoStorm (start name guard store) ops := by
  let I : Pair μ → Prop := fun s =>
    Honest (fun side => (store side).contents) s ∧ (∀ side, (s.node side).guard = guard side) ∧
      s.NoStorm
  have hinv : ∀ s op, I s → s.Alone op → I (s.step op) := by
    rintro s op ⟨hhonest, hguard, hno⟩ hop
    have hcalm : s.Calm op := by
      refine hhonest.calm (fun side hcontroller => ?_) op
      rw [hguard] at hcontroller ⊢
      exact hsmall side hcontroller
    exact ⟨hhonest.step hop, fun side => (guard_step s op side).trans (hguard side),
      (noStorm_step hno op).2 hcalm⟩
  have hstart : I (start name guard store) :=
    ⟨honest_start name guard hnodup hsettled, fun _ => rfl, fun _ => rfl⟩
  exact (Always.of_inv hinv hstart halone).mono fun _ hs => hs.2.2

/-- An empty runtime and one with two facts, and one sync of each with the other. -/
theorem echo_of_two_is_calm :
    let store : Side → SemanticMemory Unit := fun
      | .a => .empty
      | .b => letters 2
    Always step NoStorm (start (fun _ => lit "peer") (fun _ => defaultGuard) store)
      [.sync .a, .reply 0, .merge 0 100 0, .sync .b, .reply 1, .merge 1 101 1] := by
  intro store
  refine storm_free_of_small _ _ ?_ ?_ ?_ ?_
  · intro side
    cases side <;> decide +kernel
  · intro side
    cases side <;> decide +kernel
  · intro side _
    cases side <;> decide +kernel
  · refine ⟨?_, trivial, trivial, ?_, trivial, trivial, trivial⟩
    · intro call hcall
      cases hcall
    · intro call hcall
      have hreturned : call = .returned .a := by
        simpa [step, start] using hcall
      rw [hreturned]
      exact id

end Pair

end ShugoCore
