import ShugoCore.KvMesh.Allocator
import ShugoCore.Lib.EvenSplit
import ShugoCore.Lib.PyBuiltins
import ShugoCore.Security

/-!
# Shards of a KV cache

`make_kv_shards` of `kv_mesh/shard.py` splits the positions or the layers of a cache evenly, and the
last shard takes what is left over.  The id of a shard is the text of its ranges.

The ranges are a partition and the sizes add up, however the division comes out.  But with more
shards than positions all shards but the last have the same empty range, so they have one id, and the
allocator keeps one of them.  The three laws hold together if and only if the parts are distinct
ranges (`shards_partition_iff`).
-/

namespace ShugoCore

open Py EvenSplit

/-- `ShardSpec`. -/
structure ShardSpec where
  modelId : Str
  numLayers : Int
  numHeads : Int
  headDim : Int
  maxSeqLen : Int
  dtypeBytes : Int
deriving DecidableEq

namespace ShardSpec

/-- `kv_bytes_per_token_per_layer`. -/
def kvBytesPerTokenPerLayer (spec : ShardSpec) : Int :=
  2 * spec.numHeads * spec.headDim * spec.dtypeBytes

/-- `kv_total_bytes`. -/
def kvTotalBytes (spec : ShardSpec) : Int :=
  spec.numLayers * spec.maxSeqLen * spec.kvBytesPerTokenPerLayer

/-- `bytes_for_layers`. -/
def bytesForLayers (spec : ShardSpec) (lStart lEnd : Int) (seqLen : Option Int) : Int :=
  (lEnd - lStart) * seqLen.getD spec.maxSeqLen * spec.kvBytesPerTokenPerLayer

end ShardSpec

/-- A `KVShard` with the part of the cache that it is.  Ranges go from where to before where. -/
structure KVSlice extends KVShard where
  modelId : Str
  layers : Int × Int
  heads : Int × Int
  seq : Int × Int
  checksum : Str
deriving DecidableEq

/-- `str(i)`. -/
def intText (i : Int) : Str := (Literal.ofInt i).text

/-- `f"{start}-{end}"`. -/
def rangeText (r : Int × Int) : Str := intText r.1 ++ 45 :: intText r.2

/-- `canonical_id`. -/
def canonicalId (modelId : Str) (layers heads seq : Int × Int) : Str :=
  modelId ++ lit ":L" ++ rangeText layers ++ lit ":H" ++ rangeText heads ++ lit ":S" ++ rangeText seq

/-- `_digest`.  It is `canonical_hash`. -/
def shardDigest {φ : Type} [FloatFormat φ] (hashes : Hashlib) (d : Obj φ) : Except Exn Str :=
  match canonicalHash hashes (.dict d) with
  | some digest => .ok digest
  | none => .error .typeError

/-- `bspec`. -/
def boundsDict (φ : Type) (modelId : Str) (layers heads seq : Int × Int) : Obj φ :=
  obj [("model_id", .str modelId), ("layer_start", .int layers.1), ("layer_end", .int layers.2),
    ("head_start", .int heads.1), ("head_end", .int heads.2), ("seq_start", .int seq.1),
    ("seq_end", .int seq.2)]

section

variable (φ : Type) [FloatFormat φ] (hashes : Hashlib) (spec : ShardSpec)

/-- The body of both loops of `make_kv_shards`: all heads of some layers and some positions. -/
def makeSlice (layers seq : Int × Int) (bytesSize : Int) : Except Exn KVSlice := do
  let heads := (0, spec.numHeads)
  let checksum ← shardDigest hashes (boundsDict φ spec.modelId layers heads seq)
  return {
    shardId := canonicalId spec.modelId layers heads seq
    bytesSize := bytesSize
    deviceId := none
    modelId := spec.modelId
    layers := layers
    heads := heads
    seq := seq
    checksum := checksum }

/-- A shard of `split="sequence"`. -/
def sequenceShard (seq : Int × Int) : Except Exn KVSlice :=
  makeSlice φ hashes spec (0, spec.numLayers) seq
    (spec.numLayers * (seq.2 - seq.1) * spec.kvBytesPerTokenPerLayer)

/-- A shard of `split="layers"`. -/
def layerShard (layers : Int × Int) : Except Exn KVSlice :=
  makeSlice φ hashes spec layers (0, spec.maxSeqLen) (spec.bytesForLayers layers.1 layers.2 none)

/-- `make_kv_shards`. -/
def makeKvShards (numShards : Int) (split : Str) : Except Exn (List KVSlice) :=
  if numShards < 1 then .error .valueError
  else if split = lit "sequence" then
    (parts spec.maxSeqLen numShards.toNat).mapM (sequenceShard φ hashes spec)
  else if split = lit "layers" then
    (parts spec.numLayers numShards.toNat).mapM (layerShard φ hashes spec)
  else .error .valueError

end

/-! ## Both ways to split -/

/-- What is split. -/
inductive SplitMode where
  | sequence
  | layers
deriving DecidableEq

namespace SplitMode

/-- The name of a mode. -/
def text : SplitMode → Str
  | .sequence => lit "sequence"
  | .layers => lit "layers"

/-- How much there is to be split. -/
def extent (spec : ShardSpec) : SplitMode → Int
  | .sequence => spec.maxSeqLen
  | .layers => spec.numLayers

/-- The range of a shard. -/
def range (shard : KVSlice) : SplitMode → Int × Int
  | .sequence => shard.seq
  | .layers => shard.layers

/-- The id of the shard with a range. -/
def idOf (spec : ShardSpec) (r : Int × Int) : SplitMode → Str
  | .sequence => canonicalId spec.modelId (0, spec.numLayers) (0, spec.numHeads) r
  | .layers => canonicalId spec.modelId r (0, spec.numHeads) (0, spec.maxSeqLen)

/-- The bytes of one position or one layer. -/
def bytesPerUnit (spec : ShardSpec) : SplitMode → Int
  | .sequence => spec.numLayers * spec.kvBytesPerTokenPerLayer
  | .layers => spec.maxSeqLen * spec.kvBytesPerTokenPerLayer

theorem extent_mul_bytesPerUnit (spec : ShardSpec) (mode : SplitMode) :
    mode.extent spec * mode.bytesPerUnit spec = spec.kvTotalBytes := by
  cases mode with
  | sequence =>
      simp only [extent, bytesPerUnit, ShardSpec.kvTotalBytes]
      ring
  | layers =>
      simp only [extent, bytesPerUnit, ShardSpec.kvTotalBytes]
      ring

end SplitMode

/-- What is wanted of the shards of a cache. -/
structure Partitioned (mode : SplitMode) (spec : ShardSpec) (numShards : Int)
    (shards : List KVSlice) : Prop where
  count : (shards.length : Int) = numShards
  apart : Apart (shards.map mode.range)
  covers : Covers (mode.extent spec) (shards.map mode.range)
  bytes : (shards.map fun shard => shard.bytesSize).sum = spec.kvTotalBytes
  ids : (shards.map fun shard => shard.shardId).Nodup

/-! ## Ids -/

theorem stops_dash (s : Str) : Stops (45 :: s) := by
  intro c hc
  cases hc
  decide

theorem stops_nil : Stops [] := fun _ hc => nomatch hc

/-- A number is known by its text, and where it ends. -/
theorem intText_append_inj {i j : Int} {s t : Str} (hs : Stops s) (ht : Stops t)
    (h : intText i ++ s = intText j ++ t) : i = j ∧ s = t := by
  have hi := Literal.scanNumber_text (Literal.wf_ofInt i) hs
  have hj := Literal.scanNumber_text (Literal.wf_ofInt j) ht
  rw [intText, intText] at h
  rw [h, hj] at hi
  obtain ⟨hliteral, hrest⟩ := Prod.mk.inj (Option.some.inj hi)
  have hnumber := congrArg Literal.toInt hliteral
  rw [Literal.toInt_ofInt, Literal.toInt_ofInt] at hnumber
  exact ⟨hnumber.symm, hrest.symm⟩

theorem rangeText_inj {r r' : Int × Int} : rangeText r = rangeText r' ↔ r = r' := by
  constructor
  · intro h
    obtain ⟨hstart, hrest⟩ := intText_append_inj (stops_dash _) (stops_dash _) h
    have hend := List.cons.inj hrest
    rw [← List.append_nil (intText r.2), ← List.append_nil (intText r'.2)] at hend
    exact Prod.ext hstart (intText_append_inj stops_nil stops_nil hend.2).1
  · rintro rfl
    rfl

/-- Shards that are split the same way have the same id only with the same range. -/
theorem idOf_inj {mode : SplitMode} {spec : ShardSpec} {r r' : Int × Int} :
    mode.idOf spec r = mode.idOf spec r' ↔ r = r' := by
  cases mode with
  | sequence =>
      simp only [SplitMode.idOf, canonicalId, List.append_cancel_left_eq]
      exact rangeText_inj
  | layers =>
      simp only [SplitMode.idOf, canonicalId, List.append_cancel_right_eq,
        List.append_cancel_left_eq]
      exact rangeText_inj

/-! ## Shards -/

section

variable {φ : Type} [FloatFormat φ] {hashes : Hashlib} {spec : ShardSpec}

theorem shardDigest_ok (hashes : Hashlib) (modelId : Str) (layers heads seq : Int × Int) :
    ∃ digest, shardDigest hashes (boundsDict φ modelId layers heads seq) = .ok digest := by
  have hwritable : Writable (.dict (boundsDict φ modelId layers heads seq)) := by
    refine writable_obj fun i hi => ?_
    simp only [List.mem_cons, List.not_mem_nil, or_false] at hi
    rcases hi with rfl | rfl | rfl | rfl | rfl | rfl | rfl <;> exact ⟨_, rfl⟩
  obtain ⟨j, hj⟩ := hwritable
  refine ⟨hashes.sha256 (render compact j), ?_⟩
  simp only [shardDigest, canonicalHash, canonicalJson, dumps]
  rw [hj]
  rfl

/-- The shard of a part. -/
structure IsShard (mode : SplitMode) (spec : ShardSpec) (r : Int × Int) (shard : KVSlice) : Prop where
  range : mode.range shard = r
  id : shard.shardId = mode.idOf spec r
  bytes : shard.bytesSize = (r.2 - r.1) * mode.bytesPerUnit spec

theorem sequenceShard_ok (hashes : Hashlib) (spec : ShardSpec) (r : Int × Int) :
    ∃ shard, sequenceShard φ hashes spec r = .ok shard ∧ IsShard .sequence spec r shard := by
  obtain ⟨digest, hdigest⟩ := shardDigest_ok (φ := φ) hashes spec.modelId
    (0, spec.numLayers) (0, spec.numHeads) r
  refine ⟨_, by rw [sequenceShard, makeSlice, hdigest]; rfl, rfl, rfl, ?_⟩
  simp only [SplitMode.bytesPerUnit]
  ring

theorem layerShard_ok (hashes : Hashlib) (spec : ShardSpec) (r : Int × Int) :
    ∃ shard, layerShard φ hashes spec r = .ok shard ∧ IsShard .layers spec r shard := by
  obtain ⟨digest, hdigest⟩ := shardDigest_ok (φ := φ) hashes spec.modelId r
    (0, spec.numHeads) (0, spec.maxSeqLen)
  refine ⟨_, by rw [layerShard, makeSlice, hdigest]; rfl, rfl, rfl, ?_⟩
  simp only [SplitMode.bytesPerUnit, ShardSpec.bytesForLayers, Option.getD_none]
  ring

theorem mapM_ok {α β ε : Type} {f : α → Except ε β} {R : α → β → Prop}
    (h : ∀ a, ∃ b, f a = .ok b ∧ R a b) (as : List α) :
    ∃ bs, as.mapM f = .ok bs ∧ List.Forall₂ R as bs := by
  induction as with
  | nil => exact ⟨[], rfl, .nil⟩
  | cons a as ih =>
      obtain ⟨b, hb, hrel⟩ := h a
      obtain ⟨bs, hbs, hrels⟩ := ih
      refine ⟨b :: bs, ?_, .cons hrel hrels⟩
      rw [List.mapM_cons, hb, hbs]
      rfl

/-- There is a shard for each part. -/
theorem makeKvShards_ok (hashes : Hashlib) (spec : ShardSpec) (mode : SplitMode) {numShards : Int}
    (h : 1 ≤ numShards) :
    ∃ shards, makeKvShards φ hashes spec numShards mode.text = .ok shards ∧
      List.Forall₂ (IsShard mode spec) (parts (mode.extent spec) numShards.toNat) shards := by
  cases mode with
  | sequence =>
      obtain ⟨shards, hshards, hall⟩ := mapM_ok (sequenceShard_ok (φ := φ) hashes spec)
        (parts spec.maxSeqLen numShards.toNat)
      refine ⟨shards, ?_, hall⟩
      rw [makeKvShards, if_neg (by omega), SplitMode.text, if_pos rfl, hshards]
  | layers =>
      obtain ⟨shards, hshards, hall⟩ := mapM_ok (layerShard_ok (φ := φ) hashes spec)
        (parts spec.numLayers numShards.toNat)
      refine ⟨shards, ?_, hall⟩
      have hmode : ¬ SplitMode.layers.text = lit "sequence" := by decide
      rw [makeKvShards, if_neg (by omega), if_neg hmode, SplitMode.text, if_pos rfl, hshards]

end

/-- What the shards of some parts come to. -/
theorem shards_of_parts {mode : SplitMode} {spec : ShardSpec} {rs : List (Int × Int)}
    {shards : List KVSlice} (h : List.Forall₂ (IsShard mode spec) rs shards) :
    shards.map mode.range = rs ∧
      (shards.map fun shard => shard.shardId) = rs.map (mode.idOf spec ·) ∧
      (shards.map fun shard => shard.bytesSize).sum =
        (rs.map fun r => r.2 - r.1).sum * mode.bytesPerUnit spec := by
  induction h with
  | nil => simp
  | cons hshard _ ih =>
      obtain ⟨hranges, hids, hsum⟩ := ih
      refine ⟨?_, ?_, ?_⟩
      · rw [List.map_cons, hshard.range, hranges]
      · rw [List.map_cons, List.map_cons, hshard.id, hids]
      · rw [List.map_cons, List.map_cons, List.sum_cons, List.sum_cons, hshard.bytes, hsum]
        ring

/-- The parts are distinct ranges that have no number beyond the extent. -/
def SplitsEvenly (extent numShards : Int) : Prop :=
  if 0 ≤ extent then numShards ≤ max 1 extent ∨ numShards = 2 ∧ extent = 1
  else extent % numShards + extent / numShards ≤ 0

/-- For every cache, both ways to split it and every number of shards: there are as many shards,
whose ranges are disjoint and cover the range that is split, whose sizes add up to the whole
cache and whose ids are distinct, if and only if there are no more shards than positions or
layers, or one, or two for one. -/
theorem shards_partition_iff {φ : Type} [FloatFormat φ] (hashes : Hashlib) (spec : ShardSpec)
    (mode : SplitMode) (numShards : Int) (h : 1 ≤ numShards) :
    (∃ shards, makeKvShards φ hashes spec numShards mode.text = .ok shards ∧
      Partitioned mode spec numShards shards) ↔
      SplitsEvenly (mode.extent spec) numShards := by
  lift numShards to Nat using by omega
  obtain ⟨shards, hshards, hall⟩ := makeKvShards_ok (φ := φ) hashes spec mode h
  obtain ⟨hranges, hids, hsum⟩ := shards_of_parts hall
  have hpos : 0 < numShards := by omega
  rw [Int.toNat_natCast] at hranges hids hsum hall
  have hlength : shards.length = numShards := by
    rw [← hall.length_eq, parts, List.length_map, List.length_range]
  have hnodup : (shards.map fun shard => shard.shardId).Nodup ↔
      (parts (mode.extent spec) numShards).Nodup := by
    rw [hids]
    exact List.nodup_map_iff fun r r' => idOf_inj.1
  have hlaws : Partitioned mode spec numShards shards ↔
      Covers (mode.extent spec) (parts (mode.extent spec) numShards) ∧
        (parts (mode.extent spec) numShards).Nodup := by
    constructor
    · intro hp
      exact ⟨hranges ▸ hp.covers, hnodup.1 hp.ids⟩
    · rintro ⟨hcovers, hdistinct⟩
      refine ⟨by rw [hlength], ?_, ?_, ?_, hnodup.2 hdistinct⟩
      · rw [hranges]
        exact apart_parts _ _
      · rw [hranges]
        exact hcovers
      · rw [hsum, sum_parts _ hpos, mode.extent_mul_bytesPerUnit]
  have heven : SplitsEvenly (mode.extent spec) numShards ↔
      Covers (mode.extent spec) (parts (mode.extent spec) numShards) ∧
        (parts (mode.extent spec) numShards).Nodup := by
    rw [covers_iff _ hpos, nodup_iff _ hpos, SplitsEvenly]
    split
    · rename_i hextent
      have hnot : ¬ mode.extent spec < 0 := not_lt.2 hextent
      simp only [hextent, hnot, true_or, true_and, false_or]
      norm_cast
    · rename_i hextent
      have hneg : mode.extent spec < 0 := not_le.1 hextent
      simp only [hextent, hneg, false_or, true_or, and_true]
  rw [heven, ← hlaws]
  constructor
  · rintro ⟨shards', hshards', hp⟩
    cases hshards.symm.trans hshards'
    exact hp
  · intro hp
    exact ⟨shards, hshards, hp⟩

/-- A small model. -/
def smallModel (maxSeqLen : Int) : ShardSpec where
  modelId := lit "m"
  numLayers := 2
  numHeads := 1
  headDim := 4
  maxSeqLen := maxSeqLen
  dtypeBytes := 2

/-- Ten positions in four shards: the last one has four of them. -/
theorem ten_in_four : 1 ≤ (4 : Int) ∧
    ∃ shards, makeKvShards WholeFloat hashlib (smallModel 10) 4 (lit "sequence") = .ok shards ∧
      Partitioned .sequence (smallModel 10) 4 shards :=
  ⟨by decide, (shards_partition_iff (φ := WholeFloat) hashlib (smallModel 10) .sequence 4
    (by decide)).2 (by simp [SplitsEvenly, SplitMode.extent, smallModel])⟩

/-- Two positions in four shards: three of them are `m:L0-2:H0-1:S0-0`. -/
theorem two_in_four : 1 ≤ (4 : Int) ∧
    ¬ ∃ shards, makeKvShards WholeFloat hashlib (smallModel 2) 4 (lit "sequence") = .ok shards ∧
      Partitioned .sequence (smallModel 2) 4 shards := by
  refine ⟨by decide, ?_⟩
  rintro ⟨shards, hshards, hp⟩
  obtain ⟨shards', hshards', hall⟩ := makeKvShards_ok (φ := WholeFloat) hashlib (smallModel 2)
    .sequence (show (1 : Int) ≤ 4 by decide)
  cases hshards.symm.trans hshards'
  have hids := hp.ids
  rw [(shards_of_parts hall).2.1] at hids
  revert hids
  decide

end ShugoCore
